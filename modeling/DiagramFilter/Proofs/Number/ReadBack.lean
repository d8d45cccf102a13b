import DiagramFilter.Proofs.Number.Bits
import DiagramFilter.Proofs.Number.Numeral
import DiagramFilter.Proofs.Number.Rounding

/-!
# Printed doubles are read back

A double that is printed with its shortest decimal, and a whole double that is printed with its
digits, is a numeral that is read as the same double.  Nothing is assumed of the search for the
shortest decimal: where it ends without a result, the exact value is printed.
-/

namespace DiagramFilter

open Decimal

/-- A numeral that is read as the double with the given bits. -/
def SpellsBits (cs : List Char) (bits : Nat) : Prop :=
  ∃ d width, Numeral cs d width ∧ d.nearest = bits

variable {cs : List Char} {bits : Nat} {x : Float}

/-- What is read of such a numeral. -/
theorem SpellsBits.readDouble? (h : SpellsBits cs bits) :
    Decimal.readDouble? cs = some (Double.ofMagnitude false bits) := by
  obtain ⟨d, width, hnumeral, rfl⟩ := h
  simp only [Decimal.readDouble?, hnumeral.read?, Option.map_some, toBits_eq hnumeral.digits_lt]

/-- A text of a number: a numeral that is read as its magnitude, with a sign and parentheses around
it if the number is below zero. -/
def SpellsNumber (text : String) (x : Float) : Prop :=
  ∃ cs, SpellsBits cs (Double.magnitude x) ∧
    text.toList = if x < 0 then '(' :: '-' :: cs ++ [')'] else cs

namespace Decimal

variable {ds : List Char} {n : Nat} {e : Int}

/-- A zero is a digit. -/
theorem isDigits_zero : IsDigits ['0'] := by
  simp [IsDigits]

/-- The exponent is read as itself. -/
theorem exponent_exponentText (e : Int) : Exponent ('e' :: exponentText e) e := by
  obtain ⟨ds, htext, hne, hds, hvalue⟩ : ∃ ds, exponentText e = (if e < 0 then '-' else '+') :: ds ∧
      ds ≠ [] ∧ IsDigits ds ∧ ofDigits ds = e.natAbs := by
    have hdigits := isDigits_toDigits e.natAbs
    have hvalue := ofDigits_toDigits e.natAbs
    refine ⟨_, rfl, ?_⟩
    split
    · exact ⟨by simp, isDigits_zero.append hdigits,
        (ofDigits_zeros_append 1 _).trans hvalue⟩
    · exact ⟨Nat.toDigits_ne_nil, hdigits, hvalue⟩
  rw [htext]
  split
  · have hexponent := Exponent.minus hne hds
    rwa [hvalue, show -(e.natAbs : Int) = e by omega] at hexponent
  · have hexponent := Exponent.plus hne hds
    rwa [hvalue, show (e.natAbs : Int) = e by omega] at hexponent

/-- Digits behind a point and zeros. -/
theorem spellsBits_fraction (hds : IsDigits ds) (k : Nat) :
    SpellsBits ('0' :: '.' :: (List.replicate k '0' ++ ds))
      (nearest ⟨ofDigits ds, -((k + ds.length : Nat) : Int)⟩) := by
  have hzeros : IsDigits (List.replicate k '0') := by simp [IsDigits]
  have hnumeral := Numeral.pointed (List.cons_ne_nil _ _) isDigits_zero (hzeros.append hds) .none
  rw [List.append_nil] at hnumeral
  refine ⟨_, _, hnumeral, ?_⟩
  have hvalue : ofDigits ('0' :: (List.replicate k '0' ++ ds)) = ofDigits ds := by
    rw [← List.cons_append, ← List.replicate_succ, ofDigits_zeros_append]
  simp [hvalue]

/-- Digits with zeros behind them, as a whole number that keeps a zero after its point. -/
theorem spellsBits_whole (hds : IsDigits ds) (hne : ds ≠ []) (k : Nat) :
    SpellsBits (ds ++ List.replicate k '0' ++ ['.', '0']) (nearest ⟨ofDigits ds, k⟩) := by
  have hzeros : IsDigits (List.replicate k '0') := by simp [IsDigits]
  have hnumeral := Numeral.pointed (by simp [hne]) (hds.append hzeros) isDigits_zero .none
  refine ⟨_, _, hnumeral, ?_⟩
  have hvalue : ofDigits (ds ++ List.replicate k '0' ++ ['0']) = ofDigits ds * 10 ^ (k + 1) := by
    rw [List.append_assoc, ← List.replicate_succ', ofDigits_append_zeros]
  rw [hvalue, nearest_mul_pow]
  congr 2
  simp only [List.length_singleton]
  omega

/-- Digits with a point among them. -/
theorem spellsBits_pointed (hds : IsDigits ds) {k : Nat} (hk : 0 < k) (hlt : k < ds.length) :
    SpellsBits (ds.take k ++ '.' :: ds.drop k)
      (nearest ⟨ofDigits ds, -((ds.length - k : Nat) : Int)⟩) := by
  have hfront : IsDigits (ds.take k) := fun c hc => hds c (List.mem_of_mem_take hc)
  have hback : IsDigits (ds.drop k) := fun c hc => hds c (List.mem_of_mem_drop hc)
  have hne : ds.take k ≠ [] := by
    have := List.length_take_of_le (Nat.le_of_lt hlt)
    intro h
    rw [h] at this
    simp at this
    omega
  have hnumeral := Numeral.pointed hne hfront hback .none
  rw [List.append_nil, List.take_append_drop, List.length_drop] at hnumeral
  refine ⟨_, _, hnumeral, ?_⟩
  simp

/-- Digits with a point behind the first one, if there are more, and an exponent. -/
theorem spellsBits_scientific (ds : List Char) (e : Int) : IsDigits ds → ds ≠ [] →
    SpellsBits ((match ds with
      | first :: more@(_ :: _) => first :: '.' :: more
      | single => single) ++ 'e' :: exponentText e)
      (nearest ⟨ofDigits ds, e - ((ds.length - 1 : Nat) : Int)⟩) := by
  intro hds hne
  have hexponent := exponent_exponentText e
  match ds with
  | [] => exact absurd rfl hne
  | [c] =>
      refine ⟨_, _, .whole hne hds hexponent, ?_⟩
      simp
  | c :: c' :: cs =>
      have hfirst : IsDigits [c] := by simpa [IsDigits] using hds c List.mem_cons_self
      have hmore : IsDigits (c' :: cs) := fun d hd => hds d (List.mem_cons_of_mem _ hd)
      exact ⟨_, _, .pointed (List.cons_ne_nil c []) hfirst hmore hexponent, rfl⟩

/-- **The text of a decimal number.**  It is a numeral of the same value. -/
theorem spellsBits_text (d : Decimal) : SpellsBits d.text d.nearest := by
  have hdigits := isDigits_toDigits d.digits
  have hvalue := ofDigits_toDigits d.digits
  have hpos := Nat.length_toDigits_pos (b := 10) (n := d.digits)
  have hne := Nat.toDigits_ne_nil (n := d.digits) (b := 10)
  unfold text
  generalize Nat.toDigits 10 d.digits = ds at hdigits hvalue hpos hne
  have hd : ∀ e : Int, e = d.exponent → nearest ⟨ofDigits ds, e⟩ = d.nearest := by
    rintro e rfl
    rw [hvalue]
  dsimp only
  split
  · split
    · rename_i hleading
      have h := spellsBits_fraction hdigits (-(d.exponent + ds.length - 1) - 1).toNat
      rwa [hd _ (by omega)] at h
    · rename_i hleading
      generalize hwhole : (d.exponent + ds.length - 1 + 1).toNat = whole
      have hwholePos : 0 < whole := by omega
      rcases Nat.lt_or_ge whole ds.length with hlt | hle
      · rw [Nat.sub_eq_zero_of_le (Nat.le_of_lt hlt), List.replicate_zero, List.append_nil]
        have hfraction : (ds.drop whole).isEmpty = false := by simpa using hlt
        have h := spellsBits_pointed hdigits hwholePos hlt
        rw [hd _ (by omega)] at h
        simpa [hfraction] using h
      · have hlen : (ds ++ List.replicate (whole - ds.length) '0').length = whole := by
          simp only [List.length_append, List.length_replicate]
          omega
        rw [List.drop_eq_nil_of_le (Nat.le_of_eq hlen), List.take_of_length_le (Nat.le_of_eq hlen)]
        have h := spellsBits_whole hdigits hne (whole - ds.length)
        rw [hd _ (by omega)] at h
        exact h
  · have h := spellsBits_scientific ds (d.exponent + ds.length - 1) hdigits hne
    rwa [hd _ (by omega)] at h

/-- A decimal that is found near a double is read as the double. -/
theorem nearest_of_nearestAt? (hbits : bits ≠ 0) {place : Int} {d : Decimal}
    (h : nearestAt? bits place = some d) : d.nearest = bits := by
  have hread : d.toBits 20 = bits := by
    unfold nearestAt? at h
    dsimp only at h
    split at h
    · rename_i hkeep
      cases h
      simp only [Bool.and_eq_true, decide_eq_true_eq] at hkeep
      exact hkeep.1
    · split at h
      · rename_i hkeep
        cases h
        simpa using hkeep
      · cases h
  rw [← hread] at hbits ⊢
  exact nearest_of_toBits hbits

/-- The exact value of a double is read as the double. -/
theorem nearest_exact (h : bits < Double.infinityBits) :
    nearest ⟨Double.units bits * 5 ^ 1074, -1074⟩ = bits := by
  have hscale : ∀ k : Nat, Double.units bits * 5 ^ k * 2 ^ k = Double.units bits * 10 ^ k := by
    intro k
    rw [Nat.mul_assoc, ← Nat.mul_pow]
  have hexponent : ¬ 0 ≤ (-1074 : Int) := by decide
  have hunits : Double.units bits * 5 ^ 1074 * Double.unitsPerOne =
      Double.units bits * 10 ^ 1074 := by
    unfold Double.unitsPerOne
    exact hscale 1074
  have hplace : (-(-1074 : Int)).toNat = 1074 := rfl
  have hpos : ∀ k : Nat, 0 < 10 ^ k := fun _ => Nat.pow_pos (by decide)
  simp only [nearest, hexponent, hplace, if_false]
  exact Double.nearestBits_units (hpos 1074) h hunits

/-- The shortest decimal that is looked for is read back, at whatever place the search begins. -/
theorem nearest_shortestFrom (hbits : bits ≠ 0) (h : bits < Double.infinityBits) (tries : Nat)
    (place : Int) : (shortestFrom bits tries place).nearest = bits := by
  induction tries generalizing place with
  | zero => exact nearest_exact h
  | succ tries ih =>
      rw [shortestFrom]
      split
      · rename_i d hd
        rw [nearest_strip]
        exact nearest_of_nearestAt? hbits hd
      · exact ih _

end Decimal

/-- Infinity is printed as a number that is too large for anything else. -/
theorem spellsBits_infinity : SpellsBits ['1', 'e', '9', '9', '9'] Double.infinityBits := by
  have hone : IsDigits ['1'] := by simp [IsDigits]
  have hnines : IsDigits ['9', '9', '9'] := by simp [IsDigits]
  refine ⟨_, _, .whole (List.cons_ne_nil _ _) hone (.plain (List.cons_ne_nil _ _) hnines), ?_⟩
  exact nearest_of_large (by decide) (by decide)

/-- A whole double is printed with its digits. -/
theorem spellsBits_toDigits {n : Nat} (hbits : bits < Double.infinityBits)
    (h : Double.units bits = n * Double.unitsPerOne) : SpellsBits (Nat.toDigits 10 n) bits := by
  have hnumeral := Numeral.whole Nat.toDigits_ne_nil (isDigits_toDigits n) .none
  rw [List.append_nil, ofDigits_toDigits] at hnumeral
  refine ⟨_, _, hnumeral, ?_⟩
  unfold nearest
  rw [if_pos (Int.le_refl 0), Int.toNat_zero, Nat.pow_zero, Nat.mul_one]
  refine Double.nearestBits_units Nat.one_pos hbits ?_
  rw [h, Nat.mul_one]

/-- The numeral for zero. -/
theorem spellsBits_zero : SpellsBits ['0'] 0 :=
  spellsBits_toDigits (n := 0) (by decide) (Nat.zero_mul _).symm

/-- **Printed doubles.**  The magnitude of a finite double is printed as a numeral that is read as
the double. -/
theorem spellsBits_magnitudeText (h : Double.magnitude x < Double.infinityBits) :
    SpellsBits (Double.magnitudeText x) (Double.magnitude x) := by
  have hnan : x.isNaN = false := by
    rw [Bool.eq_false_iff]
    exact fun hnan => absurd (Double.isNaN_iff.mp hnan) (Nat.not_lt_of_gt h)
  have hinf : x.isInf = false := by
    rw [Bool.eq_false_iff]
    exact fun hinf => absurd (Double.isInf_iff.mp hinf) (Nat.ne_of_lt h)
  unfold Double.magnitudeText
  simp only [hnan, hinf, Bool.false_eq_true, if_false]
  split
  · rename_i hzero
    rw [hzero]
    exact ⟨_, _, .pointed (List.cons_ne_nil _ _) isDigits_zero isDigits_zero .none,
      nearest_of_digits_eq_zero rfl⟩
  · rename_i hzero
    have hspells := spellsBits_text (shortest (Double.magnitude x))
    rwa [shortest, nearest_shortestFrom hzero h] at hspells

/-- Only zero has no units. -/
theorem Double.units_eq_zero_iff : Double.units bits = 0 ↔ bits = 0 := by
  unfold units
  split
  · rfl
  · rename_i hnormal
    have hpos : 0 < (2 ^ 52 + bits % 2 ^ 52) * 2 ^ (bits / 2 ^ 52 - 1) :=
      Nat.mul_pos (by omega) (Nat.two_pow_pos _)
    omega

/-- A finite double is whole, or is not and then is not zero. -/
theorem Double.toInt?_cases (h : magnitude x < infinityBits) :
    (toInt? x = none ∧ magnitude x ≠ 0) ∨ ∃ n, units (magnitude x) = n * unitsPerOne ∧
      toInt? x = some (if isNegative x then -(n : Int) else n) := by
  have hfinite : x.isFinite = true := isFinite_iff.mpr h
  unfold toInt?
  split
  · rename_i hwhole
    simp only [Bool.and_eq_true, decide_eq_true_eq] at hwhole
    exact Or.inr ⟨_, (Nat.div_mul_cancel (Nat.dvd_of_mod_eq_zero hwhole.2)).symm, rfl⟩
  · rename_i hfraction
    refine Or.inl ⟨rfl, fun hzero => hfraction ?_⟩
    simp [hfinite, unitsOf, units_eq_zero_iff.mpr hzero]

end DiagramFilter
