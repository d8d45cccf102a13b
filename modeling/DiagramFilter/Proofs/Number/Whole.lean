import DiagramFilter.Proofs.Number.Operations

/-!
# Whole numbers as doubles

A natural number becomes the double nearest to it.  This never turns the order around
(`Double.ofNat_le`), and up to `2 ^ 53` nothing is rounded at all: different numbers stay different
(`Double.ofNat_beq`), and the sum of two doubles is the double of the sum (`Double.ofNat_add`).
Beyond that bound neighbouring numbers fall together.

The bits of a double are its significand and the number of places by which that is moved up
(`Significand`).  So doubles from zero on are ordered as their bits are (`order_ofMagnitude`).
-/

namespace DiagramFilter.Double

open Float.Model (UnpackedFloat totalExponent Format)
open Float.Model.UnpackedFloat (ExtendedMantissa)

variable {n n' d bits bits' m m' shift shift' : Nat}

/-- Rounding to a whole number is monotone. -/
theorem roundHalfEven_mono (h : n ≤ n') (d : Nat) : roundHalfEven n d ≤ roundHalfEven n' d := by
  have hdiv := Nat.div_add_mod n d
  have hdiv' := Nat.div_add_mod n' d
  have hle : n / d ≤ n' / d := Nat.div_le_div_right h
  unfold roundHalfEven
  rcases Nat.eq_or_lt_of_le hle with heq | hlt
  · have hmod : n % d ≤ n' % d := by
      rw [heq] at hdiv
      omega
    simp only [heq]
    grind
  · grind

/-- What is at most a whole number is rounded to that at most. -/
theorem roundHalfEven_le (hd : 0 < d) {k : Nat} (h : n ≤ k * d) : roundHalfEven n d ≤ k :=
  (roundHalfEven_mono h d).trans_eq (roundHalfEven_mul hd)

/-- What is at least a whole number is rounded to that at least. -/
theorem le_roundHalfEven (hd : 0 < d) {k : Nat} (h : k * d ≤ n) : k ≤ roundHalfEven n d :=
  (roundHalfEven_mul hd).symm.trans_le (roundHalfEven_mono h d)

/-- A larger quotient is not rounded to a smaller double. -/
theorem nearestBits_mono (hd : 0 < d) (h : n ≤ n') : nearestBits n d ≤ nearestBits n' d := by
  have hscaled : n * unitsPerOne ≤ n' * unitsPerOne := Nat.mul_le_mul_right _ h
  unfold nearestBits
  dsimp only
  generalize n * unitsPerOne = a at hscaled ⊢
  generalize n' * unitsPerOne = b at hscaled ⊢
  refine min_le_min_right _ ?_
  have hlog : (a / d).log2 ≤ (b / d).log2 := by
    rw [Nat.log2_eq_log_two, Nat.log2_eq_log_two]
    exact Nat.log_mono_right (Nat.div_le_div_right hscaled)
  rcases Nat.lt_or_ge ((a / d).log2 - 52) ((b / d).log2 - 52) with hlt | hge
  · -- The smaller quotient is rounded to the next power of two at most.
    have hsmall : a / d < 2 ^ (53 + ((a / d).log2 - 52)) := by
      refine Nat.lt_log2_self.trans_le (Nat.pow_le_pow_right (by decide) (by omega))
    have hlarge : 2 ^ (52 + ((b / d).log2 - 52)) ≤ b / d := by
      have hne : b / d ≠ 0 := by
        intro hzero
        rw [hzero, Nat.log2_zero] at hlt
        omega
      have hdigits : 52 + ((b / d).log2 - 52) = (b / d).log2 := by omega
      rw [hdigits]
      exact Nat.log2_self_le hne
    generalize (a / d).log2 - 52 = low at hlt hsmall
    generalize (b / d).log2 - 52 = high at hlt hlarge
    have hlow : roundHalfEven a (d * 2 ^ low) ≤ 2 ^ 53 := by
      refine roundHalfEven_le (Nat.mul_pos hd (Nat.two_pow_pos _)) (Nat.le_of_lt ?_)
      rw [Nat.mul_left_comm, ← Nat.pow_add, Nat.mul_comm]
      exact Nat.lt_mul_of_div_lt hsmall hd
    have hhigh : 2 ^ 52 ≤ roundHalfEven b (d * 2 ^ high) := by
      refine le_roundHalfEven (Nat.mul_pos hd (Nat.two_pow_pos _)) ?_
      rw [Nat.mul_left_comm, ← Nat.pow_add, Nat.mul_comm]
      exact (Nat.le_div_iff_mul_le hd).mp hlarge
    omega
  · have hsame : (a / d).log2 - 52 = (b / d).log2 - 52 := by omega
    rw [hsame]
    exact Nat.add_le_add_left (roundHalfEven_mono hscaled _) _

/-- The bits of a double are a significand below the number of places by which it is moved up.  It
has a leading one, unless it is not moved at all. -/
structure Significand (bits m shift : Nat) : Prop where
  bits_eq : bits = shift * 2 ^ 52 + m
  lt : m < 2 ^ 53
  normal : shift = 0 ∨ 2 ^ 52 ≤ m

/-- All bits have a significand and a shift. -/
theorem exists_significand (bits : Nat) : ∃ m shift, Significand bits m shift := by
  by_cases hsmall : bits < 2 ^ 52
  · exact ⟨bits, 0, by omega, by omega, Or.inl rfl⟩
  · exact ⟨2 ^ 52 + bits % 2 ^ 52, bits / 2 ^ 52 - 1, by omega, by omega, Or.inr (by omega)⟩

namespace Significand

/-- The magnitude of a double in units. -/
theorem units_eq (h : Significand bits m shift) : units bits = m * 2 ^ shift := by
  obtain ⟨rfl, hlt, hnormal⟩ := h
  unfold units
  split
  · obtain rfl : shift = 0 := by omega
    omega
  · have hmod : 2 ^ 52 + (shift * 2 ^ 52 + m) % 2 ^ 52 = m := by omega
    have hdiv : (shift * 2 ^ 52 + m) / 2 ^ 52 - 1 = shift := by omega
    rw [hmod, hdiv]

/-- What finite bits stand for. -/
theorem unpack (h : Significand bits m shift) (hpos : 0 < bits) (hlt : bits < infinityBits)
    (negative : Bool) : ∃ hm, UnpackedFloat.unpack format (word negative bits) =
      .finite (sign negative) m ((shift : Int) - 1074) hm := by
  have hinfinity : infinityBits = 2047 * 2 ^ 52 := rfl
  obtain ⟨hbits, hm, hnormal⟩ := h
  have hfield : bits / 2 ^ 52 < 2047 := by omega
  have htop : (BitVec.ofNat 11 (bits / 2 ^ 52)).toNat = bits / 2 ^ 52 := by
    rw [BitVec.toNat_ofNat, Nat.mod_eq_of_lt (by omega)]
  have hmax : BitVec.ofNat 11 (bits / 2 ^ 52) ≠ -1#11 := by
    rw [Ne, ← BitVec.toNat_inj, htop]
    exact Nat.ne_of_lt hfield
  have hzero : BitVec.ofNat 11 (bits / 2 ^ 52) = 0#11 ↔ bits / 2 ^ 52 = 0 := by
    rw [← BitVec.toNat_inj, htop]
    rfl
  refine ⟨by omega, ?_⟩
  rw [unpack_ofFields, if_neg hmax]
  by_cases hsmall : bits / 2 ^ 52 = 0
  · have hfraction : (BitVec.ofNat 52 bits).toNat = m := by
      rw [BitVec.toNat_ofNat]
      omega
    have hne : BitVec.ofNat 52 bits ≠ 0#52 := by
      rw [Ne, ← BitVec.toNat_inj, hfraction, BitVec.toNat_zero]
      omega
    obtain rfl : shift = 0 := by omega
    rw [if_pos (hzero.mpr hsmall), dif_neg hne]
    simp [hfraction]
  · have hfraction : (1#1 ++ BitVec.ofNat 52 bits).toNat = m := by
      rw [toNat_implicit, BitVec.toNat_ofNat]
      omega
    have hexponent : ((bits / 2 ^ 52 : Nat) : Int) - 1075 = (shift : Int) - 1074 := by omega
    rw [if_neg (mt hzero.mp hsmall)]
    simp only [hfraction, htop, hexponent]

/-- The order of bits is that of the places first, and then that of the significands. -/
theorem compare_eq (h : Significand bits m shift) (h' : Significand bits' m' shift') :
    (compare ((shift : Int) - 1074) ((shift' : Int) - 1074)).then (compare m m') =
      compare bits bits' := by
  obtain ⟨hbits, hlt, hnormal⟩ := h
  obtain ⟨hbits', hlt', hnormal'⟩ := h'
  rcases Nat.lt_trichotomy shift shift' with hshift | rfl | hshift
  · have hbelow : bits < bits' := by omega
    rw [Int.compare_eq_lt.mpr (by omega), Nat.compare_eq_lt.mpr hbelow]
    rfl
  · have hcompare : compare m m' = compare bits bits' := by
      rw [Nat.compare_eq_ite_lt, Nat.compare_eq_ite_lt]
      grind
    rw [Int.compare_eq_eq.mpr rfl, hcompare]
    rfl
  · have habove : bits' < bits := by omega
    rw [Int.compare_eq_gt.mpr (by omega), Nat.compare_eq_gt.mpr habove]
    rfl

end Significand

/-- What the double with the given sign and other bits stands for. -/
theorem unpack_ofMagnitude (h : bits ≤ infinityBits) (negative : Bool) :
    (ofMagnitude negative bits).toModel.unpack =
      UnpackedFloat.unpack format (word negative bits) := by
  rw [← toBitVec_ofMagnitude h]
  rfl

/-- Doubles from zero on are ordered as their bits are. -/
theorem order_ofMagnitude (h : bits ≤ infinityBits) (h' : bits' ≤ infinityBits) :
    order (ofMagnitude false bits) (ofMagnitude false bits') = some (compare bits bits') := by
  have hinfinity : infinityBits = 2047 * 2 ^ 52 := rfl
  have hzero : UnpackedFloat.unpack format (word false 0) = .zero .positive := rfl
  have htop : UnpackedFloat.unpack format (word false infinityBits) = .infinity .positive := rfl
  rw [order, unpack_ofMagnitude h, unpack_ofMagnitude h']
  -- Each of them is zero, infinite, or a significand that is moved up.
  have hcases : ∀ {bits : Nat}, bits ≤ infinityBits → bits = 0 ∨ bits = infinityBits ∨
      0 < bits ∧ bits < infinityBits := by omega
  rcases hcases h with rfl | rfl | ⟨hpos, hlt⟩ <;>
    rcases hcases h' with rfl | rfl | ⟨hpos', hlt'⟩
  · rfl
  · rfl
  · obtain ⟨m', shift', hparts'⟩ := exists_significand bits'
    obtain ⟨hm', hunpack'⟩ := hparts'.unpack hpos' hlt' false
    rw [hzero, hunpack', Nat.compare_eq_lt.mpr hpos']
    rfl
  · rfl
  · rfl
  · obtain ⟨m', shift', hparts'⟩ := exists_significand bits'
    obtain ⟨hm', hunpack'⟩ := hparts'.unpack hpos' hlt' false
    rw [htop, hunpack', Nat.compare_eq_gt.mpr hlt']
    rfl
  · obtain ⟨m, shift, hparts⟩ := exists_significand bits
    obtain ⟨hm, hunpack⟩ := hparts.unpack hpos hlt false
    rw [hzero, hunpack, Nat.compare_eq_gt.mpr hpos]
    rfl
  · obtain ⟨m, shift, hparts⟩ := exists_significand bits
    obtain ⟨hm, hunpack⟩ := hparts.unpack hpos hlt false
    rw [htop, hunpack, Nat.compare_eq_lt.mpr hlt]
    rfl
  · obtain ⟨m, shift, hparts⟩ := exists_significand bits
    obtain ⟨m', shift', hparts'⟩ := exists_significand bits'
    obtain ⟨hm, hunpack⟩ := hparts.unpack hpos hlt false
    obtain ⟨hm', hunpack'⟩ := hparts'.unpack hpos' hlt' false
    rw [hunpack, hunpack', ← hparts.compare_eq hparts']
    rfl

/-- **Order.**  A larger natural number has no smaller double. -/
theorem ofNat_le (h : m ≤ n) : ofNat m ≤ ofNat n := by
  have hmono := nearestBits_mono Nat.one_pos h
  rw [le_iff_order, ofNat, ofNat, nearest, nearest,
    order_ofMagnitude (nearestBits_le m 1) (nearestBits_le n 1)]
  rcases Nat.eq_or_lt_of_le hmono with heq | hlt
  · exact Or.inr (congrArg some (Nat.compare_eq_eq.mpr heq))
  · exact Or.inl (congrArg some (Nat.compare_eq_lt.mpr hlt))

/-- The double of a natural number is equal to itself. -/
theorem ofNat_beq_self (n : Nat) : (ofNat n == ofNat n) = true := by
  have hle := nearestBits_le n 1
  rw [beq_iff_order, ofNat, nearest, order_ofMagnitude hle hle, Nat.compare_eq_eq.mpr rfl]

/-- A small number has the significand that is left when its digits are moved up to the front. -/
theorem exists_digits (hn : 0 < n) (h : n ≤ 2 ^ 53) :
    ∃ m, m * 2 ^ n.log2 = n * 2 ^ 52 ∧ 2 ^ 52 ≤ m ∧ m < 2 ^ 53 := by
  have hne : n ≠ 0 := Nat.ne_of_gt hn
  rcases Nat.eq_or_lt_of_le h with rfl | hlt
  · exact ⟨2 ^ 52, by rw [Nat.log2_two_pow, Nat.mul_comm], le_refl _, by decide⟩
  · have hlog : n.log2 ≤ 52 := Nat.le_of_lt_succ ((Nat.log2_lt hne).mpr hlt)
    have hpow : 2 ^ (52 - n.log2) * 2 ^ n.log2 = 2 ^ 52 := by
      rw [← Nat.pow_add, Nat.sub_add_cancel hlog]
    refine ⟨n * 2 ^ (52 - n.log2), by rw [Nat.mul_assoc, hpow], ?_, ?_⟩
    · rw [← hpow, Nat.mul_comm n]
      exact Nat.mul_le_mul_left _ (Nat.log2_self_le hne)
    · have hpos := Nat.two_pow_pos (52 - n.log2)
      have hlt := Nat.mul_lt_mul_of_pos_right (Nat.lt_log2_self (n := n)) hpos
      rwa [← Nat.pow_add, (by omega : n.log2 + 1 + (52 - n.log2) = 53)] at hlt

/-- One has as many units as the significand and the smallest exponent say. -/
theorem unitsPerOne_eq : unitsPerOne = 2 ^ 52 * 2 ^ 1022 := by
  have hplaces : 1074 = 52 + 1022 := rfl
  rw [unitsPerOne, hplaces, Nat.pow_add 2 52 1022]

/-- The double of a small number other than zero. -/
theorem exists_significand_ofNat (hn : 0 < n) (h : n ≤ 2 ^ 53) :
    ∃ m, m * 2 ^ n.log2 = n * 2 ^ 52 ∧ Significand (nearestBits n 1) m (n.log2 + 1022) ∧
      0 < nearestBits n 1 ∧ nearestBits n 1 < infinityBits := by
  have hinfinity : infinityBits = 2047 * 2 ^ 52 := rfl
  obtain ⟨m, hm, hle, hlt⟩ := exists_digits hn h
  have hlog : n.log2 < 54 := by
    rw [Nat.log2_lt (Nat.ne_of_gt hn)]
    exact h.trans_lt (by decide)
  have hparts : Significand ((n.log2 + 1022) * 2 ^ 52 + m) m (n.log2 + 1022) :=
    ⟨rfl, hlt, Or.inr hle⟩
  have hbits : nearestBits n 1 = (n.log2 + 1022) * 2 ^ 52 + m := by
    refine nearestBits_units Nat.one_pos (by omega) ?_
    calc n * unitsPerOne = n * 2 ^ 52 * 2 ^ 1022 := by rw [unitsPerOne_eq, Nat.mul_assoc]
      _ = m * 2 ^ (n.log2 + 1022) := by
          rw [Nat.pow_add 2 n.log2 1022, ← Nat.mul_assoc, hm]
      _ = units ((n.log2 + 1022) * 2 ^ 52 + m) * 1 := by rw [hparts.units_eq, Nat.mul_one]
  rw [hbits]
  exact ⟨m, hm, hparts, by omega, by omega⟩

/-- A small number is not rounded. -/
theorem units_ofNat (h : n ≤ 2 ^ 53) : units (nearestBits n 1) = n * unitsPerOne := by
  rcases Nat.eq_zero_or_pos n with rfl | hn
  · rw [nearestBits_of_small (by simp), Nat.zero_mul]
    rfl
  · obtain ⟨m, hm, hparts, -, -⟩ := exists_significand_ofNat hn h
    rw [hparts.units_eq, unitsPerOne_eq, Nat.pow_add, ← Nat.mul_assoc, hm, Nat.mul_assoc]

/-- **Equality.**  Different numbers up to `2 ^ 53` have different doubles. -/
theorem ofNat_beq (hm : m ≤ 2 ^ 53) (hn : n ≤ 2 ^ 53) :
    (ofNat m == ofNat n) = decide (m = n) := by
  rw [Bool.eq_iff_iff, beq_iff_order, decide_eq_true_iff, ofNat, ofNat, nearest, nearest,
    order_ofMagnitude (nearestBits_le m 1) (nearestBits_le n 1), Option.some.injEq,
    Nat.compare_eq_eq]
  constructor
  · intro hbits
    have hunits := congrArg units hbits
    rw [units_ofNat hm, units_ofNat hn] at hunits
    exact Nat.eq_of_mul_eq_mul_right unitsPerOne_pos hunits
  · rintro rfl
    rfl

example : nearestBits (2 ^ 53) 1 = nearestBits (2 ^ 53 + 1) 1 := by decide +kernel

/-- Zeros behind a significand are dropped without rounding. -/
theorem shiftRight_exact (m j : Nat) :
    ExtendedMantissa.ofMantissaAndAccuracy (m * 2 ^ j) .exact >>> j =
      .ofMantissaAndAccuracy m .exact := by
  induction j generalizing m with
  | zero =>
      rw [Nat.pow_zero, Nat.mul_one]
      rfl
  | succ j ih =>
      show ExtendedMantissa.shiftRightOne
        (ExtendedMantissa.ofMantissaAndAccuracy (m * 2 ^ (j + 1)) .exact >>> j) = _
      rw [Nat.pow_succ, Nat.mul_comm (2 ^ j), ← Nat.mul_assoc, ih]
      simp [ExtendedMantissa.shiftRightOne, ExtendedMantissa.ofMantissaAndAccuracy]

namespace Significand

/-- A significand with zeros behind it is to be moved back by as many places. -/
theorem targetExponent_eq (h : Significand bits m shift) (hm : 0 < m) (j : Nat) :
    format.targetExponent (totalExponent (m * 2 ^ j) ((shift : Int) - 1074 - j)) =
      (shift : Int) - 1074 := by
  obtain ⟨-, hlt, hnormal⟩ := h
  have hne : m ≠ 0 := Nat.ne_of_gt hm
  have hlog : (m * 2 ^ j).log2 = m.log2 + j := by
    rw [Nat.log2_eq_iff (Nat.ne_of_gt (Nat.mul_pos hm (Nat.two_pow_pos j))), Nat.pow_add,
      Nat.add_right_comm, Nat.pow_add]
    exact ⟨Nat.mul_le_mul_right _ (Nat.log2_self_le hne),
      Nat.mul_lt_mul_of_pos_right Nat.lt_log2_self (Nat.two_pow_pos j)⟩
  have hdigits : m.log2 ≤ 52 := Nat.le_of_lt_succ ((Nat.log2_lt hne).mpr hlt)
  have hleading : 2 ^ 52 ≤ m → 52 ≤ m.log2 := (Nat.le_log2 hne).mpr
  have hbits : format.mantissaBits = 53 := rfl
  have hleast : format.minExponent = -1074 := rfl
  rw [Format.targetExponent, totalExponent, hlog, hbits, hleast]
  omega

/-- Such a significand is not rounded. -/
theorem round_eq (h : Significand bits m shift) (hm : 0 < m) (j : Nat) :
    UnpackedFloat.round format .positive (m * 2 ^ j) ((shift : Int) - 1074 - j) =
      .finite .positive m ((shift : Int) - 1074) hm := by
  have hnone : ((shift : Int) - 1074 - j - ((shift : Int) - 1074)).toNat = 0 := by omega
  have hback : ((shift : Int) - 1074 - ((shift : Int) - 1074 - j)).toNat = j := by omega
  have htarget := h.targetExponent_eq hm 0
  rw [Nat.pow_zero, Nat.mul_one, Int.ofNat_zero, Int.sub_zero] at htarget
  have hne : m ≠ 0 := Nat.ne_of_gt hm
  have hstay : ∀ e : ExtendedMantissa, e >>> (0 : Nat) = e := fun _ => rfl
  simp only [UnpackedFloat.round, UnpackedFloat.decreaseExponent, h.targetExponent_eq hm j, hnone,
    Nat.shiftLeft_zero, Int.ofNat_zero, Int.sub_zero, UnpackedFloat.roundWithAccuracy,
    UnpackedFloat.shiftToTargetExponent, UnpackedFloat.shiftToExponent, hback,
    shiftRight_exact, Int.sub_add_cancel]
  simp [ExtendedMantissa.ofMantissaAndAccuracy, ExtendedMantissa.roundedMantissa,
    ExtendedMantissa.accuracy, UnpackedFloat.Accuracy.roundToNearestEven, htarget, hstay, hne]

end Significand

/-- A double that is a number is packed again as it was unpacked. -/
theorem ofModel_pack_unpack (h : bits ≤ infinityBits) :
    Float.ofModel (.pack (ofMagnitude false bits).toModel.unpack) = ofMagnitude false bits := by
  apply Float.toBits_inj.mp
  apply UInt64.toBitVec_inj.mp
  show UnpackedFloat.pack format (UnpackedFloat.unpack format
    (ofMagnitude false bits).toModel.toBits.toBitVec) =
      (ofMagnitude false bits).toModel.toBits.toBitVec
  rw [toBitVec_ofMagnitude h]
  exact pack_unpack_word h

/-- What the double of a small number other than zero stands for. -/
theorem unpack_ofNat (hn : 0 < n) (h : n ≤ 2 ^ 53) : ∃ m hm, m * 2 ^ n.log2 = n * 2 ^ 52 ∧
    Significand (nearestBits n 1) m (n.log2 + 1022) ∧
    (ofNat n).toModel.unpack = .finite .positive m ((n.log2 : Int) - 52) hm := by
  obtain ⟨m, hm, hparts, hpos, hlt⟩ := exists_significand_ofNat hn h
  obtain ⟨hmpos, hunpack⟩ := hparts.unpack hpos hlt false
  have hplaces : ((n.log2 + 1022 : Nat) : Int) - 1074 = (n.log2 : Int) - 52 := by omega
  refine ⟨m, hmpos, hm, hparts, ?_⟩
  rw [ofNat, nearest, unpack_ofMagnitude (nearestBits_le n 1), hunpack]
  simp only [hplaces]
  rfl

/-- The sum of two significands that are moved to the same places. -/
theorem add_finite {a b : Nat} {ha : 0 < a} {hb : 0 < b} {e k : Nat} :
    UnpackedFloat.add format (.finite .positive a ((e : Int) - 52) ha)
        (.finite .positive b ((k : Int) - 52) hb) =
      UnpackedFloat.round format .positive (a * 2 ^ (e - min e k) + b * 2 ^ (k - min e k))
        ((min e k : Nat) - 52) := by
  have hleast : min ((e : Int) - 52) ((k : Int) - 52) = ((min e k : Nat) : Int) - 52 := by omega
  have hmoved : ∀ x : Nat, ((x : Int) - 52 - (((min e k : Nat) : Int) - 52)).toNat =
      x - min e k := by
    intro x
    omega
  have hpos : 0 < a * 2 ^ (e - min e k) + b * 2 ^ (k - min e k) :=
    Nat.add_pos_left (Nat.mul_pos ha (Nat.two_pow_pos _)) _
  simp only [UnpackedFloat.add, hleast, UnpackedFloat.decreaseExponent, hmoved, Nat.shiftLeft_eq,
    UnpackedFloat.Sign.apply]
  rw [← Int.natCast_add, UnpackedFloat.normalize, Int.compare_eq_gt.mpr (by omega)]
  rfl

/-- Two aligned multiples of powers of two. -/
theorem aligned_sum {a b c e k l : Nat} (ha : a * 2 ^ e = m * 2 ^ 52) (hb : b * 2 ^ k = n * 2 ^ 52)
    (hc : c * 2 ^ l = (m + n) * 2 ^ 52) (hl : min e k ≤ l) :
    a * 2 ^ (e - min e k) + b * 2 ^ (k - min e k) = c * 2 ^ (l - min e k) := by
  have hpow : ∀ x, min e k ≤ x → 2 ^ (x - min e k) * 2 ^ min e k = 2 ^ x := by
    intro x hx
    rw [← Nat.pow_add, Nat.sub_add_cancel hx]
  apply Nat.eq_of_mul_eq_mul_right (Nat.two_pow_pos (min e k))
  rw [Nat.add_mul, Nat.mul_assoc, Nat.mul_assoc, Nat.mul_assoc, hpow e (Nat.min_le_left _ _),
    hpow k (Nat.min_le_right _ _), hpow l hl, ha, hb, hc, Nat.add_mul]

/-- Doubles of numbers are added by their parts. -/
theorem ofNat_add_of_unpack {k : Nat} (h : UnpackedFloat.add format (ofNat m).toModel.unpack
    (ofNat n).toModel.unpack = (ofNat k).toModel.unpack) : ofNat m + ofNat n = ofNat k := by
  have hadd : ofNat m + ofNat n = .ofModel (.pack (UnpackedFloat.add format
      (ofNat m).toModel.unpack (ofNat n).toModel.unpack)) := rfl
  rw [hadd, h]
  exact ofModel_pack_unpack (nearestBits_le k 1)

/-- The double of zero is the positive zero. -/
theorem unpack_ofNat_zero : (ofNat 0).toModel.unpack = .zero .positive := by
  rw [ofNat, nearest, nearestBits_of_small (by simp), unpack_ofMagnitude (Nat.zero_le _)]
  rfl

/-- Positive numbers are added like the whole numbers that they are, as long as the sum is exact. -/
theorem ofNat_add_of_pos (hm : 0 < m) (hn : 0 < n) (h : m + n ≤ 2 ^ 53) :
    ofNat m + ofNat n = ofNat (m + n) := by
  obtain ⟨a, ha, hma, -, hunpack⟩ := unpack_ofNat hm (by omega)
  obtain ⟨b, hb, hnb, -, hunpack'⟩ := unpack_ofNat hn (by omega)
  obtain ⟨c, hc, hsum, hparts, hunpack''⟩ := unpack_ofNat (by omega : 0 < m + n) h
  have hle : min m.log2 n.log2 ≤ (m + n).log2 := by
    refine (Nat.min_le_left _ _).trans ?_
    rw [Nat.log2_eq_log_two, Nat.log2_eq_log_two]
    exact Nat.log_mono_right (Nat.le_add_right m n)
  -- The parts are added at the lower place of the two, and rounding moves the sum up to its own.
  have hround := hparts.round_eq hc ((m + n).log2 - min m.log2 n.log2)
  have hplaces : (((m + n).log2 + 1022 : Nat) : Int) - 1074 = ((m + n).log2 : Int) - 52 := by
    omega
  have hback : ((m + n).log2 : Int) - 52 - ((m + n).log2 - min m.log2 n.log2 : Nat) =
      ((min m.log2 n.log2 : Nat) : Int) - 52 := by omega
  simp only [hplaces, hback] at hround
  apply ofNat_add_of_unpack
  rw [hunpack, hunpack', hunpack'', add_finite, aligned_sum hma hnb hsum hle, hround]

/-- **Sums.**  The doubles of two numbers whose sum is at most `2 ^ 53` are added without
rounding. -/
theorem ofNat_add (h : m + n ≤ 2 ^ 53) : ofNat m + ofNat n = ofNat (m + n) := by
  rcases Nat.eq_zero_or_pos m with rfl | hm
  · rw [Nat.zero_add] at h ⊢
    apply ofNat_add_of_unpack
    rw [unpack_ofNat_zero]
    rcases Nat.eq_zero_or_pos n with rfl | hn
    · rw [unpack_ofNat_zero]
      rfl
    · obtain ⟨b, hb, -, -, hunpack⟩ := unpack_ofNat hn h
      rw [hunpack]
      rfl
  · rcases Nat.eq_zero_or_pos n with rfl | hn
    · obtain ⟨a, ha, -, -, hunpack⟩ := unpack_ofNat hm h
      apply ofNat_add_of_unpack
      rw [Nat.add_zero, unpack_ofNat_zero, hunpack]
      rfl
    · exact ofNat_add_of_pos hm hn h

example : ofNat (2 ^ 53 + 1) + ofNat 1 < ofNat (2 ^ 53 + 2) := by decide +kernel

end DiagramFilter.Double
