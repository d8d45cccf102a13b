import DiagramFilter.Expr.Lexer
import DiagramFilter.Number.Decimal
import Mathlib.Tactic.Common

/-!
# Numerals

A numeral is a row of digits with an optional point, digits behind it, and an optional exponent.
The tokens of rules and the reading of decimal numbers have each their own way through a numeral;
both come to its end (`Numeral.scanNumber`, `Numeral.read?`).
-/

namespace DiagramFilter

variable {α : Type} {p : α → Bool} {front rest : List α}

/-- What a front that passes a test and a rest that does not start with such a one have. -/
theorem takeWhile_append_stop (hfront : ∀ a ∈ front, p a = true)
    (hrest : ∀ a ∈ rest.head?, p a = false) : (front ++ rest).takeWhile p = front := by
  rw [List.takeWhile_append_of_pos hfront]
  cases rest with
  | nil => simp
  | cons a rest => simp [hrest a rfl]

/-- What stops a row is left of it. -/
theorem dropWhile_append_stop (hfront : ∀ a ∈ front, p a = true)
    (hrest : ∀ a ∈ rest.head?, p a = false) : (front ++ rest).dropWhile p = rest := by
  rw [List.dropWhile_append_of_pos hfront]
  cases rest with
  | nil => rfl
  | cons a rest => simp [hrest a rfl]

namespace Decimal

/-- A row of digits. -/
def IsDigits (cs : List Char) : Prop :=
  ∀ c ∈ cs, c.isDigit = true

/-- Digits behind digits are digits. -/
theorem IsDigits.append {cs ds : List Char} (hcs : IsDigits cs) (hds : IsDigits ds) :
    IsDigits (cs ++ ds) := by
  intro c hc
  rcases List.mem_append.mp hc with hc | hc
  · exact hcs c hc
  · exact hds c hc

/-- A natural number is written in digits. -/
theorem isDigits_toDigits (n : Nat) : IsDigits (Nat.toDigits 10 n) :=
  fun _ hc => Nat.isDigit_of_mem_toDigits (by decide) (by decide) hc

/-- Digits are read from the first to the last. -/
theorem ofDigits_eq (cs : List Char) : ofDigits cs = Nat.ofDigitChars 10 cs 0 := rfl

/-- The digits of a natural number are read as the number. -/
theorem ofDigits_toDigits (n : Nat) : ofDigits (Nat.toDigits 10 n) = n :=
  Nat.ofDigitChars_ten_toDigits

/-- The value of two rows of digits, one behind the other. -/
theorem ofDigits_append (cs ds : List Char) :
    ofDigits (cs ++ ds) = ofDigits cs * 10 ^ ds.length + ofDigits ds := by
  rw [ofDigits_eq, Nat.ofDigitChars_append, Nat.ofDigitChars_eq_ofDigitChars_zero, Nat.mul_comm]
  rfl

/-- Zeros behind digits. -/
theorem ofDigits_append_zeros (cs : List Char) (n : Nat) :
    ofDigits (cs ++ List.replicate n '0') = ofDigits cs * 10 ^ n := by
  rw [ofDigits_eq, Nat.ofDigitChars_append, Nat.ofDigitChars_replicate_zero, Nat.mul_comm]
  rfl

/-- Zeros before digits. -/
theorem ofDigits_zeros_append (n : Nat) (cs : List Char) :
    ofDigits (List.replicate n '0' ++ cs) = ofDigits cs := by
  rw [ofDigits_eq, Nat.ofDigitChars_append, Nat.ofDigitChars_replicate_zero, Nat.mul_zero]
  rfl

/-- Digits have a value below the power of ten with as many zeros. -/
theorem ofDigits_lt {cs : List Char} (h : IsDigits cs) : ofDigits cs < 10 ^ cs.length := by
  induction cs with
  | nil => decide
  | cons c cs ih =>
      have hc := h c List.mem_cons_self
      have ih := ih fun d hd => h d (List.mem_cons_of_mem _ hd)
      have hvalue : ofDigits [c] ≤ 9 := by
        have hle := (Char.isDigit_iff_toNat.mp hc).2
        have hzero : '0'.toNat = 48 := rfl
        have hnine : '9'.toNat = 57 := rfl
        show 10 * 0 + (c.toNat - '0'.toNat) ≤ 9
        omega
      have happend := ofDigits_append [c] cs
      rw [List.singleton_append] at happend
      rw [happend, List.length_cons, Nat.pow_succ]
      have := Nat.mul_le_mul_right (10 ^ cs.length) hvalue
      omega

end Decimal

open Decimal

namespace Lexer

variable {u fs cs : List Char}

/-- Digits are among the characters of words. -/
theorem isDigit_of_not_isNameChar {c : Char} (h : isNameChar c = false) : c.isDigit = false := by
  simp only [isNameChar, Char.isAlphanum, Bool.or_eq_false_iff] at h
  exact h.1.2

/-- Digits are a mantissa where neither a digit nor a point comes behind them. -/
theorem scanMantissa_whole (hds : IsDigits u)
    (hrest : ∀ c ∈ cs.head?, c.isDigit = false ∧ c ≠ '.') : scanMantissa (u ++ cs) = u := by
  have htake : (u ++ cs).takeWhile Char.isDigit = u :=
    takeWhile_append_stop hds fun c hc => (hrest c hc).1
  unfold scanMantissa
  simp only [htake, List.drop_left]
  split
  · rename_i rest
    exact absurd rfl (hrest '.' rfl).2
  · rfl

/-- So are digits with a point among them where no digit comes behind them. -/
theorem scanMantissa_pointed (hds : IsDigits u) (hfs : IsDigits fs)
    (hne : ¬ (u = [] ∧ fs = [])) (hrest : ∀ c ∈ cs.head?, c.isDigit = false) :
    scanMantissa (u ++ '.' :: (fs ++ cs)) = u ++ '.' :: fs := by
  have htake : (u ++ '.' :: (fs ++ cs)).takeWhile Char.isDigit = u :=
    takeWhile_append_stop hds (by simp)
  have hfraction : (fs ++ cs).takeWhile Char.isDigit = fs := takeWhile_append_stop hfs hrest
  unfold scanMantissa
  simp only [htake, List.drop_left, hfraction]
  rw [if_neg (by simpa using hne)]

end Lexer

/-- An exponent behind its mark, or nothing, with its value. -/
inductive Exponent : List Char → Int → Prop
  | none : Exponent [] 0
  | plain {ds : List Char} (hne : ds ≠ []) (hds : IsDigits ds) : Exponent ('e' :: ds) (ofDigits ds)
  | plus {ds : List Char} (hne : ds ≠ []) (hds : IsDigits ds) :
      Exponent ('e' :: '+' :: ds) (ofDigits ds)
  | minus {ds : List Char} (hne : ds ≠ []) (hds : IsDigits ds) :
      Exponent ('e' :: '-' :: ds) (-(ofDigits ds : Int))

/-- A numeral with the decimal number that it spells and the number of its digits. -/
inductive Numeral : List Char → Decimal → Nat → Prop
  | whole {ds es : List Char} {e : Int} (hne : ds ≠ []) (hds : IsDigits ds) (hes : Exponent es e) :
      Numeral (ds ++ es) ⟨ofDigits ds, e⟩ ds.length
  | pointed {ds fs es : List Char} {e : Int} (hne : ds ≠ []) (hds : IsDigits ds)
      (hfs : IsDigits fs) (hes : Exponent es e) :
      Numeral (ds ++ '.' :: (fs ++ es)) ⟨ofDigits (ds ++ fs), e - fs.length⟩
        (ds.length + fs.length)

/-- A text that does not go on with a word or a number. -/
def Apart (rest : List Char) : Prop :=
  ∀ c ∈ rest.head?, Lexer.isNameChar c = false ∧ c ≠ '.'

namespace Apart

variable {rest : List Char}

/-- No digit stands in front of what is apart. -/
theorem not_isDigit (h : Apart rest) : ∀ c ∈ rest.head?, c.isDigit = false :=
  fun c hc => Lexer.isDigit_of_not_isNameChar (h c hc).1

end Apart

namespace Exponent

variable {es rest : List Char} {e : Int}

/-- A row of digits passes the check for one. -/
theorem isEmpty_or_not_all {ds : List Char} (hne : ds ≠ []) (hds : IsDigits ds) :
    (ds.isEmpty || !ds.all Char.isDigit) = false := by
  rw [List.all_eq_true.mpr hds]
  simpa using hne

/-- Digits do not start with a sign. -/
theorem head_ne_sign {d : Char} (hd : d.isDigit = true) : d ≠ '+' ∧ d ≠ '-' :=
  ⟨fun h => absurd (h ▸ hd) (by decide), fun h => absurd (h ▸ hd) (by decide)⟩

/-- An exponent is read. -/
theorem readExponent (h : Exponent es e) : Decimal.readExponent es = some e := by
  cases h with
  | none => rfl
  | @plain ds hne hds =>
      cases ds with
      | nil => exact absurd rfl hne
      | cons d ds =>
          obtain ⟨hplus, hminus⟩ := head_ne_sign (hds d List.mem_cons_self)
          simp only [Decimal.readExponent, decide_true, Bool.true_or, if_true]
          split
          · rename_i heq
            exact absurd (List.cons.inj heq).1 hplus
          · rename_i heq
            exact absurd (List.cons.inj heq).1 hminus
          · rw [isEmpty_or_not_all hne hds]
            rfl
  | plus hne hds =>
      simp only [Decimal.readExponent, isEmpty_or_not_all hne hds]
      rfl
  | minus hne hds =>
      simp only [Decimal.readExponent, isEmpty_or_not_all hne hds]
      rfl

/-- An exponent is split off in front of what is apart. -/
theorem scanExponent (h : Exponent es e) (hrest : Apart rest) :
    Lexer.scanExponent (es ++ rest) = es := by
  have htake : ∀ {ds : List Char}, IsDigits ds → (ds ++ rest).takeWhile Char.isDigit = ds :=
    fun hds => takeWhile_append_stop hds hrest.not_isDigit
  cases h with
  | none =>
      cases rest with
      | nil => rfl
      | cons c rest =>
          have hname := (hrest c rfl).1
          have hmark : (c = 'e' || c = 'E') = false := by
            by_contra hmark
            simp only [Bool.not_eq_false, Bool.or_eq_true, decide_eq_true_eq] at hmark
            rcases hmark with rfl | rfl <;> exact absurd hname (by decide)
          simp [Lexer.scanExponent, hmark]
  | @plain ds hne hds =>
      cases ds with
      | nil => exact absurd rfl hne
      | cons d ds =>
          obtain ⟨hplus, hminus⟩ := head_ne_sign (hds d List.mem_cons_self)
          have htake := htake hds
          rw [List.cons_append] at htake
          simp [Lexer.scanExponent, hplus, hminus, htake]
  | plus hne hds => simp [Lexer.scanExponent, htake hds, hne]
  | minus hne hds => simp [Lexer.scanExponent, htake hds, hne]

/-- An exponent starts with its mark, so it is no digit and no point. -/
theorem head_append (h : Exponent es e) (hrest : Apart rest) :
    ∀ c ∈ (es ++ rest).head?, c.isDigit = false ∧ c ≠ '.' := by
  cases h with
  | none => exact fun c hc => ⟨hrest.not_isDigit c hc, (hrest c hc).2⟩
  | _ =>
      intro c hc
      cases hc
      decide

/-- An exponent begins with no digit and no point. -/
theorem head (h : Exponent es e) : ∀ c ∈ es.head?, c.isDigit = false ∧ c ≠ '.' := by
  have hnil : Apart [] := by simp [Apart]
  simpa using h.head_append hnil

end Exponent

namespace Numeral

variable {cs rest : List Char} {d : Decimal} {width : Nat}

/-- The digits of a numeral are as many as its width says. -/
theorem digits_lt (h : Numeral cs d width) : d.digits < 10 ^ width := by
  cases h with
  | whole hne hds hes => exact ofDigits_lt hds
  | pointed hne hds hfs hes =>
      rw [← List.length_append]
      exact ofDigits_lt (hds.append hfs)

/-- A numeral is read as its decimal. -/
theorem read? (h : Numeral cs d width) : Decimal.read? cs = some (d, width) := by
  cases h with
  | @whole ds es e hne hds hes =>
      have hstop := hes.head
      have htake : (ds ++ es).takeWhile Char.isDigit = ds :=
        takeWhile_append_stop hds fun c hc => (hstop c hc).1
      have hdrop : (ds ++ es).dropWhile Char.isDigit = es :=
        dropWhile_append_stop hds fun c hc => (hstop c hc).1
      have hpoint : ∀ rest, es ≠ '.' :: rest := by
        rintro rest rfl
        exact (hstop '.' rfl).2 rfl
      unfold Decimal.read?
      simp only [htake, hdrop]
      simp [hne, hes.readExponent]
  | @pointed ds fs es e hne hds hfs hes =>
      have hstop := hes.head
      have htake : (ds ++ '.' :: (fs ++ es)).takeWhile Char.isDigit = ds :=
        takeWhile_append_stop hds (by simp)
      have hdrop : (ds ++ '.' :: (fs ++ es)).dropWhile Char.isDigit = '.' :: (fs ++ es) :=
        dropWhile_append_stop hds (by simp)
      have htake' : (fs ++ es).takeWhile Char.isDigit = fs :=
        takeWhile_append_stop hfs fun c hc => (hstop c hc).1
      have hdrop' : (fs ++ es).dropWhile Char.isDigit = es :=
        dropWhile_append_stop hfs fun c hc => (hstop c hc).1
      unfold Decimal.read?
      simp [htake, hdrop, htake', hdrop', hne, hes.readExponent]

/-- A numeral is one token, and it ends where nothing goes on with it. -/
theorem scanNumber (h : Numeral cs d width) (hrest : Apart rest) :
    Lexer.scanNumber (cs ++ rest) = cs := by
  cases h with
  | @whole ds es e hne hds hes =>
      have hmantissa : Lexer.scanMantissa (ds ++ (es ++ rest)) = ds :=
        Lexer.scanMantissa_whole hds (hes.head_append hrest)
      rw [List.append_assoc, Lexer.scanNumber]
      simp [hmantissa, hne, hes.scanExponent hrest]
  | @pointed ds fs es e hne hds hfs hes =>
      have hmantissa : Lexer.scanMantissa (ds ++ '.' :: (fs ++ (es ++ rest))) = ds ++ '.' :: fs :=
        Lexer.scanMantissa_pointed hds hfs (fun hnone => hne hnone.1)
          fun c hc => (hes.head_append hrest c hc).1
      have happend : ds ++ '.' :: (fs ++ es) ++ rest = (ds ++ '.' :: fs) ++ (es ++ rest) := by simp
      have hmantissa' : Lexer.scanMantissa ((ds ++ '.' :: fs) ++ (es ++ rest)) =
          ds ++ '.' :: fs := by
        simpa using hmantissa
      rw [happend, Lexer.scanNumber]
      rw [hmantissa', List.drop_left, hes.scanExponent hrest]
      simp

end Numeral

end DiagramFilter
