import DiagramFilter.Number.Decimal
import Mathlib.Tactic.Common

/-!
# Rounding to doubles

The nearest double depends on nothing but the quotient (`nearestBits_mul_right`); it is the double
itself where the quotient is one (`nearestBits_units`), infinity where the quotient is large
(`nearestBits_of_large`), and zero where it is small (`nearestBits_of_small`).  So the bounds that
decimals are rounded with may cut the work short, but they change nothing (`Decimal.toBits_eq`).
-/

namespace DiagramFilter

namespace Double

variable {n d k b : Nat}

/-- Rounding depends on nothing but the quotient. -/
theorem roundHalfEven_mul_right (hk : 0 < k) :
    roundHalfEven (n * k) (d * k) = roundHalfEven n d := by
  have hlt : d * k < 2 * (n * k % (d * k)) ↔ d < 2 * (n % d) := by
    rw [Nat.mul_mod_mul_right, ← Nat.mul_assoc]
    exact Nat.mul_lt_mul_right hk
  have heq : 2 * (n * k % (d * k)) = d * k ↔ 2 * (n % d) = d := by
    rw [Nat.mul_mod_mul_right, ← Nat.mul_assoc]
    exact Nat.mul_left_inj (Nat.ne_of_gt hk)
  simp only [roundHalfEven, Nat.mul_div_mul_right _ _ hk, hlt, heq]

/-- A whole quotient is not rounded. -/
theorem roundHalfEven_mul (hd : 0 < d) : roundHalfEven (n * d) d = n := by
  have hne : 0 ≠ d := Nat.ne_of_lt hd
  simp [roundHalfEven, Nat.mul_div_cancel _ hd, hne]

/-- There are units in one. -/
theorem unitsPerOne_pos : 0 < unitsPerOne := by
  unfold unitsPerOne
  exact Nat.two_pow_pos 1074

/-- A common factor does not matter to rounding. -/
theorem nearestBits_mul_right (hk : 0 < k) : nearestBits (n * k) (d * k) = nearestBits n d := by
  have hscaled : n * k * unitsPerOne = n * unitsPerOne * k := Nat.mul_right_comm n k _
  have hshift : d * k * 2 ^ ((n * unitsPerOne / d).log2 - 52) =
      d * 2 ^ ((n * unitsPerOne / d).log2 - 52) * k := Nat.mul_right_comm d k _
  simp only [nearestBits, hscaled, Nat.mul_div_mul_right _ _ hk, hshift, roundHalfEven_mul_right hk]

/-- The number of binary digits that a fraction with its leading one has. -/
theorem log2_significand {f : Nat} (hf : f < 2 ^ 52) (e : Nat) :
    ((2 ^ 52 + f) * 2 ^ e).log2 = 52 + e := by
  have hpos := Nat.two_pow_pos e
  have hne : (2 ^ 52 + f) * 2 ^ e ≠ 0 := Nat.ne_of_gt (Nat.mul_pos (by omega) hpos)
  refine (Nat.log2_eq_iff hne).mpr ⟨?_, ?_⟩
  · rw [Nat.pow_add]
    exact Nat.mul_le_mul_right _ (by omega)
  · rw [Nat.add_right_comm, Nat.pow_add]
    exact Nat.mul_lt_mul_of_pos_right (by omega) hpos

/-- A double is the nearest to itself. -/
theorem nearestBits_units (hd : 0 < d) (hb : b < infinityBits)
    (h : n * unitsPerOne = units b * d) : nearestBits n d = b := by
  have hinfinity : infinityBits = 2047 * 2 ^ 52 := rfl
  unfold nearestBits
  dsimp only
  rw [h, Nat.mul_div_cancel _ hd]
  unfold units
  split
  · rename_i hsubnormal
    have hlog : b.log2 ≤ 52 := by
      rcases Nat.eq_zero_or_pos b with rfl | hpos
      · decide
      · exact Nat.le_of_lt ((Nat.log2_lt (Nat.ne_of_gt hpos)).mpr hsubnormal)
    rw [Nat.sub_eq_zero_of_le hlog, Nat.pow_zero, Nat.mul_one, roundHalfEven_mul hd]
    omega
  · rename_i hnormal
    generalize he : b / 2 ^ 52 - 1 = e
    have hd' : 0 < d * 2 ^ e := Nat.mul_pos hd (Nat.two_pow_pos e)
    rw [log2_significand (Nat.mod_lt _ (by decide)), Nat.add_sub_cancel_left, Nat.mul_assoc,
      Nat.mul_comm (2 ^ e) d, roundHalfEven_mul hd']
    omega

/-- The size of a quotient that is scaled up. -/
theorem le_log2_div {j : Nat} (hd : 0 < d) (h : 2 ^ j * d ≤ n) : j + k ≤ (n * 2 ^ k / d).log2 := by
  have hquotient : 2 ^ (j + k) ≤ n * 2 ^ k / d := by
    rw [Nat.le_div_iff_mul_le hd, Nat.pow_add, Nat.mul_right_comm]
    exact Nat.mul_le_mul_right _ h
  have hpos := Nat.lt_of_lt_of_le (Nat.two_pow_pos _) hquotient
  exact (Nat.le_log2 (Nat.ne_of_gt hpos)).mpr hquotient

/-- What is far beyond the largest double is infinite. -/
theorem nearestBits_of_large {j : Nat} (hj : 1025 ≤ j) (hd : 0 < d) (h : 2 ^ j * d ≤ n) :
    nearestBits n d = infinityBits := by
  have hlog : j + 1074 ≤ (n * unitsPerOne / d).log2 := by
    unfold unitsPerOne
    exact le_log2_div hd h
  refine Nat.min_eq_right (Nat.le_trans ?_ (Nat.le_add_right _ _))
  exact Nat.mul_le_mul_right _ (by omega)

/-- A whole number other than zero is not rounded to zero. -/
theorem nearestBits_pos (hn : 0 < n) : 0 < nearestBits n 1 := by
  have hlog : 0 + 1074 ≤ (n * unitsPerOne / 1).log2 := by
    unfold unitsPerOne
    exact le_log2_div Nat.one_pos (by omega)
  have hinfinity : infinityBits = 2047 * 2 ^ 52 := rfl
  unfold nearestBits
  dsimp only
  generalize (n * unitsPerOne / 1).log2 = log at hlog
  refine Nat.lt_min.mpr ⟨Nat.lt_of_lt_of_le ?_ (Nat.le_add_right _ _), by omega⟩
  omega

/-- What is far below the least double is zero. -/
theorem nearestBits_of_small (h : 2 * (n * unitsPerOne) < d) : nearestBits n d = 0 := by
  have hlt : n * unitsPerOne < d := by omega
  have hne : ¬ 2 * (n * unitsPerOne) = d := Nat.ne_of_lt h
  have hle : ¬ d < 2 * (n * unitsPerOne) := Nat.not_lt_of_gt h
  simp [nearestBits, roundHalfEven, Nat.div_eq_of_lt hlt, Nat.mod_eq_of_lt hlt, hne, hle]

/-- Rounding goes no further than infinity. -/
theorem nearestBits_le (n d : Nat) : nearestBits n d ≤ infinityBits :=
  Nat.min_le_right _ _

end Double

namespace Decimal

variable {d : Decimal} {width : Nat}

/-- The bits of the double nearest to a decimal number, by the definition alone. -/
def nearest (d : Decimal) : Nat :=
  if 0 ≤ d.exponent then Double.nearestBits (d.digits * 10 ^ d.exponent.toNat) 1
  else Double.nearestBits d.digits (10 ^ (-d.exponent).toNat)

/-- A decimal whose digits are zero is zero. -/
theorem nearest_of_digits_eq_zero (h : d.digits = 0) : d.nearest = 0 := by
  have hsmall : ∀ n, 0 < n → Double.nearestBits 0 n = 0 := fun n hn =>
    Double.nearestBits_of_small (by simpa using hn)
  unfold nearest
  rw [h, Nat.zero_mul]
  split
  · exact hsmall 1 Nat.one_pos
  · exact hsmall _ (Nat.pow_pos (by decide))

/-- A decimal number is not rounded to more than infinity. -/
theorem toBits_le (d : Decimal) (width : Nat) : d.toBits width ≤ Double.infinityBits := by
  unfold toBits
  split
  · exact Nat.zero_le _
  split
  · exact Nat.le_refl _
  split
  · exact Nat.zero_le _
  split
  · exact Double.nearestBits_le _ _
  · exact Double.nearestBits_le _ _

/-- A large power of ten is a large power of two. -/
theorem exists_two_pow_le {e : Nat} (h : 310 ≤ e) : ∃ j, 1025 ≤ j ∧ 2 ^ j ≤ 10 ^ e := by
  refine ⟨1025, Nat.le_refl _, Nat.le_trans ?_ (Nat.pow_le_pow_right (by decide) h)⟩
  decide +kernel

/-- Two units fit more often than any power of ten with a large exponent into one. -/
theorem units_lt_ten_pow {e : Nat} (h : 330 ≤ e) : 2 * Double.unitsPerOne < 10 ^ e := by
  refine Nat.lt_of_lt_of_le ?_ (Nat.pow_le_pow_right (by decide) h)
  decide +kernel

/-- A decimal number with an exponent that is plainly too large is infinite. -/
theorem nearest_of_large (hd : d.digits ≠ 0) (h : 310 ≤ d.exponent) :
    d.nearest = Double.infinityBits := by
  unfold nearest
  rw [if_pos (by omega)]
  obtain ⟨j, hj, hpow⟩ := exists_two_pow_le (e := d.exponent.toNat) (by omega)
  refine Double.nearestBits_of_large hj Nat.one_pos ?_
  calc 2 ^ j * 1 = 2 ^ j := Nat.mul_one _
    _ ≤ 10 ^ d.exponent.toNat := hpow
    _ ≤ d.digits * 10 ^ d.exponent.toNat := Nat.le_mul_of_pos_left _ (Nat.pos_of_ne_zero hd)

/-- A decimal number with an exponent that is plainly too small is zero. -/
theorem nearest_of_small (hwidth : d.digits < 10 ^ width) (h : d.exponent + width ≤ -330) :
    d.nearest = 0 := by
  unfold nearest
  rw [if_neg (by omega)]
  refine Double.nearestBits_of_small ?_
  obtain ⟨k, hk⟩ : ∃ k, (-d.exponent).toNat = width + k := ⟨_, (Nat.add_sub_of_le (by omega)).symm⟩
  rw [hk]
  calc 2 * (d.digits * Double.unitsPerOne) = d.digits * (2 * Double.unitsPerOne) :=
        Nat.mul_left_comm _ _ _
    _ ≤ 10 ^ width * (2 * Double.unitsPerOne) := Nat.mul_le_mul_right _ (Nat.le_of_lt hwidth)
    _ < 10 ^ width * 10 ^ k :=
        Nat.mul_lt_mul_of_pos_left (units_lt_ten_pow (by omega)) (Nat.pow_pos (by decide))
    _ = 10 ^ (width + k) := (Nat.pow_add _ _ _).symm

/-- The bounds of rounding change nothing. -/
theorem toBits_eq (hwidth : d.digits < 10 ^ width) : d.toBits width = d.nearest := by
  unfold toBits
  split
  · rename_i hzero
    exact (nearest_of_digits_eq_zero hzero).symm
  · rename_i hd
    split
    · rename_i h
      exact (nearest_of_large hd h).symm
    · split
      · rename_i h
        exact (nearest_of_small hwidth h).symm
      · rfl

/-- Even where the digits are more than the width, rounding to something else than zero is
right. -/
theorem nearest_of_toBits (h : d.toBits width ≠ 0) : d.nearest = d.toBits width := by
  unfold toBits at h ⊢
  split
  · rename_i hzero
    rw [if_pos hzero] at h
    exact absurd rfl h
  · rename_i hd
    split
    · rename_i hlarge
      exact nearest_of_large hd hlarge
    · rename_i hlarge
      split
      · rename_i hsmall
        rw [if_neg hd, if_neg hlarge, if_pos hsmall] at h
        exact absurd rfl h
      · rfl

/-- A zero at the end of the digits is as good as one more in the exponent. -/
theorem nearest_succ (n : Nat) (e : Int) : nearest ⟨n * 10, e⟩ = nearest ⟨n, e + 1⟩ := by
  unfold nearest
  dsimp only
  by_cases he : 0 ≤ e
  · rw [if_pos he, if_pos (by omega), Nat.mul_assoc, ← Nat.pow_succ']
    congr 3
    omega
  · rw [if_neg he]
    by_cases he' : 0 ≤ e + 1
    · obtain rfl : e = -1 := by omega
      have hone : 10 ^ (-(-1 : Int)).toNat = 1 * 10 := rfl
      have hdigits : n * 10 ^ ((-1 : Int) + 1).toNat = n := Nat.mul_one n
      rw [if_pos he', hone, hdigits]
      exact Double.nearestBits_mul_right (by decide)
    · have hpow : (-e).toNat = (-(e + 1)).toNat + 1 := by omega
      rw [if_neg he', hpow, Nat.pow_succ]
      exact Double.nearestBits_mul_right (by decide)

/-- Dropping the zeros at the end of the digits changes nothing. -/
theorem nearest_strip (d : Decimal) : d.strip.nearest = d.nearest := by
  fun_induction strip d with
  | case1 d h ih =>
      rw [ih, ← nearest_succ, Nat.div_mul_cancel (Nat.dvd_of_mod_eq_zero h.2)]
  | case2 d h => rfl

/-- Zeros at the end of the digits change nothing. -/
theorem nearest_mul_pow (n k : Nat) (e : Int) : nearest ⟨n * 10 ^ k, e⟩ = nearest ⟨n, e + k⟩ := by
  induction k generalizing e with
  | zero => simp
  | succ k ih =>
      rw [Nat.pow_succ, ← Nat.mul_assoc, nearest_succ, ih]
      congr 2
      omega

end Decimal

end DiagramFilter
