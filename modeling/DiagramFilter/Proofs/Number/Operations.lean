import DiagramFilter.Eval.Basic
import DiagramFilter.Proofs.Number.Bits
import DiagramFilter.Proofs.Number.Rounding

/-!
# Operations on doubles

Numbers that are doubles are compared and combined by the operations on doubles.  The order of two
doubles decides all comparisons between them, and a quotient of zeros is no number whatever their
signs, so that it need not be told apart.
-/

namespace DiagramFilter

open Float.Model (UnpackedFloat)

namespace Double

variable {x y : Float}

/-- The order of two doubles; one that is no number has none. -/
def order (x y : Float) : Option Ordering :=
  x.toModel.unpack.compare y.toModel.unpack

/-- Less is what the order of two numbers says. -/
theorem lt_iff_order : x < y ↔ order x y = some .lt := by
  have hlt : x < y ↔ (order x y == some .lt) = true := decide_eq_true_iff
  rw [hlt, beq_iff_eq]

/-- Less or equal is one of two orders. -/
theorem le_iff_order : x ≤ y ↔ order x y = some .lt ∨ order x y = some .eq := by
  have hle : x ≤ y ↔ (order x y).any (·.isLE) = true := decide_eq_true_iff
  rw [hle]
  cases order x y with
  | none => simp
  | some o => cases o <;> simp

/-- Equal is what the order says, whatever the signs of zeros. -/
theorem beq_iff_order : (x == y) = true ↔ order x y = some .eq := by
  have hbeq : (x == y) = (order x y == some .eq) := rfl
  rw [hbeq, beq_iff_eq]

/-- The order the other way around. -/
theorem order_swap (x y : Float) : order y x = (order x y).map Ordering.swap := by
  unfold order
  generalize x.toModel.unpack = u
  generalize y.toModel.unpack = v
  have hints : ∀ (m n : Int), compare n m = (compare m n).swap := fun m n =>
    Std.OrientedCmp.eq_swap
  have hnats : ∀ (m n : Nat), compare n m = (compare m n).swap := fun m n =>
    Std.OrientedCmp.eq_swap
  cases u with
  | notANumber => cases v <;> rfl
  | zero s =>
      cases v with
      | infinity t => cases t <;> rfl
      | notANumber => rfl
      | zero t => rfl
      | finite t n f hn => cases t <;> rfl
  | infinity s =>
      cases s <;> cases v with
      | infinity t => cases t <;> rfl
      | _ => rfl
  | finite s m e hm =>
      cases s <;> cases v with
      | infinity t => cases t <;> rfl
      | notANumber => rfl
      | zero t => rfl
      | finite t n f hn =>
          cases t
          all_goals first
            | rfl
            | simp only [UnpackedFloat.compare, Option.map_some, hints e f, hnats m n,
                Ordering.swap_then, Ordering.swap_swap]

/-- Greater is what the order says. -/
theorem gt_iff_order : x > y ↔ order x y = some .gt := by
  show y < x ↔ _
  rw [lt_iff_order, order_swap]
  cases order x y with
  | none => simp
  | some o => cases o <;> simp

/-- Greater or equal is one of two orders. -/
theorem ge_iff_order : x ≥ y ↔ order x y = some .gt ∨ order x y = some .eq := by
  show y ≤ x ↔ _
  rw [le_iff_order, order_swap]
  cases order x y with
  | none => simp
  | some o => cases o <;> simp

/-- A double that is equal to zero is a zero of either sign. -/
theorem unpack_of_beq_zero (h : (x == 0) = true) : ∃ s, x.toModel.unpack = .zero s := by
  have hzero : (0 : Float).toModel.unpack = .zero .positive := rfl
  rw [beq_iff_order, order, hzero] at h
  generalize x.toModel.unpack = u at h
  cases u with
  | zero s => exact ⟨s, rfl⟩
  | notANumber => cases h
  | infinity s => cases s <;> cases h
  | finite s m e hm => cases s <;> cases h

/-- How a double stands to zero, by its bits. -/
theorem order_zero (x : Float) :
    order x 0 = if infinityBits < magnitude x then none
      else if magnitude x = 0 then some .eq
      else some (if isNegative x then .lt else .gt) := by
  have h := datum x
  have hzero : (0 : Float).toModel.unpack = .zero .positive := rfl
  rw [order, hzero]
  generalize x.toModel.unpack = u at h
  generalize magnitude x = bits at h
  generalize isNegative x = negative at h
  cases h with
  | zero => simp [UnpackedFloat.compare]
  | finite hpos hlt =>
      have hle : ¬ infinityBits < _ := Nat.not_lt.mpr (Nat.le_of_lt hlt)
      cases negative <;> simp [sign, UnpackedFloat.compare, hle, Nat.ne_of_gt hpos]
  | infinity => cases negative <;> simp [sign, UnpackedFloat.compare, infinityBits]
  | notANumber h => simp [UnpackedFloat.compare, h]

/-- A double that is equal to zero has no bits but its sign. -/
theorem beq_zero_iff : (x == 0) = true ↔ magnitude x = 0 := by
  rw [beq_iff_order, order_zero]
  grind

/-- What is less than zero has a sign and a magnitude, and is a number. -/
theorem lt_zero_iff :
    x < 0 ↔ isNegative x = true ∧ 0 < magnitude x ∧ magnitude x ≤ infinityBits := by
  rw [lt_iff_order, order_zero]
  grind

/-- What is greater than zero has a magnitude and no sign, and is a number. -/
theorem gt_zero_iff :
    x > 0 ↔ isNegative x = false ∧ 0 < magnitude x ∧ magnitude x ≤ infinityBits := by
  rw [gt_iff_order, order_zero]
  grind

/-- A natural number is positive if its double is. -/
theorem ofNat_gt_zero_iff {n : Nat} : ofNat n > 0 ↔ 0 < n := by
  have hle := nearestBits_le n 1
  rw [gt_zero_iff, ofNat, nearest, isNegative_ofMagnitude hle, magnitude_ofMagnitude hle]
  constructor
  · rintro ⟨-, hpos, -⟩
    rcases Nat.eq_zero_or_pos n with rfl | hn
    · rw [nearestBits_of_small (by simp)] at hpos
      exact hpos
    · exact hn
  · intro hn
    exact ⟨rfl, nearestBits_pos hn, hle⟩

/-- A quotient of zeros is no number. -/
theorem div_of_zero (hx : (x == 0) = true) (hy : (y == 0) = true) : x / y = 0 / 0 := by
  have hdiv : ∀ a b : Float, a / b = .ofModel (.pack (UnpackedFloat.div .binary64 a.toModel.unpack
      b.toModel.unpack)) := fun _ _ => rfl
  have hzero : (0 : Float).toModel.unpack = .zero .positive := rfl
  obtain ⟨s, hs⟩ := unpack_of_beq_zero hx
  obtain ⟨t, ht⟩ := unpack_of_beq_zero hy
  rw [hdiv x y, hdiv 0 0, hs, ht, hzero]
  rfl

end Double

/-- How two doubles compare. -/
def CompareOp.test : CompareOp → Float → Float → Bool
  | eq, x, y => x == y
  | ne, x, y => x != y
  | lt, x, y => x < y
  | le, x, y => x ≤ y
  | gt, x, y => x > y
  | ge, x, y => x ≥ y

/-- The order of two doubles decides how they compare. -/
theorem CompareOp.holds_order (op : CompareOp) (x y : Float) :
    op.holds (Double.order x y) = op.test x y := by
  rw [Bool.eq_iff_iff]
  cases op with
  | eq => simp [holds, test, Double.beq_iff_order]
  | ne =>
      have heq : Double.order x y = some .eq ↔ (x == y) = true := Double.beq_iff_order.symm
      simp [holds, test, bne, heq]
  | lt => simp [holds, test, Double.lt_iff_order]
  | le => simp [holds, test, Double.le_iff_order]
  | gt =>
      have hgt : x > y ↔ Double.order x y = some .gt := Double.gt_iff_order
      simp [holds, test, hgt]
  | ge =>
      have hge : x ≥ y ↔ Double.order x y = some .gt ∨ Double.order x y = some .eq :=
        Double.ge_iff_order
      simp [holds, test, hge]

/-- What two doubles make together. -/
def ArithOp.apply : ArithOp → Float → Float → Float
  | add, x, y => x + y
  | sub, x, y => x - y
  | mul, x, y => x * y
  | div, x, y => x / y
  | mod, x, y => Double.remainder x y

namespace Number

/-- Two doubles have their order as numbers. -/
theorem compare?_float (x y : Float) : (Number.float x).compare? (.float y) = Double.order x y := by
  have hgt : x > y ↔ Double.order x y = some .gt := Double.gt_iff_order
  simp only [compare?, hgt, Double.lt_iff_order, Double.beq_iff_order]
  cases Double.order x y with
  | none => simp
  | some o => cases o <;> simp

/-- Two doubles are divided as doubles. -/
theorem div_float (x y : Float) : (Number.float x).div (.float y) = .ok (.float (x / y)) := by
  unfold Number.div
  by_cases hzero : ((Number.float y).isZero && (Number.float x).isZero) = true
  · rw [if_pos hzero]
    rw [Bool.and_eq_true] at hzero
    rw [Double.div_of_zero hzero.2 hzero.1]
  · rw [if_neg hzero]
    cases (Number.float y).isZero <;> rfl

end Number

namespace Value

/-- Doubles compare as doubles. -/
theorem compare_float (op : CompareOp) (x y : Float) :
    (Value.number (.float x)).compare op (.number (.float y)) = .ok (op.test x y) := by
  have horder := Number.compare?_float x y
  have hholds : (Value.number (.float x)).compare op (.number (.float y)) =
      .ok (op.holds (Double.order x y)) := by
    rw [← horder]
    cases op <;> rfl
  rw [hholds, CompareOp.holds_order]

/-- Arithmetic on doubles is arithmetic of doubles. -/
theorem arith_float (op : ArithOp) (x y : Float) :
    (Value.number (.float x)).arith op (.number (.float y)) =
      .ok (.number (.float (op.apply x y))) := by
  cases op with
  | div =>
      simp only [Value.arith, Value.number?, Value.arithNumbers, Number.div_float]
      rfl
  | _ => rfl

end Value

namespace Expr

variable {env : Env} {s : Scope} {a b : Expr} {x y : Float}

/-- Expressions with doubles as their values are compared as doubles. -/
theorem eval_compare_float (op : CompareOp) (ha : a.eval env s = .ok (.number (.float x)))
    (hb : b.eval env s = .ok (.number (.float y))) :
    (compare op a b).eval env s = .ok (.bool (op.test x y)) := by
  rw [eval, ha, hb]
  simp only [bind, Except.bind, Value.compare_float]
  rfl

/-- Arithmetic on two doubles gives a double. -/
theorem eval_arith_float (op : ArithOp) (ha : a.eval env s = .ok (.number (.float x)))
    (hb : b.eval env s = .ok (.number (.float y))) :
    (arith op a b).eval env s = .ok (.number (.float (op.apply x y))) := by
  rw [eval, ha, hb]
  exact Value.arith_float op x y

end Expr

end DiagramFilter
