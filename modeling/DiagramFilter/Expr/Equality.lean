import DiagramFilter.Expr.Basic

/-!
# Equality of expressions

Two expressions are equal when they are the same tree.
-/

namespace DiagramFilter.Expr

mutual

/-- Whether two expressions are the same tree. -/
def same : Expr → Expr → Bool
  | bool a, bool b => a == b
  | number a, number b => a = b
  | tag a, tag b => a == b
  | tagNumber a, tagNumber b => a == b
  | var a, var b => a == b
  | not a, not b => a.same b
  | neg a, neg b => a.same b
  | junction c as, junction d bs => c = d && sameAll as bs
  | compare o a b, compare p c d => o = p && a.same c && b.same d
  | arith o a b, arith p c d => o = p && a.same c && b.same d
  | quantified q v a b, quantified r w c d => q = r && v == w && a.same c && b.same d
  | focus v a, focus w b => v == w && a.same b
  | count a, count b => a.same b
  | nonEmpty a, nonEmpty b => a.same b
  | list a, list b => a = b
  | unknownList a, unknownList b => a == b
  | comprehension v a b, comprehension w c d => v == w && a.same c && b.same d
  | foreign a, foreign b => a == b
  | _, _ => false

/-- Whether two rows of expressions are the same trees in the same order. -/
def sameAll : List Expr → List Expr → Bool
  | [], [] => true
  | a :: as, b :: bs => a.same b && sameAll as bs
  | _, _ => false

end

mutual

/-- The test decides equality. -/
theorem same_iff : (a b : Expr) → (a.same b = true ↔ a = b)
  | bool a, b => by cases b <;> simp [same]
  | number a, b => by cases b <;> simp [same]
  | tag a, b => by cases b <;> simp [same]
  | tagNumber a, b => by cases b <;> simp [same]
  | var a, b => by cases b <;> simp [same]
  | not a, b => by cases b <;> simp [same, same_iff a]
  | neg a, b => by cases b <;> simp [same, same_iff a]
  | junction c as, b => by cases b <;> simp [same, sameAll_iff as]
  | compare o a c, b => by cases b <;> simp [same, same_iff a, same_iff c, and_assoc]
  | arith o a c, b => by cases b <;> simp [same, same_iff a, same_iff c, and_assoc]
  | quantified q v a c, b => by cases b <;> simp [same, same_iff a, same_iff c, and_assoc]
  | focus v a, b => by cases b <;> simp [same, same_iff a]
  | count a, b => by cases b <;> simp [same, same_iff a]
  | nonEmpty a, b => by cases b <;> simp [same, same_iff a]
  | list a, b => by cases b <;> simp [same]
  | unknownList a, b => by cases b <;> simp [same]
  | comprehension v a c, b => by cases b <;> simp [same, same_iff a, same_iff c, and_assoc]
  | foreign a, b => by cases b <;> simp [same]

/-- The test on rows decides equality of rows. -/
theorem sameAll_iff : (as bs : List Expr) → (sameAll as bs = true ↔ as = bs)
  | [], bs => by cases bs <;> simp [sameAll]
  | a :: as, bs => by cases bs <;> simp [sameAll, same_iff a, sameAll_iff as]

end

instance : DecidableEq Expr := fun a b => decidable_of_iff _ (same_iff a b)

end DiagramFilter.Expr
