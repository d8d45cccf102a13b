import DiagramFilter.Eval.Basic

/-!
# Passing over operands and elements

Connectives pass over operands; quantifiers and comprehensions pass over the elements of a list and
test each of them.  This module says what such a passage makes of its parts: of the test and the
list of a binder (`Expr.eval_quantified`, `Expr.elements_comprehension`), of operands in a row
(`Expr.evalJunction_append`), and of the opposite test or operands, which stop the dual passage at
the same place (`decideOver_not`, `Expr.evalJunction_not`).
-/

namespace DiagramFilter

/-- The other connective. -/
def Connective.dual : Connective → Connective
  | and => or
  | or => and

/-- The other quantifier. -/
def Quantifier.dual : Quantifier → Quantifier
  | any => all
  | all => any

/-- The dual connective is decided by the other truth value. -/
@[simp]
theorem Connective.deciding_dual (c : Connective) : c.dual.deciding = !c.deciding := by
  cases c <;> rfl

/-- The dual quantifier is decided by the other truth value. -/
@[simp]
theorem Quantifier.deciding_dual (q : Quantifier) : q.dual.deciding = !q.deciding := by
  cases q <;> rfl

/-- The opposite test decides the other way at the same element. -/
theorem decideOver_not (deciding : Bool) (test : Handle → Except EvalError Bool)
    (hs : List Handle) :
    decideOver (!deciding) (fun h => (test h).map (!·)) hs =
      (decideOver deciding test hs).map (!·) := by
  induction hs with
  | nil => rfl
  | cons h hs ih =>
      rw [decideOver, decideOver, ih]
      cases test h with
      | error error => rfl
      | ok b => cases b <;> cases deciding <;> rfl

namespace Expr

variable {env : Env} {s : Scope}

/-- The elements of the list that an expression stands for. -/
def elements (env : Env) (s : Scope) (e : Expr) : Except EvalError (List Handle) := do
  let list ← e.eval env s
  list.handles

/-- Whether the body of a binder holds for an element. -/
def test (env : Env) (s : Scope) (name : String) (body : Expr) (h : Handle) :
    Except EvalError Bool :=
  (body.eval env (s.bind name h)).map Value.truth

/-- A quantifier passes over the elements of its list. -/
theorem eval_quantified (q : Quantifier) (name : String) (source body : Expr) :
    (quantified q name source body).eval env s = (do
      let hs ← source.elements env s
      let value ← decideOver q.deciding (body.test env s name) hs
      return .bool value) := by
  rw [eval, elements, bind_assoc]
  rfl

/-- A comprehension passes over the elements of its list. -/
theorem eval_comprehension (name : String) (source body : Expr) :
    (comprehension name source body).eval env s = (do
      let hs ← source.elements env s
      let kept ← keepPassing (body.test env s name) hs
      return .list kept) := by
  rw [eval, elements, bind_assoc]
  rfl

/-- The elements of a comprehension are those of its list that pass the body. -/
theorem elements_comprehension (name : String) (source body : Expr) :
    (comprehension name source body).elements env s = (do
      let hs ← source.elements env s
      keepPassing (body.test env s name) hs) := by
  have hkept : ∀ hs, (Value.list hs).handles = pure hs := fun _ => rfl
  rw [elements, eval_comprehension]
  simp only [bind_assoc, pure_bind, hkept, bind_pure]

/-- One operand decides its connective or is what it comes to. -/
theorem evalJunction_single (c : Connective) (e : Expr) :
    evalJunction env s c [e] = (e.eval env s).map Value.truth := by
  rw [evalJunction, evalJunction]
  cases e.eval env s with
  | error error => rfl
  | ok v =>
      show (if v.truth = c.deciding then Except.ok c.deciding else .ok !c.deciding) = .ok v.truth
      cases v.truth <;> cases c <;> rfl

/-- Operands in a row decide a connective if those in front do, and else if those behind do. -/
theorem evalJunction_append (c : Connective) (es es' : List Expr) :
    evalJunction env s c (es ++ es') = (do
      let value ← evalJunction env s c es
      if value = c.deciding then return c.deciding else evalJunction env s c es') := by
  induction es with
  | nil =>
      rw [List.nil_append, evalJunction]
      cases c <;> rfl
  | cons e es ih =>
      rw [List.cons_append, evalJunction, evalJunction, ih]
      cases e.eval env s with
      | error error => rfl
      | ok v =>
          show (if v.truth = c.deciding then Except.ok c.deciding else _) =
            (if v.truth = c.deciding then Except.ok c.deciding else _) >>= _
          split
          · show _ = if c.deciding = c.deciding then Except.ok c.deciding else _
            rw [if_pos rfl]
          · rfl

/-- A negated body holds where the body does not. -/
theorem test_not (name : String) (body : Expr) (h : Handle) :
    (not body).test env s name h = (body.test env s name h).map (!·) := by
  rw [test, test, eval_not]
  cases body.eval env (s.bind name h) <;> rfl

/-- The dual connective between negations is decided the other way by the same operand. -/
theorem evalJunction_not (c : Connective) (es : List Expr) :
    evalJunction env s c.dual (es.map .not) = (evalJunction env s c es).map (!·) := by
  induction es with
  | nil =>
      rw [List.map_nil, evalJunction, evalJunction, Connective.deciding_dual]
      rfl
  | cons e es ih =>
      rw [List.map_cons, evalJunction, evalJunction, ih, Connective.deciding_dual, eval_not]
      cases e.eval env s with
      | error error => rfl
      | ok v =>
          show (if (!v.truth) = !c.deciding then Except.ok !c.deciding else _) =
            (if v.truth = c.deciding then Except.ok c.deciding else _).map (!·)
          cases v.truth <;> cases c.deciding <;> rfl

end Expr

end DiagramFilter
