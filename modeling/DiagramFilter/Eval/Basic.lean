import DiagramFilter.Diagram.Lists
import DiagramFilter.Eval.Scope
import DiagramFilter.Eval.Value
import DiagramFilter.Registry

/-!
# Evaluation

The value of an expression in a diagram, under reserved tags and a scope.  Operands are taken from
left to right.  Connectives and quantifiers stop at the first operand or element that decides
them, so what stands behind it is never looked at, errors included.
-/

namespace DiagramFilter

/-- What the value of an expression depends on besides its scope. -/
structure Env where
  diagram : Diagram
  registry : Registry := .usual

namespace Env

/-- Whether an element has a tag: a stored one, or else a reserved one that holds. -/
def hasTag (env : Env) (name : String) (h : Handle) : Bool :=
  (env.diagram.element h).hasTag name || env.registry.holds env.diagram name h

/-- The number of a tag of an element: that of a stored one, or else the reserved one, or else
zero.  Only a reserved one can fail to be a number. -/
def tagNumber (env : Env) (name : String) (h : Handle) : Except Document.NumberError Float :=
  match (env.diagram.element h).findTag? name with
  | some tag => .ok tag.num
  | none => (env.registry.numeric? env.diagram name h).getD (.ok 0)

end Env

/-- The deciding truth value if a test has it for some element, taken in order; the other one if
no element decides. -/
def decideOver (deciding : Bool) (test : Handle → Except EvalError Bool) :
    List Handle → Except EvalError Bool
  | [] => .ok !deciding
  | h :: hs => do
    if (← test h) = deciding then return deciding else decideOver deciding test hs

/-- The elements that pass a test, in order. -/
def keepPassing (test : Handle → Except EvalError Bool) :
    List Handle → Except EvalError (List Handle)
  | [] => .ok []
  | h :: hs => do
    let passes ← test h
    let kept ← keepPassing test hs
    return if passes then h :: kept else kept

namespace Expr

mutual

/-- The value of an expression. -/
def eval (env : Env) (scope : Scope) : Expr → Except EvalError Value
  | bool value => .ok (.bool value)
  | number value => .ok (.number (.float value))
  | tag name => .ok (.bool (env.hasTag name scope.current))
  | tagNumber name => do
    let x ← (env.tagNumber name scope.current).mapError .notNumeric
    return .number (.float x)
  | var name => do
    let h ← (scope.lookup name).mapError .undefinedVariable
    return .element h
  | not e => do
    let v ← e.eval env scope
    return .bool !v.truth
  | neg e => do
    let v ← e.eval env scope
    v.neg
  | junction c es => do
    let value ← evalJunction env scope c es
    return .bool value
  | compare op a b => do
    let v ← a.eval env scope
    let w ← b.eval env scope
    let value ← v.compare op w
    return .bool value
  | arith op a b => do
    let v ← a.eval env scope
    let w ← b.eval env scope
    v.arith op w
  | quantified q name source body => do
    let list ← source.eval env scope
    let handles ← list.handles
    let value ← decideOver q.deciding
      (fun h => (body.eval env (scope.bind name h)).map Value.truth) handles
    return .bool value
  | focus name body => do
    let h ← (scope.lookup name).mapError .undefinedVariable
    body.eval env (scope.bind name h)
  | count source => do
    let list ← source.eval env scope
    let length ← list.length
    return .number (.float (Double.ofNat length))
  | nonEmpty source => do
    let list ← source.eval env scope
    let length ← list.length
    return .bool (0 < length)
  | list source => .ok (.list (env.diagram.list source scope.current))
  | unknownList word => .error (.unknownList word)
  | comprehension name source body => do
    let list ← source.eval env scope
    let handles ← list.handles
    let kept ← keepPassing (fun h => (body.eval env (scope.bind name h)).map Value.truth) handles
    return .list kept
  | foreign typeName => .error (.notExpression typeName)

/-- The truth value of a connective between operands. -/
def evalJunction (env : Env) (scope : Scope) (c : Connective) :
    List Expr → Except EvalError Bool
  | [] => .ok !c.deciding
  | e :: es => do
    let v ← e.eval env scope
    if v.truth = c.deciding then return c.deciding else evalJunction env scope c es

end

/-- A negation is the opposite of the truth of its operand. -/
theorem eval_not (env : Env) (scope : Scope) (e : Expr) :
    (not e).eval env scope = (e.eval env scope).map fun v => .bool !v.truth := by
  rw [eval]
  cases e.eval env scope <;> rfl

/-- The value of an expression on an element, which is bound as the outermost one. -/
def evalOn (env : Env) (e : Expr) (h : Handle) : Except EvalError Value :=
  e.eval env ⟨thisName, h, []⟩

/-- Whether an expression holds on an element. -/
def holdsOn (env : Env) (e : Expr) (h : Handle) : Except EvalError Bool :=
  (e.evalOn env h).map Value.truth

/-- The number that an expression is on an element. -/
def numberOn (env : Env) (e : Expr) (h : Handle) : Except EvalError Float := do
  (← e.evalOn env h).toFloat

end Expr

end DiagramFilter
