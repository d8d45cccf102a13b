import DiagramFilter.Eval.Basic

/-!
# Evaluation in place

The values of expressions, found by work on one scope that is entered on the way into a binder and
left on the way out.  A binding is left in every case: after a value, after an error, and when the
element that it is for ends the whole pass.
-/

namespace DiagramFilter

/-- Work on a scope.  It ends with a result or an error, and either way it leaves a scope behind. -/
abbrev ScopeM (α : Type) := ExceptT EvalError (StateM Scope) α

namespace ScopeM

variable {α : Type}

/-- The result or error of work that begins in a scope, and the scope that is left behind. -/
def runFrom (work : ScopeM α) (s : Scope) : Except EvalError α × Scope :=
  (ExceptT.run work).run s

/-- The element of the innermost binding of a name. -/
def lookup (name : String) : ScopeM Handle := do
  ofExcept (((← get).lookup name).mapError .undefinedVariable)

/-- Work inside one more binding, which is left again however the work ends. -/
def within (name : String) (h : Handle) (work : ScopeM α) : ScopeM α := do
  modify (·.bind name h)
  try work finally modify (·.leave)

/-- Binds elements to a name, one after the other, until a body has the deciding truth value. -/
def decideWithin (deciding : Bool) (name : String) (body : ScopeM Value) (hs : List Handle) :
    ScopeM Bool := do
  for h in hs do
    modify (·.bind name h)
    try
      if (← body).truth = deciding then return deciding
    finally
      modify (·.leave)
  return !deciding

/-- Binds elements to a name, one after the other, and puts those for which a body holds behind
the ones kept before. -/
def keepWithin (name : String) (body : ScopeM Value) (hs kept : List Handle) :
    ScopeM (List Handle) := do
  let mut kept := kept
  for h in hs do
    modify (·.bind name h)
    try
      if (← body).truth then kept := kept ++ [h]
    finally
      modify (·.leave)
  return kept

end ScopeM

namespace Expr

mutual

/-- Finds the value of an expression. -/
def run (env : Env) : Expr → ScopeM Value
  | bool value => return .bool value
  | number value => return .number (.float value)
  | tag name => return .bool (env.hasTag name (← get).current)
  | tagNumber name => do
    let x ← ofExcept ((env.tagNumber name (← get).current).mapError .notNumeric)
    return .number (.float x)
  | var name => return .element (← ScopeM.lookup name)
  | not e => return .bool !(← e.run env).truth
  | neg e => do ofExcept (← e.run env).neg
  | junction c es => return .bool (← runJunction env c es)
  | compare op a b => do
    let v ← a.run env
    let w ← b.run env
    return .bool (← ofExcept (v.compare op w))
  | arith op a b => do
    let v ← a.run env
    let w ← b.run env
    ofExcept (v.arith op w)
  | quantified q name source body => do
    let handles ← ofExcept (← source.run env).handles
    return .bool (← ScopeM.decideWithin q.deciding name (body.run env) handles)
  | focus name body => do
    let h ← ScopeM.lookup name
    ScopeM.within name h (body.run env)
  | count source => do
    let length ← ofExcept (← source.run env).length
    return .number (.float (Double.ofNat length))
  | nonEmpty source => do
    let length ← ofExcept (← source.run env).length
    return .bool (0 < length)
  | list source => return .list (env.diagram.list source (← get).current)
  | unknownList word => throw (.unknownList word)
  | comprehension name source body => do
    let handles ← ofExcept (← source.run env).handles
    return .list (← ScopeM.keepWithin name (body.run env) handles [])
  | foreign typeName => throw (.notExpression typeName)

/-- Finds the truth value of a connective between operands. -/
def runJunction (env : Env) (c : Connective) : List Expr → ScopeM Bool
  | [] => return !c.deciding
  | e :: es => do
    if (← e.run env).truth = c.deciding then return c.deciding else runJunction env c es

end

end Expr

end DiagramFilter
