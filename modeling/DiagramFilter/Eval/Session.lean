import DiagramFilter.Eval.InPlace

/-!
# Sessions

A session works on one scope step by step: it enters and leaves bindings, looks names up and
evaluates expressions.  A step that fails leaves the scope behind as much as one that does not.
-/

namespace DiagramFilter.Session

/-- A step of a session. -/
inductive Step where
  /-- Enters a binding. -/
  | enter (name : String) (h : Handle)
  /-- Leaves the innermost binding. -/
  | leave
  /-- Looks a name up. -/
  | lookup (name : String)
  /-- Looks a name up inside a binding, which is left again. -/
  | lookupInside (name : String) (h : Handle) (wanted : String)
  /-- Evaluates an expression. -/
  | eval (e : Expr)

/-- What a step does, with its result if it has one. -/
def perform (env : Env) : Step → ScopeM (Option Value)
  | .enter name h => do
    modify (·.bind name h)
    return some (.element h)
  | .leave => do
    modify (·.leave)
    return none
  | .lookup name => return some (.element (← ScopeM.lookup name))
  | .lookupInside name h wanted =>
    ScopeM.within name h do
      let _ ← ScopeM.lookup wanted
      return none
  | .eval e => return some (← e.run env)

/-- The result of a step, if it has one, or its error; and the scope after it. -/
def step (env : Env) (scope : Scope) (s : Step) : Except EvalError (Option Value) × Scope :=
  (perform env s).runFrom scope

end DiagramFilter.Session
