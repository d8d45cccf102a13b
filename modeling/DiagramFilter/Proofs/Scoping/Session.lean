import DiagramFilter.Eval.Session
import DiagramFilter.Proofs.Scoping.Bindings
import DiagramFilter.Proofs.Scoping.InPlace

/-!
# Sessions keep their bindings in order

Whatever a session does, its scope holds the binding that it began with and those that were entered
and not left since, in order.  Which bindings these are can be read off the steps alone
(`openAfter`): looking up and evaluating change nothing, whether they succeed or fail.

* `step_bindings`: what one step does to the open bindings.
* `scope_shows_open`: what a run leaves behind, after each of its steps.
-/

namespace DiagramFilter.Session

variable {env : Env} {scope : Scope}

/-- What a step makes of the open bindings, inner ones first. -/
def openAfterStep (opened : List (String × Handle)) : Step → List (String × Handle)
  | .enter name h => (name, h) :: opened
  | .leave => opened.tail
  | .lookup _ | .lookupInside .. | .eval _ => opened

/-- The bindings that were entered and not left in some steps, inner ones first. -/
def openAfter (steps : List Step) : List (String × Handle) :=
  steps.foldl openAfterStep []

/-- The scope after some steps. -/
def scopeAfter (env : Env) (scope : Scope) (steps : List Step) : Scope :=
  steps.foldl (fun s next => (step env s next).2) scope

/-- Restoring work of a step leaves its scope. -/
theorem step_scope {s : Step} {result : Scope → Except EvalError (Option Value)}
    (h : (perform env s).Restores result) : (step env scope s).2 = scope := by
  rw [step, h scope]

/-- A step that looks a name up restores the scope. -/
theorem lookup_restores (name : String) :
    (perform env (.lookup name)).Restores fun s =>
      (s.lookup name).mapError .undefinedVariable >>= fun h => .ok (some (Value.element h)) :=
  (ScopeM.Restores.lookup name).bind fun h => .pure (some (Value.element h))

/-- A step that looks a name up inside a binding restores the scope. -/
theorem lookupInside_restores (name : String) (h : Handle) (wanted : String) :
    (perform env (.lookupInside name h wanted)).Restores fun s =>
      ((s.bind name h).lookup wanted).mapError .undefinedVariable >>= fun _ => .ok none :=
  ((ScopeM.Restores.lookup wanted).bind fun _ => .pure none).within name h

/-- A step that evaluates an expression restores the scope. -/
theorem eval_restores (e : Expr) :
    (perform env (.eval e)).Restores fun s => e.eval env s >>= fun v => .ok (some v) :=
  (Expr.run_restores env e).bind fun v => .pure (some v)

/-- One step does to the bindings what can be read off it, above the outermost one. -/
theorem step_bindings {opened : List (String × Handle)} {seed : String × Handle}
    (h : scope.bindings = opened ++ [seed]) (s : Step) :
    (step env scope s).2.bindings = openAfterStep opened s ++ [seed] := by
  cases s with
  | enter name e =>
      show (scope.bind name e).bindings = (name, e) :: opened ++ [seed]
      rw [Scope.bindings_bind, h, List.cons_append]
  | leave =>
      show scope.leave.bindings = opened.tail ++ [seed]
      rw [Scope.bindings_leave]
      cases opened with
      | nil =>
          have houter : scope.outer = [] := (List.cons.inj h).2
          rw [if_pos houter, h, List.tail_nil]
      | cons b opened =>
          have houter : scope.outer = opened ++ [seed] := (List.cons.inj h).2
          rw [if_neg (by simp [houter]), houter, List.tail_cons]
  | lookup name => rw [step_scope (lookup_restores name), h, openAfterStep]
  | lookupInside name e wanted =>
      rw [step_scope (lookupInside_restores name e wanted), h, openAfterStep]
  | eval e => rw [step_scope (eval_restores e), h, openAfterStep]

/-- Steps after others go on from the bindings that are open then. -/
theorem scopeAfter_bindings {opened : List (String × Handle)} {seed : String × Handle}
    (h : scope.bindings = opened ++ [seed]) (steps : List Step) :
    (scopeAfter env scope steps).bindings = steps.foldl openAfterStep opened ++ [seed] := by
  induction steps generalizing scope opened with
  | nil => exact h
  | cons s steps ih => exact ih (step_bindings h s)

/-- **Scope discipline.**  A scope that began with one binding shows, after any steps, this binding
and the ones entered and not left since.  Evaluation in place gives what evaluation gives, be it a
value or an error, and the scope that it leaves behind is the one it began in. -/
theorem scope_shows_open (env : Env) (name : String) (h : Handle) (steps : List Step) :
    (scopeAfter env ⟨name, h, []⟩ steps).Shows (openAfter steps ++ [(name, h)]) ∧
      ∀ (e : Expr) (s : Scope), (e.run env).runFrom s = (e.eval env s, s) := by
  refine ⟨?_, fun e s => Expr.run_restores env e s⟩
  have hfresh : (⟨name, h, []⟩ : Scope).bindings = [] ++ [(name, h)] := rfl
  rw [openAfter, ← scopeAfter_bindings hfresh steps]
  exact Scope.shows_bindings _

end DiagramFilter.Session
