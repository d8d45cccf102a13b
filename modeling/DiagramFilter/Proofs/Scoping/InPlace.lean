import DiagramFilter.Eval.InPlace

/-!
# Evaluation leaves its scope as it was

Work restores its scope if it leaves behind, from whatever scope it begins in, that very scope, with
a result as well as with an error.  Every way in which evaluation puts work together keeps this:
what enters a binding leaves it again, also when an error or an early end of the pass comes in
between.  So evaluation in place finds the values that `Expr.eval` gives, and the scope is the same
before and after (`Expr.run_restores`).
-/

namespace DiagramFilter

namespace ScopeM

variable {α β : Type} {s : Scope}

/-- A result leaves the scope as it is. -/
@[simp]
theorem runFrom_pure (a : α) : runFrom (pure a) s = (.ok a, s) := rfl

/-- A change is made to the scope. -/
@[simp]
theorem runFrom_modify (change : Scope → Scope) : runFrom (modify change) s = (.ok ⟨⟩, change s) :=
  rfl

/-- Work after other work begins in the scope that this leaves behind. -/
theorem runFrom_bind (work : ScopeM α) (next : α → ScopeM β) :
    runFrom (work >>= next) s =
      match runFrom work s with
      | (.ok a, t) => runFrom (next a) t
      | (.error e, t) => (.error e, t) := by
  have hbind : runFrom (work >>= next) s =
      match work s with
      | (a, t) => ExceptT.bindCont next a t := rfl
  have hwork : runFrom work s = work s := rfl
  rw [hbind, hwork]
  rcases work s with ⟨e | a, t⟩ <;> rfl

/-- The change after `finally` is made to whatever scope the work leaves behind. -/
theorem runFrom_finally (work : ScopeM α) (change : Scope → Scope) :
    runFrom (tryFinally work (modify change)) s =
      ((runFrom work s).1, change (runFrom work s).2) := by
  have hwork : runFrom work s = work s := rfl
  rw [hwork]
  rcases hs : work s with ⟨e | a, t⟩ <;>
    simp [runFrom, ExceptT.run, StateT.run, tryFinally, MonadFinally.tryFinally', Functor.map,
      ExceptT.map, ExceptT.mk, bind, StateT.bind, hs] <;> rfl

/-- From every scope, work gives what a function of the scope says and leaves that scope behind. -/
def Restores (work : ScopeM α) (result : Scope → Except EvalError α) : Prop :=
  ∀ s, runFrom work s = (result s, s)

namespace Restores

variable {work : ScopeM α} {result : Scope → Except EvalError α}

/-- A result restores the scope. -/
theorem pure (a : α) : Restores (Pure.pure a) fun _ => .ok a := fun _ => rfl

/-- An error restores the scope. -/
theorem throw (e : EvalError) : Restores (MonadExcept.throw e : ScopeM α) fun _ => .error e :=
  fun _ => rfl

/-- A look at the scope restores it. -/
theorem get : Restores MonadState.get fun s => .ok s := fun _ => rfl

/-- A check restores the scope. -/
theorem ofExcept (x : Except EvalError α) : Restores (MonadExcept.ofExcept x) fun _ => x := by
  intro s
  cases x <;> rfl

/-- Work after other work goes on from the scope in which that began. -/
theorem bind {next : α → ScopeM β} {result' : α → Scope → Except EvalError β}
    (hwork : Restores work result) (hnext : ∀ a, Restores (next a) (result' a)) :
    Restores (work >>= next) fun s => result s >>= fun a => result' a s := by
  intro s
  show _ = (result s >>= fun a => result' a s, s)
  rw [runFrom_bind, hwork s]
  cases result s with
  | error e => rfl
  | ok a => exact hnext a s

/-- A choice restores the scope if both ways do. -/
theorem ite {p : Prop} [Decidable p] {work' : ScopeM α} {result' : Scope → Except EvalError α}
    (hwork : Restores work result) (hwork' : Restores work' result') :
    Restores (if p then work else work') fun s => if p then result s else result' s := by
  by_cases hp : p
  · simpa only [hp, ↓reduceIte] using hwork
  · simpa only [hp, ↓reduceIte] using hwork'

/-- A lookup restores the scope. -/
theorem lookup (name : String) :
    Restores (ScopeM.lookup name) fun s => (s.lookup name).mapError .undefinedVariable :=
  get.bind fun s => ofExcept ((s.lookup name).mapError .undefinedVariable)

/-- A binding for the duration of work is gone afterwards. -/
theorem within (name : String) (h : Handle) (hwork : Restores work result) :
    Restores (ScopeM.within name h work) fun s => result (s.bind name h) := by
  intro s
  rw [ScopeM.within, runFrom_bind]
  simp only [runFrom_modify, runFrom_finally, hwork (s.bind name h), Scope.leave_bind]

/-- A pass that may end early has left the binding of the element that ends it. -/
theorem decideWithin {body : ScopeM Value} {value : Scope → Except EvalError Value}
    (hbody : Restores body value) (deciding : Bool) (name : String) (hs : List Handle) :
    Restores (ScopeM.decideWithin deciding name body hs) fun s =>
      decideOver deciding (fun h => (value (s.bind name h)).map Value.truth) hs := by
  intro s
  induction hs with
  | nil => rfl
  | cons h hs ih =>
      rw [ScopeM.decideWithin, runFrom_bind] at ih ⊢
      simp only [List.forIn_cons, bind_assoc, runFrom_bind, runFrom_modify, runFrom_finally,
        hbody (s.bind name h)]
      rw [decideOver]
      cases hv : value (s.bind name h) with
      | error e => rfl
      | ok v =>
          simp only [Except.map, Bind.bind, Except.bind]
          by_cases hd : v.truth = deciding
          · simp only [hd, ↓reduceIte]
            rfl
          · simp only [hd, ↓reduceIte]
            exact ih

/-- A pass that keeps elements puts them behind those kept before. -/
theorem keepWithin {body : ScopeM Value} {value : Scope → Except EvalError Value}
    (hbody : Restores body value) (name : String) (hs kept : List Handle) :
    Restores (ScopeM.keepWithin name body hs kept) fun s =>
      (keepPassing (fun h => (value (s.bind name h)).map Value.truth) hs).map (kept ++ ·) := by
  intro s
  induction hs generalizing kept with
  | nil => simp [keepPassing, ScopeM.keepWithin, Except.map]
  | cons h hs ih =>
      have hkept := ih kept
      have hmore := ih (kept ++ [h])
      rw [ScopeM.keepWithin, runFrom_bind] at hkept hmore ⊢
      simp only [List.forIn_cons, bind_assoc, runFrom_bind, runFrom_modify, runFrom_finally,
        hbody (s.bind name h)]
      rw [keepPassing]
      cases hv : value (s.bind name h) with
      | error e => rfl
      | ok v =>
          simp only [Except.map, Bind.bind, Except.bind] at hkept hmore ⊢
          generalize keepPassing _ hs = rest at hkept hmore ⊢
          cases hd : v.truth with
          | true =>
              refine hmore.trans ?_
              cases rest <;> simp [Pure.pure, Except.pure]
          | false =>
              refine hkept.trans ?_
              cases rest <;> rfl

/-- A pass that keeps elements keeps those that pass the test. -/
theorem keepWithin_nil {body : ScopeM Value} {value : Scope → Except EvalError Value}
    (hbody : Restores body value) (name : String) (hs : List Handle) :
    Restores (ScopeM.keepWithin name body hs []) fun s =>
      keepPassing (fun h => (value (s.bind name h)).map Value.truth) hs := by
  intro s
  refine (hbody.keepWithin name hs [] s).trans ?_
  dsimp only [List.nil_append]
  cases keepPassing (fun h => (value (s.bind name h)).map Value.truth) hs <;> rfl

end Restores
end ScopeM

namespace Expr

open ScopeM.Restores in
mutual

/-- **Evaluation restores its scope.**  From every scope it finds the value or the error that the
expression has there, and leaves that scope behind, from any depth of binders. -/
theorem run_restores (env : Env) : (e : Expr) → (e.run env).Restores fun s => e.eval env s
  | bool _ | number _ => by
      simp only [run, eval]
      exact pure _
  | tag name => by
      simp only [run, eval]
      exact get.bind fun s => pure _
  | tagNumber name => by
      simp only [run, eval]
      exact get.bind fun s => (ofExcept _).bind fun x => pure _
  | var name => by
      simp only [run, eval]
      exact (lookup name).bind fun h => pure _
  | not e => by
      simp only [run, eval]
      exact (run_restores env e).bind fun v => pure _
  | neg e => by
      simp only [run, eval]
      exact (run_restores env e).bind fun v => ofExcept _
  | junction c es => by
      simp only [run, eval]
      exact (runJunction_restores env c es).bind fun value => pure _
  | compare op a b => by
      simp only [run, eval]
      exact (run_restores env a).bind fun v => (run_restores env b).bind fun w =>
        (ofExcept _).bind fun value => pure _
  | arith op a b => by
      simp only [run, eval]
      exact (run_restores env a).bind fun v => (run_restores env b).bind fun w => ofExcept _
  | quantified q name source body => by
      simp only [run, eval]
      exact (run_restores env source).bind fun list => (ofExcept _).bind fun handles =>
        ((run_restores env body).decideWithin q.deciding name handles).bind fun value => pure _
  | focus name body => by
      simp only [run, eval]
      exact (lookup name).bind fun h => (run_restores env body).within name h
  | count source | nonEmpty source => by
      simp only [run, eval]
      exact (run_restores env source).bind fun list => (ofExcept _).bind fun length => pure _
  | list source => by
      simp only [run, eval]
      exact get.bind fun s => pure _
  | unknownList _ | foreign _ => by
      simp only [run, eval]
      exact throw _
  | comprehension name source body => by
      simp only [run, eval]
      exact (run_restores env source).bind fun list => (ofExcept _).bind fun handles =>
        ((run_restores env body).keepWithin_nil name handles).bind fun kept => pure _

/-- The truth value of a connective is found without a trace in the scope as well. -/
theorem runJunction_restores (env : Env) (c : Connective) : (es : List Expr) →
    (runJunction env c es).Restores fun s => evalJunction env s c es
  | [] => by
      simp only [runJunction, evalJunction]
      exact pure _
  | e :: es => by
      simp only [runJunction, evalJunction]
      exact (run_restores env e).bind fun v =>
        (ScopeM.Restores.pure _).ite (runJunction_restores env c es)

end

end Expr

end DiagramFilter
