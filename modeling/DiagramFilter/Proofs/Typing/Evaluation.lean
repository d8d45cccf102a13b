import DiagramFilter.Eval.Basic
import DiagramFilter.Outcome
import DiagramFilter.Proofs.Number.Operations
import DiagramFilter.Proofs.Scoping.Bindings
import DiagramFilter.Proofs.Typing.Judgement

/-!
# Typed expressions have values

An expression that is typed in the names of a scope has a value there, and the value is of the
category that the judgement gives: nothing is unbound, no operator meets operands that it does not
take, and every double has a quotient and a remainder by every other one.  The only thing asked of
the surroundings is that the numbers of the registry are numbers (`Registry.Total`).

The main statement is `Typed.eval`, by induction on the judgement.
-/

namespace DiagramFilter

/-- A value is of a category. -/
inductive Value.Belongs : Value → Category → Prop
  | bool (value : Bool) : Belongs (.bool value) (.value .boolean)
  | number (x : Float) : Belongs (.number (.float x)) (.value .numeric)
  | element (h : Handle) : Belongs (.element h) (.value .element)
  | list (hs : List Handle) : Belongs (.list hs) .list

/-- Every reserved number of a registry is a number, whatever the diagram and the element. -/
def Registry.Total (r : Registry) : Prop :=
  ∀ entry ∈ r.numeric, ∀ g h, ∃ x, (entry.2 g h).toFloat = .ok x

/-- The usual reserved numbers are counts. -/
theorem Registry.usual_total : Registry.usual.Total := by
  intro entry hentry g h
  simp only [Registry.usual, List.mem_cons, List.not_mem_nil, or_false] at hentry
  rcases hentry with rfl | rfl | rfl | rfl <;> exact ⟨_, rfl⟩

/-- Under a total registry every tag has a number. -/
theorem Env.tagNumber_ok {env : Env} (htotal : env.registry.Total) (name : String) (h : Handle) :
    ∃ x, env.tagNumber name h = .ok x := by
  unfold Env.tagNumber
  split
  · exact ⟨_, rfl⟩
  · cases hf : env.registry.numeric.lookup name with
    | none => exact ⟨0, by simp [Registry.numeric?, hf]⟩
    | some f =>
        obtain ⟨before, after, heq, -⟩ := List.lookup_eq_some_iff.mp hf
        have hmem : (name, f) ∈ env.registry.numeric := by simp [heq]
        obtain ⟨x, hx⟩ := htotal (name, f) hmem env.diagram h
        exact ⟨x, by simpa [Registry.numeric?, hf] using hx⟩

/-- Equality compares any values. -/
theorem Value.compare_equality {op : CompareOp} (hop : op.isEquality = true) (v w : Value) :
    ∃ b, v.compare op w = .ok b := by
  cases op with
  | eq => exact ⟨_, rfl⟩
  | ne => exact ⟨_, rfl⟩
  | _ => cases hop

/-- Inside a binding the names are those outside and the new one. -/
theorem Scope.mem_names_bind {s : Scope} {bound : List String} (hs : ∀ x ∈ bound, x ∈ s.names)
    (name : String) (h : Handle) : ∀ x ∈ name :: bound, x ∈ (s.bind name h).names := by
  intro x hx
  simp only [Scope.names, Scope.bindings, Scope.bind, List.mem_eraseDups] at hs ⊢
  rcases List.mem_cons.mp hx with rfl | hx
  · exact List.mem_cons_self
  · exact List.mem_cons_of_mem _ (hs x hx)

/-- A test with an answer for every element decides every list. -/
theorem decideOver_ok (deciding : Bool) {test : Handle → Except EvalError Bool} {hs : List Handle}
    (htest : ∀ h ∈ hs, ∃ b, test h = .ok b) : ∃ b, decideOver deciding test hs = .ok b := by
  induction hs with
  | nil => exact ⟨_, rfl⟩
  | cons h hs ih =>
      obtain ⟨b, hb⟩ := htest h List.mem_cons_self
      obtain ⟨rest, hrest⟩ := ih fun h' hh' => htest h' (List.mem_cons_of_mem _ hh')
      by_cases hd : b = deciding
      · exact ⟨deciding, by simp [decideOver, hb, hd, bind, Except.bind, pure, Except.pure]⟩
      · exact ⟨rest, by simp [decideOver, hb, hd, hrest, bind, Except.bind]⟩

/-- A test with an answer for every element filters every list. -/
theorem keepPassing_ok {test : Handle → Except EvalError Bool} {hs : List Handle}
    (htest : ∀ h ∈ hs, ∃ b, test h = .ok b) : ∃ kept, keepPassing test hs = .ok kept := by
  induction hs with
  | nil => exact ⟨_, rfl⟩
  | cons h hs ih =>
      obtain ⟨b, hb⟩ := htest h List.mem_cons_self
      obtain ⟨kept, hkept⟩ := ih fun h' hh' => htest h' (List.mem_cons_of_mem _ hh')
      exact ⟨if b then h :: kept else kept,
        by simp [keepPassing, hb, hkept, bind, Except.bind, pure, Except.pure]⟩

/-- A connective has a truth value where all its operands have. -/
theorem Expr.evalJunction_ok {env : Env} {scope : Scope} (c : Connective) {es : List Expr}
    (hes : ∀ e ∈ es, ∃ b, e.eval env scope = .ok (.bool b)) :
    ∃ b, Expr.evalJunction env scope c es = .ok b := by
  induction es with
  | nil => exact ⟨!c.deciding, by simp [Expr.evalJunction]⟩
  | cons e es ih =>
      obtain ⟨b, hb⟩ := hes e List.mem_cons_self
      obtain ⟨rest, hrest⟩ := ih fun e' he' => hes e' (List.mem_cons_of_mem _ he')
      by_cases hd : b = c.deciding
      · exact ⟨c.deciding,
          by simp [Expr.evalJunction, hb, hd, Value.truth, bind, Except.bind, pure, Except.pure]⟩
      · exact ⟨rest, by simp [Expr.evalJunction, hb, hd, hrest, Value.truth, bind, Except.bind]⟩

/-- A connective between operands of the same values has the same value. -/
theorem Expr.evalJunction_congr {env : Env} {s t : Scope} {c : Connective} {es es' : List Expr}
    (hes : List.Forall₂ (fun e e' => e'.eval env t = e.eval env s) es es') :
    Expr.evalJunction env t c es' = Expr.evalJunction env s c es := by
  induction hes with
  | nil => rfl
  | cons he hes ih => rw [Expr.evalJunction, Expr.evalJunction, he, ih]

/-- The body of a binder tests every element, if it has a value wherever its names are bound. -/
theorem Expr.test_ok {env : Env} {scope : Scope} {bound : List String} {name : String} {body : Expr}
    {c : Category} (hs : ∀ x ∈ bound, x ∈ scope.names)
    (hbody : ∀ {scope : Scope}, (∀ x ∈ name :: bound, x ∈ scope.names) →
      ∃ v, body.eval env scope = .ok v ∧ v.Belongs c) (hs' : List Handle) :
    ∀ h ∈ hs', ∃ b, (body.eval env (scope.bind name h)).map Value.truth = .ok b := by
  intro h _
  obtain ⟨v, hv, -⟩ := hbody (Scope.mem_names_bind hs name h)
  exact ⟨v.truth, by rw [hv]; rfl⟩

/-- **Type soundness.**  Where every bound name has an element, a typed expression has a value of
its category. -/
theorem Typed.eval {env : Env} (htotal : env.registry.Total) {bound : List String} {e : Expr}
    {c : Category} (h : Typed bound e c) {scope : Scope} (hs : ∀ x ∈ bound, x ∈ scope.names) :
    ∃ v, e.eval env scope = .ok v ∧ v.Belongs c := by
  -- A body is evaluated in scopes with a name more, one for each element of the list.
  induction h generalizing scope with
  | bool value => exact ⟨_, by rw [Expr.eval], .bool value⟩
  | number value => exact ⟨_, by rw [Expr.eval], .number value⟩
  | tag name => exact ⟨_, by rw [Expr.eval], .bool _⟩
  | tagNumber name =>
      obtain ⟨x, hx⟩ := Env.tagNumber_ok htotal name scope.current
      exact ⟨_, by rw [Expr.eval, hx]; rfl, .number x⟩
  | var hname =>
      obtain ⟨h, hh⟩ := Scope.lookup_ok (hs _ hname)
      exact ⟨_, by rw [Expr.eval, hh]; rfl, .element h⟩
  | not he ih =>
      obtain ⟨v, hv, hb⟩ := ih hs
      exact ⟨_, by rw [Expr.eval, hv]; rfl, .bool _⟩
  | neg he ih =>
      obtain ⟨v, hv, hb⟩ := ih hs
      cases hb with
      | number x => exact ⟨_, by rw [Expr.eval, hv]; rfl, .number (-x)⟩
  | @junction bound c es hes ih =>
      have htruth : ∀ e ∈ es, ∃ b, e.eval env scope = .ok (.bool b) := by
        intro e he
        obtain ⟨v, hv, hbool⟩ := ih e he hs
        cases hbool with
        | bool b => exact ⟨b, hv⟩
      obtain ⟨b, hb⟩ := Expr.evalJunction_ok c htruth
      exact ⟨_, by rw [Expr.eval, hb]; rfl, .bool b⟩
  | equality hop ha hb iha ihb =>
      obtain ⟨v, hv, -⟩ := iha hs
      obtain ⟨w, hw, -⟩ := ihb hs
      obtain ⟨b, hb⟩ := Value.compare_equality hop v w
      exact ⟨_, by rw [Expr.eval, hv, hw]; simp only [bind, Except.bind, hb]; rfl, .bool b⟩
  | @relation bound op a b hop ha hb iha ihb =>
      obtain ⟨v, hv, hvn⟩ := iha hs
      obtain ⟨w, hw, hwn⟩ := ihb hs
      cases hvn with
      | number x =>
          cases hwn with
          | number y => exact ⟨_, Expr.eval_compare_float op hv hw, .bool _⟩
  | @arith bound op a b ha hb iha ihb =>
      obtain ⟨v, hv, hvn⟩ := iha hs
      obtain ⟨w, hw, hwn⟩ := ihb hs
      cases hvn with
      | number x =>
          cases hwn with
          | number y => exact ⟨_, Expr.eval_arith_float op hv hw, .number _⟩
  | @quantified bound q name source body hsource hbody ihs ihb =>
      obtain ⟨v, hv, hlist⟩ := ihs hs
      cases hlist with
      | list hs' =>
          obtain ⟨b, hb⟩ := decideOver_ok q.deciding (Expr.test_ok hs ihb hs')
          exact ⟨_, by rw [Expr.eval, hv]; simp only [bind, Except.bind, Value.handles, hb]; rfl,
            .bool b⟩
  | @focus bound name body k hname hbody hk ih =>
      obtain ⟨h, hh⟩ := Scope.lookup_ok (hs _ hname)
      have hnames : ∀ x ∈ bound, x ∈ (scope.bind name h).names :=
        fun x hx => Scope.mem_names_bind hs name h x (List.mem_cons_of_mem _ hx)
      obtain ⟨v, hv, hvk⟩ := ih hnames
      exact ⟨v, by rw [Expr.eval, hh]; exact hv, hvk⟩
  | count hsource ih =>
      obtain ⟨v, hv, hlist⟩ := ih hs
      cases hlist with
      | list hs' => exact ⟨_, by rw [Expr.eval, hv]; rfl, .number _⟩
  | nonEmpty hsource ih =>
      obtain ⟨v, hv, hlist⟩ := ih hs
      cases hlist with
      | list hs' => exact ⟨_, by rw [Expr.eval, hv]; rfl, .bool _⟩
  | list source => exact ⟨_, by rw [Expr.eval], .list _⟩
  | @comprehension bound name source body hsource hbody ihs ihb =>
      obtain ⟨v, hv, hlist⟩ := ihs hs
      cases hlist with
      | list hs' =>
          obtain ⟨kept, hkept⟩ := keepPassing_ok (Expr.test_ok hs ihb hs')
          exact ⟨_, by rw [Expr.eval, hv]; simp only [bind, Except.bind, Value.handles, hkept]; rfl,
            .list kept⟩

/-- Where a typed expression has a value, it is of its category, bound names or not. -/
theorem Typed.belongs_of_eval {env : Env} {bound : List String} {e : Expr} {c : Category}
    (h : Typed bound e c) {scope : Scope} {v : Value} (hv : e.eval env scope = .ok v) :
    v.Belongs c := by
  induction h generalizing scope v with
  | bool value | tag name =>
      rw [Expr.eval] at hv
      cases hv
      exact .bool _
  | number value =>
      rw [Expr.eval] at hv
      cases hv
      exact .number value
  | tagNumber name =>
      rw [Expr.eval] at hv
      obtain ⟨x, -, hv⟩ := bind_eq_ok.mp hv
      cases hv
      exact .number x
  | var hname =>
      rw [Expr.eval] at hv
      obtain ⟨h, -, hv⟩ := bind_eq_ok.mp hv
      cases hv
      exact .element h
  | not he ih | junction hes ih =>
      rw [Expr.eval] at hv
      obtain ⟨w, -, hv⟩ := bind_eq_ok.mp hv
      cases hv
      exact .bool _
  | neg he ih =>
      rw [Expr.eval] at hv
      obtain ⟨w, hw, hv⟩ := bind_eq_ok.mp hv
      cases ih hw with
      | number x =>
          cases hv
          exact .number (-x)
  | equality hop ha hb iha ihb | relation hop ha hb iha ihb | quantified hsource hbody iha ihb =>
      rw [Expr.eval] at hv
      obtain ⟨v, -, hv⟩ := bind_eq_ok.mp hv
      obtain ⟨w, -, hv⟩ := bind_eq_ok.mp hv
      obtain ⟨b, -, hv⟩ := bind_eq_ok.mp hv
      cases hv
      exact .bool b
  | arith ha hb iha ihb =>
      rw [Expr.eval] at hv
      obtain ⟨v, hv', hv⟩ := bind_eq_ok.mp hv
      obtain ⟨w, hw, hv⟩ := bind_eq_ok.mp hv
      cases iha hv' with
      | number x =>
          cases ihb hw with
          | number y =>
              rw [Value.arith_float] at hv
              cases hv
              exact .number _
  | focus hname hbody hk ih =>
      rw [Expr.eval] at hv
      obtain ⟨h, -, hv⟩ := bind_eq_ok.mp hv
      exact ih hv
  | count hsource ih =>
      rw [Expr.eval] at hv
      obtain ⟨l, -, hv⟩ := bind_eq_ok.mp hv
      obtain ⟨n, -, hv⟩ := bind_eq_ok.mp hv
      cases hv
      exact .number _
  | nonEmpty hsource ih =>
      rw [Expr.eval] at hv
      obtain ⟨l, -, hv⟩ := bind_eq_ok.mp hv
      obtain ⟨n, -, hv⟩ := bind_eq_ok.mp hv
      cases hv
      exact .bool _
  | list source =>
      rw [Expr.eval] at hv
      cases hv
      exact .list _
  | comprehension hsource hbody ihs ihb =>
      rw [Expr.eval] at hv
      obtain ⟨l, -, hv⟩ := bind_eq_ok.mp hv
      obtain ⟨hs, -, hv⟩ := bind_eq_ok.mp hv
      obtain ⟨kept, -, hv⟩ := bind_eq_ok.mp hv
      cases hv
      exact .list kept

end DiagramFilter
