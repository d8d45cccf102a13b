import DiagramFilter.Eval.Basic
import DiagramFilter.Proofs.Scoping.Bindings

/-!
# What evaluation sees of a scope

The value of an expression in a scope depends on the current element and on the elements of the
names that the expression uses without binding them; nothing else of the scope has a say, however
many bindings there are and however they hide each other.

Two consequences are stated with it.  A focused expression changes which element is current and
what no name means.  And wherever the name of the outermost element is not bound again, focusing on
it brings the value that the body has on that element.

* `Expr.eval_agree`: scopes that agree on the free names give the same value or the same error.
* `Inside.lookup_iff`: on the way into an expression a name keeps its element.
-/

namespace DiagramFilter

namespace Expr

mutual

/-- The names that an expression uses without binding them. -/
def free : Expr → List String
  | var name => [name]
  | not e | neg e | count e | nonEmpty e => e.free
  | junction _ es => freeAll es
  | compare _ a b | arith _ a b => a.free ++ b.free
  | quantified _ name source body | comprehension name source body =>
    source.free ++ body.free.filter (· ≠ name)
  | focus name body => name :: body.free
  | bool _ | number _ | tag _ | tagNumber _ | list _ | unknownList _ | foreign _ => []

/-- The names that several expressions use without binding them. -/
def freeAll : List Expr → List String
  | [] => []
  | e :: es => e.free ++ freeAll es

end

end Expr

/-- Two scopes have one current element, and both bind each of some names, to the same element. -/
structure Scope.Agree (names : List String) (s t : Scope) : Prop where
  current : s.current = t.current
  lookup : ∀ x ∈ names, ∃ h, s.lookup x = .ok h ∧ t.lookup x = .ok h

namespace Scope.Agree

variable {names fewer : List String} {s t : Scope} {name : String} {h : Handle}

/-- Scopes that agree on names agree on fewer. -/
theorem mono (hagree : Agree names s t) (hsub : ∀ x ∈ fewer, x ∈ names) : Agree fewer s t :=
  ⟨hagree.current, fun x hx => hagree.lookup x (hsub x hx)⟩

/-- Scopes that agree on two rows of names agree on the first. -/
theorem left {others : List String} (hagree : Agree (names ++ others) s t) : Agree names s t :=
  hagree.mono fun _ hx => List.mem_append_left _ hx

/-- They agree on the second too. -/
theorem right {others : List String} (hagree : Agree (others ++ names) s t) : Agree names s t :=
  hagree.mono fun _ hx => List.mem_append_right _ hx

/-- Inside a binding its name needs no agreement outside. -/
theorem bind (hagree : Agree (names.filter (· ≠ name)) s t) (h : Handle) :
    Agree names (s.bind name h) (t.bind name h) := by
  refine ⟨rfl, fun x hx => ?_⟩
  by_cases hname : x = name
  · rw [hname]
    exact ⟨h, lookup_bind_self, lookup_bind_self⟩
  · obtain ⟨e, hs, ht⟩ := hagree.lookup x (List.mem_filter.mpr ⟨hx, by simpa using hname⟩)
    exact ⟨e, (lookup_bind_of_ne hname).mpr hs, (lookup_bind_of_ne hname).mpr ht⟩

end Scope.Agree

namespace Expr

variable {env : Env}

mutual

/-- **Coincidence.**  Scopes that agree on the free names of an expression give it the same value,
or the same error. -/
theorem eval_agree {s t : Scope} : (e : Expr) → s.Agree e.free t → e.eval env s = e.eval env t
  | bool _, _ | number _, _ | unknownList _, _ | foreign _, _ => by simp only [eval]
  | tag _, hagree | tagNumber _, hagree | list _, hagree => by simp only [eval, hagree.current]
  | var name, hagree => by
      obtain ⟨h, hs, ht⟩ := hagree.lookup name (by simp [free])
      simp only [eval, hs, ht]
  | not e, hagree | neg e, hagree | count e, hagree | nonEmpty e, hagree => by
      simp only [free] at hagree
      simp only [eval, eval_agree e hagree]
  | junction c es, hagree => by
      simp only [free] at hagree
      simp only [eval, evalJunction_agree c es hagree]
  | compare op a b, hagree | arith op a b, hagree => by
      simp only [free] at hagree
      simp only [eval, eval_agree a hagree.left, eval_agree b hagree.right]
  | quantified q name source body, hagree | comprehension name source body, hagree => by
      simp only [free] at hagree
      have hbody : ∀ h, body.eval env (s.bind name h) = body.eval env (t.bind name h) :=
        fun h => eval_agree body (hagree.right.bind h)
      simp only [eval, eval_agree source hagree.left, hbody]
  | focus name body, hagree => by
      simp only [free] at hagree
      obtain ⟨h, hs, ht⟩ := hagree.lookup name List.mem_cons_self
      have hrest : s.Agree (body.free.filter (· ≠ name)) t :=
        hagree.mono fun x hx => List.mem_cons_of_mem _ (List.mem_filter.mp hx).1
      simp only [eval, hs, ht, Except.mapError, bind, Except.bind, eval_agree body (hrest.bind h)]

/-- Scopes that agree on the free names of all operands give a connective the same value. -/
theorem evalJunction_agree {s t : Scope} (c : Connective) : (es : List Expr) →
    s.Agree (freeAll es) t → evalJunction env s c es = evalJunction env t c es
  | [], _ => by simp only [evalJunction]
  | e :: es, hagree => by
      simp only [freeAll] at hagree
      simp only [evalJunction, eval_agree e hagree.left, evalJunction_agree c es hagree.right]

end

/-- A focused expression is its body where the element of its name is current and all names keep
their elements. -/
theorem eval_focus {s : Scope} {name : String} {h : Handle} (hname : s.lookup name = .ok h)
    (body : Expr) : (focus name body).eval env s = body.eval env (s.bind name h) := by
  simp only [eval, hname, Except.mapError, bind, Except.bind]

end Expr

/-- On the way of the evaluation of `e` in scope `s` into its parts, `part` is evaluated in `t`,
under binders of other names than `name`.  A binder may take any element. -/
inductive Inside (name : String) : (s : Scope) → (e : Expr) → (t : Scope) → (part : Expr) → Prop
  | here {s : Scope} {e : Expr} : Inside name s e s e
  | not {s t : Scope} {e part : Expr} (h : Inside name s e t part) : Inside name s (.not e) t part
  | neg {s t : Scope} {e part : Expr} (h : Inside name s e t part) : Inside name s (.neg e) t part
  | junction {s t : Scope} {c : Connective} {es : List Expr} {e part : Expr} (he : e ∈ es)
      (h : Inside name s e t part) : Inside name s (.junction c es) t part
  | compareLeft {s t : Scope} {op : CompareOp} {a b part : Expr} (h : Inside name s a t part) :
      Inside name s (.compare op a b) t part
  | compareRight {s t : Scope} {op : CompareOp} {a b part : Expr} (h : Inside name s b t part) :
      Inside name s (.compare op a b) t part
  | arithLeft {s t : Scope} {op : ArithOp} {a b part : Expr} (h : Inside name s a t part) :
      Inside name s (.arith op a b) t part
  | arithRight {s t : Scope} {op : ArithOp} {a b part : Expr} (h : Inside name s b t part) :
      Inside name s (.arith op a b) t part
  | quantifiedSource {s t : Scope} {q : Quantifier} {x : String} {source body part : Expr}
      (h : Inside name s source t part) : Inside name s (.quantified q x source body) t part
  | quantifiedBody {s t : Scope} {q : Quantifier} {x : String} {source body part : Expr}
      (hx : x ≠ name) {e : Handle} (h : Inside name (s.bind x e) body t part) :
      Inside name s (.quantified q x source body) t part
  | focus {s t : Scope} {x : String} {body part : Expr} {e : Handle} (hx : s.lookup x = .ok e)
      (h : Inside name (s.bind x e) body t part) : Inside name s (.focus x body) t part
  | count {s t : Scope} {source part : Expr} (h : Inside name s source t part) :
      Inside name s (.count source) t part
  | nonEmpty {s t : Scope} {source part : Expr} (h : Inside name s source t part) :
      Inside name s (.nonEmpty source) t part
  | comprehensionSource {s t : Scope} {x : String} {source body part : Expr}
      (h : Inside name s source t part) : Inside name s (.comprehension x source body) t part
  | comprehensionBody {s t : Scope} {x : String} {source body part : Expr} (hx : x ≠ name)
      {e : Handle} (h : Inside name (s.bind x e) body t part) :
      Inside name s (.comprehension x source body) t part

/-- On the way into an expression a name that no binder takes keeps its element. -/
theorem Inside.lookup_iff {name : String} {s t : Scope} {e part : Expr}
    (h : Inside name s e t part) (x : Handle) : t.lookup name = .ok x ↔ s.lookup name = .ok x := by
  induction h with
  | here => rfl
  | quantifiedBody hx h ih => exact ih.trans (Scope.lookup_bind_of_ne hx.symm)
  | comprehensionBody hx h ih => exact ih.trans (Scope.lookup_bind_of_ne hx.symm)
  | focus hx h ih => exact ih.trans (Scope.lookup_rebind hx)
  | _ => assumption

/-- **Scoping.**  Evaluation sees a scope only through its current element and the elements of the
free names.  So a focused expression moves the current element and the meaning of no name.  And
wherever the name of the outermost element is not bound again, an expression without other free
names that is focused on it has the value that it has on that element by itself. -/
theorem Expr.eval_sees_free_names (env : Env) :
    (∀ (e : Expr) (s t : Scope), s.Agree e.free t → e.eval env s = e.eval env t) ∧
    (∀ (name : String) (body : Expr) (s : Scope) (h : Handle), s.lookup name = .ok h →
      (focus name body).eval env s = body.eval env (s.bind name h) ∧
      (s.bind name h).current = h ∧
      ∀ x e, (s.bind name h).lookup x = .ok e ↔ s.lookup x = .ok e) ∧
    (∀ (name : String) (body : Expr) (s t : Scope), s.lookup name = .ok t.current →
      (∀ x ∈ body.free, ∃ h, s.lookup x = .ok h ∧ t.lookup x = .ok h) →
      (focus name body).eval env s = body.eval env t) ∧
    (∀ (root rule : Expr) (top : Handle) (s : Scope),
      Inside thisName ⟨thisName, top, []⟩ root s (focus thisName rule) →
      (∀ x ∈ rule.free, x = thisName) →
      (focus thisName rule).eval env s = rule.evalOn env top) := by
  have hmoved : ∀ (name : String) (body : Expr) (s t : Scope), s.lookup name = .ok t.current →
      (∀ x ∈ body.free, ∃ h, s.lookup x = .ok h ∧ t.lookup x = .ok h) →
      (focus name body).eval env s = body.eval env t := by
    intro name body s t hname hfree
    rw [eval_focus hname]
    refine eval_agree body ⟨Scope.current_bind, fun x hx => ?_⟩
    obtain ⟨h, hs, ht⟩ := hfree x hx
    exact ⟨h, (Scope.lookup_rebind hname).mpr hs, ht⟩
  refine ⟨fun e s t => eval_agree e, fun name body s h hname => ?_, hmoved, ?_⟩
  · exact ⟨eval_focus hname body, Scope.current_bind, fun x e => Scope.lookup_rebind hname⟩
  · intro root rule top s hinside hclosed
    have htop : (⟨thisName, top, []⟩ : Scope).lookup thisName = .ok top := Scope.lookup_name
    have hthis : s.lookup thisName = .ok top := (hinside.lookup_iff top).mpr htop
    refine hmoved _ _ _ _ hthis fun x hx => ?_
    rw [hclosed x hx]
    exact ⟨top, hthis, htop⟩

/-- Two scopes agree on `x` though one hides an `x` and the other has it further out; and the
element itself is found again inside a quantifier over its children. -/
theorem Expr.eval_sees_free_names_hidden :
    (Expr.focus "x" (.tag "a")).eval ⟨{}, .usual⟩ ⟨"x", 1, [("x", 2), (thisName, 0)]⟩ =
      (Expr.focus "x" (.tag "a")).eval ⟨{}, .usual⟩ ⟨"y", 1, [("x", 1)]⟩ ∧
    (Expr.focus "x" (.var "y")).eval ⟨{}, .usual⟩ ⟨"y", 3, [("x", 4)]⟩ =
      (Expr.var "y").eval ⟨{}, .usual⟩ ⟨"x", 4, [("y", 3), ("x", 4)]⟩ ∧
    (Expr.focus "x" (.var "y")).eval ⟨{}, .usual⟩ ⟨"y", 3, [("x", 4)]⟩ =
      (Expr.var "y").eval ⟨{}, .usual⟩ ⟨"z", 4, [("y", 3)]⟩ ∧
    (Expr.focus thisName (.tag "a")).eval ⟨{}, .usual⟩ ⟨"x", 7, [(thisName, 0)]⟩ =
      (Expr.tag "a").evalOn ⟨{}, .usual⟩ 0 := by
  obtain ⟨hagree, hfocus, hmoved, htop⟩ := Expr.eval_sees_free_names ⟨{}, .usual⟩
  refine ⟨hagree _ _ _ ⟨rfl, ?_⟩, (hfocus _ _ _ 4 rfl).1, hmoved _ _ _ _ rfl ?_, ?_⟩
  · intro x hx
    rw [List.mem_singleton.mp hx]
    exact ⟨1, rfl, rfl⟩
  · intro x hx
    rw [List.mem_singleton.mp hx]
    exact ⟨3, rfl, rfl⟩
  · refine htop (.quantified .any "x" (.list .children) (.focus thisName (.tag "a"))) _ _ _ ?_ ?_
    · exact .quantifiedBody (by decide) (e := 7) .here
    · simp [Expr.free]

end DiagramFilter
