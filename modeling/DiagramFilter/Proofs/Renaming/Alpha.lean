import DiagramFilter.Proofs.Typing.Evaluation
import DiagramFilter.Proofs.Writing.WellFormed
import Mathlib.Data.List.Forall2

/-!
# Expressions that differ in bound names

Two expressions are alike up to the names of their bound variables if they have the same shape and
each use of a name in one, for a variable or in front of a focused expression, stands where the
other uses the name that its own binder at the same place has (`Alpha`).  The names that binders
give to each other's variables are paired, inner ones first, and a name that is bound again hides
its outer pairs on both sides (`Paired`).

Such expressions are typed alike and spelled alike, and they have the same value in scopes that
bind paired names to the same elements (`Alpha.eval`).  A focused expression uses its name and binds
it again to the same element, so it pairs no new names.
-/

namespace DiagramFilter

/-- Two names whose innermost pairs in a row are the same one. -/
inductive Paired : List (String × String) → String → String → Prop
  | here {x y : String} {pairs : List (String × String)} : Paired ((x, y) :: pairs) x y
  | there {x y x' y' : String} {pairs : List (String × String)} (hx : x ≠ x') (hy : y ≠ y')
      (h : Paired pairs x y) : Paired ((x', y') :: pairs) x y

/-- Inside a pair the other names are paired as outside. -/
theorem Paired.cons_cases {x y x' y' : String} {pairs : List (String × String)}
    (h : Paired ((x', y') :: pairs) x y) :
    (x = x' ∧ y = y') ∨ (x ≠ x' ∧ y ≠ y' ∧ Paired pairs x y) := by
  cases h with
  | here => exact Or.inl ⟨rfl, rfl⟩
  | there hx hy h => exact Or.inr ⟨hx, hy, h⟩

/-- Two expressions that are alike where paired names stand for each other. -/
inductive Alpha : List (String × String) → Expr → Expr → Prop
  | bool {pairs : List (String × String)} (value : Bool) : Alpha pairs (.bool value) (.bool value)
  | number {pairs : List (String × String)} (value : Float) :
      Alpha pairs (.number value) (.number value)
  | tag {pairs : List (String × String)} (name : String) : Alpha pairs (.tag name) (.tag name)
  | tagNumber {pairs : List (String × String)} (name : String) :
      Alpha pairs (.tagNumber name) (.tagNumber name)
  | var {pairs : List (String × String)} {x y : String} (h : Paired pairs x y) :
      Alpha pairs (.var x) (.var y)
  | not {pairs : List (String × String)} {e e' : Expr} (h : Alpha pairs e e') :
      Alpha pairs (.not e) (.not e')
  | neg {pairs : List (String × String)} {e e' : Expr} (h : Alpha pairs e e') :
      Alpha pairs (.neg e) (.neg e')
  | junction {pairs : List (String × String)} {c : Connective} {es es' : List Expr}
      (hlen : es.length = es'.length) (hes : ∀ p ∈ es.zip es', Alpha pairs p.1 p.2) :
      Alpha pairs (.junction c es) (.junction c es')
  | compare {pairs : List (String × String)} {op : CompareOp} {a a' b b' : Expr}
      (ha : Alpha pairs a a') (hb : Alpha pairs b b') :
      Alpha pairs (.compare op a b) (.compare op a' b')
  | arith {pairs : List (String × String)} {op : ArithOp} {a a' b b' : Expr}
      (ha : Alpha pairs a a') (hb : Alpha pairs b b') :
      Alpha pairs (.arith op a b) (.arith op a' b')
  | quantified {pairs : List (String × String)} {q : Quantifier} {x y : String}
      {source source' body body' : Expr} (hname : IsVariable x → IsVariable y)
      (hsource : Alpha pairs source source') (hbody : Alpha ((x, y) :: pairs) body body') :
      Alpha pairs (.quantified q x source body) (.quantified q y source' body')
  | focus {pairs : List (String × String)} {x y : String} {body body' : Expr}
      (h : Paired pairs x y) (hbody : Alpha pairs body body') :
      Alpha pairs (.focus x body) (.focus y body')
  | count {pairs : List (String × String)} {source source' : Expr}
      (h : Alpha pairs source source') : Alpha pairs (.count source) (.count source')
  | nonEmpty {pairs : List (String × String)} {source source' : Expr}
      (h : Alpha pairs source source') : Alpha pairs (.nonEmpty source) (.nonEmpty source')
  | list {pairs : List (String × String)} (source : ListSource) :
      Alpha pairs (.list source) (.list source)
  | comprehension {pairs : List (String × String)} {x y : String}
      {source source' body body' : Expr} (hname : IsVariable x → IsVariable y)
      (hsource : Alpha pairs source source') (hbody : Alpha ((x, y) :: pairs) body body') :
      Alpha pairs (.comprehension x source body) (.comprehension y source' body')

/-- Two scopes have one current element, and both bind the names of each pair, to the same
element. -/
structure Scope.Corresponds (pairs : List (String × String)) (s t : Scope) : Prop where
  current : s.current = t.current
  lookup : ∀ x y, Paired pairs x y → ∃ h, s.lookup x = .ok h ∧ t.lookup y = .ok h

namespace Scope.Corresponds

variable {pairs : List (String × String)} {s t : Scope} {x y : String} {h : Handle}

/-- Binders of paired names bind them to the same element. -/
theorem bind (hscopes : Corresponds pairs s t) (x y : String) (h : Handle) :
    Corresponds ((x, y) :: pairs) (s.bind x h) (t.bind y h) := by
  refine ⟨rfl, fun a b hpaired => ?_⟩
  rcases hpaired.cons_cases with ⟨rfl, rfl⟩ | ⟨ha, hb, hpaired⟩
  · exact ⟨h, lookup_bind_self, lookup_bind_self⟩
  · obtain ⟨e, hs, ht⟩ := hscopes.lookup a b hpaired
    exact ⟨e, (lookup_bind_of_ne ha).mpr hs, (lookup_bind_of_ne hb).mpr ht⟩

/-- Focusing on the element of paired names changes no name on either side. -/
theorem rebind (hscopes : Corresponds pairs s t) (hs : s.lookup x = .ok h)
    (ht : t.lookup y = .ok h) :
    Corresponds pairs (s.bind x h) (t.bind y h) := by
  refine ⟨rfl, fun a b hpaired => ?_⟩
  obtain ⟨e, hs', ht'⟩ := hscopes.lookup a b hpaired
  exact ⟨e, (lookup_rebind hs).mpr hs', (lookup_rebind ht).mpr ht'⟩

end Scope.Corresponds

namespace Alpha

variable {pairs : List (String × String)} {e e' : Expr}

/-- **Bound names do not matter.**  Expressions that are alike have the same value, or the same
error, in corresponding scopes. -/
theorem eval {env : Env} (h : Alpha pairs e e') {s t : Scope} (hscopes : s.Corresponds pairs t) :
    e'.eval env t = e.eval env s := by
  induction h generalizing s t with
  | bool value | number value => rw [Expr.eval, Expr.eval]
  | tag name | tagNumber name | list source => simp only [Expr.eval, hscopes.current]
  | var h =>
      obtain ⟨e, hs, ht⟩ := hscopes.lookup _ _ h
      rw [Expr.eval, Expr.eval, hs, ht]
  | not h ih | neg h ih | count h ih | nonEmpty h ih => rw [Expr.eval, Expr.eval, ih hscopes]
  | junction hlen hes ih =>
      have hsame := List.forall₂_iff_zip.mpr ⟨hlen, fun {a b} hab => ih (a, b) hab hscopes⟩
      rw [Expr.eval, Expr.eval, Expr.evalJunction_congr hsame]
  | compare ha hb iha ihb | arith ha hb iha ihb =>
      simp only [Expr.eval, iha hscopes, ihb hscopes]
  | @quantified _ _ x y _ _ _ _ _ _ _ ihs ihb | @comprehension _ x y _ _ _ _ _ _ _ ihs ihb =>
      simp only [Expr.eval, ihs hscopes, fun h => ihb (hscopes.bind x y h)]
  | focus h hbody ih =>
      obtain ⟨e, hs, ht⟩ := hscopes.lookup _ _ h
      simp only [Expr.eval, hs, ht, Except.mapError, bind, Except.bind, ih (hscopes.rebind hs ht)]

/-- Each member of the second of two lists of one length stands beside one of the first. -/
theorem exists_mem_zip {es es' : List Expr} (hlen : es.length = es'.length) (he' : e' ∈ es') :
    ∃ e ∈ es, (e, e') ∈ es.zip es' := by
  rw [← List.map_snd_zip (Nat.le_of_eq hlen.symm)] at he'
  obtain ⟨⟨e, e''⟩, hmem, rfl⟩ := List.mem_map.mp he'
  exact ⟨e, (List.of_mem_zip hmem).1, hmem⟩

/-- Expressions that are alike are of one category. -/
theorem typed (h : Alpha pairs e e') {bound bound' : List String} {c : Category}
    (htyped : Typed bound e c) (hbound : ∀ x y, Paired pairs x y → y ∈ bound') :
    Typed bound' e' c := by
  -- Inside a binder the new name is bound too.
  have hcons : ∀ {pairs : List (String × String)} {bound' : List String} (x y : String),
      (∀ a b, Paired pairs a b → b ∈ bound') →
      ∀ a b, Paired ((x, y) :: pairs) a b → b ∈ y :: bound' := by
    intro pairs bound' x y hbound a b hpaired
    rcases hpaired.cons_cases with ⟨-, rfl⟩ | ⟨-, -, hpaired⟩
    · exact List.mem_cons_self
    · exact List.mem_cons_of_mem _ (hbound a b hpaired)
  induction h generalizing bound bound' c with
  | bool value =>
      cases htyped
      exact .bool value
  | number value =>
      cases htyped
      exact .number value
  | tag name =>
      cases htyped
      exact .tag name
  | tagNumber name =>
      cases htyped
      exact .tagNumber name
  | var h =>
      cases htyped
      exact .var (hbound _ _ h)
  | not h ih =>
      cases htyped with
      | not he => exact .not (ih he hbound)
  | neg h ih =>
      cases htyped with
      | neg he => exact .neg (ih he hbound)
  | junction hlen hes ih =>
      cases htyped with
      | junction htyped =>
          refine .junction fun e' he' => ?_
          obtain ⟨e, he, hmem⟩ := exists_mem_zip hlen he'
          exact ih _ hmem (htyped e he) hbound
  | compare ha hb iha ihb =>
      cases htyped with
      | equality hop ha hb => exact .equality hop (iha ha hbound) (ihb hb hbound)
      | relation hop ha hb => exact .relation hop (iha ha hbound) (ihb hb hbound)
  | arith ha hb iha ihb =>
      cases htyped with
      | arith ha hb => exact .arith (iha ha hbound) (ihb hb hbound)
  | quantified hname hsource hbody ihs ihb =>
      cases htyped with
      | quantified hsource hbody =>
          exact .quantified (ihs hsource hbound) (ihb hbody (hcons _ _ hbound))
  | focus h hbody ih =>
      cases htyped with
      | focus hname hbody hk => exact .focus (hbound _ _ h) (ih hbody hbound) hk
  | count h ih =>
      cases htyped with
      | count hsource => exact .count (ih hsource hbound)
  | nonEmpty h ih =>
      cases htyped with
      | nonEmpty hsource => exact .nonEmpty (ih hsource hbound)
  | list source =>
      cases htyped
      exact .list source
  | comprehension hname hsource hbody ihs ihb =>
      cases htyped with
      | comprehension hsource hbody =>
          exact .comprehension (ihs hsource hbound) (ihb hbody (hcons _ _ hbound))

/-- What is like an expression with a spelling has one. -/
theorem spellable (h : Alpha pairs e e') (hspell : Spellable e)
    (hpairs : ∀ x y, Paired pairs x y → IsVariable x → IsVariable y) : Spellable e' := by
  have hcons : ∀ {pairs : List (String × String)} {x y : String}, (IsVariable x → IsVariable y) →
      (∀ a b, Paired pairs a b → IsVariable a → IsVariable b) →
      ∀ a b, Paired ((x, y) :: pairs) a b → IsVariable a → IsVariable b := by
    intro pairs x y hname hpairs a b hpaired
    rcases hpaired.cons_cases with ⟨rfl, rfl⟩ | ⟨-, -, hpaired⟩
    · exact hname
    · exact hpairs a b hpaired
  induction h with
  | bool value | number value | tag name | tagNumber name | list source => exact hspell
  | var h =>
      cases hspell with
      | var hname => exact .var (hpairs _ _ h hname)
  | not h ih =>
      cases hspell with
      | not he => exact .not (ih he hpairs)
  | neg h ih =>
      cases hspell with
      | neg he => exact .neg (ih he hpairs)
  | junction hlen hes ih =>
      cases hspell with
      | junction htwo hspell =>
          refine .junction (hlen ▸ htwo) fun e' he' => ?_
          obtain ⟨e, he, hmem⟩ := exists_mem_zip hlen he'
          exact ih _ hmem (hspell e he) hpairs
  | compare ha hb iha ihb =>
      cases hspell with
      | compare ha hb => exact .compare (iha ha hpairs) (ihb hb hpairs)
  | arith ha hb iha ihb =>
      cases hspell with
      | arith ha hb => exact .arith (iha ha hpairs) (ihb hb hpairs)
  | quantified hname hsource hbody ihs ihb =>
      cases hspell with
      | quantified hvariable hsource hbody =>
          exact .quantified (hname hvariable) (ihs hsource hpairs) (ihb hbody (hcons hname hpairs))
  | focus h hbody ih =>
      cases hspell with
      | focus hname hbody => exact .focus (hpairs _ _ h hname) (ih hbody hpairs)
  | count h ih =>
      cases hspell with
      | count hsource =>
          cases h with
          | comprehension => exact .count (ih hsource hpairs)
  | nonEmpty h ih =>
      cases hspell with
      | nonEmpty hsource =>
          cases h with
          | comprehension => exact .nonEmpty (ih hsource hpairs)
  | comprehension hname hsource hbody ihs ihb =>
      cases hspell with
      | comprehension hvariable hsource hbody =>
          exact .comprehension (hname hvariable) (ihs hsource hpairs)
            (ihb hbody (hcons hname hpairs))

end Alpha

end DiagramFilter
