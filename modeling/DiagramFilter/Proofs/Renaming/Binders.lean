import DiagramFilter.Proofs.Renaming.Alpha
import DiagramFilter.Proofs.Writing.RoundTrip

/-!
# Renaming a bound variable

The variable of a quantifier or comprehension may get any other name that is not used in the body:
the binder is given the new name, and so are the uses of the variable in the body, for itself and in
front of focused expressions.  The list of the binder stands outside, and a binder of the same name
further in hides the variable, so neither changes there.

One such change at any place leaves an expression that is like the one before (`Renamed.alpha`).  So
a rule stays a rule, and it is the same for every element (`Expr.rename_bound`).
-/

namespace DiagramFilter

namespace Expr

mutual

/-- All names of variables in an expression, in front of focused expressions and in binders too. -/
def names : Expr → List String
  | var name => [name]
  | not e | neg e | count e | nonEmpty e => e.names
  | junction _ es => namesAll es
  | compare _ a b | arith _ a b => a.names ++ b.names
  | quantified _ name source body | comprehension name source body =>
    name :: (source.names ++ body.names)
  | focus name body => name :: body.names
  | bool _ | number _ | tag _ | tagNumber _ | list _ | unknownList _ | foreign _ => []

/-- All names of variables in several expressions. -/
def namesAll : List Expr → List String
  | [] => []
  | e :: es => e.names ++ namesAll es

end

/-- A name after `x` has become `y`. -/
def newName (x y name : String) : String :=
  if name = x then y else name

mutual

/-- An expression with `y` for the variable `x`, wherever `x` is not bound again. -/
def rename (x y : String) : Expr → Expr
  | var name => var (newName x y name)
  | not e => not (e.rename x y)
  | neg e => neg (e.rename x y)
  | junction c es => junction c (renameAll x y es)
  | compare op a b => compare op (a.rename x y) (b.rename x y)
  | arith op a b => arith op (a.rename x y) (b.rename x y)
  | quantified q name source body =>
    quantified q name (source.rename x y) (if name = x then body else body.rename x y)
  | focus name body => focus (newName x y name) (body.rename x y)
  | count source => count (source.rename x y)
  | nonEmpty source => nonEmpty (source.rename x y)
  | comprehension name source body =>
    comprehension name (source.rename x y) (if name = x then body else body.rename x y)
  | e@(bool _) | e@(number _) | e@(tag _) | e@(tagNumber _) | e@(list _) | e@(unknownList _)
  | e@(foreign _) => e

/-- Several expressions with `y` for the variable `x`. -/
def renameAll (x y : String) : List Expr → List Expr
  | [] => []
  | e :: es => e.rename x y :: renameAll x y es

end

/-- The names of an operand are among those of the group. -/
theorem mem_namesAll {es : List Expr} {e : Expr} {z : String} (he : e ∈ es) (hz : z ∈ e.names) :
    z ∈ namesAll es := by
  induction es with
  | nil => cases he
  | cons e' es ih =>
      rw [namesAll, List.mem_append]
      rcases List.mem_cons.mp he with rfl | he
      · exact Or.inl hz
      · exact Or.inr (ih he)

/-- Beside each member of a list stands its image. -/
theorem mem_zip_map {f : Expr → Expr} {es : List Expr} {p : Expr × Expr}
    (hp : p ∈ es.zip (es.map f)) : ∃ e ∈ es, p = (e, f e) := by
  induction es with
  | nil => cases hp
  | cons e es ih =>
      rw [List.map_cons, List.zip_cons_cons] at hp
      rcases List.mem_cons.mp hp with rfl | hp
      · exact ⟨e, List.mem_cons_self, rfl⟩
      · obtain ⟨e', he', rfl⟩ := ih hp
        exact ⟨e', List.mem_cons_of_mem _ he', rfl⟩

/-- The operands of a group are renamed one by one. -/
theorem renameAll_eq (x y : String) (es : List Expr) : renameAll x y es = es.map (rename x y) := by
  induction es with
  | nil => rw [renameAll, List.map_nil]
  | cons e es ih => rw [renameAll, ih, List.map_cons]

end Expr

/-- The second expression is the first one with another name for the variable of one quantifier or
comprehension, somewhere in it. -/
inductive Renamed : Expr → Expr → Prop
  | quantified {q : Quantifier} {x y : String} {source body : Expr} (hy : IsVariable y)
      (hfresh : y ∉ body.names) :
      Renamed (.quantified q x source body) (.quantified q y source (body.rename x y))
  | comprehension {x y : String} {source body : Expr} (hy : IsVariable y)
      (hfresh : y ∉ body.names) :
      Renamed (.comprehension x source body) (.comprehension y source (body.rename x y))
  | not {e e' : Expr} (h : Renamed e e') : Renamed (.not e) (.not e')
  | neg {e e' : Expr} (h : Renamed e e') : Renamed (.neg e) (.neg e')
  | junction {c : Connective} {before behind : List Expr} {e e' : Expr} (h : Renamed e e') :
      Renamed (.junction c (before ++ e :: behind)) (.junction c (before ++ e' :: behind))
  | compareLeft {op : CompareOp} {a a' b : Expr} (h : Renamed a a') :
      Renamed (.compare op a b) (.compare op a' b)
  | compareRight {op : CompareOp} {a b b' : Expr} (h : Renamed b b') :
      Renamed (.compare op a b) (.compare op a b')
  | arithLeft {op : ArithOp} {a a' b : Expr} (h : Renamed a a') :
      Renamed (.arith op a b) (.arith op a' b)
  | arithRight {op : ArithOp} {a b b' : Expr} (h : Renamed b b') :
      Renamed (.arith op a b) (.arith op a b')
  | quantifiedSource {q : Quantifier} {x : String} {source source' body : Expr}
      (h : Renamed source source') :
      Renamed (.quantified q x source body) (.quantified q x source' body)
  | quantifiedBody {q : Quantifier} {x : String} {source body body' : Expr}
      (h : Renamed body body') :
      Renamed (.quantified q x source body) (.quantified q x source body')
  | focus {x : String} {body body' : Expr} (h : Renamed body body') :
      Renamed (.focus x body) (.focus x body')
  | count {source source' : Expr} (h : Renamed source source') :
      Renamed (.count source) (.count source')
  | nonEmpty {source source' : Expr} (h : Renamed source source') :
      Renamed (.nonEmpty source) (.nonEmpty source')
  | comprehensionSource {x : String} {source source' body : Expr} (h : Renamed source source') :
      Renamed (.comprehension x source body) (.comprehension x source' body)
  | comprehensionBody {x : String} {source body body' : Expr} (h : Renamed body body') :
      Renamed (.comprehension x source body) (.comprehension x source body')

section

variable {pairs : List (String × String)} {bound names : List String} {e body : Expr}
  {c : Category} {x y name : String}

/-- Inside a binder, names stay paired with their images if the binder keeps its own name and no
other one becomes the same. -/
theorem paired_cons {f : String → String} (hname : f name = name)
    (hne : ∀ z, z ≠ name → f z ≠ name)
    (hbound : ∀ z ∈ bound, z ≠ name → z ∈ names → Paired pairs z (f z)) :
    ∀ z ∈ name :: bound, z ∈ names → Paired ((name, name) :: pairs) z (f z) := by
  intro z hz hn
  by_cases heq : z = name
  · rw [heq, hname]
    exact .here
  · exact .there heq (hne z heq) (hbound z (List.mem_of_ne_of_mem heq hz) heq hn)

/-- An expression is like itself where its names are paired with themselves. -/
theorem Typed.alpha_self (h : Typed bound e c)
    (hbound : ∀ z ∈ bound, z ∈ e.names → Paired pairs z z) : Alpha pairs e e := by
  induction h generalizing pairs with
  | bool value => exact .bool value
  | number value => exact .number value
  | tag name => exact .tag name
  | tagNumber name => exact .tagNumber name
  | var hname => exact .var (hbound _ hname (by simp [Expr.names]))
  | not he ih => exact .not (ih fun z hz hn => hbound z hz (by simp [Expr.names, hn]))
  | neg he ih => exact .neg (ih fun z hz hn => hbound z hz (by simp [Expr.names, hn]))
  | junction hes ih =>
      refine .junction rfl fun p hp => ?_
      obtain ⟨e, he, rfl⟩ := Expr.mem_zip_map (f := id) (by rwa [List.map_id])
      exact ih e he fun z hz hn => hbound z hz (by simpa [Expr.names] using Expr.mem_namesAll he hn)
  | equality hop ha hb iha ihb | relation hop ha hb iha ihb | arith ha hb iha ihb =>
      have hleft := iha fun z hz hn => hbound z hz (by simp [Expr.names, hn])
      have hright := ihb fun z hz hn => hbound z hz (by simp [Expr.names, hn])
      constructor
      · exact hleft
      · exact hright
  | quantified hsource hbody ihs ihb =>
      refine .quantified id (ihs fun z hz hn => hbound z hz (by simp [Expr.names, hn])) (ihb ?_)
      exact paired_cons rfl (fun _ hne => hne) fun z hz _ hn =>
        hbound z hz (by simp [Expr.names, hn])
  | focus hname hbody hk ih =>
      exact .focus (hbound _ hname (by simp [Expr.names]))
        (ih fun z hz hn => hbound z hz (by simp [Expr.names, hn]))
  | count hsource ih => exact .count (ih fun z hz hn => hbound z hz (by simp [Expr.names, hn]))
  | nonEmpty hsource ih =>
      exact .nonEmpty (ih fun z hz hn => hbound z hz (by simp [Expr.names, hn]))
  | list source => exact .list source
  | comprehension hsource hbody ihs ihb =>
      refine .comprehension id (ihs fun z hz hn => hbound z hz (by simp [Expr.names, hn])) (ihb ?_)
      exact paired_cons rfl (fun _ hne => hne) fun z hz _ hn =>
        hbound z hz (by simp [Expr.names, hn])

/-- Under a binder of `x` nothing is renamed, and under any other one the body is. -/
theorem Typed.alpha_body (hbody : Typed (name :: bound) body (.value .boolean)) (hname : y ≠ name)
    (hbound : ∀ z ∈ bound, z ∈ body.names → Paired pairs z (Expr.newName x y z))
    (hrename : (∀ z ∈ name :: bound, z ∈ body.names →
        Paired ((name, name) :: pairs) z (Expr.newName x y z)) →
      Alpha ((name, name) :: pairs) body (body.rename x y)) :
    Alpha ((name, name) :: pairs) body (if name = x then body else body.rename x y) := by
  split
  · rename_i hx
    refine hbody.alpha_self (paired_cons (f := id) rfl (fun _ hne => hne) fun z hz hne hn => ?_)
    have hpaired := hbound z hz hn
    rwa [Expr.newName, if_neg (hx ▸ hne)] at hpaired
  · rename_i hx
    refine hrename (paired_cons (if_neg hx) (fun z hne => ?_) fun z hz _ hn => hbound z hz hn)
    rw [Expr.newName]
    split
    · exact hname
    · exact hne

/-- An expression is like the one with `y` for `x`, where `x` is paired with `y` and the other names
with themselves. -/
theorem Typed.alpha_rename (h : Typed bound e c) (hfresh : y ∉ e.names)
    (hbound : ∀ z ∈ bound, z ∈ e.names → Paired pairs z (Expr.newName x y z)) :
    Alpha pairs e (e.rename x y) := by
  induction h generalizing pairs with
  | bool value => exact .bool value
  | number value => exact .number value
  | tag name => exact .tag name
  | tagNumber name => exact .tagNumber name
  | var hname => exact .var (hbound _ hname (by simp [Expr.names]))
  | not he ih =>
      simp only [Expr.names] at hfresh hbound
      exact .not (ih hfresh hbound)
  | neg he ih =>
      simp only [Expr.names] at hfresh hbound
      exact .neg (ih hfresh hbound)
  | junction hes ih =>
      simp only [Expr.names] at hfresh hbound
      rw [Expr.rename, Expr.renameAll_eq]
      refine .junction (List.length_map _).symm fun p hp => ?_
      obtain ⟨e, he, rfl⟩ := Expr.mem_zip_map hp
      exact ih e he (fun hn => hfresh (Expr.mem_namesAll he hn)) fun z hz hn =>
        hbound z hz (Expr.mem_namesAll he hn)
  | equality hop ha hb iha ihb | relation hop ha hb iha ihb | arith ha hb iha ihb =>
      simp only [Expr.names, List.mem_append, not_or] at hfresh hbound
      have hleft := iha hfresh.1 fun z hz hn => hbound z hz (Or.inl hn)
      have hright := ihb hfresh.2 fun z hz hn => hbound z hz (Or.inr hn)
      constructor
      · exact hleft
      · exact hright
  | quantified hsource hbody ihs ihb =>
      simp only [Expr.names, List.mem_cons, List.mem_append, not_or] at hfresh hbound
      obtain ⟨hname, hfreshSource, hfreshBody⟩ := hfresh
      exact .quantified id (ihs hfreshSource fun z hz hn => hbound z hz (Or.inr (Or.inl hn)))
        (hbody.alpha_body hname (fun z hz hn => hbound z hz (Or.inr (Or.inr hn))) (ihb hfreshBody))
  | focus hname hbody hk ih =>
      simp only [Expr.names, List.mem_cons, not_or] at hfresh hbound
      exact .focus (hbound _ hname (Or.inl rfl)) (ih hfresh.2 fun z hz hn =>
        hbound z hz (Or.inr hn))
  | count hsource ih =>
      simp only [Expr.names] at hfresh hbound
      exact .count (ih hfresh hbound)
  | nonEmpty hsource ih =>
      simp only [Expr.names] at hfresh hbound
      exact .nonEmpty (ih hfresh hbound)
  | list source => exact .list source
  | comprehension hsource hbody ihs ihb =>
      simp only [Expr.names, List.mem_cons, List.mem_append, not_or] at hfresh hbound
      obtain ⟨hname, hfreshSource, hfreshBody⟩ := hfresh
      exact .comprehension id (ihs hfreshSource fun z hz hn => hbound z hz (Or.inr (Or.inl hn)))
        (hbody.alpha_body hname (fun z hz hn => hbound z hz (Or.inr (Or.inr hn))) (ihb hfreshBody))

/-- The body of a binder is like the renamed one where the variable is paired with its new name. -/
theorem Typed.alpha_renamed_body (h : Typed (x :: bound) body c) (hfresh : y ∉ body.names)
    (hbound : ∀ z ∈ bound, Paired pairs z z) :
    Alpha ((x, y) :: pairs) body (body.rename x y) := by
  refine h.alpha_rename hfresh fun z hz hn => ?_
  rw [Expr.newName]
  split
  · rename_i hx
    rw [hx]
    exact .here
  · rename_i hx
    have hy : z ≠ y := fun heq => hfresh (heq ▸ hn)
    exact .there hx hy (hbound z (List.mem_of_ne_of_mem hx hz))

/-- Inside a binder that keeps its name, each name is still paired with itself. -/
theorem paired_self_cons (x : String) (hbound : ∀ z ∈ bound, Paired pairs z z) :
    ∀ z ∈ x :: bound, Paired ((x, x) :: pairs) z z := by
  intro z hz
  by_cases heq : z = x
  · rw [heq]
    exact .here
  · exact .there heq heq (hbound z (List.mem_of_ne_of_mem heq hz))

/-- Where each name is paired with itself, what does not change is like itself. -/
theorem Typed.alpha_refl (h : Typed bound e c) (hbound : ∀ z ∈ bound, Paired pairs z z) :
    Alpha pairs e e :=
  h.alpha_self fun z hz _ => hbound z hz

/-- Operands are alike with themselves if their names are paired with themselves. -/
theorem alpha_zip_self {es : List Expr} {p : Expr × Expr} (hes : ∀ e ∈ es, Typed bound e c)
    (hbound : ∀ z ∈ bound, Paired pairs z z) (hp : p ∈ es.zip es) : Alpha pairs p.1 p.2 := by
  obtain ⟨e, he, rfl⟩ := Expr.mem_zip_map (f := id) (by rwa [List.map_id])
  exact (hes e he).alpha_refl hbound

/-- **A renaming gives a like expression.**  The pairs that the changed place stands under pair each
name with itself, and the changed binder adds its old name with its new one. -/
theorem Renamed.alpha {e' : Expr} (h : Renamed e e') (htyped : Typed bound e c)
    (hbound : ∀ z ∈ bound, Paired pairs z z) : Alpha pairs e e' := by
  -- The binders around the changed one bind the same name in both expressions.
  induction h generalizing pairs bound c with
  | quantified hy hfresh =>
      cases htyped with
      | quantified hsource hbody =>
          exact .quantified (fun _ => hy) (hsource.alpha_refl hbound)
            (hbody.alpha_renamed_body hfresh hbound)
  | comprehension hy hfresh =>
      cases htyped with
      | comprehension hsource hbody =>
          exact .comprehension (fun _ => hy) (hsource.alpha_refl hbound)
            (hbody.alpha_renamed_body hfresh hbound)
  | not h ih =>
      cases htyped with
      | not he => exact .not (ih he hbound)
  | neg h ih =>
      cases htyped with
      | neg he => exact .neg (ih he hbound)
  | @junction c before behind e e' h ih =>
      cases htyped with
      | junction hes =>
          obtain ⟨hbefore, hes⟩ := List.forall_mem_append.mp hes
          obtain ⟨he, hbehind⟩ := List.forall_mem_cons.mp hes
          refine .junction (by simp) fun p hp => ?_
          rw [List.zip_append rfl, List.zip_cons_cons, List.mem_append, List.mem_cons] at hp
          rcases hp with hp | rfl | hp
          · exact alpha_zip_self hbefore hbound hp
          · exact ih he hbound
          · exact alpha_zip_self hbehind hbound hp
  | compareLeft h ih =>
      cases htyped with
      | equality hop ha hb => exact .compare (ih ha hbound) (hb.alpha_refl hbound)
      | relation hop ha hb => exact .compare (ih ha hbound) (hb.alpha_refl hbound)
  | compareRight h ih =>
      cases htyped with
      | equality hop ha hb => exact .compare (ha.alpha_refl hbound) (ih hb hbound)
      | relation hop ha hb => exact .compare (ha.alpha_refl hbound) (ih hb hbound)
  | arithLeft h ih =>
      cases htyped with
      | arith ha hb => exact .arith (ih ha hbound) (hb.alpha_refl hbound)
  | arithRight h ih =>
      cases htyped with
      | arith ha hb => exact .arith (ha.alpha_refl hbound) (ih hb hbound)
  | quantifiedSource h ih =>
      cases htyped with
      | quantified hsource hbody =>
          exact .quantified id (ih hsource hbound) (hbody.alpha_refl (paired_self_cons _ hbound))
  | quantifiedBody h ih =>
      cases htyped with
      | quantified hsource hbody =>
          exact .quantified id (hsource.alpha_refl hbound) (ih hbody (paired_self_cons _ hbound))
  | focus h ih =>
      cases htyped with
      | focus hname hbody hk => exact .focus (hbound _ hname) (ih hbody hbound)
  | count h ih =>
      cases htyped with
      | count hsource => exact .count (ih hsource hbound)
  | nonEmpty h ih =>
      cases htyped with
      | nonEmpty hsource => exact .nonEmpty (ih hsource hbound)
  | comprehensionSource h ih =>
      cases htyped with
      | comprehension hsource hbody =>
          exact .comprehension id (ih hsource hbound) (hbody.alpha_refl (paired_self_cons _ hbound))
  | comprehensionBody h ih =>
      cases htyped with
      | comprehension hsource hbody =>
          exact .comprehension id (hsource.alpha_refl hbound) (ih hbody (paired_self_cons _ hbound))

end

namespace Expr

/-- **Bound variables may be renamed.**  A rule that is read from text, with another name for the
variable of one binder, has a written form that is read as this rule, and it has the same value, or
the same error, on every element of every diagram. -/
theorem rename_bound {text : String} {e e' : Expr} (hparse : Expr.parse text = .ok e)
    (hrenamed : Renamed e e') :
    ∃ text', e'.WrittenAs text' ∧ ReadAs text' e' ∧
      ∀ env h, e'.evalOn env h = e.evalOn env h ∧ e'.holdsOn env h = e.holdsOn env h := by
  have hwellFormed := Expr.wellFormed_of_parse hparse
  -- Outside of all binders only the name of the element itself is bound.
  have hthis : ∀ x y, Paired [(thisName, thisName)] x y → x = thisName ∧ y = thisName := by
    intro x y hpaired
    rcases hpaired.cons_cases with hpaired | ⟨-, -, hpaired⟩
    · exact hpaired
    · cases hpaired
  have halpha : Alpha [(thisName, thisName)] e e' := by
    refine hrenamed.alpha hwellFormed.typed fun z hz => ?_
    rw [List.mem_singleton.mp hz]
    exact .here
  have htyped : Typed [thisName] e' (.value .boolean) :=
    halpha.typed hwellFormed.typed fun x y hpaired => by simp [(hthis x y hpaired).2]
  have hspell : Spellable e' := by
    refine halpha.spellable hwellFormed.spellable fun x y hpaired hvariable => ?_
    obtain ⟨rfl, rfl⟩ := hthis x y hpaired
    exact hvariable
  obtain ⟨text', htext, hpiece⟩ := htyped.writes hspell
  refine ⟨text', writtenAs_of_format htext, hpiece.readAs htyped, fun env h => ?_⟩
  have hscopes : Scope.Corresponds [(thisName, thisName)] ⟨thisName, h, []⟩ ⟨thisName, h, []⟩ := by
    refine ⟨rfl, fun x y hpaired => ?_⟩
    obtain ⟨rfl, rfl⟩ := hthis x y hpaired
    exact ⟨h, rfl, rfl⟩
  have hvalue : e'.evalOn env h = e.evalOn env h := halpha.eval hscopes
  exact ⟨hvalue, by rw [holdsOn, holdsOn, hvalue]⟩

/-- Some child has the tag `a`, with the name `x` for the child. -/
def someTagged (x : String) : Expr :=
  quantified .any x (list .children) (focus x (tag "a"))

/-- The name in front of a focused expression is renamed with its binder. -/
theorem rename_bound_focus :
    Expr.parse "exists[x:children|x<#a>]" = .ok (someTagged "x") ∧
      Renamed (someTagged "x") (someTagged "y") ∧
      ∃ text', (someTagged "y").WrittenAs text' ∧ ReadAs text' (someTagged "y") ∧
        ∀ env h, (someTagged "y").evalOn env h = (someTagged "x").evalOn env h ∧
          (someTagged "y").holdsOn env h = (someTagged "x").holdsOn env h := by
  have hparse : Expr.parse "exists[x:children|x<#a>]" = .ok (someTagged "x") := by
    have htokens : Lexer.tokenize "exists[x:children|x<#a>]" = .ok
        [⟨.quantifier .any, "exists", 0⟩, ⟨.leftBracket, "[", 6⟩, ⟨.name, "x", 7⟩, ⟨.colon, ":", 8⟩,
          ⟨.list .children, "children", 9⟩, ⟨.pipe, "|", 17⟩, ⟨.name, "x", 18⟩,
          ⟨.compare .lt, "<", 19⟩, ⟨.hash, "#", 20⟩, ⟨.name, "a", 21⟩, ⟨.compare .gt, ">", 22⟩,
          ⟨.rightBracket, "]", 23⟩, ⟨.finish, "", 24⟩] := by
      decide +kernel
    rw [Expr.parse, htokens]
    rfl
  have hy : IsVariable "y" := ⟨Lexer.isIdentifier_of_scanName (by decide) (by decide), by decide⟩
  have hrenamed : Renamed (someTagged "x") (someTagged "y") :=
    .quantified hy (by simp [names])
  exact ⟨hparse, hrenamed, rename_bound hparse hrenamed⟩

end Expr

end DiagramFilter
