import DiagramFilter.Proofs.Laws.Passing
import DiagramFilter.Proofs.Typing.Evaluation

/-!
# Negations pushed inward

A negation in front of a connective, a quantifier, an equality, another negation or a truth value
can be pushed into it, and a connective inside one of its own sort can be dissolved.  `Rewrites`
says that an expression becomes another one by any number of such changes, at any places.

No change of this sort can be noticed (`Rewrites.sound`): the operands and elements are passed over
in the same order, and the passage stops at the same one, because what decides a connective or a
quantifier is the opposite of what decides its dual.  So also the error is the same where there is
one.  Only two negations in a row need that what they stand before is a truth value.

`Expr.nnf` makes all changes that concern negations at once.
-/

namespace DiagramFilter

/-- The second expression comes from the first one by pushing negations inward and by dissolving
connectives in connectives of the same sort, at any places. -/
inductive Rewrites : Expr → Expr → Prop
  | notBool (value : Bool) : Rewrites (.not (.bool value)) (.bool !value)
  | notNot (e : Expr) : Rewrites (.not (.not e)) e
  | notJunction (c : Connective) (es : List Expr) :
      Rewrites (.not (.junction c es)) (.junction c.dual (es.map .not))
  | notQuantified (q : Quantifier) (name : String) (source body : Expr) :
      Rewrites (.not (.quantified q name source body)) (.quantified q.dual name source (.not body))
  | notEq (a b : Expr) : Rewrites (.not (.compare .eq a b)) (.compare .ne a b)
  | notNe (a b : Expr) : Rewrites (.not (.compare .ne a b)) (.compare .eq a b)
  | flatten (c : Connective) (before inner behind : List Expr) :
      Rewrites (.junction c (before ++ .junction c inner :: behind))
        (.junction c (before ++ inner ++ behind))
  | refl (e : Expr) : Rewrites e e
  | trans {a b c : Expr} (h : Rewrites a b) (h' : Rewrites b c) : Rewrites a c
  | not {e e' : Expr} (h : Rewrites e e') : Rewrites (.not e) (.not e')
  | neg {e e' : Expr} (h : Rewrites e e') : Rewrites (.neg e) (.neg e')
  | junction {e e' : Expr} (c : Connective) (before behind : List Expr) (h : Rewrites e e') :
      Rewrites (.junction c (before ++ e :: behind)) (.junction c (before ++ e' :: behind))
  | compare {a a' b b' : Expr} (op : CompareOp) (ha : Rewrites a a') (hb : Rewrites b b') :
      Rewrites (.compare op a b) (.compare op a' b')
  | arith {a a' b b' : Expr} (op : ArithOp) (ha : Rewrites a a') (hb : Rewrites b b') :
      Rewrites (.arith op a b) (.arith op a' b')
  | quantified {source source' body body' : Expr} (q : Quantifier) (name : String)
      (hsource : Rewrites source source') (hbody : Rewrites body body') :
      Rewrites (.quantified q name source body) (.quantified q name source' body')
  | focus {body body' : Expr} (name : String) (h : Rewrites body body') :
      Rewrites (.focus name body) (.focus name body')
  | count {source source' : Expr} (h : Rewrites source source') :
      Rewrites (.count source) (.count source')
  | nonEmpty {source source' : Expr} (h : Rewrites source source') :
      Rewrites (.nonEmpty source) (.nonEmpty source')
  | comprehension {source source' body body' : Expr} (name : String)
      (hsource : Rewrites source source') (hbody : Rewrites body body') :
      Rewrites (.comprehension name source body) (.comprehension name source' body')

namespace Expr

variable {env : Env} {s : Scope}

/-- Two negations of a truth value cancel out. -/
theorem eval_notNot {bound : List String} {e : Expr} (h : Typed bound e (.value .boolean)) :
    e.eval env s = (not (not e)).eval env s := by
  rw [eval, eval]
  cases hv : e.eval env s with
  | error error => rfl
  | ok v =>
      cases h.belongs_of_eval hv with
      | bool b =>
          show _ = Except.ok (Value.bool !!b)
          rw [Bool.not_not]

/-- The negation of a group is the dual group of the negations. -/
theorem eval_notJunction (c : Connective) (es : List Expr) :
    (junction c.dual (es.map .not)).eval env s = (not (junction c es)).eval env s := by
  rw [eval, eval, eval, evalJunction_not]
  cases evalJunction env s c es <;> rfl

/-- The negation of a quantifier is the dual one about the negation. -/
theorem eval_notQuantified (q : Quantifier) (name : String) (source body : Expr) :
    (quantified q.dual name source (not body)).eval env s =
      (not (quantified q name source body)).eval env s := by
  have htest : (not body).test env s name = fun h => (body.test env s name h).map (!·) :=
    funext (test_not name body)
  rw [eval, eval_quantified, eval_quantified, htest, Quantifier.deciding_dual]
  cases source.elements env s with
  | error error => rfl
  | ok hs =>
      show decideOver _ _ hs >>= _ = (decideOver _ _ hs >>= _) >>= _
      rw [decideOver_not]
      cases decideOver q.deciding (body.test env s name) hs <;> rfl

/-- Unequal is the negation of equal. -/
theorem eval_notEq (a b : Expr) :
    (compare .ne a b).eval env s = (not (compare .eq a b)).eval env s := by
  simp only [eval, bind_assoc]
  rfl

/-- Equal is the negation of unequal. -/
theorem eval_notNe (a b : Expr) :
    (compare .eq a b).eval env s = (not (compare .ne a b)).eval env s := by
  have hvalues : ∀ v w : Value, v.compare .eq w = (v.compare .ne w).map (!·) := by
    intro v w
    show Except.ok _ = Except.ok !!_
    rw [Bool.not_not]
  simp only [eval, bind_assoc, hvalues]
  rfl

/-- A group inside a group of the same connective may be spread out. -/
theorem eval_flatten (c : Connective) (before inner behind : List Expr) :
    (junction c (before ++ inner ++ behind)).eval env s =
      (junction c (before ++ junction c inner :: behind)).eval env s := by
  have hinner : evalJunction env s c (junction c inner :: behind) =
      evalJunction env s c (inner ++ behind) := by
    rw [evalJunction, eval, evalJunction_append, bind_assoc]
    rfl
  rw [eval, eval, List.append_assoc, evalJunction_append c before (inner ++ behind),
    evalJunction_append c before (_ :: behind), hinner]

end Expr

/-- **Changes cannot be noticed.**  A typed expression stays of its category and keeps its value, or
has none for the same reason, whatever the diagram, the reserved tags and the scope. -/
theorem Rewrites.sound {bound : List String} {e e' : Expr} {c : Category} (h : Rewrites e e')
    (htyped : Typed bound e c) :
    Typed bound e' c ∧ ∀ env s, e'.eval env s = e.eval env s := by
  -- The parts of an expression are of other categories than the whole, and a body has a name more.
  induction h generalizing bound c with
  | notBool value =>
      cases htyped with
      | not he => exact ⟨.bool _, fun env s => by rw [Expr.eval, Expr.eval, Expr.eval]; rfl⟩
  | notNot e =>
      cases htyped with
      | not he =>
          cases he with
          | not he => exact ⟨he, fun env s => Expr.eval_notNot he⟩
  | notJunction c es =>
      cases htyped with
      | not he =>
          cases he with
          | junction hes =>
              refine ⟨.junction ?_, fun env s => Expr.eval_notJunction c es⟩
              exact List.forall_mem_map.mpr fun e he => .not (hes e he)
  | notQuantified q name source body =>
      cases htyped with
      | not he =>
          cases he with
          | quantified hsource hbody =>
              exact ⟨.quantified hsource (.not hbody), fun env s =>
                Expr.eval_notQuantified q name source body⟩
  | notEq a b =>
      cases htyped with
      | not he =>
          cases he with
          | equality hop ha hb => exact ⟨.equality rfl ha hb, fun env s => Expr.eval_notEq a b⟩
          | relation hop ha hb => cases hop
  | notNe a b =>
      cases htyped with
      | not he =>
          cases he with
          | equality hop ha hb => exact ⟨.equality rfl ha hb, fun env s => Expr.eval_notNe a b⟩
          | relation hop ha hb => cases hop
  | flatten c before inner behind =>
      cases htyped with
      | junction hes =>
          obtain ⟨hbefore, hes⟩ := List.forall_mem_append.mp hes
          obtain ⟨hinner, hbehind⟩ := List.forall_mem_cons.mp hes
          cases hinner with
          | junction hinner =>
              have hfront := List.forall_mem_append.mpr ⟨hbefore, hinner⟩
              exact ⟨.junction (List.forall_mem_append.mpr ⟨hfront, hbehind⟩), fun env s =>
                Expr.eval_flatten c before inner behind⟩
  | refl e => exact ⟨htyped, fun env s => rfl⟩
  | trans h h' ih ih' =>
      obtain ⟨htyped, heval⟩ := ih htyped
      obtain ⟨htyped, heval'⟩ := ih' htyped
      exact ⟨htyped, fun env s => (heval' env s).trans (heval env s)⟩
  | not h ih =>
      cases htyped with
      | not he =>
          obtain ⟨he, heval⟩ := ih he
          exact ⟨.not he, fun env s => by rw [Expr.eval, Expr.eval, heval]⟩
  | neg h ih =>
      cases htyped with
      | neg he =>
          obtain ⟨he, heval⟩ := ih he
          exact ⟨.neg he, fun env s => by rw [Expr.eval, Expr.eval, heval]⟩
  | junction c before behind h ih =>
      cases htyped with
      | junction hes =>
          obtain ⟨hbefore, hes⟩ := List.forall_mem_append.mp hes
          obtain ⟨he, hbehind⟩ := List.forall_mem_cons.mp hes
          obtain ⟨he, heval⟩ := ih he
          have hes := List.forall_mem_append.mpr ⟨hbefore, List.forall_mem_cons.mpr ⟨he, hbehind⟩⟩
          refine ⟨.junction hes, fun env s => ?_⟩
          simp only [Expr.eval, Expr.evalJunction_append, Expr.evalJunction, heval]
  | compare op ha hb iha ihb =>
      cases htyped with
      | equality hop ha hb =>
          obtain ⟨ha, hevala⟩ := iha ha
          obtain ⟨hb, hevalb⟩ := ihb hb
          exact ⟨.equality hop ha hb, fun env s => by simp only [Expr.eval, hevala, hevalb]⟩
      | relation hop ha hb =>
          obtain ⟨ha, hevala⟩ := iha ha
          obtain ⟨hb, hevalb⟩ := ihb hb
          exact ⟨.relation hop ha hb, fun env s => by simp only [Expr.eval, hevala, hevalb]⟩
  | arith op ha hb iha ihb =>
      cases htyped with
      | arith ha hb =>
          obtain ⟨ha, hevala⟩ := iha ha
          obtain ⟨hb, hevalb⟩ := ihb hb
          exact ⟨.arith ha hb, fun env s => by simp only [Expr.eval, hevala, hevalb]⟩
  | quantified q name hsource hbody ihs ihb =>
      cases htyped with
      | quantified hsource hbody =>
          obtain ⟨hsource, hevals⟩ := ihs hsource
          obtain ⟨hbody, hevalb⟩ := ihb hbody
          exact ⟨.quantified hsource hbody, fun env s => by simp only [Expr.eval, hevals, hevalb]⟩
  | focus name h ih =>
      cases htyped with
      | focus hname hbody hk =>
          obtain ⟨hbody, heval⟩ := ih hbody
          exact ⟨.focus hname hbody hk, fun env s => by simp only [Expr.eval, heval]⟩
  | count h ih =>
      cases htyped with
      | count hsource =>
          obtain ⟨hsource, heval⟩ := ih hsource
          exact ⟨.count hsource, fun env s => by rw [Expr.eval, Expr.eval, heval]⟩
  | nonEmpty h ih =>
      cases htyped with
      | nonEmpty hsource =>
          obtain ⟨hsource, heval⟩ := ih hsource
          exact ⟨.nonEmpty hsource, fun env s => by rw [Expr.eval, Expr.eval, heval]⟩
  | comprehension name hsource hbody ihs ihb =>
      cases htyped with
      | comprehension hsource hbody =>
          obtain ⟨hsource, hevals⟩ := ihs hsource
          obtain ⟨hbody, hevalb⟩ := ihb hbody
          exact ⟨.comprehension hsource hbody, fun env s => by
            simp only [Expr.eval, hevals, hevalb]⟩

/-- The comparison that holds where an equality or inequality does not; other comparisons have none,
since some numbers have no order. -/
def CompareOp.opposite? : CompareOp → Option CompareOp
  | eq => some ne
  | ne => some eq
  | lt | le | gt | ge => none

namespace Expr

mutual

/-- The negation normal form: all negations are pushed inward as far as they go. -/
def nnf : Expr → Expr
  | not e => e.nnfNot
  | neg e => neg e.nnf
  | junction c es => junction c (nnfAll es)
  | compare op a b => compare op a.nnf b.nnf
  | arith op a b => arith op a.nnf b.nnf
  | quantified q name source body => quantified q name source.nnf body.nnf
  | focus name body => focus name body.nnf
  | count source => count source.nnf
  | nonEmpty source => nonEmpty source.nnf
  | comprehension name source body => comprehension name source.nnf body.nnf
  | e@(bool _) | e@(number _) | e@(tag _) | e@(tagNumber _) | e@(var _) | e@(list _)
  | e@(unknownList _) | e@(foreign _) => e

/-- The negation normal form of the negation. -/
def nnfNot : Expr → Expr
  | bool value => bool !value
  | not e => e.nnf
  | junction c es => junction c.dual (nnfNotAll es)
  | quantified q name source body => quantified q.dual name source.nnf body.nnfNot
  | compare op a b =>
    match op.opposite? with
    | some op' => compare op' a.nnf b.nnf
    | none => not (compare op a.nnf b.nnf)
  | neg e => not (neg e.nnf)
  | arith op a b => not (arith op a.nnf b.nnf)
  | focus name body => not (focus name body.nnf)
  | count source => not (count source.nnf)
  | nonEmpty source => not (nonEmpty source.nnf)
  | comprehension name source body => not (comprehension name source.nnf body.nnf)
  | e@(number _) | e@(tag _) | e@(tagNumber _) | e@(var _) | e@(list _) | e@(unknownList _)
  | e@(foreign _) => not e

/-- The negation normal forms of operands. -/
def nnfAll : List Expr → List Expr
  | [] => []
  | e :: es => e.nnf :: nnfAll es

/-- The negation normal forms of the negations of operands. -/
def nnfNotAll : List Expr → List Expr
  | [] => []
  | e :: es => e.nnfNot :: nnfNotAll es

end

/-- Whether a negation in front of the expression can be pushed into it. -/
def takesNegation : Expr → Bool
  | bool _ | not _ | junction .. | quantified .. => true
  | compare op _ _ => op.opposite?.isSome
  | _ => false

mutual

/-- Whether no negation in the expression can be pushed further inward. -/
def settled : Expr → Bool
  | not e => !e.takesNegation && e.settled
  | neg e | focus _ e | count e | nonEmpty e => e.settled
  | junction _ es => settledAll es
  | compare _ a b | arith _ a b | quantified _ _ a b | comprehension _ a b =>
    a.settled && b.settled
  | bool _ | number _ | tag _ | tagNumber _ | var _ | list _ | unknownList _ | foreign _ => true

/-- Whether no negation in some operands can be pushed further inward. -/
def settledAll : List Expr → Bool
  | [] => true
  | e :: es => e.settled && settledAll es

end

mutual

/-- In the normal form no negation can be pushed further inward. -/
theorem settled_nnf : (e : Expr) → e.nnf.settled = true ∧ e.nnfNot.settled = true
  | bool _ | number _ | tag _ | tagNumber _ | var _ | list _ | unknownList _ | foreign _ => by
      simp [nnf, nnfNot, settled, takesNegation]
  | not e => by simpa [nnf, nnfNot] using (settled_nnf e).symm
  | neg e | focus _ e | count e | nonEmpty e => by
      simp [nnf, nnfNot, settled, takesNegation, settled_nnf e]
  | junction c es => by simp [nnf, nnfNot, settled, settledAll_nnf es]
  | arith _ a b | comprehension _ a b => by
      simp [nnf, nnfNot, settled, takesNegation, settled_nnf a, settled_nnf b]
  | quantified _ _ a b => by simp [nnf, nnfNot, settled, settled_nnf a, settled_nnf b]
  | compare op a b => by
      cases op <;> simp [nnf, nnfNot, CompareOp.opposite?, settled, takesNegation, settled_nnf a,
        settled_nnf b]

/-- The same holds for all operands of a group. -/
theorem settledAll_nnf : (es : List Expr) →
    settledAll (nnfAll es) = true ∧ settledAll (nnfNotAll es) = true
  | [] => by simp [nnfAll, nnfNotAll, settledAll]
  | e :: es => by simp [nnfAll, nnfNotAll, settledAll, settled_nnf e, settledAll_nnf es]

end

mutual

/-- The normal form comes about by pushing negations inward. -/
theorem rewrites_nnf : (e : Expr) → Rewrites e e.nnf ∧ Rewrites (not e) e.nnfNot
  | bool value => by
      rw [nnf, nnfNot]
      exact ⟨.refl _, .notBool value⟩
  | number _ | tag _ | tagNumber _ | var _ | list _ | unknownList _ | foreign _ => by
      rw [nnf, nnfNot]
      exact ⟨.refl _, .refl _⟩
  | not e => by
      obtain ⟨h, hnot⟩ := rewrites_nnf e
      rw [nnf, nnfNot]
      exact ⟨hnot, .trans (.notNot e) h⟩
  | neg e => by
      obtain ⟨h, -⟩ := rewrites_nnf e
      rw [nnf, nnfNot]
      exact ⟨.neg h, .not (.neg h)⟩
  | junction c es => by
      rw [nnf, nnfNot]
      have hall := (rewrites_nnfAll es c []).1
      have hnotAll := (rewrites_nnfAll es c.dual []).2
      exact ⟨hall, .trans (.notJunction c es) hnotAll⟩
  | compare op a b => by
      have h := Rewrites.compare op (rewrites_nnf a).1 (rewrites_nnf b).1
      rw [nnf, nnfNot]
      refine ⟨h, .trans (.not h) ?_⟩
      cases op with
      | eq => exact .notEq _ _
      | ne => exact .notNe _ _
      | lt | le | gt | ge => exact .refl _
  | arith op a b => by
      have h := Rewrites.arith op (rewrites_nnf a).1 (rewrites_nnf b).1
      rw [nnf, nnfNot]
      exact ⟨h, .not h⟩
  | quantified q name source body => by
      obtain ⟨hsource, -⟩ := rewrites_nnf source
      obtain ⟨hbody, hnotBody⟩ := rewrites_nnf body
      rw [nnf, nnfNot]
      exact ⟨.quantified q name hsource hbody,
        .trans (.notQuantified q name source body) (.quantified q.dual name hsource hnotBody)⟩
  | focus name body => by
      obtain ⟨h, -⟩ := rewrites_nnf body
      rw [nnf, nnfNot]
      exact ⟨.focus name h, .not (.focus name h)⟩
  | count source => by
      obtain ⟨h, -⟩ := rewrites_nnf source
      rw [nnf, nnfNot]
      exact ⟨.count h, .not (.count h)⟩
  | nonEmpty source => by
      obtain ⟨h, -⟩ := rewrites_nnf source
      rw [nnf, nnfNot]
      exact ⟨.nonEmpty h, .not (.nonEmpty h)⟩
  | comprehension name source body => by
      have h := Rewrites.comprehension name (rewrites_nnf source).1 (rewrites_nnf body).1
      rw [nnf, nnfNot]
      exact ⟨h, .not h⟩

/-- Operands get their normal forms one after the other. -/
theorem rewrites_nnfAll : (es : List Expr) → (c : Connective) → (before : List Expr) →
    Rewrites (junction c (before ++ es)) (junction c (before ++ nnfAll es)) ∧
      Rewrites (junction c (before ++ es.map .not)) (junction c (before ++ nnfNotAll es))
  | [], c, before => by
      rw [nnfAll, nnfNotAll]
      exact ⟨.refl _, .refl _⟩
  | e :: es, c, before => by
      obtain ⟨h, hnot⟩ := rewrites_nnf e
      have hrest := (rewrites_nnfAll es c (before ++ [e.nnf])).1
      have hnotRest := (rewrites_nnfAll es c (before ++ [e.nnfNot])).2
      rw [List.append_assoc, List.append_assoc] at hrest hnotRest
      rw [nnfAll, nnfNotAll, List.map_cons]
      exact ⟨.trans (.junction c before es h) hrest,
        .trans (.junction c before (es.map .not) hnot) hnotRest⟩

end

/-- **Negation normal form.**  Pushing the negations of a typed truth value inward, everywhere and
as far as they go, leaves its value as it is, and its error where it has none, in every diagram and
scope, whether the scope binds its variables or not.  So does pushing them only here and there, and
so does dissolving connectives in connectives of the same sort. -/
theorem eval_nnf {bound : List String} {e : Expr} (htyped : Typed bound e (.value .boolean)) :
    (∀ env s, e.nnf.eval env s = e.eval env s) ∧ Rewrites e e.nnf ∧ e.nnf.settled = true ∧
      ∀ e', Rewrites e e' → ∀ env s, e'.eval env s = e.eval env s := by
  obtain ⟨hrewrites, -⟩ := rewrites_nnf e
  exact ⟨(hrewrites.sound htyped).2, hrewrites, (settled_nnf e).1,
    fun e' h => (h.sound htyped).2⟩

/-- A negated group with two negations in a row inside a focused expression. -/
def negated : Expr :=
  not (junction .and [tag "a", focus "y" (not (not (tag "b")))])

/-- Its normal form has its value in every scope, and its error where `y` is not bound. -/
theorem eval_nnf_unbound :
    Typed ["y"] negated (.value .boolean) ∧
      negated.nnf = junction .or [not (tag "a"), not (focus "y" (tag "b"))] ∧
      (∀ env s, negated.nnf.eval env s = negated.eval env s) ∧ Rewrites negated negated.nnf ∧
      negated.nnf.settled = true ∧
      ∀ e', Rewrites negated e' → ∀ env s, e'.eval env s = negated.eval env s := by
  have hfocus : Typed ["y"] (focus "y" (not (not (tag "b")))) (.value .boolean) :=
    .focus (by simp) (.not (.not (.tag "b"))) (by simp)
  have htyped : Typed ["y"] negated (.value .boolean) :=
    .not (.junction (by simpa using ⟨.tag "a", hfocus⟩))
  exact ⟨htyped, rfl, eval_nnf htyped⟩

end Expr

end DiagramFilter
