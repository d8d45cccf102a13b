import DiagramFilter.Outcome
import DiagramFilter.Proofs.Laws.Passing
import DiagramFilter.Proofs.Number.Operations
import DiagramFilter.Proofs.Typing.Safety
import Mathlib.Data.List.Basic

/-!
# Quantifiers, counts and comprehensions

Quantifiers stop at the element that decides them, comprehensions go to the end of the list, and
the length of a list is compared afterwards.  Where the body of a binder has a value on each
element of the list, the three come to the same: there is one set of elements on which the body
holds, a comprehension keeps these, and a quantifier asks whether there are any or no others.

A body over a comprehension sees only what the comprehension kept, so it may be put behind the body
of the comprehension in one passage over the list.  That the body over the comprehension has a value
everywhere is not needed: it is asked for the same elements in the same order either way.
-/

namespace DiagramFilter

variable {test : Handle → Except EvalError Bool} {p : Handle → Bool} {hs : List Handle}

/-- A test with an answer for each element keeps the elements that pass. -/
theorem keepPassing_eq_filter (htest : ∀ h ∈ hs, test h = .ok (p h)) :
    keepPassing test hs = .ok (hs.filter p) := by
  induction hs with
  | nil => rfl
  | cons h hs ih =>
      obtain ⟨hfirst, hrest⟩ := List.forall_mem_cons.mp htest
      rw [keepPassing, hfirst, ih hrest, List.filter_cons]
      rfl

/-- A test with an answer for each element finds out whether some element passes, or whether all
do. -/
theorem decideOver_eq (deciding : Bool) (htest : ∀ h ∈ hs, test h = .ok (p h)) :
    decideOver deciding test hs = .ok (if deciding then hs.any p else hs.all p) := by
  induction hs with
  | nil => cases deciding <;> rfl
  | cons h hs ih =>
      obtain ⟨hfirst, hrest⟩ := List.forall_mem_cons.mp htest
      rw [decideOver, hfirst, ih hrest, List.any_cons, List.all_cons]
      show (if p h = deciding then Except.ok deciding else _) = _
      cases p h <;> cases deciding <;> rfl

/-- Only the answers for the elements of the list matter. -/
theorem decideOver_congr (deciding : Bool) {test' : Handle → Except EvalError Bool}
    (htest : ∀ h ∈ hs, test h = test' h) :
    decideOver deciding test hs = decideOver deciding test' hs := by
  induction hs with
  | nil => rfl
  | cons h hs ih =>
      obtain ⟨hfirst, hrest⟩ := List.forall_mem_cons.mp htest
      rw [decideOver, decideOver, hfirst, ih hrest]

/-- What passes depends on the test of the elements in the list only. -/
theorem keepPassing_congr {test' : Handle → Except EvalError Bool}
    (htest : ∀ h ∈ hs, test h = test' h) : keepPassing test hs = keepPassing test' hs := by
  induction hs with
  | nil => rfl
  | cons h hs ih =>
      obtain ⟨hfirst, hrest⟩ := List.forall_mem_cons.mp htest
      rw [keepPassing, keepPassing, hfirst, ih hrest]

/-- To decide over the elements that pass is to decide over all, where those that do not pass never
decide. -/
theorem decideOver_filter (deciding : Bool) (test : Handle → Except EvalError Bool)
    (p : Handle → Bool) (hs : List Handle) :
    decideOver deciding test (hs.filter p) =
      decideOver deciding (fun h => if p h then test h else .ok !deciding) hs := by
  induction hs with
  | nil => rfl
  | cons h hs ih =>
      rw [List.filter_cons, decideOver]
      cases hp : p h with
      | true => simp only [if_true, decideOver, ih]
      | false =>
          rw [if_neg Bool.false_ne_true, ih]
          cases deciding <;> rfl

/-- To keep of the elements that pass is to keep of all those that pass both tests. -/
theorem keepPassing_filter (test : Handle → Except EvalError Bool) (p : Handle → Bool)
    (hs : List Handle) :
    keepPassing test (hs.filter p) =
      keepPassing (fun h => if p h then test h else .ok false) hs := by
  induction hs with
  | nil => rfl
  | cons h hs ih =>
      rw [List.filter_cons, keepPassing]
      cases hp : p h with
      | true => simp only [if_true, keepPassing, ih]
      | false =>
          rw [if_neg Bool.false_ne_true, ih]
          show _ = (keepPassing _ hs >>= fun kept => Except.ok kept)
          exact (bind_pure _).symm

/-- Some element passes just if not all are left out. -/
theorem decide_length_filter_pos (p : Handle → Bool) (hs : List Handle) :
    decide (0 < (hs.filter p).length) = hs.any p := by
  rw [Bool.eq_iff_iff, decide_eq_true_eq, List.length_filter_pos_iff, List.any_eq_true]

namespace Expr

variable {env : Env} {s : Scope} {name : String} {source body other both : Expr}

/-- The elements of a list are those of its value. -/
theorem elements_eq_ok : source.elements env s = .ok hs ↔ source.eval env s = .ok (.list hs) := by
  rw [elements, bind_eq_ok]
  constructor
  · rintro ⟨v, hv, hhandles⟩
    cases v with
    | list handles =>
        cases hhandles
        exact hv
    | _ => cases hhandles
  · intro hlist
    exact ⟨_, hlist, rfl⟩

/-- The second operand of a connective is asked where the first one does not decide. -/
theorem test_pair (c : Connective) (name : String) (body other : Expr) (h : Handle) :
    (junction c [body, other]).test env s name h = (do
      if (← body.test env s name h) = c.deciding then return c.deciding
      else other.test env s name h) := by
  have hjunction : (junction c [body, other]).test env s name h =
      evalJunction env (s.bind name h) c [body, other] := by
    rw [test, eval]
    cases evalJunction env (s.bind name h) c [body, other] <;> rfl
  rw [hjunction, evalJunction, evalJunction_single, test]
  cases body.eval env (s.bind name h) <;> rfl

/-- A conjunction asks its second operand where the first holds. -/
theorem test_and {h : Handle} {b : Bool} (hb : body.test env s name h = .ok b) :
    (junction .and [body, other]).test env s name h =
      if b then other.test env s name h else .ok false := by
  rw [test_pair, hb]
  cases b <;> rfl

/-- An implication asks its conclusion where the premise holds. -/
theorem test_or_not {h : Handle} {b : Bool} (hb : body.test env s name h = .ok b) :
    (junction .or [not body, other]).test env s name h =
      if b then other.test env s name h else .ok true := by
  rw [test_pair, test_not, hb]
  cases b <;> rfl

section

variable (hsource : source.elements env s = .ok hs)
  (htest : ∀ h ∈ hs, body.test env s name h = .ok (p h))

include hsource htest

/-- The elements of a comprehension are those that pass. -/
theorem elements_kept : (comprehension name source body).elements env s = .ok (hs.filter p) := by
  rw [elements_comprehension, hsource]
  exact keepPassing_eq_filter htest

/-- The value of a comprehension is the list of those that pass. -/
theorem eval_kept : (comprehension name source body).eval env s = .ok (.list (hs.filter p)) :=
  elements_eq_ok.mp (elements_kept hsource htest)

/-- The elements that a comprehension leaves out are those that it keeps for the negated body. -/
theorem eval_dropped :
    (comprehension name source (not body)).eval env s = .ok (.list (hs.filter fun h => !p h)) := by
  refine eval_kept hsource fun h hh => ?_
  rw [test_not, htest h hh]
  rfl

/-- A quantifier asks whether the body holds for some element, or for all. -/
theorem eval_decided (q : Quantifier) : (quantified q name source body).eval env s =
    .ok (.bool (if q.deciding then hs.any p else hs.all p)) := by
  rw [eval_quantified, hsource]
  show decideOver _ _ hs >>= _ = _
  rw [decideOver_eq q.deciding htest]
  rfl

/-- A comprehension has a length other than zero if the body holds for some element. -/
theorem eval_nonEmpty_kept :
    (nonEmpty (comprehension name source body)).eval env s = .ok (.bool (hs.any p)) := by
  rw [eval, eval_kept hsource htest]
  show Except.ok (Value.bool (decide (0 < (hs.filter p).length))) = _
  rw [decide_length_filter_pos]

/-- The length of a comprehension is the number of elements for which the body holds. -/
theorem eval_count_kept : (count (comprehension name source body)).eval env s =
    .ok (.number (.float (Double.ofNat (hs.filter p).length))) := by
  rw [eval, eval_kept hsource htest]
  rfl

/-- A count is positive if one passes. -/
theorem eval_counted :
    (compare .gt (count (comprehension name source body)) (number 0)).eval env s =
      .ok (.bool (hs.any p)) := by
  rw [eval_compare_float .gt (eval_count_kept hsource htest) (by rw [eval]), CompareOp.test,
    decide_eq_decide.mpr Double.ofNat_gt_zero_iff, decide_length_filter_pos]

/-- A quantifier over a comprehension may ask for both bodies at once. -/
theorem eval_fused (q : Quantifier) (hboth : ∀ h ∈ hs, both.test env s name h =
      if p h then other.test env s name h else .ok !q.deciding) :
    (quantified q name (comprehension name source body) other).eval env s =
      (quantified q name source both).eval env s := by
  rw [eval_quantified, eval_quantified, elements_kept hsource htest, hsource]
  show decideOver _ _ _ >>= _ = decideOver _ _ _ >>= _
  rw [decideOver_filter, decideOver_congr q.deciding hboth]

/-- A comprehension over a comprehension may ask for both bodies at once. -/
theorem eval_kept_fused (hboth : ∀ h ∈ hs, both.test env s name h =
      if p h then other.test env s name h else .ok false) :
    (comprehension name (comprehension name source body) other).eval env s =
      (comprehension name source both).eval env s := by
  rw [eval_comprehension, eval_comprehension, elements_kept hsource htest, hsource]
  show keepPassing _ _ >>= _ = keepPassing _ _ >>= _
  rw [keepPassing_filter, keepPassing_congr hboth]

end

/-- How binders with one name, list and body agree with each other, and with those that have another
body on top. -/
structure BindersAgree (env : Env) (s : Scope) (name : String) (source body other : Expr) :
    Prop where
  /-- A list is not empty just if the body holds for some element. -/
  nonEmpty : (nonEmpty (comprehension name source body)).eval env s =
    (quantified .any name source body).eval env s
  /-- Nor is its length zero then. -/
  counted : (compare .gt (count (comprehension name source body)) (number 0)).eval env s =
    (quantified .any name source body).eval env s
  any_fused : (quantified .any name (comprehension name source body) other).eval env s =
    (quantified .any name source (junction .and [body, other])).eval env s
  all_fused : (quantified .all name (comprehension name source body) other).eval env s =
    (quantified .all name source (junction .or [not body, other])).eval env s
  kept_fused : (comprehension name (comprehension name source body) other).eval env s =
    (comprehension name source (junction .and [body, other])).eval env s
  /-- The body and its negation split the list, and the body holds for all elements just if the
  whole list is kept. -/
  split : ∀ hs, source.eval env s = .ok (.list hs) → ∃ kept dropped,
    (comprehension name source body).eval env s = .ok (.list kept) ∧
    (comprehension name source (not body)).eval env s = .ok (.list dropped) ∧
    kept.Sublist hs ∧ dropped.Sublist hs ∧ (kept ++ dropped).Perm hs ∧
    (quantified .any name source body).eval env s = .ok (.bool (kept ≠ [])) ∧
    (quantified .all name source body).eval env s = .ok (.bool (kept = hs))

/-- Without a list all binders have its error. -/
theorem bindersAgree_of_error {error : EvalError} (h : source.elements env s = .error error) :
    BindersAgree env s name source body other := by
  have hkept : (comprehension name source body).elements env s = .error error := by
    rw [elements_comprehension, h]
    rfl
  have heval : (comprehension name source body).eval env s = .error error := by
    rw [eval_comprehension, h]
    rfl
  have hcount : (count (comprehension name source body)).eval env s = .error error := by
    rw [eval, heval]
    rfl
  constructor
  · rw [eval_quantified, h, eval, heval]
    rfl
  · rw [eval_quantified, h, eval, hcount]
    rfl
  · rw [eval_quantified, eval_quantified, hkept, h]
    rfl
  · rw [eval_quantified, eval_quantified, hkept, h]
    rfl
  · rw [eval_comprehension, eval_comprehension, hkept, h]
    rfl
  · intro hs hlist
    rw [elements_eq_ok.mpr hlist] at h
    cases h

/-- **Binders agree.**  If the body of a binder has a value for each element of the list, then
quantifiers, counts and comprehensions with that body come to the same, in every scope, and another
body on top of it may be asked in the same passage. -/
theorem binders_agree (env : Env) (s : Scope) (name : String) (source body other : Expr)
    (hbody : ∀ hs, source.eval env s = .ok (.list hs) →
      ∀ h ∈ hs, ∃ v, body.eval env (s.bind name h) = .ok v) :
    BindersAgree env s name source body other := by
  cases hsource : source.elements env s with
  | error error => exact bindersAgree_of_error hsource
  | ok hs =>
      have hlist := elements_eq_ok.mp hsource
      obtain ⟨p, hp⟩ : ∃ p : Handle → Bool, ∀ h ∈ hs, body.test env s name h = .ok (p h) := by
        refine ⟨fun h => decide (body.test env s name h = .ok true), fun h hh => ?_⟩
        obtain ⟨v, hv⟩ := hbody hs hlist h hh
        have htest : body.test env s name h = .ok v.truth := by
          rw [test, hv]
          rfl
        simp [htest]
      have hany := eval_decided hsource hp .any
      have hall := eval_decided hsource hp .all
      constructor
      · rw [eval_nonEmpty_kept hsource hp, hany]
        rfl
      · rw [eval_counted hsource hp, hany]
        rfl
      · exact eval_fused hsource hp .any fun h hh => test_and (hp h hh)
      · exact eval_fused hsource hp .all fun h hh => test_or_not (hp h hh)
      · exact eval_kept_fused hsource hp fun h hh => test_and (hp h hh)
      · intro hs' hlist'
        cases hlist.symm.trans hlist'
        have hkept : hs.any p = decide (hs.filter p ≠ []) := by
          rw [← decide_length_filter_pos, decide_eq_decide, List.length_pos_iff]
        have hwhole : hs.all p = decide (hs.filter p = hs) := by
          rw [Bool.eq_iff_iff, decide_eq_true_eq, List.filter_eq_self, List.all_eq_true]
        refine ⟨_, _, eval_kept hsource hp, eval_dropped hsource hp, List.filter_sublist,
          List.filter_sublist, List.filter_append_perm p hs, ?_, ?_⟩
        · rw [hany, ← hkept]
          rfl
        · rw [hall, ← hwhole]
          rfl

/-- Among two children the binders agree about a tag that only one of them has. -/
theorem binders_agree_nested :
    (comprehension "x" (list .children) (tag "b")).eval ⟨.family, .usual⟩ ⟨thisName, 0, []⟩ =
        .ok (.list [1, 2]) ∧
      (comprehension "x" (comprehension "x" (list .children) (tag "b")) (tag "a")).eval
        ⟨.family, .usual⟩ ⟨thisName, 0, []⟩ = .ok (.list [1]) ∧
      BindersAgree ⟨.family, .usual⟩ ⟨thisName, 0, []⟩ "x"
        (comprehension "x" (list .children) (tag "b")) (tag "a")
        (quantified .any "y" (list .siblings) (not (tag "a"))) := by
  have hlist : (comprehension "x" (list .children) (tag "b")).eval ⟨.family, .usual⟩
      ⟨thisName, 0, []⟩ = .ok (.list [1, 2]) := rfl
  refine ⟨hlist, rfl, binders_agree _ _ _ _ _ _ fun hs hs' h hh => ?_⟩
  cases hlist.symm.trans hs'
  rcases List.mem_pair.mp hh with rfl | rfl
  · exact ⟨_, rfl⟩
  · exact ⟨_, rfl⟩

end Expr

end DiagramFilter
