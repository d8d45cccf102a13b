import DiagramFilter.Proofs.Laws.Passing
import DiagramFilter.Proofs.Typing.Evaluation
import DiagramFilter.Proofs.Writing.Room
import DiagramFilter.Proofs.Writing.Spelling

/-!
# Written forms keep the meaning

The written form of an expression that was put together by hand may spell another expression, but
always one of the same value: a number below zero is the opposite of its opposite, a connective of
one operand has the truth value of the operand, and a comprehension that asks nothing of its
elements keeps them all.  This holds in every scope, also where the variable of that comprehension
is bound already, since nothing inside refers to it.

* `Typed.eval_spelled`: what is spelled has the value of what was written, by induction on the
  typing judgement.
* `Expr.format_keeps_meaning`: what is read from a written form has the value of what was written.
-/

namespace DiagramFilter

/-- The opposite of the opposite of a number is the number. -/
theorem Double.neg_neg {x : Float} (h : magnitude x ≤ infinityBits) : - -x = x := by
  have hneg : ∀ negative, -ofMagnitude negative (magnitude x) =
      ofMagnitude (!negative) (magnitude x) := fun _ => neg_ofMagnitude h
  calc
    - -x = - -ofMagnitude (isNegative x) (magnitude x) := by rw [ofMagnitude_magnitude h]
    _ = ofMagnitude (!!isNegative x) (magnitude x) := by rw [hneg, hneg]
    _ = x := by rw [Bool.not_not, ofMagnitude_magnitude h]

/-- A test that every element passes keeps all of them. -/
theorem keepPassing_all (hs : List Handle) : keepPassing (fun _ => .ok true) hs = .ok hs := by
  induction hs with
  | nil => rfl
  | cons h hs ih =>
      rw [keepPassing, ih]
      rfl

namespace Expr

variable {env : Env} {s : Scope} {bound : List String} {e : Expr} {es : List Expr}

/-- A number has the value of its spelling, be it negative or not. -/
theorem eval_spelled_number {x : Float} (hnumber : x.isNaN = false) :
    (number x).spelled.eval env s = (number x).eval env s := by
  have hle : Double.magnitude x ≤ Double.infinityBits := by
    rw [← Nat.not_lt, ← Double.isNaN_iff, hnumber]
    exact Bool.false_ne_true
  rw [spelled]
  split
  · rw [eval, eval, eval]
    show Except.ok (Value.number (.float (- -x))) = _
    rw [Double.neg_neg hle]
  · rfl

/-- A single truth value decides its connective or is the other one, and so is the value of the
connective either way. -/
theorem eval_gather {c : Connective} (hes : ∀ e ∈ es, Typed bound e (.value .boolean)) :
    (gather c es).eval env s = (junction c es).eval env s := by
  match es with
  | [] | _ :: _ :: _ => rfl
  | [e] =>
      rw [gather, eval, evalJunction_single]
      cases hv : e.eval env s with
      | error error => rfl
      | ok v =>
          cases (hes e List.mem_cons_self).belongs_of_eval hv with
          | bool b => rfl

/-- A list has the elements that it has as a comprehension. -/
theorem eval_asComprehension (h : Typed bound e .list) :
    e.asComprehension.eval env s = e.eval env s := by
  cases h with
  | list source =>
      have hbody : ∀ h : Handle,
          ((bool true).eval env (s.bind anyName h)).map Value.truth = .ok true := by
        intro h
        rw [eval]
        rfl
      rw [asComprehension, eval, eval]
      show ((keepPassing (fun h => ((bool true).eval env (s.bind anyName h)).map Value.truth)
        (env.diagram.list source s.current)) >>= _) = _
      simp only [hbody, keepPassing_all]
      rfl
  | comprehension hsource hbody => rfl

end Expr

/-- **Meaning.**  What the written form of an expression spells has the value of the expression, or
none for the same reason, whatever the diagram, the reserved tags and the scope. -/
theorem Typed.eval_spelled {bound : List String} {e : Expr} {c : Category} (h : Typed bound e c)
    (hwritable : Writable e) (env : Env) (s : Scope) : e.spelled.eval env s = e.eval env s := by
  induction h generalizing s with
  | bool value | tag name | tagNumber name | var hname | list source => rfl
  | number value =>
      cases hwritable with
      | number hnumber hzero => exact Expr.eval_spelled_number hnumber
  | not he ih =>
      cases hwritable with
      | not hwritable => simp only [Expr.spelled, Expr.eval, ih hwritable]
  | neg he ih =>
      cases hwritable with
      | neg hwritable => simp only [Expr.spelled, Expr.eval, ih hwritable]
  | @junction bound c es hes ih =>
      cases hwritable with
      | junction hne hwritable =>
          have hspelled : ∀ e ∈ es.map Expr.spelled, Typed bound e (.value .boolean) :=
            List.forall_mem_map.mpr fun e he => (hes e he).spelled
          have hsame : List.Forall₂ (fun e e' => e'.eval env s = e.eval env s) es
              (es.map Expr.spelled) :=
            List.forall₂_map_right_iff.mpr
              (List.forall₂_same.mpr fun e he => ih e he (hwritable e he) s)
          rw [Expr.spelled, Expr.spelledAll_eq, Expr.eval_gather hspelled, Expr.eval, Expr.eval,
            Expr.evalJunction_congr hsame]
  | equality hop ha hb iha ihb | relation hop ha hb iha ihb =>
      cases hwritable with
      | compare hwritablea hwritableb =>
          simp only [Expr.spelled, Expr.eval, iha hwritablea, ihb hwritableb]
  | arith ha hb iha ihb =>
      cases hwritable with
      | arith hwritablea hwritableb =>
          simp only [Expr.spelled, Expr.eval, iha hwritablea, ihb hwritableb]
  | quantified hsource hbody ihs ihb =>
      cases hwritable with
      | quantified hname hsource hbody =>
          simp only [Expr.spelled, Expr.eval, ihs hsource, ihb hbody]
  | focus hname hbody hk ih =>
      cases hwritable with
      | focus hname hwritable => simp only [Expr.spelled, Expr.eval, ih hwritable]
  | count hsource ih =>
      cases hwritable with
      | count hwritable =>
          rw [Expr.spelled, Expr.eval, Expr.eval, Expr.eval_asComprehension hsource.spelled,
            ih hwritable]
  | nonEmpty hsource ih =>
      cases hwritable with
      | nonEmpty hwritable =>
          rw [Expr.spelled, Expr.eval, Expr.eval, Expr.eval_asComprehension hsource.spelled,
            ih hwritable]
  | comprehension hsource hbody ihs ihb =>
      cases hwritable with
      | comprehension hname hsource hbody =>
          simp only [Expr.spelled, Expr.eval, ihs hsource, ihb hbody]

/-- **Written forms keep the meaning.**  A closed truth value that can be written has a written
form, which is read as an expression with the same value on every element of every diagram, whatever
the reserved tags.  It takes room for its calls to write it. -/
theorem Expr.format_keeps_meaning {e : Expr} (htyped : Typed [thisName] e (.value .boolean))
    (hwritable : Writable e) :
    ∃ text e', e.WrittenAs text ∧ ReadAs text e' ∧
      ∀ env h, e'.evalOn env h = e.evalOn env h ∧ e'.holdsOn env h = e.holdsOn env h := by
  obtain ⟨text, htext, hpiece⟩ := htyped.writes_spelled hwritable
  refine ⟨text, e.spelled, writtenAs_of_format htext, hpiece.readAs htyped.spelled, fun env h => ?_⟩
  have hvalue : e.spelled.evalOn env h = e.evalOn env h := htyped.eval_spelled hwritable env _
  exact ⟨hvalue, by rw [holdsOn, holdsOn, hvalue]⟩

namespace Expr

/-- A group of one operand, inside a group. -/
def nestedGroup : Expr :=
  junction .and [junction .or [nonEmpty (list .children)], tag "a"]

/-- A comparison of the length of a plain list with numbers below zero. -/
def belowZero : Expr :=
  compare .gt (arith .mul (number (-2)) (count (list .children))) (number (-1 / 0))

/-- A tree that no text is read as.  Its binder has the name that added comprehensions use. -/
def handmade : Expr :=
  quantified .all anyName (list .siblings) (junction .and [nestedGroup, belowZero])

/-- Such a tree is written, and what is read has its values. -/
theorem format_keeps_meaning_handmade :
    Typed [thisName] handmade (.value .boolean) ∧ Writable handmade ∧
      handmade.format = .ok ("forall[_:siblings|(((#[_:children|true]) && #a) && " ++
        "(((-2) * $[_:children|true]) > (-1e999)))]") ∧
      ∃ text e', handmade.WrittenAs text ∧ ReadAs text e' ∧
        ∀ env h, e'.evalOn env h = handmade.evalOn env h ∧
          e'.holdsOn env h = handmade.holdsOn env h := by
  have htyped : Typed [thisName] handmade (.value .boolean) := by
    have hinner : Typed [anyName, thisName] (nonEmpty (list .children)) (.value .boolean) :=
      .nonEmpty (.list _)
    have hgroup : Typed [anyName, thisName] nestedGroup (.value .boolean) :=
      .junction (by simpa using ⟨.junction (by simpa using hinner), .tag "a"⟩)
    have hbelow : Typed [anyName, thisName] belowZero (.value .boolean) :=
      .relation rfl (.arith (.number _) (.count (.list _))) (.number _)
    exact .quantified (.list _) (.junction (by simpa using ⟨hgroup, hbelow⟩))
  have hwritable : Writable handmade := by
    have htag : Writable (tag "a") :=
      .tag (Lexer.isIdentifier_of_scanName (by decide) (by decide))
    have hinner : Writable (nonEmpty (list .children)) := .nonEmpty (.list _)
    have hgroup : Writable nestedGroup :=
      .junction (by simp) (by simpa using ⟨.junction (by simp) (by simpa using hinner), htag⟩)
    have hbelow : Writable belowZero :=
      .compare (.arith (.number (by decide +kernel) (by decide +kernel)) (.count (.list _)))
        (.number (by decide +kernel) (by decide +kernel))
    exact .quantified isVariable_anyName (.list _)
      (.junction (by simp) (by simpa using ⟨hgroup, hbelow⟩))
  exact ⟨htyped, hwritable, by decide +kernel, format_keeps_meaning htyped hwritable⟩

end Expr

end DiagramFilter
