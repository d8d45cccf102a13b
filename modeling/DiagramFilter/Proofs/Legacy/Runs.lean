import DiagramFilter.Legacy.Pending
import DiagramFilter.Proofs.Legacy.Steps

/-!
# Runs of one connective

The records of *and* in a run, or those of *or*, are the inner nodes of a binary tree, and the
operands of the run are its leaves (`Associates`).  There are two ingredients.

1.  Work on a stack of pending records passes the leaves from left to right, each of them once
    (`Associates.visitRun_eq_mapM`).  What is below the record on top of the stack plays no part in
    this, and so the induction over the tree goes through with any records there.
2.  The conversion of a record of the connective is this work (`convert_eq_visitRun`), whether or
    not the run is well-formed.

So a conversion does not depend on how the operands of a run are nested (`convert_reassociated`).
-/

namespace DiagramFilter.Legacy

variable {α : Type} {strict : Bool} {c : Connective} {rule rule' left right d : Document}
  {operands ls rs : List Document}

/-- A rule is a record of a connective between truth values, and so no tag. -/
def IsRecordOf (c : Connective) (rule : Document) : Prop :=
  head rule = .ok (.connective (junctionName c))

instance : Decidable (IsRecordOf c rule) :=
  decidable_of_iff _ isJunction_iff

/-- A rule associates a sequence of operands, none of which is a record of the connective. -/
inductive Associates (c : Connective) : Document → List Document → Prop
  | operand {d : Document} (h : ¬ IsRecordOf c d) : Associates c d [d]
  | pair {rule left right : Document} {ls rs : List Document} (h : IsRecordOf c rule)
      (hleft : rule.value? "leftOperand" = some left)
      (hright : rule.value? "rightOperand" = some right)
      (hls : Associates c left ls) (hrs : Associates c right rs) : Associates c rule (ls ++ rs)

/-- The texts of operands joined by the operator inside one pair of parentheses. -/
def groupText (c : Connective) (texts : List String) : String :=
  "(" ++ c.symbol.intercalate texts ++ ")"

/-- The plain record of a connective between two rules. -/
def between (c : Connective) (left right : Document) : Document :=
  .object [("name", .string (junctionName c)), ("leftOperand", left), ("rightOperand", right)]

/-- Such a record puts two sequences together, unless one of its operands is null. -/
theorem Associates.between (hls : Associates c left ls) (hrs : Associates c right rs)
    (hleft : left ≠ .null) (hright : right ≠ .null) :
    Associates c (between c left right) (ls ++ rs) := by
  refine .pair rfl ?_ ?_ hls hrs
  · cases left <;> first | rfl | exact absurd rfl hleft
  · cases right <;> first | rfl | exact absurd rfl hright

/-- Work on the record on top of a stack visits its operands from left to right, and then goes on
with the records below. -/
theorem Associates.visitRun_cons (h : Associates c rule operands) (name : String)
    (visit : Document → Conversion α) (found : List α) (pending : List Document) :
    visitRun c name visit found (rule :: pending) =
      operands.mapM visit >>= fun as => visitRun c name visit (found ++ as) pending := by
  induction h generalizing found pending with
  | operand h =>
      rw [visitRun_of_not_isJunction (by rwa [← Bool.not_eq_true, isJunction_iff]),
        List.mapM_cons]
      simp only [List.mapM_nil, Outcome.bind_bind, Outcome.pure_bind]
  | pair h hleft hright hls hrs ihls ihrs =>
      -- While the left operand is passed, the right one waits below it.
      rw [visitRun_of_isJunction (isJunction_iff.mpr h), operand_of_some hright,
        operand_of_some hleft, Outcome.pure_bind, Outcome.pure_bind, ihls, List.mapM_append]
      simp only [ihrs, Outcome.bind_bind, Outcome.pure_bind, List.append_assoc]

/-- With nothing pending and nothing found before, what is found is all there is. -/
theorem bind_visitRun_nil (name : String) (visit : Document → Conversion α)
    (o : Conversion (List α)) :
    (o >>= fun as => visitRun c name visit ([] ++ as) []) = o := by
  simp only [visitRun_nil, List.nil_append]
  exact Outcome.bind_return o

/-- The operands of a run are visited from left to right, each of them once. -/
theorem Associates.visitRun_eq_mapM (h : Associates c rule operands) (name : String)
    (visit : Document → Conversion α) :
    visitRun c name visit [] [rule] = operands.mapM visit := by
  rw [h.visitRun_cons, bind_visitRun_nil]

/-- The texts of the operands of a run are those that work on pending records finds. -/
theorem visitRun_eq_run (strict : Bool) (c : Connective) (name : String) (found : List String)
    (rule : Document) (pending : List Document) :
    visitRun c name (boolean strict) found (rule :: pending) =
      run strict c name rule >>= fun texts =>
        visitRun c name (boolean strict) (found ++ texts) pending := by
  rw [run]
  -- The record need not be well-formed here: without an operand both sides fail in the same way.
  by_cases hjunction : isJunction c rule = true
  · rw [visitRun_of_isJunction hjunction, if_pos hjunction]
    simp only [Outcome.bind_bind, Outcome.pure_bind]
    congr 1
    funext right
    congr 1
    funext left
    rw [visitRun_eq_run strict c name found left.1]
    congr 1
    funext as
    rw [visitRun_eq_run strict c name (found ++ as) right.1]
    simp only [List.append_assoc]
  · rw [visitRun_of_not_isJunction (by simpa using hjunction), if_neg hjunction]
    simp only [Outcome.bind_bind, Outcome.pure_bind]
termination_by rule.size
decreasing_by
  · exact left.2
  · exact right.2

/-- A record of the connective becomes one group of the texts in its run. -/
theorem convert_eq_run (h : IsRecordOf c rule) :
    convert strict rule = run strict c (junctionName c) rule >>= fun texts =>
      pure (groupText c texts) := by
  rw [convert, boolean, run, if_pos (isJunction_iff.mpr h), h]
  dsimp only
  rw [ofName?_eq_junction.mpr rfl]
  simp only [Outcome.bind_bind, Outcome.pure_bind, groupText]

/-- The conversion of a record of the connective is work on pending records. -/
theorem convert_eq_visitRun (h : IsRecordOf c rule) :
    convert strict rule = visitRun c (junctionName c) (convert strict) [] [rule] >>= fun texts =>
      pure (groupText c texts) := by
  have hvisit : visitRun c (junctionName c) (convert strict) [] [rule] =
      run strict c (junctionName c) rule := by
    rw [show convert strict = boolean strict from rfl, visitRun_eq_run, bind_visitRun_nil]
  rw [hvisit, convert_eq_run h]

/-- Rules convert to texts, one to each. -/
def Converts (strict : Bool) (ds : List Document) (texts : List String) : Prop :=
  ds.map (fun d => (convert strict d).result) = texts.map .ok

/-- The outcome of joining operands: one group of their texts after the warnings of all of them, or
the error of the first that does not convert, after the warnings up to there. -/
inductive Joined (strict : Bool) (c : Connective) (operands : List Document) :
    Conversion String → Prop
  | text {texts : List String} (h : Converts strict operands texts) :
      Joined strict c operands ⟨.ok (groupText c texts),
        operands.flatMap fun d => (convert strict d).warnings⟩
  | error {before after : List Document} {d : Document} {texts : List String} {e : LegacyError}
      (hoperands : operands = before ++ d :: after) (h : Converts strict before texts)
      (hd : (convert strict d).result = .error e) :
      Joined strict c operands
        ⟨.error e, (before ++ [d]).flatMap fun d => (convert strict d).warnings⟩

/-- Either all of some rules convert, or there is a first that does not. -/
theorem converts_or_fails (strict : Bool) (ds : List Document) :
    (∃ texts, Converts strict ds texts) ∨ ∃ before d after texts e, ds = before ++ d :: after ∧
      Converts strict before texts ∧ (convert strict d).result = .error e := by
  induction ds with
  | nil => exact .inl ⟨[], rfl⟩
  | cons d ds ih =>
      cases hd : (convert strict d).result with
      | error e => exact .inr ⟨[], d, ds, [], e, rfl, rfl, hd⟩
      | ok text =>
          rcases ih with ⟨texts, hds⟩ | ⟨before, d', after, texts, e, rfl, hbefore, hd'⟩
          · refine .inl ⟨text :: texts, ?_⟩
            rw [Converts, List.map_cons, hd, hds, List.map_cons]
          · refine .inr ⟨d :: before, d', after, text :: texts, e, rfl, ?_, hd'⟩
            rw [Converts, List.map_cons, hd, hbefore, List.map_cons]

/-- Operands that are converted one by one and grouped are joined. -/
theorem joined_mapM (strict : Bool) (c : Connective) (operands : List Document) :
    Joined strict c operands (operands.mapM (convert strict) >>= fun texts =>
      pure (groupText c texts)) := by
  rcases converts_or_fails strict operands with
    ⟨texts, h⟩ | ⟨before, d, after, texts, e, rfl, h, hd⟩
  · rw [Outcome.mapM_of_ok h, Outcome.bind_ok]
    simpa [pure] using Joined.text (c := c) h
  · rw [Outcome.mapM_of_error h hd, Outcome.bind_error]
    exact .error rfl h hd

/-- A rule that associates two or more operands is a record of the connective. -/
theorem Associates.isRecordOf (h : Associates c rule operands) (hlength : 2 ≤ operands.length) :
    IsRecordOf c rule := by
  cases h with
  | operand h => simp at hlength
  | pair h => exact h

/-- The conversion of a run is determined by the sequence of its operands. -/
theorem Associates.convert_eq (h : Associates c rule operands) (hlength : 2 ≤ operands.length) :
    convert strict rule = operands.mapM (convert strict) >>= fun texts =>
      pure (groupText c texts) := by
  rw [convert_eq_visitRun (h.isRecordOf hlength), h.visitRun_eq_mapM]

/-- **The conversion of a run depends only on its operands in order**, however they are nested.  It
joins their conversions in one group, or ends with the error of the first of them that has none;
and the work on pending records that does it visits every operand once, from left to right. -/
theorem convert_reassociated (strict : Bool) (h : Associates c rule operands)
    (h' : Associates c rule' operands) (hlength : 2 ≤ operands.length) :
    convert strict rule = convert strict rule' ∧
    Joined strict c operands (convert strict rule) ∧
    convert strict rule = (visitRun c (junctionName c) (convert strict) [] [rule] >>= fun texts =>
      pure (groupText c texts)) ∧
    ∀ {α : Type} (visit : Document → Conversion α),
      visitRun c (junctionName c) visit [] [rule] = operands.mapM visit := by
  refine ⟨?_, ?_, convert_eq_visitRun (h.isRecordOf hlength), h.visitRun_eq_mapM _⟩
  · rw [h.convert_eq hlength, h'.convert_eq hlength]
  · rw [h.convert_eq hlength]
    exact joined_mapM strict c operands

/-- A tag is an operand though it has the name of the connective. -/
def namesake : Document :=
  .object [("tag", .string "a"), ("name", .string "AND")]

/-- A run of the other connective is one operand. -/
def alternative : Document :=
  between .or (.object [("tag", .string "b")]) (.object [("tag", .string "c")])

/-- Nothing is known about the connective of this operand. -/
def obscure : Document :=
  .object [("name", .string "XOR")]

/-- Three such operands in both nestings. -/
theorem convert_reassociated_entangled :
    convert false (between .and (between .and namesake alternative) obscure) =
      convert false (between .and namesake (between .and alternative obscure)) ∧
    Joined false .and [namesake, alternative, obscure]
      (convert false (between .and (between .and namesake alternative) obscure)) := by
  have ha : Associates .and namesake [namesake] := .operand (by decide)
  have hb : Associates .and alternative [alternative] := .operand (by decide)
  have hc : Associates .and obscure [obscure] := .operand (by decide)
  have hleft : Associates .and (between .and (between .and namesake alternative) obscure)
      [namesake, alternative, obscure] :=
    (ha.between hb nofun nofun).between hc nofun nofun
  have hright : Associates .and (between .and namesake (between .and alternative obscure))
      [namesake, alternative, obscure] :=
    ha.between (hb.between hc nofun nofun) nofun nofun
  obtain ⟨heq, hjoined, -⟩ := convert_reassociated false hleft hright (by decide)
  exact ⟨heq, hjoined⟩

end DiagramFilter.Legacy
