import DiagramFilter.Legacy.Convert

/-!
# Runs by pending records

The operands of a run, found by work on one stack of records yet to be seen.  A record of the
connective makes place for its operands, the left one on top, and any other record is visited.
-/

namespace DiagramFilter.Legacy

variable {α : Type} {c : Connective} {name : String} {visit : Document → Conversion α}
  {found : List α} {rule left right : Document} {pending : List Document}

/-- Takes records from a stack until it is empty, and puts what is found at each operand behind what
was found before. -/
def visitRun (c : Connective) (name : String) (visit : Document → Conversion α)
    (found : List α) (pending : List Document) : Conversion (List α) :=
  match pending with
  | [] => pure found
  | current :: pending =>
    if isJunction c current then
      match hright : current.value? "rightOperand", hleft : current.value? "leftOperand" with
      | none, _ => .fail (.missing name "rightOperand")
      | some _, none => .fail (.missing name "leftOperand")
      | some right, some left =>
        have _smaller := Document.size_add_lt_of_value? (by decide) hleft hright
        visitRun c name visit found (left :: right :: pending)
    else do
      let a ← visit current
      visitRun c name visit (found ++ [a]) pending
termination_by Document.sizeItems pending
decreasing_by
  · simp only [Document.sizeItems]
    omega
  · have positive := current.size_pos
    simp only [Document.sizeItems]
    omega

/-- Where nothing is pending, the run is over. -/
theorem visitRun_nil : visitRun c name visit found [] = pure found := by
  rw [visitRun]

/-- A pending rule that is no record of the connective is visited. -/
theorem visitRun_of_not_isJunction (h : isJunction c rule = false) :
    visitRun c name visit found (rule :: pending) =
      visit rule >>= fun a => visitRun c name visit (found ++ [a]) pending := by
  rw [visitRun, if_neg (by simp [h])]

/-- A record of the connective is taken apart, if it has both operands. -/
theorem visitRun_of_isJunction (h : isJunction c rule = true) :
    visitRun c name visit found (rule :: pending) =
      operand rule name "rightOperand" >>= fun right =>
        operand rule name "leftOperand" >>= fun left =>
          visitRun c name visit found (left.1 :: right.1 :: pending) := by
  rw [visitRun, if_pos h]
  split
  · rename_i hright
    rw [operand_of_none hright, Outcome.fail_bind]
  · rename_i hright hleft
    rw [operand_of_some hright, operand_of_none hleft, Outcome.pure_bind, Outcome.fail_bind]
  · rename_i hright hleft
    rw [operand_of_some hright, operand_of_some hleft, Outcome.pure_bind, Outcome.pure_bind]

end DiagramFilter.Legacy
