import DiagramFilter.Document.Basic
import DiagramFilter.Eval.Basic

/-!
# What legacy records mean

A record is read directly as a truth value or as a number of an element, without any rule text.  A
tag is what the element has of it, stored or reserved.  The other records have the names of
connectives, and their meaning is that of the operands put together.  What is no record of a known
connective is true, or zero.
-/

namespace DiagramFilter.Legacy

variable (env : Env) (h : Handle)

/-- Whether an element has a tag: a stored one, or else a reserved one that holds. -/
def tagTruth (name : String) : Bool :=
  (env.diagram.element h).hasTag name || env.registry.holds env.diagram name h

/-- The number of a tag of an element: that of a stored one, or else the reserved one, or else
zero. -/
def tagNumber (name : String) : Float :=
  match (env.diagram.element h).findTag? name, env.registry.numeric? env.diagram name h with
  | some tag, _ => tag.num
  | none, some (.ok x) => x
  | none, _ => 0

/-- The double of a constant; zero has no sign. -/
def constantOf (rule : Document) : Float :=
  match rule.field? "num" with
  | some (.number n) =>
    match n.toFloat with
    | .ok x => if x == 0 then 0 else x
    | .error _ => 0
  | _ => 0

/-- The number of a connective, by the numbers of its operands. -/
def connectiveNumber (rule : Document) (name : String) (operand : String → Float) : Float :=
  match name with
  | "CONST" => constantOf rule
  | "NUMERICADDITION" => operand "leftOperand" + operand "rightOperand"
  | "NUMERICSUBTRACTION" => operand "leftOperand" - operand "rightOperand"
  | "NUMERICMULTIPLICATION" => operand "leftOperand" * operand "rightOperand"
  | "NUMERICDIVISION" => operand "leftOperand" / operand "rightOperand"
  | _ => 0

/-- The truth value of a connective, by the truth values or the numbers of its operands. -/
def connectiveTruth (name : String) (truth : String → Bool) (number : String → Float) : Bool :=
  match name with
  | "TRUE" => true
  | "FALSE" => false
  | "ID" | "IDENTITY" => truth "operand"
  | "NOT" => !truth "operand"
  | "AND" => truth "leftOperand" && truth "rightOperand"
  | "OR" => truth "leftOperand" || truth "rightOperand"
  | "IFTHEN" => !truth "leftOperand" || truth "rightOperand"
  | "LOGICEQUAL" => truth "leftOperand" == truth "rightOperand"
  | "IFTHENELSE" => if truth "firstOperand" then truth "secondOperand" else truth "thirdOperand"
  | "LESSTHAN" => number "leftOperand" < number "rightOperand"
  | "GREATERTHAN" => number "leftOperand" > number "rightOperand"
  | "LESSEQUALS" => number "leftOperand" ≤ number "rightOperand"
  | "GREATEREQUALS" => number "leftOperand" ≥ number "rightOperand"
  | "NUMERICEQUAL" => number "leftOperand" == number "rightOperand"
  | "NUMERICNOTEQUAL" => number "leftOperand" != number "rightOperand"
  | _ => true

/-- The number that a record is for an element. -/
def numberOf (rule : Document) : Float :=
  match rule.value? "tag", rule.value? "name" with
  | some tag, _ => tagNumber env h tag.display
  | none, some name =>
    connectiveNumber rule name.display fun key =>
      match _ : rule.value? key with
      | some d => numberOf d
      | none => 0
  | none, none => 0
termination_by rule.size
decreasing_by exact Document.size_lt_of_value? ‹_›

/-- The number of an operand of a record. -/
def operandNumber (rule : Document) (key : String) : Float :=
  ((rule.value? key).map (numberOf env h)).getD 0

/-- Whether a record holds for an element. -/
def truthOf (rule : Document) : Bool :=
  match rule.value? "tag", rule.value? "name" with
  | some tag, _ => tagTruth env h tag.display
  | none, some name =>
    connectiveTruth name.display
      (fun key =>
        match _ : rule.value? key with
        | some d => truthOf d
        | none => true)
      (operandNumber env h rule)
  | none, none => true
termination_by rule.size
decreasing_by exact Document.size_lt_of_value? ‹_›

/-- Whether an operand of a record holds. -/
def operandTruth (rule : Document) (key : String) : Bool :=
  ((rule.value? key).map (truthOf env h)).getD true

variable {rule tag name : Document}

/-- The number of a tag record is that of the tag. -/
theorem numberOf_tag (htag : rule.value? "tag" = some tag) :
    numberOf env h rule = tagNumber env h tag.display := by
  rw [numberOf, htag]

/-- The truth value of a tag record is that of the tag. -/
theorem truthOf_tag (htag : rule.value? "tag" = some tag) :
    truthOf env h rule = tagTruth env h tag.display := by
  rw [truthOf, htag]

/-- The number of a connective, by the numbers of its operands. -/
theorem numberOf_connective (htag : rule.value? "tag" = none)
    (hname : rule.value? "name" = some name) :
    numberOf env h rule = connectiveNumber rule name.display (operandNumber env h rule) := by
  rw [numberOf, htag, hname]
  simp only
  congr 1
  funext key
  unfold operandNumber
  split <;> simp_all

/-- The truth value of a connective, by those and by the numbers of its operands. -/
theorem truthOf_connective (htag : rule.value? "tag" = none)
    (hname : rule.value? "name" = some name) :
    truthOf env h rule =
      connectiveTruth name.display (operandTruth env h rule) (operandNumber env h rule) := by
  rw [truthOf, htag, hname]
  simp only
  congr 1
  funext key
  unfold operandTruth
  split <;> simp_all

end DiagramFilter.Legacy
