import DiagramFilter.Expr.Lexer
import DiagramFilter.Legacy.Error
import DiagramFilter.Outcome

/-!
# Legacy records as rule text

A legacy rule is a tree of records.  A record with a tag is a leaf; any other has the name of a
connective and its operands in fields.  The text of a record is put together from the texts of its
operands without looking into them, so each text must be able to stand next to any operator:
connectives are put in parentheses, and tags and constants are single tokens, with parentheses
around a negative constant.

A record stands in boolean or in numeric position.  A tag is a truth value in one and a number in
the other; connectives belong to one of them.
-/

namespace DiagramFilter.Legacy

/-- A conversion yields text or an error, and warns about what it replaced. -/
abbrev Conversion := Outcome LegacyError Substitution

/-- What a record is at its root. -/
inductive Head where
  | tag (name : String)
  | connective (name : String)

/-- The head of a rule.  A tag counts before a name. -/
def head (rule : Document) : Except LegacyError Head :=
  match rule with
  | .object _ =>
    match rule.value? "tag", rule.value? "name" with
    | some tag, _ => .ok (.tag tag.display)
    | none, some name => .ok (.connective name.display)
    | none, none => .error .unnamed
  | d => .error (.notObject d.typeName)

/-- An operand of a connective, which is smaller than the record. -/
def operand (rule : Document) (connective key : String) :
    Conversion { d : Document // d.size < rule.size } :=
  match h : rule.value? key with
  | some d => pure ⟨d, Document.size_lt_of_value? h⟩
  | none => .fail (.missing connective key)

/-- An operand that is there is used, and is smaller than the record. -/
theorem operand_of_some {rule d : Document} {connective key : String}
    (h : rule.value? key = some d) :
    operand rule connective key = pure ⟨d, Document.size_lt_of_value? h⟩ := by
  unfold operand
  split
  · rename_i d' hd
    obtain rfl : d' = d := Option.some.inj (hd.symm.trans h)
    rfl
  · rename_i hnone
    rw [hnone] at h
    cases h

/-- A missing operand is an error. -/
theorem operand_of_none {rule : Document} {connective key : String}
    (h : rule.value? key = none) :
    operand rule connective key = .fail (.missing connective key) := by
  unfold operand
  split
  · rename_i hsome
    rw [hsome] at h
    cases h
  · rfl

/-- A tag behind its marker, if the name is a word of rule text. -/
def tagText (marker name : String) : Conversion String :=
  let cs := name.toList
  if !cs.isEmpty && Lexer.scanName cs = cs then pure (marker ++ name)
  else .fail (.unwritableTag name)

/-- The text of a finite double.  A negative one is in parentheses. -/
def doubleText (x : Float) : String :=
  let text :=
    match Double.toInt? x with
    | some n => toString n
    | none => String.ofList (Double.text x)
  if x < 0 then "(" ++ text ++ ")" else text

/-- The text of a constant. -/
def constantText (rule : Document) : Conversion String :=
  let num := (rule.field? "num").getD .null
  match num with
  | .number n =>
    match n.toFloat with
    | .error _ => .fail .tooLarge
    | .ok x => if x.isFinite then pure (doubleText x) else .fail (.notFinite num.quoted)
  | _ => .fail (.notNumber num.quoted)

/-- What stands for an unknown connective: nothing under strict rules, or else a constant. -/
def unknownText (strict : Bool) (name replacement : String) : Conversion String :=
  if strict then .fail (.unknownConnective name) else .warn ⟨name, replacement⟩ replacement

/-- The connectives that have truth values. -/
inductive BooleanShape where
  | constant (value : Bool)
  | identity
  | negation
  | junction (connective : Connective)
  | implication
  | equivalence
  | choice
  | relation (op : CompareOp)
deriving DecidableEq

/-- The connective with truth values that a name stands for. -/
def BooleanShape.ofName? : String → Option BooleanShape
  | "TRUE" => some (constant true)
  | "FALSE" => some (constant false)
  | "ID" | "IDENTITY" => some identity
  | "NOT" => some negation
  | "AND" => some (junction .and)
  | "OR" => some (junction .or)
  | "IFTHEN" => some implication
  | "LOGICEQUAL" => some equivalence
  | "IFTHENELSE" => some choice
  | "LESSTHAN" => some (relation .lt)
  | "GREATERTHAN" => some (relation .gt)
  | "LESSEQUALS" => some (relation .le)
  | "GREATEREQUALS" => some (relation .ge)
  | "NUMERICEQUAL" => some (relation .eq)
  | "NUMERICNOTEQUAL" => some (relation .ne)
  | _ => none

/-- The connectives that are numbers. -/
inductive NumericShape where
  | constant
  | arith (op : ArithOp)
deriving DecidableEq

/-- The numeric connective that a name stands for. -/
def NumericShape.ofName? : String → Option NumericShape
  | "CONST" => some constant
  | "NUMERICADDITION" => some (arith .add)
  | "NUMERICSUBTRACTION" => some (arith .sub)
  | "NUMERICMULTIPLICATION" => some (arith .mul)
  | "NUMERICDIVISION" => some (arith .div)
  | _ => none

/-- The text of a rule in numeric position. -/
def numeric (strict : Bool) (rule : Document) : Conversion String :=
  match head rule with
  | .error e => .fail e
  | .ok (.tag name) => tagText "$" name
  | .ok (.connective name) =>
    match NumericShape.ofName? name with
    | some .constant => constantText rule
    | some (.arith op) => do
      let left ← operand rule name "leftOperand"
      let a ← numeric strict left.1
      let right ← operand rule name "rightOperand"
      let b ← numeric strict right.1
      return "(" ++ a ++ op.symbol ++ b ++ ")"
    | none => unknownText strict name "0"
termination_by rule.size
decreasing_by
  · exact left.2
  · exact right.2

/-- Whether a rule is a record of a connective between truth values. -/
def isJunction (c : Connective) (rule : Document) : Bool :=
  match head rule with
  | .ok (.connective name) => BooleanShape.ofName? name = some (.junction c)
  | _ => false

mutual

/-- The text of a rule in boolean position.  A run of records of *and*, or of *or*, becomes one
group however they are nested. -/
def boolean (strict : Bool) (rule : Document) : Conversion String :=
  match head rule with
  | .error e => .fail e
  | .ok (.tag name) => tagText "#" name
  | .ok (.connective name) =>
    match BooleanShape.ofName? name with
    | some (.constant true) => pure "true"
    | some (.constant false) => pure "false"
    | some .identity => do
      let inner ← operand rule name "operand"
      let a ← boolean strict inner.1
      return "(" ++ a ++ ")"
    | some .negation => do
      let inner ← operand rule name "operand"
      let a ← boolean strict inner.1
      return "(!" ++ a ++ ")"
    | some (.junction c) => do
      let right ← operand rule name "rightOperand"
      let left ← operand rule name "leftOperand"
      let as ← run strict c name left.1
      let bs ← run strict c name right.1
      return "(" ++ c.symbol.intercalate (as ++ bs) ++ ")"
    | some .implication => do
      let left ← operand rule name "leftOperand"
      let a ← boolean strict left.1
      let right ← operand rule name "rightOperand"
      let b ← boolean strict right.1
      return "(!" ++ a ++ "||" ++ b ++ ")"
    | some .equivalence => do
      let left ← operand rule name "leftOperand"
      let a ← boolean strict left.1
      let right ← operand rule name "rightOperand"
      let b ← boolean strict right.1
      return "(" ++ a ++ "=" ++ b ++ ")"
    | some .choice => do
      let first ← operand rule name "firstOperand"
      let a ← boolean strict first.1
      let second ← operand rule name "secondOperand"
      let b ← boolean strict second.1
      let third ← operand rule name "thirdOperand"
      let c ← boolean strict third.1
      return "(" ++ a ++ "&&" ++ b ++ "||!" ++ a ++ "&&" ++ c ++ ")"
    | some (.relation op) => do
      let left ← operand rule name "leftOperand"
      let a ← numeric strict left.1
      let right ← operand rule name "rightOperand"
      let b ← numeric strict right.1
      return "(" ++ a ++ op.symbol ++ b ++ ")"
    | none => unknownText strict name "true"
termination_by (rule.size, 0)

/-- The texts of the operands of a run from left to right; a rule of another connective is one
operand.  Where a record lacks both operands, the right one is reported. -/
def run (strict : Bool) (c : Connective) (name : String) (rule : Document) :
    Conversion (List String) :=
  if isJunction c rule then do
    let right ← operand rule name "rightOperand"
    let left ← operand rule name "leftOperand"
    let as ← run strict c name left.1
    let bs ← run strict c name right.1
    return as ++ bs
  else do
    let a ← boolean strict rule
    return [a]
termination_by (rule.size, 1)

end

/-- The rule text of a legacy rule. -/
def convert (strict : Bool) (rule : Document) : Conversion String :=
  boolean strict rule

/-- Whether a record is a tag. -/
def isTag (rule : Document) : Bool :=
  (rule.value? "tag").isSome

/-- The name of a rule for display: its tag, or else the name it is given. -/
def ruleName? (rule : Document) : Option String :=
  match rule.value? "tag" with
  | some tag => some tag.display
  | none => (rule.value? "ruleName").map Document.display

/-- The initial state that a rule asks for, if it does. -/
def initialState? (rule : Document) : Except LegacyError (Option Bool) :=
  match rule.value? "defaultValue" with
  | none => .ok none
  | some (.bool value) => .ok (some value)
  | some d => .error (.stateNotBool d.quoted)

end DiagramFilter.Legacy
