import DiagramFilter.Expr.Token

/-!
# Faults of rule text

The reasons for which a text is no rule.  Each fault knows the words of the text it is about, and
none knows positions: those stand beside the fault, so that two layouts of the same words fail
for equal reasons.
-/

namespace DiagramFilter

/-- A variable is used where it is not bound; the bound ones, innermost first, are listed. -/
structure UndefinedVariable where
  name : String
  available : List String
deriving DecidableEq

/-- The text of an unbound variable's error. -/
def UndefinedVariable.message (e : UndefinedVariable) : String :=
  "Variable '" ++ e.name ++ "' is undefined" ++
    (if e.available.isEmpty then ""
     else ". Available variables: " ++ ", ".intercalate e.available)

/-- What stands at a place of a rule, in messages. -/
def describe : Option String → String
  | some text => "'" ++ text ++ "'"
  | none => "end of rule"

/-- What a rule needs at a place. -/
inductive Expected where
  /-- A token of one kind. -/
  | token (kind : TokenKind)
  /-- The name of a variable. -/
  | variableName
  /-- The sign that closes the focused expression of a variable. -/
  | closing (var : String)
deriving DecidableEq

/-- The description of what a rule needs. -/
def Expected.text : Expected → String
  | token kind => "'" ++ kind.label ++ "'"
  | variableName => "a variable name"
  | closing var => "'>' closing '" ++ var ++ "<'"

/-- The reasons for which a text has not the form of a rule. -/
inductive FormFault where
  | unexpectedCharacter (c : String)
  | emptyRule
  | mismatchedParentheses
  | trailing (got : Option String)
  | expected (what : Expected) (got : Option String)
  | expectedTagName (marker : String) (got : Option String)
  | expectedList (got : Option String)
  | missingOperand
  | unexpected (got : Option String)
  | listAsValue (word : String)
  | keywordAsVariable (word : String)
  | nestedTooDeeply
deriving DecidableEq

/-- The text of a fault of form. -/
def FormFault.reason : FormFault → String
  | unexpectedCharacter c => "Unexpected character " ++ c
  | emptyRule => "Empty rule"
  | mismatchedParentheses => "Mismatched parentheses"
  | trailing got => "Unexpected " ++ describe got ++ " after rule"
  | expected what got => "Expected " ++ what.text ++ ", got " ++ describe got
  | expectedTagName marker got =>
    "Expected a tag name or '[' after '" ++ marker ++ "', got " ++ describe got
  | expectedList got =>
    "Expected a list (" ++ ", ".intercalate (ListSource.all.map ListSource.word) ++
      " or [...]), got " ++ describe got
  | missingOperand => "Unexpected end of rule, expected an operand"
  | unexpected got => "Unexpected " ++ describe got
  | listAsValue word =>
    "List '" ++ word ++ "' cannot be used as a value, use a quantifier or #[x:" ++ word ++
      "|...] / $[x:" ++ word ++ "|...]"
  | keywordAsVariable word => "'" ++ word ++ "' is a keyword and cannot be used as a variable name"
  | nestedTooDeeply => "Rule is nested too deeply"

/-- The places that ask for an operand of one kind. -/
inductive Role where
  | operand (operator : String)
  | unaryMinus
  | body (var : String)
  | rule
deriving DecidableEq

/-- The description of such a place. -/
def Role.text : Role → String
  | operand operator => "Operator '" ++ operator ++ "'"
  | unaryMinus => "Unary '-'"
  | body var => "The body of '[" ++ var ++ ":...]'"
  | rule => "A filter rule"

/-- The name of the kind of an expression, empty if it has none. -/
def kindWord (kind? : Option Kind) : String :=
  (kind?.map Kind.word).getD ""

/-- The reasons for which the operands of a rule do not fit together. -/
inductive KindFault where
  | operand (role : Role) (wanted : Kind) (got : Option Kind)
  | comparison (operator : String) (left right : Option Kind)
  | focusedElement (var : String)
deriving DecidableEq

/-- The text of a fault of kinds. -/
def KindFault.reason : KindFault → String
  | operand role wanted got =>
    role.text ++ " expects a " ++ wanted.word ++ " operand, got " ++ kindWord got
  | comparison operator left right =>
    "Operator '" ++ operator ++ "' cannot compare " ++ kindWord left ++ " with " ++ kindWord right
  | focusedElement var => "Scoped expression '" ++ var ++ "<...>' must be boolean or numeric"

/-- The reasons for which a text is no rule, with their positions.  Nesting too deeply has
none. -/
inductive ParseError where
  | form (fault : FormFault) (position : Option Nat)
  | kind (fault : KindFault) (position : Nat)
  | undefinedVariable (fault : UndefinedVariable)
deriving DecidableEq

/-- A reason with the text it is about below it, and below that a caret at a position.  Without a
text or with a negative position only the reason is left. -/
def withPointer (reason text : String) (position : Int) : String :=
  if position < 0 || text.isEmpty then reason
  else
    reason ++ "\n  " ++ text ++ "\n  " ++ String.ofList (List.replicate position.toNat ' ') ++ "^"

namespace ParseError

/-- The text of an error without the rule and the caret. -/
def reason : ParseError → String
  | form fault _ => fault.reason
  | kind fault _ => fault.reason
  | undefinedVariable fault => fault.message

/-- The offset that an error points at, negative if it points nowhere. -/
def position : ParseError → Int
  | form _ (some position) => position
  | form _ none => -1
  | kind _ position => position
  | undefinedVariable _ => -1

/-- The text of an error in a rule. -/
def message (text : String) (e : ParseError) : String :=
  withPointer e.reason text e.position

end ParseError

end DiagramFilter
