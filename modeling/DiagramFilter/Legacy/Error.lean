import DiagramFilter.Document.Basic
import DiagramFilter.Failure

/-!
# Faults of legacy records

The reasons for which a record cannot become rule text, and the warning that part of a record was
replaced because nothing is known about it.
-/

namespace DiagramFilter

/-- The reasons for which a record cannot become rule text. -/
inductive LegacyError where
  /-- A rule is no object but a value of this sort. -/
  | notObject (typeName : String)
  /-- A record has neither a tag nor a name. -/
  | unnamed
  /-- A connective lacks an operand. -/
  | missing (connective key : String)
  /-- A tag cannot be named in rule text. -/
  | unwritableTag (name : String)
  /-- A connective is not known. -/
  | unknownConnective (name : String)
  /-- A constant is no number. -/
  | notNumber (shown : String)
  /-- A constant is no finite number. -/
  | notFinite (shown : String)
  /-- The initial state is no truth value. -/
  | stateNotBool (shown : String)
  /-- A constant is beyond the largest double. -/
  | tooLarge
deriving DecidableEq

namespace LegacyError

/-- The text of such a reason. -/
def message : LegacyError → String
  | notObject typeName => "Legacy rule must be a mapping, got " ++ typeName
  | unnamed => "Legacy rule is neither a tag nor a connective (no 'tag' or 'name')"
  | missing connective key =>
    "Legacy connective '" ++ connective ++ "' is missing '" ++ key ++ "'"
  | unwritableTag name =>
    "Tag name " ++ Text.quoted name ++ " cannot be expressed in rule text"
  | unknownConnective name => "Unsupported legacy connective '" ++ name ++ "'"
  | notNumber shown => "Legacy constant needs a numeric 'num', got " ++ shown
  | notFinite shown => "Legacy constant must be finite, got " ++ shown
  | stateNotBool shown => "Legacy rule has a non-boolean 'defaultValue': " ++ shown
  | tooLarge => Number.Error.tooLarge.message

/-- The class of such a reason. -/
def failureClass : LegacyError → FailureClass
  | tooLarge => .overflow
  | _ => .legacy

end LegacyError

/-- An unknown connective was replaced by a constant. -/
structure Substitution where
  connective : String
  replacement : String
deriving DecidableEq

/-- The warning about a replaced connective. -/
def Substitution.message (w : Substitution) : String :=
  "Unsupported legacy connective '" ++ w.connective ++ "', using '" ++ w.replacement ++ "'"

end DiagramFilter
