/-!
# Classes of failures

The operations of this library fail for reasons of their own.  What a caller tells apart are
the classes of these reasons.
-/

namespace DiagramFilter

/-- The classes of failures. -/
inductive FailureClass where
  /-- A text has not the form of a rule. -/
  | form
  /-- The operands of a rule do not fit together. -/
  | kind
  /-- A variable is used where it is not bound. -/
  | undefinedVariable
  /-- A legacy record is no rule. -/
  | legacy
  /-- A value is not among those that are allowed. -/
  | value
  /-- A value is of a sort that is not allowed. -/
  | type
  /-- A number is beyond the range of doubles, or of counts. -/
  | overflow
  /-- A value is too long to be held. -/
  | memory
  /-- Calls are nested deeper than the stack has room for. -/
  | recursion
deriving DecidableEq

end DiagramFilter
