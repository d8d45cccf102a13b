import DiagramFilter.Diagram.Basic
import DiagramFilter.Expr.Fault
import DiagramFilter.Number.Copies

/-!
# Values

Expressions have truth values, numbers, elements or lists of elements as values.  Expressions
that were read from text never mix them up; in other trees any operator may meet any values.  A
truth value then counts as the number one or zero, lists can be joined and repeated, and every
other mixture is an error.
-/

namespace DiagramFilter

/-- The value of an expression. -/
inductive Value where
  | bool (value : Bool)
  | number (value : Number)
  | element (handle : Handle)
  | list (handles : List Handle)

/-- The reasons for which an expression has no value. -/
inductive EvalError where
  | undefinedVariable (fault : UndefinedVariable)
  /-- A list is named by a word that names none. -/
  | unknownList (word : String)
  /-- A leaf is no expression. -/
  | notExpression (typeName : String)
  /-- Arithmetic on numbers fails. -/
  | number (error : Number.Error)
  /-- Two values have no order. -/
  | unordered (op : CompareOp) (left right : String)
  /-- An operator does not take two values of these sorts. -/
  | operands (op : ArithOp) (left right : String)
  /-- Something other than a list is joined to a list. -/
  | notJoined (right : String)
  /-- A list is repeated by something other than a whole number. -/
  | notRepeated (count : String)
  /-- A list is repeated too often. -/
  | copies (error : CopyError)
  /-- A value has no opposite. -/
  | noOpposite (typeName : String)
  /-- A remainder or a quotient by zero is taken of something other than a number. -/
  | notReal (typeName : String)
  /-- A value is used as a list. -/
  | notIterable (typeName : String)
  /-- A value has no length. -/
  | unsized (typeName : String)
  /-- A value is used as a number but is none. -/
  | notNumeric (error : Document.NumberError)
deriving DecidableEq

namespace EvalError

/-- The text of such a reason. -/
def message : EvalError → String
  | undefinedVariable fault => fault.message
  | unknownList word => "Unknown list source: " ++ Text.quoted word
  | notExpression typeName => "Cannot evaluate " ++ typeName
  | number error => error.message
  | unordered op left right =>
    "'" ++ op.symbol ++ "' not supported between instances of '" ++ left ++ "' and '" ++ right ++
      "'"
  | operands op left right =>
    "unsupported operand type(s) for " ++ op.symbol ++ ": '" ++ left ++ "' and '" ++ right ++ "'"
  | notJoined right => "can only concatenate list (not \"" ++ right ++ "\") to list"
  | notRepeated count => "can't multiply sequence by non-int of type '" ++ count ++ "'"
  | copies error => error.message
  | noOpposite typeName => "bad operand type for unary -: '" ++ typeName ++ "'"
  | notReal typeName => "must be real number, not " ++ typeName
  | notIterable typeName => "'" ++ typeName ++ "' object is not iterable"
  | unsized typeName => "object of type '" ++ typeName ++ "' has no len()"
  | notNumeric error => error.message

/-- The class of such a reason. -/
def failureClass : EvalError → FailureClass
  | undefinedVariable _ => .undefinedVariable
  | unknownList _ => .value
  | number _ => .overflow
  | copies error => error.failureClass
  | notNumeric error => error.failureClass
  | _ => .type

end EvalError

namespace Value

/-- The name of the sort of a value. -/
def typeName : Value → String
  | bool _ => "bool"
  | number (.int _) => "int"
  | number (.float _) => "float"
  | element _ => "GraphElement"
  | list _ => "list"

/-- Whether a value counts as true: all but zero and what is empty. -/
def truth : Value → Bool
  | bool value => value
  | number value => !value.isZero
  | element _ => true
  | list handles => !handles.isEmpty

/-- A value as a number; a truth value is one or zero. -/
def number? : Value → Option Number
  | bool value => some (.int (if value then 1 else 0))
  | number value => some value
  | _ => none

/-- The elements of a list. -/
def handles : Value → Except EvalError (List Handle)
  | list handles => .ok handles
  | v => .error (.notIterable v.typeName)

/-- The length of a list. -/
def length : Value → Except EvalError Nat
  | list handles => .ok handles.length
  | v => .error (.unsized v.typeName)

/-- A value as a double. -/
def toFloat (v : Value) : Except EvalError Float :=
  match v.number? with
  | some n => n.toFloat.mapError .number
  | none => .error (.notNumeric (.wrongType v.typeName))

/-- Equality: numbers by value, elements by identity.  Two lists are never the same one. -/
def same : Value → Value → Bool
  | element a, element b => a = b
  | a, b =>
    match a.number?, b.number? with
    | some m, some n => m.same n
    | _, _ => false

/-- The order of two lists.  One that goes on where the other ends is greater; different elements
at one place have no order. -/
def listOrder (op : CompareOp) : List Handle → List Handle → Except EvalError Ordering
  | [], [] => .ok .eq
  | [], _ :: _ => .ok .lt
  | _ :: _, [] => .ok .gt
  | a :: as, b :: bs =>
    if a = b then listOrder op as bs
    else .error (.unordered op (element a).typeName (element b).typeName)

/-- Whether a comparison holds. -/
def compare (op : CompareOp) (a b : Value) : Except EvalError Bool :=
  match op with
  | .eq => .ok (a.same b)
  | .ne => .ok (!a.same b)
  | _ =>
    match a, b with
    | list as, list bs => (listOrder op as bs).map fun o => op.holds (some o)
    | _, _ =>
      match a.number?, b.number? with
      | some m, some n => .ok (op.holds (m.compare? n))
      | _, _ => .error (.unordered op a.typeName b.typeName)

/-- The opposite number. -/
def neg (v : Value) : Except EvalError Value :=
  match v.number? with
  | some n => .ok (number n.neg)
  | none => .error (.noOpposite v.typeName)

/-- The elements of a list, as many times over as a whole number says. -/
def repeated (handles : List Handle) (count : Value) : Except EvalError Value :=
  match count.number? with
  | some (.int n) => ((copies handles n).mapError .copies).map list
  | _ => .error (.notRepeated count.typeName)

/-- An operation on numbers. -/
def arithNumbers : ArithOp → Number → Number → Except Number.Error Number
  | .add => Number.add
  | .sub => Number.sub
  | .mul => Number.mul
  | .div => Number.div
  | .mod => Number.mod

/-- An operation on values of which at least one is no number. -/
def arithMixed (op : ArithOp) (a b : Value) : Except EvalError Value :=
  match op, a, b with
  | .add, list as, list bs => .ok (list (as ++ bs))
  | .add, list _, b => .error (.notJoined b.typeName)
  | .mul, list as, b => repeated as b
  | .mul, a, list bs => repeated bs a
  | .mod, a, b =>
    match a.number? with
    | some m => (m.toFloat.mapError .number).bind fun _ => .error (.notReal b.typeName)
    | none => .error (.notReal a.typeName)
  | .div, a, b =>
    if (b.number?.map Number.isZero).getD false then .error (.notReal a.typeName)
    else .error (.operands .div a.typeName b.typeName)
  | op, a, b => .error (.operands op a.typeName b.typeName)

/-- An operation on values. -/
def arith (op : ArithOp) (a b : Value) : Except EvalError Value :=
  match a.number?, b.number? with
  | some m, some n => ((arithNumbers op m n).mapError .number).map number
  | _, _ => arithMixed op a b

end Value

end DiagramFilter
