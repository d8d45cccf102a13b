import DiagramFilter.Expr.Basic
import DiagramFilter.Failure
import DiagramFilter.Number.Decimal

/-!
# Writing expressions

The written form of an expression puts every operation in parentheses, so that it can stand in
any place of another rule and no operator around it takes part of it.  Lists are written only
where a list belongs.

Parts are written by calls within calls, for which there is room on the stack or not
(`Expr.formatOn`).  What is written on a stack without an end is the written form (`Expr.format`).
-/

namespace DiagramFilter

/-- Why an expression is not written. -/
inductive FormatError where
  /-- It is a list, or no expression at all. -/
  | unwritable (nodeName : String)
  /-- It is nested deeper than the stack has room for. -/
  | tooDeep
deriving DecidableEq

/-- The text of a failure to write an expression. -/
def FormatError.message : FormatError → String
  | unwritable nodeName => "Cannot format " ++ nodeName
  | tooDeep => "maximum recursion depth exceeded"

/-- The class of a failure to write an expression. -/
def FormatError.failureClass : FormatError → FailureClass
  | unwritable _ => .type
  | tooDeep => .recursion

/-- How many calls a stack still has room for, or `none` if it has no end.  The calls are those of
the functions that write expressions; what these call in turn is not counted. -/
abbrev Room := Option Nat

/-- The room that is left inside one more call. -/
def Room.enter : Room → Except FormatError Room
  | none => .ok none
  | some 0 => .error .tooDeep
  | some (calls + 1) => .ok (some calls)

/-- The room of a whole stack, as programs find it where nobody has asked for more.  Its size is no
part of the language, as little as the limit on nesting. -/
def Room.whole : Room := some 1000

namespace Expr

/-- The magnitude of a number in a rule.  Whole values have no point, and infinity is a number too
large to be read as anything else. -/
def magnitudeText (x : Float) : String :=
  if x.isInf then "1e999"
  else
    match Double.toInt? x with
    | some n => toString n.natAbs
    | none => String.ofList (Double.magnitudeText x)

/-- A number in a rule.  One below zero is the opposite of its magnitude, in parentheses; a
negative zero is not below zero. -/
def numberText (x : Float) : String :=
  if x < 0 then "(-" ++ magnitudeText x ++ ")" else magnitudeText x

mutual

/-- The written form of an expression that has a value.  Every part is written by a call inside
that of the expression, a number too, and the operands of a connective by calls inside one more. -/
def formatOn (room : Room) (e : Expr) : Except FormatError String := do
  let inner ← room.enter
  match e with
  | bool true => return "true"
  | bool false => return "false"
  | number x => do
    let _ ← inner.enter
    return numberText x
  | tag name => return "#" ++ name
  | tagNumber name => return "$" ++ name
  | var name => return name
  | not e => return "(!" ++ (← e.formatOn inner) ++ ")"
  | neg e => return "(-" ++ (← e.formatOn inner) ++ ")"
  | junction c es => do
    let operands ← formatAllOn (← inner.enter) es
    return "(" ++ (" " ++ c.symbol ++ " ").intercalate operands ++ ")"
  | compare op a b => do
    return "(" ++ (← a.formatOn inner) ++ " " ++ op.symbol ++ " " ++ (← b.formatOn inner) ++ ")"
  | arith op a b => do
    return "(" ++ (← a.formatOn inner) ++ " " ++ op.symbol ++ " " ++ (← b.formatOn inner) ++ ")"
  | quantified q v source body => do
    let list ← source.formatSourceOn inner
    return q.word ++ "[" ++ v ++ ":" ++ list ++ "|" ++ (← body.formatOn inner) ++ "]"
  | focus v body => return v ++ "<" ++ (← body.formatOn inner) ++ ">"
  | count source => return "$" ++ (← source.formatBracketedOn inner)
  | nonEmpty source => return "#" ++ (← source.formatBracketedOn inner)
  | list _ | unknownList _ | comprehension .. | foreign _ => .error (.unwritable e.nodeName)

/-- The written form of a list, where a list belongs.  A quantified expression in such a place is
written like the comprehension of its parts. -/
def formatSourceOn (room : Room) (e : Expr) : Except FormatError String := do
  let inner ← room.enter
  match e with
  | list source => return source.word
  | unknownList word => return word
  | comprehension v source body | quantified _ v source body => do
    let list ← source.formatSourceOn inner
    return "[" ++ v ++ ":" ++ list ++ "|" ++ (← body.formatOn inner) ++ "]"
  | _ => .error (.unwritable e.nodeName)

/-- The written form of a list as a comprehension, which a plain list becomes by asking nothing
of its elements. -/
def formatBracketedOn (room : Room) (e : Expr) : Except FormatError String := do
  let inner ← room.enter
  match e with
  | list source => do
    let _ ← inner.enter
    return "[_:" ++ source.word ++ "|true]"
  | unknownList word => do
    let _ ← inner.enter
    return "[_:" ++ word ++ "|true]"
  | comprehension v source body | quantified _ v source body => do
    let list ← source.formatSourceOn inner
    return "[" ++ v ++ ":" ++ list ++ "|" ++ (← body.formatOn inner) ++ "]"
  | _ => .error (.unwritable e.nodeName)

/-- The written forms of operands, in order. -/
def formatAllOn (room : Room) : List Expr → Except FormatError (List String)
  | [] => return []
  | e :: es => do
    let text ← e.formatOn room
    return text :: (← formatAllOn room es)

end

/-- The written form of an expression that has a value, on a stack without an end. -/
def format (e : Expr) : Except FormatError String :=
  e.formatOn none

/-- The written form of a list, on a stack without an end. -/
def formatSource (e : Expr) : Except FormatError String :=
  e.formatSourceOn none

/-- The written form of a list as a comprehension, on a stack without an end. -/
def formatBracketed (e : Expr) : Except FormatError String :=
  e.formatBracketedOn none

/-- The written forms of operands, on a stack without an end. -/
def formatAll (es : List Expr) : Except FormatError (List String) :=
  formatAllOn none es

/-- The written form of a truth value. -/
theorem format_bool (value : Bool) :
    (bool value).format = .ok (if value then "true" else "false") := by
  cases value <;> rfl

/-- The written form of a number. -/
theorem format_number (x : Float) : (number x).format = .ok (numberText x) :=
  rfl

/-- The written form of a tag. -/
theorem format_tag (name : String) : (tag name).format = .ok ("#" ++ name) :=
  rfl

/-- The written form of the number of a tag. -/
theorem format_tagNumber (name : String) : (tagNumber name).format = .ok ("$" ++ name) :=
  rfl

/-- The written form of a variable. -/
theorem format_var (name : String) : (var name).format = .ok name :=
  rfl

/-- The written form of a negation. -/
theorem format_not (e : Expr) : (not e).format = do return "(!" ++ (← e.format) ++ ")" :=
  rfl

/-- The written form of an opposite number. -/
theorem format_neg (e : Expr) : (neg e).format = do return "(-" ++ (← e.format) ++ ")" :=
  rfl

/-- The written form of a conjunction or disjunction. -/
theorem format_junction (c : Connective) (es : List Expr) :
    (junction c es).format = do
      return "(" ++ (" " ++ c.symbol ++ " ").intercalate (← formatAll es) ++ ")" :=
  rfl

/-- The written form of a comparison. -/
theorem format_compare (op : CompareOp) (a b : Expr) :
    (compare op a b).format = do
      return "(" ++ (← a.format) ++ " " ++ op.symbol ++ " " ++ (← b.format) ++ ")" :=
  rfl

/-- The written form of an arithmetic operation. -/
theorem format_arith (op : ArithOp) (a b : Expr) :
    (arith op a b).format = do
      return "(" ++ (← a.format) ++ " " ++ op.symbol ++ " " ++ (← b.format) ++ ")" :=
  rfl

/-- The written form of a quantified expression. -/
theorem format_quantified (q : Quantifier) (v : String) (source body : Expr) :
    (quantified q v source body).format = do
      let list ← source.formatSource
      return q.word ++ "[" ++ v ++ ":" ++ list ++ "|" ++ (← body.format) ++ "]" :=
  rfl

/-- The written form of a focused expression. -/
theorem format_focus (v : String) (body : Expr) :
    (focus v body).format = do return v ++ "<" ++ (← body.format) ++ ">" :=
  rfl

/-- The written form of the length of a list. -/
theorem format_count (source : Expr) :
    (count source).format = do return "$" ++ (← source.formatBracketed) :=
  rfl

/-- The written form of the question whether a list has elements. -/
theorem format_nonEmpty (source : Expr) :
    (nonEmpty source).format = do return "#" ++ (← source.formatBracketed) :=
  rfl

/-- The written form of a plain list. -/
theorem formatSource_list (source : ListSource) : (list source).formatSource = .ok source.word :=
  rfl

/-- The written form of a comprehension. -/
theorem formatSource_comprehension (v : String) (source body : Expr) :
    (comprehension v source body).formatSource = do
      let list ← source.formatSource
      return "[" ++ v ++ ":" ++ list ++ "|" ++ (← body.format) ++ "]" :=
  rfl

/-- A plain list is written as a comprehension of all its elements. -/
theorem formatBracketed_list (source : ListSource) :
    (list source).formatBracketed = .ok ("[_:" ++ source.word ++ "|true]") :=
  rfl

/-- A comprehension is written in one way in every place. -/
theorem formatBracketed_comprehension (v : String) (source body : Expr) :
    (comprehension v source body).formatBracketed = (comprehension v source body).formatSource :=
  rfl

/-- No operands have no written forms. -/
theorem formatAll_nil : formatAll [] = .ok [] :=
  rfl

/-- Operands have written forms if each of them has one. -/
theorem formatAll_cons_of_ok {e : Expr} {es : List Expr} {text : String} {texts : List String}
    (h : e.format = .ok text) (hs : formatAll es = .ok texts) :
    formatAll (e :: es) = .ok (text :: texts) := by
  rw [format] at h
  rw [formatAll] at hs
  rw [formatAll, formatAllOn, h, hs]
  rfl

/-- A connective between operands has a written form if each of them has one. -/
theorem format_junction_of_ok (c : Connective) {es : List Expr} {texts : List String}
    (h : formatAll es = .ok texts) :
    (junction c es).format =
      .ok ("(" ++ (" " ++ c.symbol ++ " ").intercalate texts ++ ")") := by
  rw [format_junction, h]
  rfl

end Expr

end DiagramFilter
