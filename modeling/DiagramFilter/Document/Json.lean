import DiagramFilter.Document.Basic

/-!
# Documents as JSON text

A reader of JSON.  Numbers without a point and an exponent are whole, all others doubles.  Of
several fields with one key the last counts.  A blank text is a document too: it holds nothing.
-/

namespace DiagramFilter.Json

/-- The text behind the layout at its front. -/
def skipLayout (cs : List Char) : List Char :=
  cs.dropWhile fun c => c = ' ' || c = '\t' || c = '\n' || c = '\r'

/-- The value of a hexadecimal digit. -/
def hexValue? (c : Char) : Option Nat :=
  if c.isDigit then some (c.toNat - '0'.toNat)
  else if 'a' ≤ c && c ≤ 'f' then some (c.toNat - 'a'.toNat + 10)
  else if 'A' ≤ c && c ≤ 'F' then some (c.toNat - 'A'.toNat + 10)
  else none

/-- The value of four hexadecimal digits. -/
def hexUnit? (a b c d : Char) : Option Nat := do
  return (((← hexValue? a) * 16 + (← hexValue? b)) * 16 + (← hexValue? c)) * 16 + (← hexValue? d)

/-- The character that an escape of one letter stands for. -/
def escaped? : Char → Option Char
  | '"' => some '"'
  | '\\' => some '\\'
  | '/' => some '/'
  | 'b' => some '\x08'
  | 'f' => some '\x0c'
  | 'n' => some '\n'
  | 'r' => some '\r'
  | 't' => some '\t'
  | _ => none

/-- The character of two surrogate halves. -/
def surrogates (high low : Nat) : Char :=
  Char.ofNat (0x10000 + (high - 0xD800) * 0x400 + (low - 0xDC00))

/-- The characters of a text up to its closing quote, and what follows it.  The high half of a
surrogate pair waits for the low one. -/
def textBody (high : Option Nat) : List Char → Option (List Char × List Char)
  | [] => none
  | '"' :: rest => some ([], rest)
  | '\\' :: 'u' :: a :: b :: c :: d :: rest => do
    let unit ← hexUnit? a b c d
    if 0xD800 ≤ unit && unit < 0xDC00 then
      textBody (some unit) rest
    else
      let char :=
        match high with
        | some half =>
          if 0xDC00 ≤ unit && unit < 0xE000 then surrogates half unit else Char.ofNat unit
        | none => Char.ofNat unit
      let (body, rest) ← textBody none rest
      return (char :: body, rest)
  | '\\' :: c :: rest => do
    let char ← escaped? c
    let (body, rest) ← textBody none rest
    return (char :: body, rest)
  | c :: rest =>
    if c = '\\' || c.toNat < 0x20 then none
    else (textBody none rest).map fun (body, rest) => (c :: body, rest)

/-- A character of a number. -/
def isNumberChar (c : Char) : Bool :=
  c.isDigit || c = '-' || c = '+' || c = '.' || c = 'e' || c = 'E'

/-- The number that a row of characters spells. -/
def number? (cs : List Char) : Option Number :=
  let (negative, digits) :=
    match cs with
    | '-' :: digits => (true, digits)
    | digits => (false, digits)
  if digits.isEmpty then none
  else if digits.all Char.isDigit then
    let n : Int := Decimal.ofDigits digits
    some (.int (if negative then -n else n))
  else
    (Decimal.readDouble? digits).map fun x => .float (if negative then -x else x)

mutual

/-- The document at the front of a text, in at most `fuel` steps. -/
def value : (fuel : Nat) → List Char → Option (Document × List Char)
  | 0, _ => none
  | fuel + 1, cs =>
    match skipLayout cs with
    | 'n' :: 'u' :: 'l' :: 'l' :: rest => some (.null, rest)
    | 't' :: 'r' :: 'u' :: 'e' :: rest => some (.bool true, rest)
    | 'f' :: 'a' :: 'l' :: 's' :: 'e' :: rest => some (.bool false, rest)
    | '"' :: rest => (textBody none rest).map fun (body, rest) =>
      (.string (String.ofList body), rest)
    | '[' :: rest =>
      match skipLayout rest with
      | ']' :: rest => some (.list [], rest)
      | rest => (items fuel [] rest).map fun (ds, rest) => (.list ds, rest)
    | '\x7b' :: rest =>
      match skipLayout rest with
      | '\x7d' :: rest => some (.object [], rest)
      | rest => (members fuel [] rest).map fun (fields, rest) => (.object fields, rest)
    | rest => do
      let n ← number? (rest.takeWhile isNumberChar)
      return (.number n, rest.dropWhile isNumberChar)

/-- The items of a list up to its bracket, after the ones read before in reverse. -/
def items : (fuel : Nat) → List Document → List Char → Option (List Document × List Char)
  | 0, _, _ => none
  | fuel + 1, before, cs => do
    let (d, rest) ← value fuel cs
    match skipLayout rest with
    | ',' :: rest => items fuel (d :: before) rest
    | ']' :: rest => return ((d :: before).reverse, rest)
    | _ => none

/-- The fields of an object up to its brace, after the ones read before. -/
def members : (fuel : Nat) → List (String × Document) → List Char →
    Option (List (String × Document) × List Char)
  | 0, _, _ => none
  | fuel + 1, before, cs =>
    match skipLayout cs with
    | '"' :: rest => do
      let (key, rest) ← textBody none rest
      match skipLayout rest with
      | ':' :: rest =>
        let (d, rest) ← value fuel rest
        let fields := Document.setField before (String.ofList key) d
        match skipLayout rest with
        | ',' :: rest => members fuel fields rest
        | '\x7d' :: rest => return (fields, rest)
        | _ => none
      | _ => none
    | _ => none

end

/-- The document that a whole text spells.  Every step passes over a character, so twice as many
steps as there are characters are enough. -/
def read? (text : String) : Option Document := do
  let cs := text.toList
  let (d, rest) ← value (2 * cs.length + 2) cs
  if (skipLayout rest).isEmpty then some d else none

/-- The document in a file, which may be blank. -/
def ofFileText? (text : String) : Option Document :=
  if Text.isAllBlank text then some .null else read? text

end DiagramFilter.Json
