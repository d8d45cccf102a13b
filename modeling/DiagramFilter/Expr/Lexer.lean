import DiagramFilter.Expr.Fault
import DiagramFilter.Text.Blank
import DiagramFilter.Text.Quoted

/-!
# Splitting rule text into tokens

Tokens are the longest pieces that start at their place, with blanks between them.  The word
right behind `#` or `$` is always a name, so tags may be called like keywords.
-/

namespace DiagramFilter.Lexer

/-- A character that starts a word. -/
def isNameStart (c : Char) : Bool :=
  c.isAlpha || c = '_'

/-- A character that continues a word. -/
def isNameChar (c : Char) : Bool :=
  c.isAlphanum || c = '_'

/-- The word at the front of a text, empty if there is none. -/
def scanName : List Char → List Char
  | [] => []
  | c :: cs => if isNameStart c then c :: cs.takeWhile isNameChar else []

/-- The exponent at the front of a text: a mark, an optional sign and digits; empty if one of
them is missing. -/
def scanExponent : List Char → List Char
  | [] => []
  | e :: cs =>
    if e = 'e' || e = 'E' then
      let sign := (cs.take 1).filter fun c => c = '+' || c = '-'
      let digits := (cs.drop sign.length).takeWhile Char.isDigit
      if digits.isEmpty then [] else e :: sign ++ digits
    else
      []

/-- The digits at the front of a text with the point and the digits behind it; empty if there is
no digit at all. -/
def scanMantissa (cs : List Char) : List Char :=
  let whole := cs.takeWhile Char.isDigit
  match cs.drop whole.length with
  | '.' :: rest =>
    let fraction := rest.takeWhile Char.isDigit
    if whole.isEmpty && fraction.isEmpty then [] else whole ++ '.' :: fraction
  | _ => whole

/-- The number at the front of a text, empty if there is none. -/
def scanNumber (cs : List Char) : List Char :=
  let mantissa := scanMantissa cs
  if mantissa.isEmpty then [] else mantissa ++ scanExponent (cs.drop mantissa.length)

/-- The sign at the front of a text.  Signs of two characters come before their first
characters. -/
def scanSign : List Char → Option (TokenKind × List Char)
  | '&' :: '&' :: _ => some (.junction .and, ['&', '&'])
  | '|' :: '|' :: _ => some (.junction .or, ['|', '|'])
  | '!' :: '=' :: _ => some (.compare .ne, ['!', '='])
  | '>' :: '=' :: _ => some (.compare .ge, ['>', '='])
  | '<' :: '=' :: _ => some (.compare .le, ['<', '='])
  | '(' :: _ => some (.leftParen, ['('])
  | ')' :: _ => some (.rightParen, [')'])
  | '[' :: _ => some (.leftBracket, ['['])
  | ']' :: _ => some (.rightBracket, [']'])
  | ':' :: _ => some (.colon, [':'])
  | '|' :: _ => some (.pipe, ['|'])
  | '#' :: _ => some (.hash, ['#'])
  | '$' :: _ => some (.dollar, ['$'])
  | '!' :: _ => some (.not, ['!'])
  | '=' :: _ => some (.compare .eq, ['='])
  | '>' :: _ => some (.compare .gt, ['>'])
  | '<' :: _ => some (.compare .lt, ['<'])
  | '+' :: _ => some (.arith .add, ['+'])
  | '-' :: _ => some (.arith .sub, ['-'])
  | '*' :: _ => some (.arith .mul, ['*'])
  | '/' :: _ => some (.arith .div, ['/'])
  | '%' :: _ => some (.arith .mod, ['%'])
  | _ => none

/-- The token at the front of a text, with its characters.  Right behind a tag marker every word
is a name. -/
def scanToken (afterMarker : Bool) (cs : List Char) : Option (TokenKind × List Char) :=
  match scanSign cs with
  | some token => some token
  | none =>
    let number := scanNumber cs
    if !number.isEmpty then some (.number, number)
    else
      let word := scanName cs
      if word.isEmpty then none
      else if afterMarker then some (.name, word)
      else some (.ofWord (String.ofList word), word)

/-- The tokens of a text that starts at an offset, the end of the rule as the last one. -/
def scan (position : Nat) (afterMarker : Bool) : List Char → Except ParseError (List Token)
  | [] => .ok [⟨.finish, "", position⟩]
  | c :: cs =>
    if Text.isBlank c then scan (position + 1) false cs
    else
      match scanToken afterMarker (c :: cs) with
      | none =>
        .error (.form (.unexpectedCharacter (Text.quoted (String.singleton c))) (some position))
      | some (kind, text) => do
        let rest ← scan (position + text.length) kind.isTagMarker (cs.drop (text.length - 1))
        return ⟨kind, String.ofList text, position⟩ :: rest
termination_by cs => cs.length
decreasing_by all_goals simp; try omega

/-- The tokens of a rule. -/
def tokenize (text : String) : Except ParseError (List Token) :=
  scan 0 false text.toList

end DiagramFilter.Lexer
