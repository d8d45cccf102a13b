import DiagramFilter.Number.Decimal
import DiagramFilter.Text.Blank
import DiagramFilter.Text.Digit

/-!
# Doubles from text

The spellings of a double in a document: an optional sign, then a decimal number, or a name of
infinity or of what is no number, in any mixture of cases.  Blanks may surround it, digits may be
those of any script, and a single underscore may stand between two digits.
-/

namespace DiagramFilter.Double

/-- The blanks that may surround a spelling: all but the four control characters that separate
files, groups, records and units. -/
def isMargin (c : Char) : Bool :=
  Text.isBlank c && !(0x1C ≤ c.toNat && c.toNat ≤ 0x1F)

/-- The text without the underscores between digits; an underscore elsewhere is refused. -/
def dropUnderscores (afterDigit : Bool) : List Char → Option (List Char)
  | [] => some []
  | '_' :: d :: cs =>
    if afterDigit && d.isDigit then (dropUnderscores true cs).map (d :: ·) else none
  | c :: cs => if c = '_' then none else (dropUnderscores c.isDigit cs).map (c :: ·)

/-- A double without its sign. -/
def readMagnitude? (cs : List Char) : Option Float :=
  match String.ofList (cs.map Char.toLower) with
  | "inf" | "infinity" => some (1 / 0)
  | "nan" => some (0 / 0)
  | _ => Decimal.readDouble? cs

/-- The double that a text spells. -/
def read? (s : String) : Option Float := do
  let trimmed := ((s.toList.dropWhile isMargin).reverse.dropWhile isMargin).reverse
  match ← dropUnderscores false (trimmed.map Text.asciiDigit) with
  | '-' :: cs => (readMagnitude? cs).map (- ·)
  | '+' :: cs => readMagnitude? cs
  | cs => readMagnitude? cs

end DiagramFilter.Double
