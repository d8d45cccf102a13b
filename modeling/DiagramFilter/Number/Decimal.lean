import DiagramFilter.Number.Double

/-!
# Decimal numbers

A decimal number is a whole number times a power of ten.  This module reads one from text, rounds
one to the nearest double, finds the shortest one that stands for a double, and writes it.
-/

namespace DiagramFilter

/-- The number `digits * 10 ^ exponent`. -/
structure Decimal where
  digits : Nat
  exponent : Int
deriving DecidableEq

namespace Decimal

/-- The bits of the double nearest to a decimal number.  A number with at most `width` digits
and an exponent far from zero is plainly too large or too small; the bounds keep the powers of
ten in size. -/
def toBits (d : Decimal) (width : Nat) : Nat :=
  if d.digits = 0 then 0
  else if 310 ≤ d.exponent then Double.infinityBits
  else if d.exponent + width ≤ -330 then 0
  else if 0 ≤ d.exponent then Double.nearestBits (d.digits * 10 ^ d.exponent.toNat) 1
  else Double.nearestBits d.digits (10 ^ (-d.exponent).toNat)

/-- The value of a row of decimal digits. -/
def ofDigits (cs : List Char) : Nat :=
  cs.foldl (fun n c => 10 * n + (c.toNat - '0'.toNat)) 0

/-- The exponent mark with its sign and digits, at the front of a text; nothing counts as
exponent zero. -/
def readExponent : List Char → Option Int
  | [] => some 0
  | e :: rest =>
    if e = 'e' || e = 'E' then
      let (negative, digits) :=
        match rest with
        | '+' :: digits => (false, digits)
        | '-' :: digits => (true, digits)
        | digits => (false, digits)
      if digits.isEmpty || !digits.all Char.isDigit then none
      else if negative then some (-(ofDigits digits : Int)) else some (ofDigits digits)
    else
      none

/-- Reads digits with an optional point and an optional exponent.  At least one digit must stand
before the exponent.  The second component is the number of digits read. -/
def read? (cs : List Char) : Option (Decimal × Nat) :=
  let whole := cs.takeWhile Char.isDigit
  let rest := cs.dropWhile Char.isDigit
  let (fraction, rest) :=
    match rest with
    | '.' :: rest => (rest.takeWhile Char.isDigit, rest.dropWhile Char.isDigit)
    | rest => ([], rest)
  if whole.isEmpty && fraction.isEmpty then none
  else
    (readExponent rest).map fun e =>
      (⟨ofDigits (whole ++ fraction), e - fraction.length⟩, whole.length + fraction.length)

/-- The double nearest to the number that a text spells. -/
def readDouble? (cs : List Char) : Option Float :=
  (read? cs).map fun (d, width) => Double.ofMagnitude false (d.toBits width)

/-- The decimal without the zeros at its end. -/
def strip (d : Decimal) : Decimal :=
  if d.digits ≠ 0 ∧ d.digits % 10 = 0 then strip ⟨d.digits / 10, d.exponent + 1⟩ else d
termination_by d.digits
decreasing_by omega

/-- The number of decimal digits of a number, one for zero. -/
def digitCount (n : Nat) : Nat :=
  (Nat.toDigits 10 n).length

/-- The exponent of the first decimal digit of a positive double. -/
def leadingExponent (bits : Nat) : Int :=
  (digitCount (Double.units bits * 10 ^ 400 / Double.unitsPerOne) : Int) - 401

/-- The decimal with the given last place that is nearest to a double, of two equally near ones
the one with the even last digit, among the two neighbours that are read back as that double. -/
def nearestAt? (bits : Nat) (place : Int) : Option Decimal :=
  let num := Double.units bits * 10 ^ (-place).toNat
  let den := Double.unitsPerOne * 10 ^ place.toNat
  let below : Decimal := ⟨num / den, place⟩
  let above : Decimal := ⟨num / den + 1, place⟩
  let twice := 2 * (num % den)
  let keepBelow := below.toBits 20 = bits
  let keepAbove := above.toBits 20 = bits
  if keepBelow && (!keepAbove || twice < den || (twice = den && below.digits % 2 = 0)) then
    some below
  else if keepAbove then some above
  else none

/-- The first of the next `tries` last places, each one digit further right, where a decimal is
read back as the double; the exact value if there is none. -/
def shortestFrom (bits : Nat) : (tries : Nat) → (place : Int) → Decimal
  | 0, _ => ⟨Double.units bits * 5 ^ 1074, -1074⟩
  | tries + 1, place =>
    match nearestAt? bits place with
    | some d => d.strip
    | none => shortestFrom bits tries (place - 1)

/-- The decimal with the fewest digits that is read back as the given positive double, and of
those the nearest to it.  Seventeen digits always suffice. -/
def shortest (bits : Nat) : Decimal :=
  shortestFrom bits 17 (leadingExponent bits)

/-- A decimal number is written with a point and no exponent if its first digit stands at one of
the places from ten thousandths, inclusive, to ten quadrillions, exclusive. -/
def isPositional (leading : Int) : Bool :=
  -4 ≤ leading && leading < 16

/-- The exponent after its mark: a sign and at least two digits. -/
def exponentText (e : Int) : List Char :=
  let digits := Nat.toDigits 10 e.natAbs
  (if e < 0 then '-' else '+') :: (if digits.length < 2 then '0' :: digits else digits)

/-- The text of a decimal number.  A whole number keeps a zero after its point. -/
def text (d : Decimal) : List Char :=
  let digits := Nat.toDigits 10 d.digits
  let leading : Int := d.exponent + digits.length - 1
  if isPositional leading then
    if leading < 0 then
      '0' :: '.' :: (List.replicate (-leading - 1).toNat '0' ++ digits)
    else
      let whole := (leading + 1).toNat
      let padded := digits ++ List.replicate (whole - digits.length) '0'
      let fraction := padded.drop whole
      padded.take whole ++ '.' :: (if fraction.isEmpty then ['0'] else fraction)
  else
    let mantissa :=
      match digits with
      | first :: more@(_ :: _) => first :: '.' :: more
      | single => single
    mantissa ++ 'e' :: exponentText leading

end Decimal

namespace Double

/-- The text of the magnitude of a double. -/
def magnitudeText (x : Float) : List Char :=
  if x.isNaN then ['n', 'a', 'n']
  else if x.isInf then ['i', 'n', 'f']
  else if magnitude x = 0 then ['0', '.', '0']
  else (Decimal.shortest (magnitude x)).text

/-- The text of a double: its shortest decimal, with a minus sign before a negative one. -/
def text (x : Float) : List Char :=
  if isNegative x && !x.isNaN then '-' :: magnitudeText x else magnitudeText x

end Double

end DiagramFilter
