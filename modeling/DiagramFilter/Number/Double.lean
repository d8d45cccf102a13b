/-!
# Doubles as whole multiples of a least unit

Every finite double is a whole multiple of `2 ^ (-1074)`, the least positive one.  Its bits
without the sign, read as a number, order the doubles by magnitude.  This module converts
between the two readings and finds the double nearest to a quotient, so that reading decimal
text, printing it and taking remainders are exact arithmetic on natural numbers.
-/

-- Powers of numbers are those of the core library in every module, also where a general power
-- of monoids is in scope.
attribute [default_instance 20000, instance (20000)] instPowNat

namespace DiagramFilter.Double

/-- The number of least units in one. -/
def unitsPerOne : Nat := 2 ^ 1074

/-- The bits of infinity.  Larger ones, the sign left out, are no numbers. -/
def infinityBits : Nat := 2047 * 2 ^ 52

/-- The bits of a double without its sign. -/
def magnitude (x : Float) : Nat :=
  x.toBits.toNat % 2 ^ 63

/-- The sign bit; a negative zero has it too. -/
def isNegative (x : Float) : Bool :=
  2 ^ 63 ≤ x.toBits.toNat

/-- The double with the given sign and the given other bits. -/
def ofMagnitude (negative : Bool) (bits : Nat) : Float :=
  Float.ofBits (UInt64.ofNat (if negative then 2 ^ 63 + bits else bits))

/-- The magnitude of a finite double in least units: below `2 ^ 52` the bits themselves, above
it the fraction with its leading one, moved by the exponent. -/
def units (bits : Nat) : Nat :=
  if bits < 2 ^ 52 then bits
  else (2 ^ 52 + bits % 2 ^ 52) * 2 ^ (bits / 2 ^ 52 - 1)

/-- The whole number nearest to `n / d`; of two equally near ones the even one. -/
def roundHalfEven (n d : Nat) : Nat :=
  let q := n / d
  let twice := 2 * (n % d)
  if d < twice || (twice = d && q % 2 = 1) then q + 1 else q

/-- The bits of the double nearest to `n / d`, ties going to the even one.  Fifty-three binary
digits are kept, or as many as the least unit leaves; a fraction rounded up to the next power of
two carries into the exponent by itself, and what is too large becomes infinity. -/
def nearestBits (n d : Nat) : Nat :=
  let scaled := n * unitsPerOne
  let shift := (scaled / d).log2 - 52
  min (shift * 2 ^ 52 + roundHalfEven scaled (d * 2 ^ shift)) infinityBits

/-- The double nearest to `n / d`, with a sign. -/
def nearest (negative : Bool) (n d : Nat) : Float :=
  ofMagnitude negative (nearestBits n d)

/-- The magnitude of a double in least units. -/
def unitsOf (x : Float) : Nat :=
  units (magnitude x)

/-- The whole number that a finite double is, if it is one. -/
def toInt? (x : Float) : Option Int :=
  if x.isFinite && unitsOf x % unitsPerOne = 0 then
    let n : Int := (unitsOf x / unitsPerOne : Nat)
    some (if isNegative x then -n else n)
  else
    none

/-- The double nearest to a whole number, unless that is beyond the largest one. -/
def ofInt? (n : Int) : Option Float :=
  let bits := nearestBits n.natAbs 1
  if bits < infinityBits then some (ofMagnitude (n < 0) bits) else none

/-- The double nearest to a natural number. -/
def ofNat (n : Nat) : Float :=
  nearest false n 1

/-- The remainder of `x` by `y` with the sign of `x`.  It is exact.  There is none by zero or of
an infinity, and an infinite divisor leaves the dividend as it is. -/
def remainder (x y : Float) : Float :=
  if x.isNaN || y.isNaN || x.isInf || magnitude y = 0 then 0 / 0
  else if y.isInf then x
  else nearest (isNegative x) (unitsOf x % unitsOf y) unitsPerOne

end DiagramFilter.Double
