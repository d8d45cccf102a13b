import DiagramFilter.Number.Decimal

/-!
# Numbers

A number is a whole number of any size or a double.  Whole numbers stay exact among themselves;
where a double takes part, the other operand becomes a double first, which fails for a whole
number beyond the largest double.  Comparison is exact in every case.
-/

namespace DiagramFilter

/-- A whole number of any size, or a double. -/
inductive Number where
  | int (n : Int)
  | float (x : Float)
deriving DecidableEq

namespace Number

/-- The ways in which arithmetic on numbers fails. -/
inductive Error where
  /-- A whole number beyond the largest double meets a double. -/
  | tooLarge
  /-- The quotient of two whole numbers is beyond the largest double. -/
  | quotientTooLarge
deriving DecidableEq

/-- The text of an arithmetic failure. -/
def Error.message : Error → String
  | tooLarge => "int too large to convert to float"
  | quotientTooLarge => "integer division result too large for a float"

/-- The double nearest to a number. -/
def toFloat : Number → Except Error Float
  | int n =>
    match Double.ofInt? n with
    | some x => .ok x
    | none => .error .tooLarge
  | float x => .ok x

/-- Every number is a double but a whole number that is too large. -/
theorem toFloat_eq_error {n : Number} {fault : Error} (h : n.toFloat = .error fault) :
    ∃ m, n = .int m ∧ Double.ofInt? m = none := by
  unfold toFloat at h
  -- Rounding is made a variable here: otherwise the kernel tries to round `m`.
  obtain ⟨nearest, hnearest⟩ : ∃ f, f = Double.ofInt? := ⟨_, rfl⟩
  rw [← hnearest] at h ⊢
  clear hnearest
  cases n with
  | int m =>
      cases hlarge : nearest m with
      | none => exact ⟨m, rfl, hlarge⟩
      | some x => simp only [hlarge, reduceCtorEq] at h
  | float x => simp only [reduceCtorEq] at h

/-- Both numbers as doubles, the first one tried first. -/
def toFloats (a b : Number) : Except Error (Float × Float) := do
  let x ← a.toFloat
  let y ← b.toFloat
  return (x, y)

/-- Zero of either sign. -/
def isZero : Number → Bool
  | int n => n = 0
  | float x => x == 0

/-- The exact order of two numbers; a double that is no number has no order. -/
def compare? : Number → Number → Option Ordering
  | int m, int n => some (compare m n)
  | float x, float y =>
    if x < y then some .lt
    else if x == y then some .eq
    else if x > y then some .gt
    else none
  | int n, float x => compareInt n x
  | float x, int n => (compareInt n x).map Ordering.swap
where
  /-- The order of a whole number and a double, in least units of the double. -/
  compareInt (n : Int) (x : Float) : Option Ordering :=
    if x.isNaN then none
    else if x.isInf then some (if Double.isNegative x then .gt else .lt)
    else
      let units : Int := Double.unitsOf x
      some (compare (n * Double.unitsPerOne) (if Double.isNegative x then -units else units))

/-- Equality by value. -/
def same (a b : Number) : Bool :=
  a.compare? b == some .eq

/-- The number with the other sign. -/
def neg : Number → Number
  | int n => int (-n)
  | float x => float (-x)

/-- Whole numbers by `whole`, all others as doubles by `double`. -/
def combine (whole : Int → Int → Int) (double : Float → Float → Float) :
    Number → Number → Except Error Number
  | int m, int n => .ok (int (whole m n))
  | a, b => do
    let (x, y) ← toFloats a b
    return float (double x y)

/-- The sum. -/
def add : Number → Number → Except Error Number :=
  combine (· + ·) (· + ·)

/-- The difference. -/
def sub : Number → Number → Except Error Number :=
  combine (· - ·) (· - ·)

/-- The product. -/
def mul : Number → Number → Except Error Number :=
  combine (· * ·) (· * ·)

/-- The quotient, always a double.  Two whole numbers are divided exactly before rounding.  By
zero it is infinite, and no number if the dividend is zero too. -/
def div (a b : Number) : Except Error Number :=
  if b.isZero && a.isZero then .ok (float (0 / 0))
  else
    match a, b.isZero, b with
    | int m, false, int n =>
      let bits := Double.nearestBits m.natAbs n.natAbs
      if bits < Double.infinityBits then
        .ok (float (Double.ofMagnitude (decide (m < 0) != decide (n < 0)) bits))
      else
        .error .quotientTooLarge
    | a, _, b => do
      let (x, y) ← toFloats a b
      return float (x / y)

/-- The remainder, always a double. -/
def mod (a b : Number) : Except Error Number := do
  let (x, y) ← toFloats a b
  return float (Double.remainder x y)

/-- The text of a number. -/
def text : Number → String
  | int n => toString n
  | float x => String.ofList (Double.text x)

end Number

end DiagramFilter
