import DiagramFilter.Failure
import DiagramFilter.Number.Double

/-!
# Copies

A whole number can say how many copies of a row are put together; a negative one asks for none.
Only a number of 64 bits counts copies, and the result must not be too long to be held.  The main
statement, `copies_eq_ok`, says what the copies are where both bounds are kept.
-/

namespace DiagramFilter

/-- The reasons for which copies are not made. -/
inductive CopyError where
  /-- The number of copies is beyond 64 bits. -/
  | countTooLarge
  /-- The copies together are too long. -/
  | tooLong
deriving DecidableEq

namespace CopyError

/-- The text of such a reason; there is none for a lack of room. -/
def message : CopyError → String
  | countTooLarge => "cannot fit 'int' into an index-sized integer"
  | tooLong => ""

/-- The class of such a reason. -/
def failureClass : CopyError → FailureClass
  | countTooLarge => .overflow
  | tooLong => .memory

end CopyError

/-- The length from which on a row is too long to be held. -/
def lengthLimit : Nat := 2 ^ 28

/-- Whether a whole number has 64 bits, the sign included. -/
def isCount (n : Int) : Bool :=
  -(2 ^ 63) ≤ n && n < 2 ^ 63

/-- As many copies of a row as a whole number says, one after the other.  Copies of an empty row
take no room, however many they are. -/
def copies {α : Type} (row : List α) (n : Int) : Except CopyError (List α) :=
  if !isCount n then .error .countTooLarge
  else if row.isEmpty then .ok []
  else if lengthLimit ≤ row.length * n.toNat then .error .tooLong
  else .ok (Nat.repeat (row ++ ·) n.toNat [])

/-- Putting a row in front again and again gives the joined copies. -/
theorem repeat_append_eq_flatten {α : Type} (row : List α) (n : Nat) :
    Nat.repeat (row ++ ·) n [] = (List.replicate n row).flatten := by
  induction n with
  | zero => rfl
  | succ n ih => simp [Nat.repeat, List.replicate_succ, ih]

/-- Within the bounds the copies are those of the row, joined. -/
theorem copies_eq_ok {α : Type} {row : List α} {n : Int} (count : isCount n = true)
    (short : row.length * n.toNat < lengthLimit) :
    copies row n = .ok (List.replicate n.toNat row).flatten := by
  cases row with
  | nil => simp [copies, count]
  | cons a row =>
    have fits : ¬ lengthLimit ≤ (a :: row).length * n.toNat := by omega
    simp only [copies, count, fits, repeat_append_eq_flatten]
    simp

end DiagramFilter
