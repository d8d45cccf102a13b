/-!
# Blank characters

A blank character separates the words of a rule and surrounds a number in a document without
being part of either.  There are twenty-nine of them: the ASCII layout characters, the four
separators before the space, the next-line and no-break characters, and the spaces of the
Unicode categories for separators.
-/

namespace DiagramFilter.Text

/-- The ranges of blank code points, both ends included. -/
def blankRanges : List (Nat × Nat) :=
  [(0x09, 0x0D), (0x1C, 0x20), (0x85, 0x85), (0xA0, 0xA0), (0x1680, 0x1680),
   (0x2000, 0x200A), (0x2028, 0x2029), (0x202F, 0x202F), (0x205F, 0x205F), (0x3000, 0x3000)]

/-- A character that separates words. -/
def isBlank (c : Char) : Bool :=
  blankRanges.any fun r => r.1 ≤ c.toNat && c.toNat ≤ r.2

/-- A text without any visible character. -/
def isAllBlank (s : String) : Bool :=
  s.toList.all isBlank

/-- Every character that separates words in ASCII text is blank. -/
theorem isBlank_of_isWhitespace {c : Char} (h : c.isWhitespace = true) : isBlank c = true := by
  simp only [Char.isWhitespace, Bool.or_eq_true, decide_eq_true_eq] at h
  rcases h with ((rfl | rfl) | rfl) | rfl <;> decide

example : (blankRanges.map fun r => r.2 - r.1 + 1).sum = 29 := by decide

end DiagramFilter.Text
