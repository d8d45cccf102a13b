import DiagramFilter.Diagram.Traversal
import Mathlib.Logic.Function.Iterate

/-!
# The visit turn by turn

The visit of the elements below an element, as a loop whose stack grows at its end.  A turn takes
the last element of the stack, gives it out and pushes its children, the last one first, so that the
first one comes to lie on top.
-/

namespace DiagramFilter

/-- The state of the loop: what was given out so far, and the stack with its top at the end. -/
structure Visit where
  given : List Handle
  stack : List Handle
deriving DecidableEq

namespace Diagram

variable {g : Diagram} {given stack : List Handle} {h : Handle}

/-- One turn of the loop.  With an empty stack the loop is over and nothing changes. -/
def turn (g : Diagram) (v : Visit) : Visit :=
  match v.stack.getLast? with
  | none => v
  | some h => ⟨v.given ++ [h], v.stack.dropLast ++ (g.element h).children.reverse⟩

/-- Where nothing waits, nothing is given. -/
@[simp]
theorem turn_nil : g.turn ⟨given, []⟩ = ⟨given, []⟩ := rfl

/-- A turn gives the element on top of the stack and puts its children there, the first on top. -/
@[simp]
theorem turn_concat : g.turn ⟨given, stack ++ [h]⟩ =
    ⟨given ++ [h], stack ++ (g.element h).children.reverse⟩ := by
  simp [turn]

/-- An empty stack stays empty, and nothing more is given out. -/
theorem turns_nil (n : Nat) : g.turn^[n] ⟨given, []⟩ = ⟨given, []⟩ :=
  Function.iterate_fixed turn_nil n

/-- Fewer steps give the first of the elements that more steps give. -/
theorem take_walk (g : Diagram) (n more : Nat) (stack : List Handle) :
    (g.walk (n + more) stack).take n = g.walk n stack := by
  induction n generalizing stack with
  | zero => simp [walk]
  | succ n ih =>
      rw [Nat.succ_add]
      cases stack with
      | nil => simp [walk]
      | cons h stack => simp [walk, ih]

/-- The loop gives out what the visit takes from the stack, whatever the diagram. -/
theorem given_turns (g : Diagram) (n : Nat) (given stack : List Handle) :
    (g.turn^[n] ⟨given, stack⟩).given = given ++ g.walk n stack.reverse := by
  induction n generalizing given stack with
  | zero => simp [walk]
  | succ n ih =>
      rcases stack.eq_nil_or_concat with rfl | ⟨stack, h, rfl⟩
      · simp [turns_nil, walk]
      · simp [ih, walk]

end Diagram

end DiagramFilter
