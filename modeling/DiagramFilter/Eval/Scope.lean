import DiagramFilter.Diagram.Basic
import DiagramFilter.Expr.Fault

/-!
# Scopes

A scope binds names to elements, one inside the other.  There is always an innermost binding, and
its element is the current one, which tags and lists are about.
-/

namespace DiagramFilter

/-- Bindings of names to elements, the innermost one apart. -/
structure Scope where
  name : String
  current : Handle
  /-- The other bindings, inner ones first. -/
  outer : List (String × Handle) := []
deriving DecidableEq

namespace Scope

/-- All bindings, inner ones first. -/
def bindings (s : Scope) : List (String × Handle) :=
  (s.name, s.current) :: s.outer

/-- The scope with one more binding inside. -/
def bind (s : Scope) (name : String) (h : Handle) : Scope :=
  ⟨name, h, s.bindings⟩

/-- The number of bindings. -/
def depth (s : Scope) : Nat :=
  s.bindings.length

/-- The bound names, inner ones first, each once. -/
def names (s : Scope) : List String :=
  (s.bindings.map Prod.fst).eraseDups

/-- The element of the innermost binding of a name. -/
def lookup (s : Scope) (name : String) : Except UndefinedVariable Handle :=
  match s.bindings.lookup name with
  | some h => .ok h
  | none => .error ⟨name, s.names⟩

/-- The scope without its innermost binding; the last binding stays. -/
def leave (s : Scope) : Scope :=
  match s.outer with
  | [] => s
  | (name, h) :: outer => ⟨name, h, outer⟩

/-- Leaving undoes entering. -/
theorem leave_bind (s : Scope) (name : String) (h : Handle) : (s.bind name h).leave = s := rfl

end Scope

end DiagramFilter
