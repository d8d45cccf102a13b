import DiagramFilter.Diagram.Basic

/-!
# Visiting the elements below an element

The elements are visited depth first, each before its children and these in order.  The visit
works through a stack of elements yet to be seen.
-/

namespace DiagramFilter.Diagram

/-- The number of entries in all lists of children. -/
def childLinks (g : Diagram) : Nat :=
  (g.elements.toList.flatMap fun e => e.children).length

/-- Takes elements from a stack, at most `steps` of them, and puts the children of each in its
place. -/
def walk (g : Diagram) : (steps : Nat) → (stack : List Handle) → List Handle
  | 0, _ => []
  | _, [] => []
  | steps + 1, h :: stack => h :: walk g steps ((g.element h).children ++ stack)

/-- An element and all elements below it.  Where no element is below itself, a way down takes
fewer links than there are elements, so the number of visits is bounded. -/
def elementsFrom (g : Diagram) (root : Handle) : List Handle :=
  g.walk ((g.childLinks + 1) ^ g.size) [root]

/-- Visits elements like `walk` until one has an id. -/
def search (g : Diagram) (id : String) : (steps : Nat) → (stack : List Handle) → Option Handle
  | 0, _ => none
  | _, [] => none
  | steps + 1, h :: stack =>
    if (g.element h).id == id then some h
    else search g id steps ((g.element h).children ++ stack)

/-- The first element of an id among an element and those below it. -/
def findFrom? (g : Diagram) (root : Handle) (id : String) : Option Handle :=
  g.search id ((g.childLinks + 1) ^ g.size) [root]

/-- The search ends at the first element of the walk that has the identity. -/
theorem search_eq_find? (g : Diagram) (id : String) (steps : Nat) (stack : List Handle) :
    g.search id steps stack = (g.walk steps stack).find? fun h => (g.element h).id == id := by
  fun_induction walk g steps stack with
  | case1 => simp [search]
  | case2 => simp [search]
  | case3 steps h stack ih =>
    rw [search, List.find?_cons, ih]
    cases (g.element h).id == id <;> rfl

/-- The search finds the first visited element of the id. -/
theorem findFrom?_eq (g : Diagram) (root : Handle) (id : String) :
    g.findFrom? root id = (g.elementsFrom root).find? fun h => (g.element h).id == id :=
  search_eq_find? g id _ _

end DiagramFilter.Diagram
