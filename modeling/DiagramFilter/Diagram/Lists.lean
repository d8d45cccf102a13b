import DiagramFilter.Diagram.Basic
import DiagramFilter.Expr.Basic

/-!
# The element lists of the rule language

Children, siblings and adjacent elements count only with a tag collection; the element itself and
its parent count always.
-/

namespace DiagramFilter.Diagram

/-- The elements among these that have a tag collection. -/
def taggable (g : Diagram) (hs : List Handle) : List Handle :=
  hs.filter fun h => (g.element h).isTaggable

/-- The elements of a list that starts from an element. -/
def list (g : Diagram) (source : ListSource) (h : Handle) : List Handle :=
  let e := g.element h
  match source with
  | .self => [h]
  | .parent => e.parent.toList
  | .children => g.taggable e.children
  | .siblings =>
    match e.parent with
    | none => []
    | some p => g.taggable ((g.element p).children.filter (· ≠ h))
  | .adjacents => g.taggable (g.adjacents h)

end DiagramFilter.Diagram
