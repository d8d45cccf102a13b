import DiagramFilter.Diagram.Basic
import Mathlib.Data.List.Basic

/-!
# What the operations of a diagram do to each element

Every operation is described by the element that stands at each handle after it: adding puts one
behind the others, changing an element leaves the others alone, and the two links, of a child to
its parent and of an edge to its ends, are seen from both sides.
-/

namespace DiagramFilter

/-- The element without its ends and its lists of edges. -/
def Element.unwired (e : Element) : Element :=
  { e with source := none, target := none, incoming := [], outgoing := [] }

/-- The element without its list of children. -/
def Element.childless (e : Element) : Element :=
  { e with children := [] }

/-- The element without any link to others. -/
def Element.unlinked (e : Element) : Element :=
  { id := e.id, kind := e.kind, tags := e.tags, properties := e.properties }

namespace Diagram

variable {g : Diagram} {h k parent child : Handle} {e : Element}

/-- There is no element at a handle that is not given yet. -/
theorem element_of_size_le (hk : g.size ≤ k) : g.element k = .absent := by
  rw [element, Array.getElem?_eq_none hk, Option.getD_none]

/-- The store holds the elements in the order of their handles. -/
theorem toList_elements (g : Diagram) : g.elements.toList = (List.range g.size).map g.element := by
  refine List.ext_getElem (by simp [size]) fun h hlt _ => ?_
  have hsize : h < g.elements.size := by simpa using hlt
  simp [element, hsize]

/-- One more element makes the store larger by one. -/
@[simp]
theorem size_add : (g.add e).size = g.size + 1 :=
  Array.size_push e

/-- The new element stands at the next handle. -/
@[simp]
theorem element_add_next : (g.add e).element g.size = e := by
  simp [element, add, size]

/-- One more element leaves the others as they are. -/
theorem element_add_of_lt (hk : k < g.size) : (g.add e).element k = g.element k := by
  have hne : k ≠ g.elements.size := Nat.ne_of_lt hk
  simp [element, add, Array.getElem?_push, hne]

/-- A change to an element keeps the number of elements. -/
@[simp]
theorem size_update (change : Element → Element) : (g.update h change).size = g.size :=
  Array.size_modify

/-- A change is made to the element at its handle and to no other. -/
theorem element_update (hh : h < g.size) (change : Element → Element) :
    (g.update h change).element k = if k = h then change (g.element k) else g.element k := by
  simp only [element, update, Array.getElem?_modify]
  by_cases hk : k = h
  · have hlt : h < g.elements.size := hh
    simp [hk, hlt]
  · simp [hk, Ne.symm hk]

/-- A link between elements keeps their number. -/
@[simp]
theorem size_addChild : (g.addChild parent child).size = g.size := by
  rw [addChild, size_update, size_update]

/-- A child knows its parent, and the parent has it behind its earlier children. -/
theorem element_addChild (hparent : parent < g.size) (hchild : child < g.size) :
    (g.addChild parent child).element k =
      { g.element k with
        parent := if k = child then some parent else (g.element k).parent
        children := (g.element k).children ++ if k = parent then [child] else [] } := by
  have hparent' : parent < (g.update child fun e => { e with parent := some parent }).size := by
    rwa [size_update]
  rw [addChild, element_update hparent', element_update hchild]
  split_ifs <;> simp

/-- An edge knows its ends, and each end has it behind the earlier edges of that side. -/
theorem connect_eq_ok {edge source target : Handle} (hkind : (g.element edge).kind = .edge)
    (hedge : edge < g.size) (hsource : source < g.size) (htarget : target < g.size) :
    ∃ g', g.connect edge source target = .ok g' ∧ g'.size = g.size ∧
      ∀ k, g'.element k =
        { g.element k with
          source := if k = edge then some source else (g.element k).source
          target := if k = edge then some target else (g.element k).target
          incoming := (g.element k).incoming ++ if k = target then [edge] else []
          outgoing := (g.element k).outgoing ++ if k = source then [edge] else [] } := by
  refine ⟨_, by rw [connect, if_pos hkind], by simp only [size_update], fun k => ?_⟩
  rw [element_update (by simpa only [size_update] using htarget),
    element_update (by simpa only [size_update] using hsource), element_update hedge]
  split_ifs <;> simp

end Diagram

end DiagramFilter
