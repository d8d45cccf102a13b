import DiagramFilter.Diagram.Traversal
import DiagramFilter.Proofs.Building.Store
import Mathlib.Algebra.BigOperators.Group.Finset.Basic
import Mathlib.Algebra.Order.BigOperators.Group.Finset

/-!
# The order of visits

`Visits` says in which order the elements at and below a row of elements are visited: each before
those below it, and these before those at and below the next one.  The visit with a stack follows
this order (`Visits.walk`), and where no element comes twice it has steps enough
(`Visits.elementsFrom`).
-/

namespace DiagramFilter.Diagram

variable {g : Diagram} {row visited : List Handle}

/-- The elements at and below a row, each before those below it, and these before the next ones of
the row. -/
inductive Visits (g : Diagram) : (row visited : List Handle) → Prop
  | nil : Visits g [] []
  | cons {h : Handle} {row below after : List Handle}
      (hbelow : Visits g (g.element h).children below) (hafter : Visits g row after) :
      Visits g (h :: row) (h :: (below ++ after))

namespace Visits

/-- What is visited from the first element of a row on comes before what is visited from the
others on. -/
theorem cons_row {h : Handle} {others : List Handle} (hv : Visits g [h] visited)
    (hothers : Visits g row others) : Visits g (h :: row) (visited ++ others) := by
  cases hv with
  | cons hbelow hafter =>
      cases hafter with
      | nil =>
          rw [List.append_nil, List.cons_append]
          exact .cons hbelow hothers

/-- Visiting with a stack passes over a row and all below it, and goes on with the rest. -/
theorem walk (hv : Visits g row visited) (steps : Nat) (rest : List Handle) :
    g.walk (visited.length + steps) (row ++ rest) = visited ++ g.walk steps rest := by
  induction hv generalizing steps rest with
  | nil => rw [List.length_nil, Nat.zero_add, List.nil_append, List.nil_append]
  | @cons h row below after hbelow hafter ihbelow ihafter =>
      have hlength : (h :: (below ++ after)).length + steps =
          below.length + (after.length + steps) + 1 := by
        simp only [List.length_cons, List.length_append]
        omega
      rw [hlength, List.cons_append, Diagram.walk, ihbelow, ihafter, List.cons_append,
        List.append_assoc]

/-- What is visited is the row and the children of all that is visited. -/
theorem perm (hv : Visits g row visited) :
    visited.Perm (row ++ visited.flatMap fun h => (g.element h).children) := by
  induction hv with
  | nil => simp
  | @cons h row below after hbelow hafter ihbelow ihafter =>
      rw [List.flatMap_cons, List.flatMap_append, List.cons_append]
      refine List.Perm.cons h ((ihbelow.append ihafter).trans ?_)
      rw [← List.append_assoc, ← List.append_assoc, ← List.append_assoc]
      refine List.Perm.append_right _ ?_
      rw [List.append_assoc row]
      exact List.perm_append_comm

/-- Where no element comes twice, no more elements are visited than there are links to children,
besides the row itself. -/
theorem length_le (hv : Visits g row visited) (hnodup : visited.Nodup) :
    visited.length ≤ row.length + g.childLinks := by
  have hlinks : g.childLinks =
      ∑ h ∈ (List.range g.size).toFinset, (g.element h).children.length := by
    rw [List.sum_toFinset _ List.nodup_range, childLinks, toList_elements, List.length_flatMap,
      List.map_map]
    rfl
  have hvisited : (visited.flatMap fun h => (g.element h).children).length =
      ∑ h ∈ visited.toFinset, (g.element h).children.length := by
    rw [List.length_flatMap, List.sum_toFinset _ hnodup]
  have hle : (∑ h ∈ visited.toFinset, (g.element h).children.length) ≤ g.childLinks := by
    rw [hlinks]
    refine Finset.sum_le_sum_of_ne_zero fun h _ hne => ?_
    rw [List.mem_toFinset, List.mem_range]
    by_contra hsize
    exact hne (by rw [element_of_size_le (Nat.le_of_not_lt hsize)]; rfl)
  rw [hv.perm.length_eq, List.length_append, hvisited]
  omega

/-- The visit that begins at an element has steps enough where no element comes twice. -/
theorem elementsFrom {root : Handle} (hv : Visits g [root] visited) (hnodup : visited.Nodup) :
    g.elementsFrom root = visited := by
  have hsteps : visited.length ≤ (g.childLinks + 1) ^ g.size := by
    have hlength := hv.length_le hnodup
    rw [List.length_singleton, Nat.add_comm] at hlength
    by_cases hsize : g.size = 0
    · have hempty : g.elements = #[] := Array.eq_empty_of_size_eq_zero hsize
      simpa [childLinks, hempty, hsize] using hlength
    · exact hlength.trans (Nat.le_self_pow hsize _)
  obtain ⟨more, hmore⟩ := Nat.exists_eq_add_of_le hsteps
  have hwalk := hv.walk more []
  rw [List.append_nil] at hwalk
  rw [Diagram.elementsFrom, hmore, hwalk]
  cases more <;> simp [Diagram.walk]

end Visits

end DiagramFilter.Diagram
