import DiagramFilter.Eval.Scope
import DiagramFilter.Proofs.Listing.FirstPlaces

/-!
# Looking names up

A name has the element of its innermost binding.  Entering a binding gives its own name an element
and leaves the elements of all other names as they were.

`Scope.Shows` puts together how a scope answers when its bindings are a given row, and
`Scope.shows_bindings` says that every scope answers so.
-/

namespace DiagramFilter

namespace Scope

variable {s : Scope} {name x : String} {h e : Handle}

/-- A name stands for the element that its innermost binding says. -/
theorem lookup_eq_ok : s.lookup x = .ok e ↔ s.bindings.lookup x = some e := by
  unfold lookup
  cases s.bindings.lookup x <;> simp

/-- An element that is bound is the current one. -/
@[simp]
theorem current_bind : (s.bind name h).current = h := rfl

/-- A name that is bound hides earlier bindings of it. -/
@[simp]
theorem bindings_bind : (s.bind name h).bindings = (name, h) :: s.bindings := rfl

/-- The name of the innermost binding has the current element. -/
@[simp]
theorem lookup_name : s.lookup s.name = .ok s.current := by
  rw [lookup_eq_ok, bindings, List.lookup_cons_self]

/-- Inside a binding its name has the new element. -/
@[simp]
theorem lookup_bind_self : (s.bind name h).lookup name = .ok h :=
  lookup_name

/-- Inside a binding all other names have the elements that they had before. -/
theorem lookup_bind_of_ne (hx : x ≠ name) :
    (s.bind name h).lookup x = .ok e ↔ s.lookup x = .ok e := by
  have hne : (x == name) = false := beq_false_of_ne hx
  rw [lookup_eq_ok, lookup_eq_ok, bindings_bind, List.lookup_cons, hne]

/-- Binding a name again to the element that it has changes the element of no name. -/
theorem lookup_rebind (hname : s.lookup name = .ok h) :
    (s.bind name h).lookup x = .ok e ↔ s.lookup x = .ok e := by
  by_cases hx : x = name
  · rw [hx, lookup_bind_self, hname]
  · exact lookup_bind_of_ne hx

/-- The names of a scope are those of its bindings. -/
theorem mem_names : x ∈ s.names ↔ x ∈ s.bindings.map Prod.fst :=
  List.mem_eraseDups

/-- A name of a scope has an element. -/
theorem lookup_ok (hx : x ∈ s.names) : ∃ e, s.lookup x = .ok e := by
  unfold lookup
  cases hl : s.bindings.lookup x with
  | some e => exact ⟨e, rfl⟩
  | none =>
      obtain ⟨entry, hmem, rfl⟩ := List.mem_map.mp (mem_names.mp hx)
      have hne := List.lookup_eq_none_iff.mp hl entry hmem
      simp at hne

/-- A name that is not bound is an error that tells the names that are. -/
theorem lookup_of_notMem_names (hx : x ∉ s.names) : s.lookup x = .error ⟨x, s.names⟩ := by
  have hnone : s.bindings.lookup x = none := by
    rw [List.lookup_eq_none_iff]
    intro b hb
    have hne : x ≠ b.1 := fun heq => hx (mem_names.mpr (heq ▸ List.mem_map_of_mem hb))
    exact bne_iff_ne.mpr hne
  rw [lookup, hnone]

/-- Leaving undoes the entering of the innermost binding; the last binding stays. -/
theorem bindings_leave : s.leave.bindings = if s.outer = [] then s.bindings else s.outer := by
  obtain ⟨name, current, outer⟩ := s
  cases outer <;> rfl

/-- How a scope answers when a row is all its bindings, inner ones first. -/
structure Shows (s : Scope) (row : List (String × Handle)) : Prop where
  /-- The bindings are the row. -/
  bindings : s.bindings = row
  /-- The current element is that of the innermost binding. -/
  current : row.head?.map Prod.snd = some s.current
  /-- A name has an element just if it is among the names. -/
  lookup_iff : ∀ x, (∃ e, s.lookup x = .ok e) ↔ x ∈ s.names
  /-- That element is the one of the innermost binding of the name. -/
  innermost : ∀ x e, s.lookup x = .ok e ↔
    ∃ inner outer, row = inner ++ (x, e) :: outer ∧ x ∉ inner.map Prod.fst
  /-- The error about any other name lists the names. -/
  unbound : ∀ x, x ∉ s.names → s.lookup x = .error ⟨x, s.names⟩
  /-- The names are those that are bound. -/
  mem_names : ∀ x, x ∈ s.names ↔ x ∈ row.map Prod.fst
  /-- Each name stands there once, at the place of its innermost binding. -/
  order : s.names.Pairwise fun x y => (row.map Prod.fst).idxOf x < (row.map Prod.fst).idxOf y

/-- Every scope answers as its bindings say. -/
theorem shows_bindings (s : Scope) : s.Shows s.bindings where
  bindings := rfl
  current := rfl
  lookup_iff x := by
    constructor
    · rintro ⟨e, he⟩
      rw [lookup_eq_ok, List.lookup_eq_some_iff] at he
      obtain ⟨inner, outer, heq, -⟩ := he
      exact Scope.mem_names.mpr (by simp [heq])
    · exact lookup_ok
  innermost x e := by
    rw [lookup_eq_ok, List.lookup_eq_some_iff]
    refine exists₂_congr fun inner outer => and_congr_right fun _ => ?_
    simp only [List.mem_map, not_exists, not_and, bne_iff_ne]
    exact forall₂_congr fun b _ => ne_comm
  unbound x := lookup_of_notMem_names
  mem_names x := Scope.mem_names
  order := pairwise_idxOf_eraseDups _

end Scope

end DiagramFilter
