import Mathlib.Data.List.Basic

/-!
# First places

A row may have a member several times, and the place that counts is the first.  `FirstPlaces` says
that a list holds the members of a row that meet a condition, each once, in the order of these
places.  Dropping duplicates gives such a list (`FirstPlaces.eraseDups`), and so does leaving
members out of one (`FirstPlaces.filter`) or out of the row before (`FirstPlaces.of_filter`).
-/

namespace DiagramFilter

section

variable {α : Type} [DecidableEq α]

/-- Leaving some members of a row out keeps the order in which the others first appear. -/
theorem idxOf_filter_lt {row : List α} {p : α → Bool} {a b : α} (ha : p a = true)
    (hb : p b = true) :
    (row.filter p).idxOf a < (row.filter p).idxOf b ↔ row.idxOf a < row.idxOf b := by
  induction row with
  | nil => simp
  | cons c row ih => grind

/-- Without duplicates the members of a row stand in the order in which they first appear. -/
theorem pairwise_idxOf_eraseDups (row : List α) :
    row.eraseDups.Pairwise fun a b => row.idxOf a < row.idxOf b := by
  induction hn : row.length using Nat.strongRecOn generalizing row with
  | ind n ih =>
      cases row with
      | nil => simp
      | cons a row =>
          have hshorter : (row.filter fun b => !b == a).length < n := by
            have := List.length_filter_le (fun b => !b == a) row
            simp only [List.length_cons] at hn
            omega
          rw [List.eraseDups_cons, List.pairwise_cons]
          constructor
          · intro b hb
            have hne : b ≠ a := by simpa using (List.mem_filter.mp (List.mem_eraseDups.mp hb)).2
            simp [List.idxOf_cons_ne row hne.symm]
          · refine (ih _ hshorter _ rfl).imp_of_mem fun {b c} hb hc hbc => ?_
            have hb' := (List.mem_filter.mp (List.mem_eraseDups.mp hb)).2
            have hc' := (List.mem_filter.mp (List.mem_eraseDups.mp hc)).2
            have hlt := (idxOf_filter_lt (p := fun b => !b == a) hb' hc').mp hbc
            rw [List.idxOf_cons_ne row (by simpa using hb' : b ≠ a).symm,
              List.idxOf_cons_ne row (by simpa using hc' : c ≠ a).symm]
            omega

/-- The members of a row that meet a condition, each once, in the order in which they first
appear. -/
structure FirstPlaces (row : List α) (p : α → Prop) (kept : List α) : Prop where
  mem : ∀ a, a ∈ kept ↔ a ∈ row ∧ p a
  order : kept.Pairwise fun a b => row.idxOf a < row.idxOf b

namespace FirstPlaces

variable {row kept : List α} {p q : α → Prop}

/-- Without its duplicates a row has its members at their first places. -/
theorem eraseDups (row : List α) : FirstPlaces row (fun _ => True) row.eraseDups :=
  ⟨fun a => by rw [List.mem_eraseDups, and_true], pairwise_idxOf_eraseDups row⟩

/-- First places are not repeated. -/
theorem nodup (h : FirstPlaces row p kept) : kept.Nodup := by
  have hne : ∀ a b, row.idxOf a < row.idxOf b → a ≠ b := by
    rintro a b hlt rfl
    exact Nat.lt_irrefl _ hlt
  exact h.order.imp (hne _ _)

/-- First places are the same under equal conditions. -/
theorem congr (h : FirstPlaces row p kept) (hpq : ∀ a, p a ↔ q a) : FirstPlaces row q kept :=
  ⟨fun a => by rw [h.mem, hpq], h.order⟩

/-- Of the members that are kept, some may be left out. -/
theorem filter (h : FirstPlaces row p kept) (test : α → Bool) :
    FirstPlaces row (fun a => p a ∧ test a = true) (kept.filter test) :=
  ⟨fun a => by rw [List.mem_filter, h.mem, and_assoc], h.order.filter test⟩

/-- What is kept of part of a row is kept of the whole row. -/
theorem of_filter {test : α → Bool} (h : FirstPlaces (row.filter test) p kept) :
    FirstPlaces row (fun a => test a = true ∧ p a) kept := by
  refine ⟨fun a => by rw [h.mem, List.mem_filter, and_assoc], ?_⟩
  refine h.order.imp_of_mem fun {a b} ha hb hlt => ?_
  have ha' := (List.mem_filter.mp ((h.mem a).mp ha).1).2
  have hb' := (List.mem_filter.mp ((h.mem b).mp hb).1).2
  exact (idxOf_filter_lt ha' hb').mp hlt

end FirstPlaces

end

end DiagramFilter
