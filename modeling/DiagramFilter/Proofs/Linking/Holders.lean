import Mathlib.Data.List.Induction

/-!
# Rows of links

A link joins a holder to a member.  A row of links is told twice: each holder knows its members, in
the order in which they came, and each member knows the holder that it came to last.  The second
telling follows the first (`mem_of_lastHolder?`); where no member comes twice, it says the same
(`lastHolder?_eq_some`).
-/

namespace DiagramFilter

variable {α : Type} [DecidableEq α] {links : List (α × α)} {holder member : α}

/-- The members of a holder, in order. -/
def membersOf (links : List (α × α)) (holder : α) : List α :=
  (links.filter fun link => link.1 = holder).map Prod.snd

/-- The holder to which a member came last. -/
def lastHolder? (links : List (α × α)) (member : α) : Option α :=
  ((links.filter fun link => link.2 = member).map Prod.fst).getLast?

/-- One more link gives its holder one more member. -/
theorem membersOf_append (links : List (α × α)) (new : α × α) (holder : α) :
    membersOf (links ++ [new]) holder =
      membersOf links holder ++ if holder = new.1 then [new.2] else [] := by
  by_cases h : holder = new.1
  · simp [membersOf, h]
  · simp [membersOf, h, Ne.symm h]

/-- One more link gives its member another holder. -/
theorem lastHolder?_append (links : List (α × α)) (new : α × α) (member : α) :
    lastHolder? (links ++ [new]) member =
      if member = new.2 then some new.1 else lastHolder? links member := by
  by_cases h : member = new.2
  · simp [lastHolder?, h]
  · simp [lastHolder?, h, Ne.symm h]

/-- The members of a holder are those that are linked to it. -/
theorem mem_membersOf : member ∈ membersOf links holder ↔ (holder, member) ∈ links := by
  simp [membersOf]

/-- A member came to its last holder. -/
theorem mem_of_lastHolder? (h : lastHolder? links member = some holder) :
    (holder, member) ∈ links := by
  have hmem := List.mem_of_getLast? h
  obtain ⟨link, hlink, rfl⟩ := List.mem_map.mp hmem
  obtain ⟨hlink, hmember⟩ := List.mem_filter.mp hlink
  rwa [← of_decide_eq_true hmember]

/-- A member that comes once has no holder but its last. -/
theorem lastHolder?_eq_some (hnodup : (links.map Prod.snd).Nodup) :
    lastHolder? links member = some holder ↔ (holder, member) ∈ links := by
  refine ⟨mem_of_lastHolder?, fun hmem => ?_⟩
  -- The induction is from the last link backwards, which is the one that counts.
  induction links using List.reverseRecOn with
  | nil => cases hmem
  | append_singleton links new ih =>
      rw [List.map_append, List.map_singleton] at hnodup
      obtain ⟨hbefore, -, hnew⟩ := List.nodup_append.mp hnodup
      rw [lastHolder?_append]
      rcases List.mem_append.mp hmem with hmem | hmem
      · have hne : member ≠ new.2 := by
          intro heq
          exact hnew _ (List.mem_map_of_mem hmem) _ List.mem_cons_self heq
        rw [if_neg hne]
        exact ih hbefore hmem
      · rw [← List.mem_singleton.mp hmem]
        exact if_pos rfl

/-- Where no member comes twice, no holder has one twice. -/
theorem nodup_membersOf (hnodup : (links.map Prod.snd).Nodup) (holder : α) :
    (membersOf links holder).Nodup :=
  hnodup.sublist (List.filter_sublist.map Prod.snd)

end DiagramFilter
