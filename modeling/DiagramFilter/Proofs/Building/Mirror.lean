import DiagramFilter.Proofs.Building.Records
import DiagramFilter.Proofs.Building.Traversal

/-!
# Diagrams that mirror documents

`Mirrors` says that a row of records and a row of elements are one forest: every element is
described by its record, its children are those of the child records, in order, and each knows it as
its parent.  With it go the pairs at and below the row, in the order of visits.

`TreeOf` says that a whole diagram is the tree of a document.  Its elements are then visited in the
order of the records, and each has one place in it.
-/

namespace DiagramFilter.Diagram

/-- The pairs of a row are records with their elements, all the way down, and `visited` are these
pairs and those below, each before those below it. -/
inductive Mirrors (g : Diagram) : (row visited : List (Document × Handle)) → Prop
  | nil : Mirrors g [] []
  | cons {record : Document} {h : Handle} {records : List Document}
      {row below after : List (Document × Handle)}
      (hown : Describes record h (g.element h))
      (hrecords : childRecords? record = some records)
      (hcount : (g.element h).children.length = records.length)
      (hparent : ∀ c ∈ (g.element h).children, (g.element c).parent = some h)
      (hbelow : Mirrors g (records.zip (g.element h).children) below)
      (hafter : Mirrors g row after) :
      Mirrors g ((record, h) :: row) ((record, h) :: (below ++ after))

namespace Mirrors

variable {g g' : Diagram} {row row' visited : List (Document × Handle)}

/-- Two rows side by side are visited one after the other. -/
theorem exists_append (hm : Mirrors g (row ++ row') visited) :
    ∃ first second, visited = first ++ second ∧ Mirrors g row first ∧ Mirrors g row' second := by
  induction row generalizing visited with
  | nil => exact ⟨[], visited, rfl, .nil, hm⟩
  | cons p row ih =>
      cases hm with
      | cons hown hrecords hcount hparent hbelow hafter =>
          obtain ⟨first, second, rfl, hfirst, hsecond⟩ := ih hafter
          refine ⟨_, second, ?_, .cons hown hrecords hcount hparent hbelow hfirst, hsecond⟩
          rw [List.cons_append, List.append_assoc]

/-- The records are visited in the order of the document. -/
theorem records_eq (hm : Mirrors g row visited) :
    visited.map Prod.fst = recordsOf (row.map Prod.fst) := by
  induction hm with
  | nil => rw [List.map_nil, recordsOf]
  | cons hown hrecords hcount hparent hbelow hafter ihbelow ihafter =>
      rw [List.map_fst_zip (Nat.le_of_eq hcount.symm)] at ihbelow
      rw [List.map_cons, List.map_append, ihbelow, ihafter, List.map_cons, recordsOf, childRecords,
        hrecords, Option.getD_some]

/-- The elements are visited in the order of the diagram. -/
theorem visits (hm : Mirrors g row visited) :
    Visits g (row.map Prod.snd) (visited.map Prod.snd) := by
  induction hm with
  | nil => exact .nil
  | cons hown hrecords hcount hparent hbelow hafter ihbelow ihafter =>
      rw [List.map_snd_zip (Nat.le_of_eq hcount)] at ihbelow
      simp only [List.map_cons, List.map_append]
      exact .cons ihbelow ihafter

/-- Every visited pair is a record with its element, and the element's children know it. -/
theorem own (hm : Mirrors g row visited) : ∀ p ∈ visited, Describes p.1 p.2 (g.element p.2) ∧
    ∀ c ∈ (g.element p.2).children, (g.element c).parent = some p.2 := by
  induction hm with
  | nil => simp
  | cons hown hrecords hcount hparent hbelow hafter ihbelow ihafter =>
      intro p hp
      rcases List.mem_cons.mp hp with rfl | hp
      · exact ⟨hown, hparent⟩
      · exact (List.mem_append.mp hp).elim (ihbelow p) (ihafter p)

/-- Wires make no difference. -/
theorem congr (hm : Mirrors g row visited)
    (hsame : ∀ h, (g'.element h).unwired = (g.element h).unwired) : Mirrors g' row visited := by
  induction hm with
  | nil => exact .nil
  | @cons record h records row below after hown hrecords hcount hparent hbelow hafter ihbelow
      ihafter =>
      have hchildren : (g'.element h).children = (g.element h).children :=
        (congrArg Element.children (hsame h) :)
      have hparents : ∀ c, (g'.element c).parent = (g.element c).parent := fun c =>
        (congrArg Element.parent (hsame c) :)
      refine .cons (hown.congr (congrArg Element.unlinked (hsame h) :)) hrecords
        (by rw [hchildren, hcount]) (fun c hc => ?_) (by rwa [hchildren]) ihafter
      rw [hchildren] at hc
      rw [hparents, hparent c hc]

end Mirrors

/-- The records of a document with the elements of a diagram, both in the order of visits. -/
def pairs (d : Document) (g : Diagram) : List (Document × Handle) :=
  (recordsOf [d]).zip (g.elementsFrom root)

/-- The elements of a diagram are those of the records of a document, and no others. -/
structure TreeOf (d : Document) (g : Diagram) : Prop where
  mirrors : Mirrors g [(d, root)] (pairs d g)
  elements : (pairs d g).map Prod.snd = g.elementsFrom root
  perm : (g.elementsFrom root).Perm (List.range g.size)
  orphan : (g.element root).parent = none
  distinct : ((g.elementsFrom root).map fun h => (g.element h).id).Nodup

namespace TreeOf

variable {d : Document} {g g' : Diagram} {c h k p : Handle}

/-- The pairs that a mirror visits are those of the document and the diagram. -/
theorem of_mirrors {visited : List (Document × Handle)} (hm : Mirrors g [(d, root)] visited)
    (hperm : (visited.map Prod.snd).Perm (List.range g.size))
    (horphan : (g.element root).parent = none)
    (hdistinct : ((visited.map Prod.snd).map fun h => (g.element h).id).Nodup) :
    visited = pairs d g ∧ TreeOf d g := by
  have helements : g.elementsFrom root = visited.map Prod.snd :=
    hm.visits.elementsFrom (hperm.nodup_iff.mpr List.nodup_range)
  have hvisited : visited = pairs d g := List.zip_of_prod hm.records_eq helements.symm
  refine ⟨hvisited, hvisited ▸ hm, ?_, ?_, horphan, ?_⟩
  · rw [← hvisited, helements]
  · rwa [helements]
  · rwa [helements]

/-- Wires make no difference. -/
theorem congr (ht : TreeOf d g) (hsize : g'.size = g.size)
    (hsame : ∀ h, (g'.element h).unwired = (g.element h).unwired) :
    pairs d g = pairs d g' ∧ TreeOf d g' := by
  have hid : ∀ h, (g'.element h).id = (g.element h).id := fun h =>
    (congrArg Element.id (hsame h) :)
  refine of_mirrors (ht.mirrors.congr hsame) ?_ ?_ ?_
  · rw [ht.elements, hsize]
    exact ht.perm
  · exact (congrArg Element.parent (hsame root) :).trans ht.orphan
  · rw [ht.elements]
    simpa only [hid] using ht.distinct

/-- No element is visited twice. -/
theorem nodup (ht : TreeOf d g) : (g.elementsFrom root).Nodup :=
  ht.perm.nodup_iff.mpr List.nodup_range

/-- The elements that are visited are those of the store. -/
theorem mem_elementsFrom (ht : TreeOf d g) : h ∈ g.elementsFrom root ↔ h < g.size := by
  rw [ht.perm.mem_iff, List.mem_range]

/-- An element is known by its identity. -/
theorem eq_of_id_eq (ht : TreeOf d g) (hh : h < g.size) (hk : k < g.size)
    (hid : (g.element h).id = (g.element k).id) : h = k :=
  List.inj_on_of_nodup_map ht.distinct (ht.mem_elementsFrom.mpr hh) (ht.mem_elementsFrom.mpr hk) hid

/-- The outermost element and all children are the elements of the tree. -/
theorem perm_links (ht : TreeOf d g) : (g.elementsFrom root).Perm
    (root :: (g.elementsFrom root).flatMap fun h => (g.element h).children) := by
  have hvisits := ht.mirrors.visits
  rw [ht.elements] at hvisits
  exact hvisits.perm

/-- Only elements of the tree have children. -/
theorem lt_of_mem_children (hc : c ∈ (g.element p).children) : p < g.size := by
  by_contra hsize
  rw [element_of_size_le (Nat.le_of_not_lt hsize)] at hc
  cases hc

/-- Every element except the outermost is a child. -/
theorem exists_mem_children (ht : TreeOf d g) (hc : c < g.size) (hroot : c ≠ root) :
    ∃ p < g.size, c ∈ (g.element p).children := by
  have hlinks := (ht.perm_links.mem_iff).mp (ht.mem_elementsFrom.mpr hc)
  obtain ⟨p, hp, hmem⟩ := List.mem_flatMap.mp ((List.mem_cons.mp hlinks).resolve_left hroot)
  exact ⟨p, ht.mem_elementsFrom.mp hp, hmem⟩

/-- The parent of an element is the one whose children it is among. -/
theorem parent_eq_some (ht : TreeOf d g) :
    (g.element c).parent = some p ↔ c ∈ (g.element p).children := by
  have hparent : ∀ q, c ∈ (g.element q).children → (g.element c).parent = some q := by
    intro q hq
    have hmem : q ∈ (pairs d g).map Prod.snd := by
      rw [ht.elements]
      exact ht.mem_elementsFrom.mpr (lt_of_mem_children hq)
    obtain ⟨pair, hpair, rfl⟩ := List.mem_map.mp hmem
    exact (ht.mirrors.own pair hpair).2 c hq
  refine ⟨fun hp => ?_, hparent p⟩
  have hc : c < g.size := by
    by_contra hsize
    rw [element_of_size_le (Nat.le_of_not_lt hsize)] at hp
    cases hp
  have hroot : c ≠ root := by
    rintro rfl
    rw [ht.orphan] at hp
    cases hp
  obtain ⟨q, -, hq⟩ := ht.exists_mem_children hc hroot
  have hsame : q = p := Option.some.inj ((hparent q hq).symm.trans hp)
  exact hsame ▸ hq

/-- No element is twice among the children of another. -/
theorem nodup_children (ht : TreeOf d g) (p : Handle) : (g.element p).children.Nodup := by
  by_cases hp : p < g.size
  · have hlinks := (List.nodup_cons.mp (ht.perm_links.nodup_iff.mp ht.nodup)).2
    exact (List.nodup_flatMap.mp hlinks).1 p (ht.mem_elementsFrom.mpr hp)
  · rw [element_of_size_le (Nat.le_of_not_lt hp)]
    exact List.nodup_nil

end TreeOf

end DiagramFilter.Diagram
