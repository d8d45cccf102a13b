import DiagramFilter.Diagram.Lists
import DiagramFilter.Proofs.Building.Built
import DiagramFilter.Proofs.Listing.FirstPlaces

/-!
# The element lists of a built diagram

Each list of the rule language relates an element to others, and in a built diagram these relations
fit together: children and parents are converses, siblings and adjacent elements are so mutually.
None of this can be seen from one list.  It holds because a built diagram keeps every link on both
sides: `TreeOf.parent_eq_some` for the tree, `mem_incoming` and `mem_outgoing` for the wires.

Whether an element is taggable is asked only of the members of a list, so the mutual relations hold
between taggable elements.
-/

namespace DiagramFilter.Diagram

variable {d : Document} {g : Diagram} {ws : List DanglingEdge} {a b h : Handle}

/-- The list of children has the taggable ones. -/
theorem mem_list_children :
    b ∈ g.list .children a ↔ b ∈ (g.element a).children ∧ (g.element b).isTaggable :=
  List.mem_filter

/-- The list of the parent has the parent and nothing else. -/
theorem list_parent_eq_singleton : g.list .parent b = [a] ↔ (g.element b).parent = some a := by
  show (g.element b).parent.toList = [a] ↔ _
  cases (g.element b).parent <;> simp

/-- The list of siblings has the other taggable children of the parent. -/
theorem mem_list_siblings : b ∈ g.list .siblings a ↔
    (g.element b).isTaggable ∧ b ≠ a ∧
      ∃ p, (g.element a).parent = some p ∧ b ∈ (g.element p).children := by
  unfold list
  cases hparent : (g.element a).parent with
  | none => simp [hparent]
  | some p =>
      simp only [hparent, taggable, List.mem_filter, decide_eq_true_eq, Option.some.injEq,
        exists_eq_left']
      constructor
      · rintro ⟨⟨hmem, hne⟩, htaggable⟩
        exact ⟨htaggable, hne, hmem⟩
      · rintro ⟨htaggable, hne, hmem⟩
        exact ⟨⟨hmem, hne⟩, htaggable⟩

/-- The sources of the edges into an element, as its list of incoming edges has them. -/
def sourcesInto (g : Diagram) (a : Handle) : List Handle :=
  (g.element a).incoming.filterMap fun h => (g.element h).source

/-- The targets of the edges out of an element, as its list of outgoing edges has them. -/
def targetsFrom (g : Diagram) (a : Handle) : List Handle :=
  (g.element a).outgoing.filterMap fun h => (g.element h).target

/-- A wired edge leads from one element to another. -/
def Leads (g : Diagram) (a b : Handle) : Prop :=
  ∃ h ∈ g.elementsFrom root, (g.element h).kind = .edge ∧ (g.element h).source = some a ∧
    (g.element h).target = some b

/-- The adjacent elements are those at the other ends, without duplicates. -/
theorem adjacents_eq : g.adjacents a = (g.sourcesInto a ++ g.targetsFrom a).eraseDups := by
  show (List.filterMap id ((g.element a).incoming.map (fun h => (g.element h).source) ++
    (g.element a).outgoing.map fun h => (g.element h).target)).eraseDups = _
  rw [List.filterMap_append, List.filterMap_map, List.filterMap_map]
  rfl

/-- The list of adjacent elements has the taggable ones. -/
theorem mem_list_adjacents : b ∈ g.list .adjacents a ↔
    (b ∈ g.sourcesInto a ∨ b ∈ g.targetsFrom a) ∧ (g.element b).isTaggable := by
  show b ∈ (g.adjacents a).filter _ ↔ _
  rw [List.mem_filter, adjacents_eq, List.mem_eraseDups, List.mem_append]

/-- Adjacent elements are the taggable sources, then the taggable targets that are no sources, each
where it first appears. -/
theorem list_adjacents_split (g : Diagram) (a : Handle) :
    ∃ before after, g.list .adjacents a = before ++ after ∧
      FirstPlaces (g.sourcesInto a) (fun b => (g.element b).isTaggable) before ∧
      FirstPlaces (g.targetsFrom a) (fun b => (g.element b).isTaggable ∧ b ∉ before) after := by
  let test (b : Handle) : Bool := (g.element b).isTaggable
  have hbefore : FirstPlaces (g.sourcesInto a) (fun b => (g.element b).isTaggable)
      ((g.sourcesInto a).eraseDups.filter test) :=
    ((FirstPlaces.eraseDups _).filter test).congr fun b => and_iff_right trivial
  refine ⟨_, ((g.targetsFrom a).removeAll (g.sourcesInto a)).eraseDups.filter test, ?_, hbefore, ?_⟩
  · show (g.adjacents a).filter test = _
    rw [adjacents_eq, List.eraseDups_append, List.filter_append]
  · refine (((FirstPlaces.eraseDups _).filter test).of_filter).congr fun b => ?_
    have hsource : b ∈ (g.sourcesInto a).eraseDups.filter test ↔
        b ∈ g.sourcesInto a ∧ (g.element b).isTaggable := hbefore.mem b
    rw [hsource]
    by_cases htaggable : (g.element b).isTaggable = true <;> simp [test, htaggable]

/-- Siblings are the taggable elements with the same parent. -/
theorem TreeOf.mem_list_siblings (ht : TreeOf d g) : b ∈ g.list .siblings a ↔
    (g.element b).isTaggable ∧ b ≠ a ∧
      ∃ p, (g.element a).parent = some p ∧ (g.element b).parent = some p := by
  simp only [Diagram.mem_list_siblings, ht.parent_eq_some]

/-- What has a source and a target is an edge that leads from one to the other. -/
theorem leads_iff (hw : Wired g (edgesOf d g) (g, ws)) :
    g.Leads a b ↔ ∃ h ∈ g.elementsFrom root, (g.element h).source = some a ∧
      (g.element h).target = some b := by
  refine exists_congr fun h => and_congr_right fun _ => and_iff_right_of_imp fun ⟨hsource, _⟩ => ?_
  by_contra hkind
  rw [(hw.loose_of_kind hkind).1] at hsource
  cases hsource

/-- The sources into an element are those from which an edge leads to it. -/
theorem mem_sourcesInto (ht : TreeOf d g) (hw : Wired g (edgesOf d g) (g, ws)) :
    b ∈ g.sourcesInto a ↔ g.Leads b a := by
  simp only [sourcesInto, List.mem_filterMap, mem_incoming ht hw, leads_iff hw]
  exact exists_congr fun h => and_right_comm.trans and_assoc

/-- The targets from an element are those to which an edge leads from it. -/
theorem mem_targetsFrom (ht : TreeOf d g) (hw : Wired g (edgesOf d g) (g, ws)) :
    b ∈ g.targetsFrom a ↔ g.Leads a b := by
  simp only [targetsFrom, List.mem_filterMap, mem_outgoing ht hw, leads_iff hw]
  exact exists_congr fun h => and_assoc

/-- The lists from the elements of a diagram fit together. -/
structure ListsAgree (g : Diagram) : Prop where
  /-- No list has an element twice. -/
  nodup : ∀ source a, (g.list source a).Nodup
  /-- The children of an element are the taggable elements whose parent it is. -/
  children : ∀ a b, b ∈ g.list .children a ↔
    (g.element b).isTaggable ∧ g.list .parent b = [a]
  /-- No element is its own sibling, and taggable siblings are so mutually. -/
  siblings_irrefl : ∀ a, a ∉ g.list .siblings a
  siblings_comm : ∀ a b, (g.element a).isTaggable → (g.element b).isTaggable →
    (b ∈ g.list .siblings a ↔ a ∈ g.list .siblings b)
  /-- Taggable elements are adjacent, mutually, if a wired edge joins them in either direction. -/
  adjacents_comm : ∀ a b, (g.element a).isTaggable → (g.element b).isTaggable →
    (b ∈ g.list .adjacents a ↔ a ∈ g.list .adjacents b)
  adjacents_iff : ∀ a b, (g.element a).isTaggable → (g.element b).isTaggable →
    (b ∈ g.list .adjacents a ↔ g.Leads a b ∨ g.Leads b a)
  /-- A taggable element is adjacent to itself if it has a loop. -/
  adjacents_self : ∀ a, (g.element a).isTaggable → (a ∈ g.list .adjacents a ↔ g.Leads a a)
  /-- The sources of incoming edges come first, then the targets of outgoing ones that are not
  listed already; both in the order in which they first appear. -/
  adjacents_order : ∀ a, ∃ before after, g.list .adjacents a = before ++ after ∧
    FirstPlaces (g.sourcesInto a) (fun b => (g.element b).isTaggable) before ∧
    FirstPlaces (g.targetsFrom a) (fun b => (g.element b).isTaggable ∧ b ∉ before) after

/-- **The element lists of a built diagram are relations that fit together.** -/
theorem build_lists_agree (h : build d = .ok (g, ws)) : ListsAgree g := by
  obtain ⟨ht, hw⟩ := build_passes h
  have hadjacents : ∀ a b, (g.element b).isTaggable →
      (b ∈ g.list .adjacents a ↔ g.Leads a b ∨ g.Leads b a) := by
    intro a b hb
    rw [mem_list_adjacents, mem_sourcesInto ht hw, mem_targetsFrom ht hw, and_iff_left hb, or_comm]
  constructor
  case nodup =>
    intro source a
    cases source with
    | self => exact List.nodup_singleton a
    | parent => exact Option.toList_nodup _
    | children => exact (ht.nodup_children a).filter _
    | siblings =>
        simp only [list]
        split
        · exact List.nodup_nil
        · exact ((ht.nodup_children _).filter _).filter _
    | adjacents =>
        refine List.Nodup.filter _ ?_
        rw [adjacents_eq]
        exact (FirstPlaces.eraseDups _).nodup
  case children =>
    intro a b
    rw [mem_list_children, list_parent_eq_singleton, ht.parent_eq_some, and_comm]
  case siblings_irrefl => exact fun a hmem => (mem_list_siblings.mp hmem).2.1 rfl
  case siblings_comm =>
    intro a b ha hb
    rw [ht.mem_list_siblings, ht.mem_list_siblings, and_iff_right ha, and_iff_right hb, ne_comm]
    simp only [and_comm]
  case adjacents_comm =>
    intro a b ha hb
    rw [hadjacents a b hb, hadjacents b a ha, or_comm]
  case adjacents_iff => exact fun a b _ hb => hadjacents a b hb
  case adjacents_self =>
    intro a ha
    rw [hadjacents a a ha, or_self]
  case adjacents_order => exact list_adjacents_split g

/-- A document in which the node `a` has a loop, edges to and from `b` side by side, an edge from an
element without tags and one from another edge. -/
def entangled : Document :=
  let node (id : String) : Document := .object [("id", .string id), ("properties", .object [])]
  let edge (id source target : String) : Document := .object [("id", .string id),
    ("type", .string "edge"), ("properties", .object []), ("sourceId", .string source),
    ("targetId", .string target)]
  .object [("id", .string "g"), ("type", .string "graph"), ("children", .list
    [node "a", node "b", .object [("id", .string "bare")], edge "to" "a" "b", edge "from" "b" "a",
      edge "again" "b" "a", edge "loop" "a" "a", edge "bared" "bare" "a", edge "onto" "to" "a"])]

/-- In a diagram with a loop and two edges side by side the lists agree. -/
theorem build_lists_agree_entangled : ∃ g ws, build entangled = .ok (g, ws) ∧
    g.list .adjacents 1 = [2, 1, 4] ∧ ListsAgree g := by
  have hfind : (build entangled).toOption.map (fun built => built.1.list .adjacents 1) =
      some [2, 1, 4] := by
    decide +kernel
  obtain ⟨g, ws, hbuilt, hadjacents⟩ := exists_built hfind
  exact ⟨g, ws, hbuilt, hadjacents, build_lists_agree hbuilt⟩

end DiagramFilter.Diagram
