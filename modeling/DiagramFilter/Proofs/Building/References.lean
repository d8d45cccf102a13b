import DiagramFilter.Proofs.Building.Built

/-!
# Edges without references

Wiring takes a reference for a text and looks for the element of this identity.  A reference that is
not there is taken for a text as well (`referenceText`): the empty text if it is missing, `None` if
it is null.  So an edge without references stays loose, with one warning, unless some element
happens to have that identity (`build_unreferenced`), which a document may well contain
(`build_wires_unreferenced`).
-/

namespace DiagramFilter.Diagram

variable {d record : Document} {g : Diagram} {ws : List DanglingEdge} {p : Document × Handle}
  {key : String} {h : Handle}

/-- The fields for the references of an edge. -/
def referenceKeys : List String := ["sourceId", "targetId"]

/-- The identity for which a reference is taken. -/
def referenceText (record : Document) (key : String) : String :=
  ((record.field? key).map Document.display).getD ""

/-- A reference that is not there is taken for the empty text if it is missing, and for the text
`None` if it is null. -/
theorem referenceText_of_value?_eq_none (h : record.value? key = none) :
    (record.field? key = none ∧ referenceText record key = "") ∨
      (record.field? key = some .null ∧ referenceText record key = "None") := by
  cases hfield : record.field? key with
  | none => exact Or.inl ⟨rfl, by rw [referenceText, hfield]; rfl⟩
  | some v =>
      have hnull : v = .null := by
        rw [Document.value?, hfield] at h
        split at h
        · rename_i hv
          exact Option.some.inj hv
        · cases h
      rw [hnull] at hfield ⊢
      exact Or.inr ⟨rfl, by rw [referenceText, hfield]; rfl⟩

/-- A reference leads to the element whose identity is its text. -/
theorem TreeOf.endOf?_eq_some_iff (ht : TreeOf d g) : g.endOf? record key = some h ↔
    h ∈ g.elementsFrom root ∧ (g.element h).id = referenceText record key :=
  ht.ofId?_eq_some

/-- An edge is wired if elements have the identities for which its references are taken. -/
theorem Wired.isWired_iff (ht : TreeOf d g) (hw : Wired g (edgesOf d g) (g, ws))
    (hp : p ∈ edgesOf d g) : (g.element p.2).isWired ↔
      ∀ key ∈ referenceKeys, ∃ a ∈ g.elementsFrom root,
        (g.element a).id = referenceText p.1 key := by
  rw [hw.isWired_eq hp, ends?_isSome, Option.isSome_iff_exists, Option.isSome_iff_exists]
  simp only [ht.endOf?_eq_some_iff, referenceKeys, List.forall_mem_cons]
  simp

/-- In a row of things with different names, each is found alone by its name. -/
theorem filter_eq_singleton {α β : Type} [DecidableEq β] {name : α → β} {as : List α} {a : α}
    (hnodup : (as.map name).Nodup) (ha : a ∈ as) : (as.filter fun b => name b = name a) = [a] := by
  induction as with
  | nil => cases ha
  | cons b as ih =>
      rw [List.map_cons, List.nodup_cons] at hnodup
      rcases List.mem_cons.mp ha with rfl | ha
      · rw [List.filter_cons_of_pos (by simp), List.filter_eq_nil_iff.mpr]
        intro c hc hname
        rw [← of_decide_eq_true hname] at hnodup
        exact hnodup.1 (List.mem_map_of_mem hc)
      · have hne : name b ≠ name a := by
          intro hname
          rw [hname] at hnodup
          exact hnodup.1 (List.mem_map_of_mem ha)
        rw [List.filter_cons_of_neg (by simpa using hne), ih hnodup.2 ha]

/-- The warnings about an element: one if it is an edge that stays without ends. -/
theorem Wired.warnings_about (ht : TreeOf d g) (hw : Wired g (edgesOf d g) (g, ws))
    (hp : p ∈ edgesOf d g) : (ws.filter fun w => w.id = (g.element p.2).id) =
      if (g.element p.2).isWired then [] else [g.dangling p] := by
  have hdistinct : ((pairs d g).map fun q => (g.element q.2).id).Nodup := by
    have helements := congrArg (List.map fun h => (g.element h).id) ht.elements
    rw [List.map_map] at helements
    exact helements ▸ ht.distinct
  have hone : ((pairs d g).filter fun q => (g.element q.2).id = (g.element p.2).id) = [p] :=
    filter_eq_singleton hdistinct (mem_edgesOf.mp hp).1
  have hswap : (((edgesOf d g).filter fun q => (g.ends? q.1).isNone).filter fun q =>
      (g.element q.2).id = (g.element p.2).id) = [p].filter fun q => (g.ends? q.1).isNone := by
    have hedge : [p].filter (fun q => (g.element q.2).kind = .edge) = [p] := by
      simp [(mem_edgesOf.mp hp).2]
    rw [← hedge, ← hone, edgesOf]
    simp only [List.filter_filter]
    congr 1
    funext q
    ac_rfl
  have hws : ws = ((edgesOf d g).filter fun q => (g.ends? q.1).isNone).map g.dangling := hw.warnings
  rw [hws, List.filter_map, hw.isWired_eq hp]
  show ((((edgesOf d g).filter fun q => (g.ends? q.1).isNone).filter fun q =>
    (g.element q.2).id = (g.element p.2).id).map g.dangling) = _
  rw [hswap]
  cases hends : g.ends? p.1 <;> simp [hends]

/-- An edge stays without ends, no element has it in its lists, and one warning tells of it. -/
structure StaysLoose (g : Diagram) (ws : List DanglingEdge) (p : Document × Handle) : Prop where
  source : (g.element p.2).source = none
  target : (g.element p.2).target = none
  unlisted : ∀ x, p.2 ∉ (g.element x).outgoing ∧ p.2 ∉ (g.element x).incoming
  warned : (ws.filter fun w => w.id = (g.element p.2).id) = [g.dangling p]

/-- **An edge that lacks a reference stays loose unless its references happen to be identities.**  A
missing reference is taken for the empty text, and null for the text `None`.  If elements have the
identities for which the references are taken, the edge is wired to them, and without a warning. -/
theorem build_unreferenced (h : build d = .ok (g, ws)) (hp : p ∈ pairs d g)
    (hedge : (g.element p.2).kind = .edge) (hlacks : ∃ key ∈ referenceKeys, p.1.value? key = none) :
    (∃ key ∈ referenceKeys, (p.1.field? key = none ∧ referenceText p.1 key = "") ∨
      (p.1.field? key = some .null ∧ referenceText p.1 key = "None")) ∧
    (StaysLoose g ws p ↔ ∃ key ∈ referenceKeys, ∀ a ∈ g.elementsFrom root,
      (g.element a).id ≠ referenceText p.1 key) ∧
    (¬ StaysLoose g ws p →
      (∀ a, (g.element p.2).source = some a ↔
        a ∈ g.elementsFrom root ∧ (g.element a).id = referenceText p.1 "sourceId") ∧
      (∀ a, (g.element p.2).target = some a ↔
        a ∈ g.elementsFrom root ∧ (g.element a).id = referenceText p.1 "targetId") ∧
      (ws.filter fun w => w.id = (g.element p.2).id) = []) := by
  obtain ⟨ht, hw⟩ := build_passes h
  have hmem : p ∈ edgesOf d g := mem_edgesOf.mpr ⟨hp, hedge⟩
  have hwarnings := hw.warnings_about ht hmem
  have hloose : StaysLoose g ws p ↔ (g.element p.2).isWired = false := by
    constructor
    · intro hstays
      rw [Element.isWired, hstays.source]
      rfl
    · intro hnot
      obtain ⟨hsource, htarget⟩ := hw.loose hnot
      rw [hnot] at hwarnings
      refine ⟨hsource, htarget, fun x => ?_, hwarnings⟩
      rw [mem_outgoing ht hw, mem_incoming ht hw, hsource, htarget]
      simp
  refine ⟨?_, ?_, ?_⟩
  · obtain ⟨key, hkey, hnone⟩ := hlacks
    exact ⟨key, hkey, referenceText_of_value?_eq_none hnone⟩
  · rw [hloose, ← Bool.not_eq_true, hw.isWired_iff ht hmem]
    push Not
    rfl
  · intro hstays
    have hwired : (g.element p.2).isWired = true := by
      rwa [hloose, Bool.not_eq_false] at hstays
    obtain ⟨hsource, htarget⟩ := hw.ends_eq hmem hwired
    rw [hwired] at hwarnings
    refine ⟨fun a => ?_, fun a => ?_, hwarnings⟩
    · rw [hsource, ht.endOf?_eq_some_iff]
    · rw [htarget, ht.endOf?_eq_some_iff]

/-- An edge whose first reference is null and whose second is missing. -/
def unreferencedEdge : Document :=
  .object [("id", .string "e"), ("type", .string "edge"), ("sourceId", .null)]

/-- A document with this edge, below an element of some identity and beside one whose identity is
the empty text. -/
def unreferenced (id : String) : Document :=
  .object [("id", .string id), ("type", .string "graph"), ("children", .list
    [.object [("id", .string "")], unreferencedEdge])]

/-- The edge without references is a record of the document, the third in order. -/
theorem unreferencedEdge_mem {id : String} (h : g.elementsFrom root = [0, 1, 2]) :
    (unreferencedEdge, 2) ∈ pairs (unreferenced id) g := by
  have hroot : childRecords (unreferenced id) =
      [.object [("id", .string "")], unreferencedEdge] := rfl
  have hnode : childRecords (.object [("id", .string "")]) = [] := rfl
  have hedge : childRecords unreferencedEdge = [] := rfl
  have hrecords : recordsOf [unreferenced id] =
      [unreferenced id, .object [("id", .string "")], unreferencedEdge] := by
    simp only [recordsOf, hroot, hnode, hedge, List.nil_append, List.append_nil]
  rw [pairs, hrecords, h]
  simp

/-- Where no element is called `None`, the edge stays loose. -/
theorem build_unreferenced_loose : ∃ g ws, build (unreferenced "g") = .ok (g, ws) ∧
    (unreferencedEdge, 2) ∈ pairs (unreferenced "g") g ∧ (g.element 2).kind = .edge ∧
    unreferencedEdge.value? "sourceId" = none ∧ StaysLoose g ws (unreferencedEdge, 2) := by
  have hfind : (build (unreferenced "g")).toOption.map (fun built =>
      (built.1.elementsFrom root, (built.1.element 2).kind,
        [0, 1, 2].map fun h => (built.1.element h).id)) =
      some ([0, 1, 2], .edge, ["g", "", "e"]) := by
    decide +kernel
  obtain ⟨g, ws, hbuilt, hfound⟩ := exists_built hfind
  simp only [Prod.mk.injEq] at hfound
  obtain ⟨helements, hedge, hids⟩ := hfound
  have hmem : (unreferencedEdge, 2) ∈ pairs (unreferenced "g") g := unreferencedEdge_mem helements
  obtain ⟨-, hloose, -⟩ := build_unreferenced hbuilt hmem hedge ⟨"sourceId", by decide, rfl⟩
  refine ⟨g, ws, hbuilt, hmem, hedge, rfl, hloose.mpr ⟨"sourceId", by decide, fun a ha hid => ?_⟩⟩
  rw [helements] at ha
  have hnone : (g.element a).id ∈ [0, 1, 2].map fun h => (g.element h).id :=
    List.mem_map_of_mem ha
  rw [hids, hid] at hnone
  exact absurd hnone (by decide)

/-- **A reference that is not there can wire an edge.**  Below an element that is called `None`, the
edge without references leads from this element to the one whose identity is the empty text, and
there is no warning. -/
theorem build_wires_unreferenced : ∃ g ws, build (unreferenced "None") = .ok (g, ws) ∧
    (unreferencedEdge, 2) ∈ pairs (unreferenced "None") g ∧ (g.element 2).kind = .edge ∧
    unreferencedEdge.value? "sourceId" = none ∧ unreferencedEdge.value? "targetId" = none ∧
    (g.element 2).source = some root ∧ (g.element 2).target = some 1 ∧ ws.length = 0 ∧
    ¬ StaysLoose g ws (unreferencedEdge, 2) := by
  have hfind : (build (unreferenced "None")).toOption.map (fun built =>
      (built.1.elementsFrom root, (built.1.element 2).kind, (built.1.element 2).source,
        (built.1.element 2).target, built.2.length)) =
      some ([0, 1, 2], .edge, some root, some 1, 0) := by
    decide +kernel
  obtain ⟨g, ws, hbuilt, hfound⟩ := exists_built hfind
  simp only [Prod.mk.injEq] at hfound
  obtain ⟨helements, hedge, hsource, htarget, hlength⟩ := hfound
  refine ⟨g, ws, hbuilt, unreferencedEdge_mem helements, hedge, rfl, rfl, hsource, htarget, hlength,
    fun hloose => ?_⟩
  have hnone := hloose.source
  rw [hsource] at hnone
  cases hnone

end DiagramFilter.Diagram
