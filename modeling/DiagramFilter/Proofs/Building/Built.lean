import DiagramFilter.Proofs.Building.Wiring

/-!
# Built diagrams

Both passes together: a diagram that is built from a document is the tree of the document
(`build_reflects`), and its edges are wired to the elements that their records name
(`build_wires`).
-/

namespace DiagramFilter

/-- Whether an edge has both its ends. -/
def Element.isWired (e : Element) : Bool :=
  e.source.isSome && e.target.isSome

namespace Diagram

variable {d : Document} {g : Diagram} {ws : List DanglingEdge}

/-- The edges of a diagram with their records, in the order of the document. -/
def edgesOf (d : Document) (g : Diagram) : List (Document × Handle) :=
  (pairs d g).filter fun p => (g.element p.2).kind = .edge

/-- A built diagram is the tree of its document, and all edges of the tree are wired. -/
theorem build_passes (h : build d = .ok (g, ws)) :
    TreeOf d g ∧ Wired g (edgesOf d g) (g, ws) := by
  cases d with
  | object fields =>
      obtain ⟨e, he, h⟩ := bind_eq_ok.mp h
      obtain ⟨p, hp, h⟩ := bind_eq_ok.mp h
      obtain ⟨htree, hunwired, hedges⟩ := takeRecords_root he hp
      have hwired :
          Wired p.diagram p.edges.reverse (p.edges.reverse.foldl wire (p.diagram, [])) := by
        rw [hedges]
        refine wired_foldl hunwired ?_ fun q hq => ?_
        · refine List.Nodup.sublist (List.filter_sublist.map Prod.snd) ?_
          rw [htree.elements]
          exact htree.nodup
        · obtain ⟨hmem, hkind⟩ := List.mem_filter.mp hq
          have hlt : q.2 ∈ p.diagram.elementsFrom root := by
            rw [← htree.elements]
            exact List.mem_map_of_mem hmem
          exact ⟨htree.mem_elementsFrom.mp hlt, of_decide_eq_true hkind⟩
      rw [Except.ok.inj h] at hwired
      obtain ⟨hpairs, htree'⟩ := htree.congr hwired.size hwired.same
      have hsame : p.edges.reverse = edgesOf (.object fields) g := by
        rw [hedges, edgesOf, hpairs]
        simp only [hwired.kind_eq]
      rw [hsame] at hwired
      exact ⟨htree', hwired.settled⟩
  | _ => cases h

/-- What is found in a built diagram tells that it is built. -/
theorem exists_built {α : Type} {find : Diagram × List DanglingEdge → α} {a : α}
    (h : (build d).toOption.map find = some a) :
    ∃ g ws, build d = .ok (g, ws) ∧ find (g, ws) = a := by
  cases hbuild : build d with
  | error e =>
      rw [hbuild] at h
      cases h
  | ok built =>
      rw [hbuild] at h
      exact ⟨built.1, built.2, rfl, Option.some.inj h⟩

/-- A small document: an edge in front of the node at which it begins and ends, an edge to an
identity that no record has, and the node, which has an anonymous label. -/
def sample : Document :=
  .object [("id", .string "g"), ("type", .string "graph"), ("children", .list
    [.object [("id", .string "loop"), ("type", .string "edge:state"),
      ("sourceId", .number (.int 7)), ("targetId", .string "7")],
     .object [("id", .string "loose"), ("type", .string "edge"),
      ("sourceId", .string "loop"), ("targetId", .string "nowhere")],
     .object [("id", .number (.int 7)), ("properties", .object []), ("children", .list
      [.object [("type", .string "label")]])]])]

section Wires

variable {p : Document × Handle} {h : Handle}

/-- The edges of a document are its records whose elements are of that kind. -/
theorem mem_edgesOf :
    p ∈ edgesOf d g ↔ p ∈ pairs d g ∧ (g.element p.2).kind = .edge := by
  rw [edgesOf, List.mem_filter, decide_eq_true_iff]

namespace Wired

/-- An edge is wired if both its references name elements. -/
theorem isWired_eq (hw : Wired g (edgesOf d g) (g, ws)) (hp : p ∈ edgesOf d g) :
    (g.element p.2).isWired = (g.ends? p.1).isSome := by
  have hsource : (g.element p.2).source = (g.ends? p.1).map Prod.fst := hw.source p hp
  have htarget : (g.element p.2).target = (g.ends? p.1).map Prod.snd := hw.target p hp
  rw [Element.isWired, hsource, htarget, Option.isSome_map, Option.isSome_map, Bool.and_self]

/-- The ends of a wired edge are the elements that its references name. -/
theorem ends_eq (hw : Wired g (edgesOf d g) (g, ws)) (hp : p ∈ edgesOf d g)
    (hwired : (g.element p.2).isWired) :
    (g.element p.2).source = g.endOf? p.1 "sourceId" ∧
      (g.element p.2).target = g.endOf? p.1 "targetId" := by
  rw [hw.isWired_eq hp, Option.isSome_iff_exists] at hwired
  obtain ⟨⟨source, target⟩, hends⟩ := hwired
  obtain ⟨hsource, htarget⟩ := ends?_eq_some.mp hends
  have hends' := hw.source p hp
  have hends'' := hw.target p hp
  rw [hends] at hends' hends''
  rw [hsource, htarget]
  exact ⟨hends', hends''⟩

/-- Only edges have ends. -/
theorem loose_of_kind (hw : Wired g (edgesOf d g) (g, ws)) (hkind : (g.element h).kind ≠ .edge) :
    (g.element h).source = none ∧ (g.element h).target = none := by
  refine hw.others h fun hmem => ?_
  obtain ⟨p, hp, rfl⟩ := List.mem_map.mp hmem
  exact hkind (mem_edgesOf.mp hp).2

/-- An element that is no wired edge has no ends. -/
theorem loose (hw : Wired g (edgesOf d g) (g, ws)) (hnot : (g.element h).isWired = false) :
    (g.element h).source = none ∧ (g.element h).target = none := by
  by_cases hmem : h ∈ (edgesOf d g).map Prod.snd
  · obtain ⟨p, hp, rfl⟩ := List.mem_map.mp hmem
    rw [hw.isWired_eq hp, Option.isSome_eq_false_iff, Option.isNone_iff_eq_none] at hnot
    have hsource := hw.source p hp
    have htarget := hw.target p hp
    rw [hnot] at hsource htarget
    exact ⟨hsource, htarget⟩
  · exact hw.others h hmem

end Wired

/-- The edges of which an element is one end, in the order of the document. -/
theorem TreeOf.map_filter_edgesOf (ht : TreeOf d g) {x : Handle} {side : Element → Option Handle}
    {pick : Handle × Handle → Handle}
    (hside : ∀ p ∈ edgesOf d g, side (g.element p.2) = (g.ends? p.1).map pick)
    (hloose : ∀ h, (g.element h).kind ≠ .edge → side (g.element h) = none) :
    ((edgesOf d g).filter fun p => (g.ends? p.1).map pick = some x).map Prod.snd =
      (g.elementsFrom root).filter fun h => side (g.element h) = some x := by
  have hpairs : ((edgesOf d g).filter fun p => (g.ends? p.1).map pick = some x) =
      (pairs d g).filter fun p => side (g.element p.2) = some x := by
    rw [edgesOf, List.filter_filter]
    refine List.filter_congr fun p hp => ?_
    by_cases hkind : (g.element p.2).kind = .edge
    · rw [hside p (mem_edgesOf.mpr ⟨hp, hkind⟩)]
      simp [hkind]
    · rw [hloose p.2 hkind]
      simp [hkind]
  rw [hpairs, ← ht.elements, List.filter_map]
  rfl

/-- The incoming edges of an element are those that end at it. -/
theorem mem_incoming {x : Handle} (ht : TreeOf d g) (hw : Wired g (edgesOf d g) (g, ws)) :
    h ∈ (g.element x).incoming ↔
      h ∈ g.elementsFrom root ∧ (g.element h).target = some x := by
  have hincoming : (g.element x).incoming = _ := (hw.incoming x).trans
    (ht.map_filter_edgesOf hw.target fun h hkind => (hw.loose_of_kind hkind).2)
  rw [hincoming, List.mem_filter, decide_eq_true_iff]

/-- The outgoing edges of an element are those that begin at it. -/
theorem mem_outgoing {x : Handle} (ht : TreeOf d g) (hw : Wired g (edgesOf d g) (g, ws)) :
    h ∈ (g.element x).outgoing ↔
      h ∈ g.elementsFrom root ∧ (g.element h).source = some x := by
  have houtgoing : (g.element x).outgoing = _ := (hw.outgoing x).trans
    (ht.map_filter_edgesOf hw.source fun h hkind => (hw.loose_of_kind hkind).1)
  rw [houtgoing, List.mem_filter, decide_eq_true_iff]

/-- How the edges of a built diagram are wired, and which warnings there are. -/
structure Wires (d : Document) (g : Diagram) (ws : List DanglingEdge) : Prop where
  /-- The records stand with their elements, in the order of the document. -/
  nesting : Mirrors g [(d, root)] (pairs d g)
  elements : (pairs d g).map Prod.snd = g.elementsFrom root
  /-- An edge with both references is wired if both are identities of elements. -/
  wired_iff : ∀ p ∈ pairs d g, (g.element p.2).kind = .edge → ∀ source target,
    p.1.value? "sourceId" = some source → p.1.value? "targetId" = some target →
    ((g.element p.2).isWired ↔ (∃ a ∈ g.elementsFrom root, (g.element a).id = source.display) ∧
      ∃ b ∈ g.elementsFrom root, (g.element b).id = target.display)
  /-- Its ends are then the elements with these identities. -/
  ends : ∀ p ∈ pairs d g, (g.element p.2).isWired → ∀ source target,
    p.1.value? "sourceId" = some source → p.1.value? "targetId" = some target →
    ∀ a, ((g.element p.2).source = some a ↔
        a ∈ g.elementsFrom root ∧ (g.element a).id = source.display) ∧
      ((g.element p.2).target = some a ↔
        a ∈ g.elementsFrom root ∧ (g.element a).id = target.display)
  /-- Without wires there are no ends, and no list has the edge. -/
  loose : ∀ h, (g.element h).isWired = false →
    (g.element h).source = none ∧ (g.element h).target = none ∧
      ∀ x, h ∉ (g.element x).outgoing ∧ h ∉ (g.element x).incoming
  /-- Every element has the edges whose end it is in its lists, in the order of the document, each
  once. -/
  outgoing : ∀ x, (g.element x).outgoing =
    (g.elementsFrom root).filter fun h => (g.element h).source = some x
  incoming : ∀ x, (g.element x).incoming =
    (g.elementsFrom root).filter fun h => (g.element h).target = some x
  once : (g.elementsFrom root).Nodup
  /-- Only edges are wired. -/
  kind : ∀ h, (g.element h).isWired → (g.element h).kind = .edge
  /-- Each edge without wires has one warning, in the order of the document. -/
  warnings : ws = ((pairs d g).filter fun p =>
    (g.element p.2).kind = .edge ∧ (g.element p.2).isWired = false).map g.dangling

/-- **The edges of a built diagram are wired to the elements that their records name**, and no
others are. -/
theorem build_wires (h : build d = .ok (g, ws)) : Wires d g ws := by
  obtain ⟨ht, hw⟩ := build_passes h
  have houtgoing : ∀ x, (g.element x).outgoing =
      (g.elementsFrom root).filter fun h => (g.element h).source = some x := fun x =>
    (hw.outgoing x).trans
      (ht.map_filter_edgesOf hw.source fun h hkind => (hw.loose_of_kind hkind).1)
  have hincoming : ∀ x, (g.element x).incoming =
      (g.elementsFrom root).filter fun h => (g.element h).target = some x := fun x =>
    (hw.incoming x).trans
      (ht.map_filter_edgesOf hw.target fun h hkind => (hw.loose_of_kind hkind).2)
  have hkind : ∀ h, (g.element h).isWired → (g.element h).kind = .edge := by
    intro h hwired
    by_contra hkind
    rw [Element.isWired, (hw.loose_of_kind hkind).1] at hwired
    cases hwired
  constructor
  case nesting => exact ht.mirrors
  case elements => exact ht.elements
  case wired_iff =>
    intro p hp hedge source target hsource htarget
    rw [hw.isWired_eq (mem_edgesOf.mpr ⟨hp, hedge⟩), ends?_isSome, Option.isSome_iff_exists,
      Option.isSome_iff_exists]
    simp only [ht.endOf?_eq_some hsource, ht.endOf?_eq_some htarget]
  case ends =>
    intro p hp hwired source target hsource htarget a
    obtain ⟨hsource', htarget'⟩ := hw.ends_eq (mem_edgesOf.mpr ⟨hp, hkind p.2 hwired⟩) hwired
    rw [hsource', htarget', ht.endOf?_eq_some hsource, ht.endOf?_eq_some htarget]
    exact ⟨Iff.rfl, Iff.rfl⟩
  case loose =>
    intro h hnot
    obtain ⟨hsource, htarget⟩ := hw.loose hnot
    refine ⟨hsource, htarget, fun x => ?_⟩
    rw [houtgoing x, hincoming x, List.mem_filter, List.mem_filter, hsource, htarget]
    simp
  case outgoing => exact houtgoing
  case incoming => exact hincoming
  case once => exact ht.nodup
  case kind => exact hkind
  case warnings =>
    refine hw.warnings.trans ?_
    rw [edgesOf, List.filter_filter]
    refine congrArg (List.map g.dangling) (List.filter_congr fun p hp => ?_)
    by_cases hedge : (g.element p.2).kind = .edge
    · rw [hw.isWired_eq (mem_edgesOf.mpr ⟨hp, hedge⟩)]
      cases g.ends? p.1 <;> simp [hedge]
    · simp [hedge]

/-- In the small document one edge is wired and one is reported. -/
theorem build_wires_sample : ∃ g ws, build sample = .ok (g, ws) ∧ (g.element 1).source = some 3 ∧
    ws.length = 1 ∧ Wires sample g ws := by
  have hfind : (build sample).toOption.map (fun built =>
      ((built.1.element 1).source, built.2.length)) = some (some 3, 1) := by
    decide +kernel
  obtain ⟨g, ws, hbuilt, hfound⟩ := exists_built hfind
  obtain ⟨hsource, hlength⟩ := Prod.mk.inj hfound
  exact ⟨g, ws, hbuilt, hsource, hlength, build_wires hbuilt⟩

end Wires

end Diagram

end DiagramFilter
