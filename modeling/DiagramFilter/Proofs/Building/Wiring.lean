import DiagramFilter.Proofs.Building.FirstPass

/-!
# The second pass wires the edges

The second pass goes through the edges in the order in which they were taken.  `Wired` says what
stands in the diagram once some of them are done: the ends of each, and in the lists of each element
those whose end it is.  One step is `Wired.wire`, the whole pass is `wired_foldl`.

Identities are never changed on the way, so each edge finds the ends that it would find first.
-/

namespace DiagramFilter.Diagram

variable {g g' : Diagram} {d : Document} {h k : Handle} {id : String}

/-- An identity stands for the first element that has it. -/
theorem ofId?_eq_some : g.ofId? id = some h ↔
    h < g.size ∧ (g.element h).id = id ∧ ∀ k < h, (g.element k).id ≠ id := by
  have helement : ∀ k (hk : k < g.elements.size), g.element k = g.elements[k] := by
    intro k hk
    simp [element, hk]
  rw [ofId?, Array.findIdx?_eq_some_iff_getElem]
  constructor
  · rintro ⟨hh, hid, hfirst⟩
    refine ⟨hh, by simpa [helement h hh] using hid, fun k hk => ?_⟩
    simpa [helement k (Nat.lt_trans hk hh)] using hfirst k hk
  · rintro ⟨hh, hid, hfirst⟩
    refine ⟨hh, by simpa [helement h hh] using hid, fun k hk => ?_⟩
    simpa [helement k (Nat.lt_trans hk hh)] using hfirst k hk

/-- Which element has an identity depends on the identities only. -/
theorem ofId?_congr (hsize : g'.size = g.size) (hid : ∀ h, (g'.element h).id = (g.element h).id)
    (id : String) : g'.ofId? id = g.ofId? id := by
  refine Option.ext fun h => ?_
  simp only [ofId?_eq_some, hsize, hid]

/-- In the tree of a document, an identity stands for the element that has it. -/
theorem TreeOf.ofId?_eq_some (ht : TreeOf d g) :
    g.ofId? id = some h ↔ h ∈ g.elementsFrom root ∧ (g.element h).id = id := by
  rw [Diagram.ofId?_eq_some, ht.mem_elementsFrom]
  refine ⟨fun ⟨hh, hid, _⟩ => ⟨hh, hid⟩, fun ⟨hh, hid⟩ => ⟨hh, hid, fun k hk hsame => ?_⟩⟩
  have heq : k = h := ht.eq_of_id_eq (Nat.lt_trans hk hh) hh (hsame.trans hid.symm)
  exact Nat.ne_of_lt hk heq

/-- A reference that is there names the element whose identity is its text. -/
theorem TreeOf.endOf?_eq_some (ht : TreeOf d g) {record v : Document} {key : String}
    (hv : record.value? key = some v) :
    g.endOf? record key = some h ↔ h ∈ g.elementsFrom root ∧ (g.element h).id = v.display := by
  have hfield : record.field? key = some v := by
    unfold Document.value? at hv
    split at hv
    · cases hv
    · exact hv
  rw [endOf?, hfield, Option.map_some, Option.getD_some, ht.ofId?_eq_some]

/-- The elements that both references of a record name, if they name any. -/
def ends? (g : Diagram) (record : Document) : Option (Handle × Handle) :=
  match g.endOf? record "sourceId", g.endOf? record "targetId" with
  | some source, some target => some (source, target)
  | _, _ => none

/-- The warning about an edge that stays without ends. -/
def dangling (g : Diagram) (edge : Document × Handle) : DanglingEdge :=
  ⟨(g.element edge.2).id, (edge.1.field? "sourceId").getD .null,
    (edge.1.field? "targetId").getD .null⟩

/-- Both ends are there if each of them is. -/
theorem ends?_eq_some {record : Document} {source target : Handle} :
    g.ends? record = some (source, target) ↔
      g.endOf? record "sourceId" = some source ∧ g.endOf? record "targetId" = some target := by
  unfold ends?
  cases g.endOf? record "sourceId" <;> cases g.endOf? record "targetId" <;> simp

/-- Both ends are there if, and only if, each of them is. -/
theorem ends?_isSome {record : Document} : (g.ends? record).isSome ↔
    (g.endOf? record "sourceId").isSome ∧ (g.endOf? record "targetId").isSome := by
  unfold ends?
  cases g.endOf? record "sourceId" <;> cases g.endOf? record "targetId" <;> simp

/-- An end is an element of the store. -/
theorem endOf?_lt {record : Document} {key : String} (hend : g.endOf? record key = some h) :
    h < g.size :=
  (ofId?_eq_some.mp hend).1

section Step

variable {state : Diagram × List DanglingEdge} {edge : Document × Handle}

/-- An edge without both ends leaves the diagram as it is and is reported. -/
theorem wire_of_none (hends : state.1.ends? edge.1 = none) :
    wire state edge = (state.1, state.2 ++ [state.1.dangling edge]) := by
  obtain ⟨g, warnings⟩ := state
  unfold ends? at hends
  unfold wire
  dsimp only at hends ⊢
  cases hsource : g.endOf? edge.1 "sourceId" with
  | none => rfl
  | some source =>
      cases htarget : g.endOf? edge.1 "targetId" with
      | none => rfl
      | some target =>
          rw [hsource, htarget] at hends
          cases hends

/-- An edge with both ends is wired, without a warning. -/
theorem wire_of_some {source target : Handle} (hends : state.1.ends? edge.1 = some (source, target))
    (hconnect : state.1.connect edge.2 source target = .ok g) :
    wire state edge = (g, state.2) := by
  obtain ⟨hsource, htarget⟩ := ends?_eq_some.mp hends
  unfold wire
  dsimp only
  rw [hsource, htarget]
  dsimp only
  rw [hconnect]

/-- Wiring one edge: the ends that it names are set on the edge, it comes last in their lists, and
without them there is a warning. -/
theorem wire_spec (hlt : edge.2 < state.1.size) (hkind : (state.1.element edge.2).kind = .edge)
    (hloose : (state.1.element edge.2).source = none ∧ (state.1.element edge.2).target = none) :
    (wire state edge).1.size = state.1.size ∧
      (∀ k, (wire state edge).1.element k =
        { state.1.element k with
          source := if k = edge.2 then (state.1.ends? edge.1).map Prod.fst
            else (state.1.element k).source
          target := if k = edge.2 then (state.1.ends? edge.1).map Prod.snd
            else (state.1.element k).target
          incoming := (state.1.element k).incoming ++
            if (state.1.ends? edge.1).map Prod.snd = some k then [edge.2] else []
          outgoing := (state.1.element k).outgoing ++
            if (state.1.ends? edge.1).map Prod.fst = some k then [edge.2] else [] }) ∧
      (wire state edge).2 =
        state.2 ++ if (state.1.ends? edge.1).isNone then [state.1.dangling edge] else [] := by
  cases hends : state.1.ends? edge.1 with
  | none =>
      rw [wire_of_none hends]
      have hsource : ∀ k, (if k = edge.2 then none else (state.1.element k).source) =
          (state.1.element k).source := fun k =>
        ite_eq_right_iff.mpr fun hk => by rw [hk, hloose.1]
      have htarget : ∀ k, (if k = edge.2 then none else (state.1.element k).target) =
          (state.1.element k).target := fun k =>
        ite_eq_right_iff.mpr fun hk => by rw [hk, hloose.2]
      refine ⟨rfl, fun k => ?_, by simp⟩
      simp [hsource, htarget]
  | some ends =>
      obtain ⟨source, target⟩ := ends
      obtain ⟨hsource, htarget⟩ := ends?_eq_some.mp hends
      obtain ⟨g', hconnect, hsize, helement⟩ :=
        connect_eq_ok hkind hlt (endOf?_lt hsource) (endOf?_lt htarget)
      rw [wire_of_some hends hconnect]
      refine ⟨hsize, fun k => ?_, by simp⟩
      rw [helement k]
      simp [eq_comm]

end Step

/-- What stands in a diagram once some edges of it are wired, and the warnings so far. -/
structure Wired (g : Diagram) (edges : List (Document × Handle))
    (state : Diagram × List DanglingEdge) : Prop where
  size : state.1.size = g.size
  /-- Nothing but wires is new. -/
  same : ∀ h, (state.1.element h).unwired = (g.element h).unwired
  source : ∀ p ∈ edges, (state.1.element p.2).source = (g.ends? p.1).map Prod.fst
  target : ∀ p ∈ edges, (state.1.element p.2).target = (g.ends? p.1).map Prod.snd
  /-- All other elements have no ends. -/
  others : ∀ h ∉ edges.map Prod.snd,
    (state.1.element h).source = none ∧ (state.1.element h).target = none
  outgoing : ∀ x, (state.1.element x).outgoing =
    (edges.filter fun p => (g.ends? p.1).map Prod.fst = some x).map Prod.snd
  incoming : ∀ x, (state.1.element x).incoming =
    (edges.filter fun p => (g.ends? p.1).map Prod.snd = some x).map Prod.snd
  warnings : state.2 = (edges.filter fun p => (g.ends? p.1).isNone).map g.dangling

namespace Wired

variable {edges : List (Document × Handle)} {state : Diagram × List DanglingEdge}
  {edge : Document × Handle}

/-- Wiring keeps identities. -/
theorem id_eq (hw : Wired g edges state) (h : Handle) :
    (state.1.element h).id = (g.element h).id :=
  (congrArg Element.id (hw.same h) :)

/-- Wiring keeps kinds. -/
theorem kind_eq (hw : Wired g edges state) (h : Handle) :
    (state.1.element h).kind = (g.element h).kind :=
  (congrArg Element.kind (hw.same h) :)

/-- References name the same elements all the time. -/
theorem ends?_eq (hw : Wired g edges state) (record : Document) :
    state.1.ends? record = g.ends? record := by
  simp only [ends?, endOf?, ofId?_congr hw.size hw.id_eq]

/-- Wiring keeps what is said of loose edges. -/
theorem dangling_eq (hw : Wired g edges state) : state.1.dangling = g.dangling := by
  funext edge
  rw [dangling, dangling, hw.id_eq]

/-- Where no edge is wired yet, the diagram is as it was. -/
theorem nil (hg : ∀ h, (g.element h).unwired = g.element h) : Wired g [] (g, []) := by
  refine ⟨rfl, fun _ => rfl, by simp, by simp, fun h _ => ?_, fun x => ?_, fun x => ?_, rfl⟩
  · rw [← hg h]
    exact ⟨rfl, rfl⟩
  · rw [← hg x]
    rfl
  · rw [← hg x]
    rfl

/-- Wiring one more edge. -/
theorem wire (hw : Wired g edges state) (hlt : edge.2 < g.size)
    (hkind : (g.element edge.2).kind = .edge) (hnew : edge.2 ∉ edges.map Prod.snd) :
    Wired g (edges ++ [edge]) (Diagram.wire state edge) := by
  obtain ⟨hsize, helement, hwarnings⟩ := wire_spec (hw.size ▸ hlt)
    ((hw.kind_eq edge.2).trans hkind) (hw.others edge.2 hnew)
  rw [hw.ends?_eq] at helement hwarnings
  have hother : ∀ p ∈ edges, p.2 ≠ edge.2 := fun p hp heq =>
    hnew (List.mem_map.mpr ⟨p, hp, heq⟩)
  constructor
  case size => exact hsize.trans hw.size
  case same =>
    intro k
    rw [helement k]
    exact hw.same k
  case source =>
    intro p hp
    rw [helement p.2]
    rcases List.mem_append.mp hp with hp | hp
    · exact (if_neg (hother p hp)).trans (hw.source p hp)
    · rw [List.mem_singleton.mp hp]
      exact if_pos rfl
  case target =>
    intro p hp
    rw [helement p.2]
    rcases List.mem_append.mp hp with hp | hp
    · exact (if_neg (hother p hp)).trans (hw.target p hp)
    · rw [List.mem_singleton.mp hp]
      exact if_pos rfl
  case others =>
    intro k hk
    rw [List.map_append, List.mem_append, not_or] at hk
    have hne : k ≠ edge.2 := by simpa using hk.2
    rw [helement k]
    exact ⟨(if_neg hne).trans (hw.others k hk.1).1, (if_neg hne).trans (hw.others k hk.1).2⟩
  case outgoing =>
    intro x
    rw [helement x]
    dsimp only
    rw [hw.outgoing x, List.filter_append, List.map_append]
    split_ifs with hx <;> simp [hx]
  case incoming =>
    intro x
    rw [helement x]
    dsimp only
    rw [hw.incoming x, List.filter_append, List.map_append]
    split_ifs with hx <;> simp [hx]
  case warnings =>
    rw [hwarnings, hw.warnings, hw.dangling_eq, List.filter_append, List.map_append]
    split_ifs with hnone <;> simp [hnone]

/-- What is wired can be seen from the wired diagram alone. -/
theorem settled (hw : Wired g edges state) : Wired state.1 edges state := by
  constructor
  case size => rfl
  case same => exact fun _ => rfl
  case source => simpa only [hw.ends?_eq] using hw.source
  case target => simpa only [hw.ends?_eq] using hw.target
  case others => exact hw.others
  case outgoing => simpa only [hw.ends?_eq] using hw.outgoing
  case incoming => simpa only [hw.ends?_eq] using hw.incoming
  case warnings => simpa only [hw.ends?_eq, hw.dangling_eq] using hw.warnings

end Wired

/-- **The second pass wires all edges** whose references name elements. -/
theorem wired_foldl {edges : List (Document × Handle)}
    (hg : ∀ h, (g.element h).unwired = g.element h) (hnodup : (edges.map Prod.snd).Nodup)
    (hedges : ∀ p ∈ edges, p.2 < g.size ∧ (g.element p.2).kind = .edge) :
    Wired g edges (edges.foldl wire (g, [])) := by
  induction edges using List.reverseRecOn with
  | nil => exact .nil hg
  | append_singleton edges edge ih =>
      rw [List.map_append, List.map_singleton] at hnodup
      obtain ⟨hbefore, -, hnew⟩ := List.nodup_append.mp hnodup
      obtain ⟨hlt, hkind⟩ := hedges edge (by simp)
      have hdone := ih hbefore fun p hp => hedges p (List.mem_append_left _ hp)
      rw [List.foldl_append, List.foldl_cons, List.foldl_nil]
      exact hdone.wire hlt hkind fun hmem => hnew _ hmem _ List.mem_cons_self rfl

end DiagramFilter.Diagram
