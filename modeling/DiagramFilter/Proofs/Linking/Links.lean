import DiagramFilter.Proofs.Linking.History
import DiagramFilter.Proofs.Listing.Relations

/-!
# The links of diagrams built by hand

Whatever calls build a diagram, an element that knows its parent or its ends is known to them
(`LinksKept`).  The converse is lost when an element gets a second parent or an edge is connected
again, since the lists of the earlier ones keep it.  Where neither happens both sides say the same,
and being adjacent is mutual (`LinksMutual`).

Both follow from the history of the diagram: what an element knows is the last link to it, and the
lists have all links.
-/

namespace DiagramFilter.Call

variable {g : Diagram} {calls : List Call}

/-- The element that a call puts below another one. -/
def child? : Call → Option Handle
  | addChild _ child => some child
  | _ => none

/-- The element that a call is to connect. -/
def edge? : Call → Option Handle
  | connect edge .. => some edge
  | _ => none

/-- Each element is put below another one at most once, and each edge is connected at most once.
What is no edge may be tried any number of times. -/
structure Once (g : Diagram) (calls : List Call) : Prop where
  children : (calls.filterMap child?).Nodup
  edges : ((calls.filterMap edge?).filter fun edge => (g.element edge).kind = .edge).Nodup

/-- The children that are linked are those of the calls. -/
theorem map_snd_childLinks (calls : List Call) :
    (childLinks calls).map Prod.snd = calls.filterMap child? := by
  rw [childLinks, List.map_filterMap]
  apply List.filterMap_congr
  intro call _
  cases call <;> rfl

/-- The edges that are linked are those of the calls, without what is no edge. -/
theorem map_snd_endLinks (g : Diagram) (pick : Handle × Handle → Handle) (calls : List Call) :
    (endLinks g pick calls).map Prod.snd =
      (calls.filterMap edge?).filter fun edge => (g.element edge).kind = .edge := by
  rw [endLinks, List.map_filterMap, List.filter_filterMap]
  apply List.filterMap_congr
  intro call _
  cases call with
  | connect edge source target =>
      by_cases hkind : (g.element edge).kind = .edge <;>
        simp [endLink?, edge?, hkind, Option.filter]
  | make id kind tags => rfl
  | addChild parent child => rfl

/-- Whatever an element says of its parent and its ends, these say of it. -/
structure LinksKept (g : Diagram) : Prop where
  parent : ∀ c p, (g.element c).parent = some p → c ∈ (g.element p).children
  source : ∀ e x, (g.element e).source = some x → e ∈ (g.element x).outgoing
  target : ∀ e y, (g.element e).target = some y → e ∈ (g.element y).incoming

/-- Both sides of each link say the same. -/
structure LinksMutual (g : Diagram) : Prop where
  parent : ∀ c p, (g.element c).parent = some p ↔ c ∈ (g.element p).children
  source : ∀ e x, (g.element e).source = some x ↔ e ∈ (g.element x).outgoing
  target : ∀ e y, (g.element e).target = some y ↔ e ∈ (g.element y).incoming
  /-- No list has an element twice. -/
  children_nodup : ∀ h, (g.element h).children.Nodup
  incoming_nodup : ∀ h, (g.element h).incoming.Nodup
  outgoing_nodup : ∀ h, (g.element h).outgoing.Nodup
  adjacents_nodup : ∀ h, (g.adjacents h).Nodup
  /-- Elements are adjacent mutually. -/
  adjacents_comm : ∀ a b, b ∈ g.adjacents a ↔ a ∈ g.adjacents b

/-- Links are told twice: an element knows the one that holds it, and the members that it holds. -/
structure ToldTwice (g : Diagram) (up : Element → Option Handle) (down : Element → List Handle)
    (links : List (Handle × Handle)) : Prop where
  up_eq : ∀ h, up (g.element h) = lastHolder? links h
  down_eq : ∀ h, down (g.element h) = membersOf links h

namespace ToldTwice

variable {up : Element → Option Handle} {down : Element → List Handle}
  {links : List (Handle × Handle)} {holder member : Handle}

/-- The last link to an element is among all links. -/
theorem mem_down (ht : ToldTwice g up down links) (h : up (g.element member) = some holder) :
    member ∈ down (g.element holder) := by
  rw [ht.up_eq] at h
  rw [ht.down_eq, mem_membersOf]
  exact mem_of_lastHolder? h

/-- If there is at most one link to each element, it is the last one. -/
theorem up_eq_some (ht : ToldTwice g up down links) (hnodup : (links.map Prod.snd).Nodup) :
    up (g.element member) = some holder ↔ member ∈ down (g.element holder) := by
  rw [ht.up_eq, ht.down_eq, mem_membersOf, lastHolder?_eq_some hnodup]

/-- No member is held twice if none is linked twice. -/
theorem nodup_down (ht : ToldTwice g up down links) (hnodup : (links.map Prod.snd).Nodup)
    (h : Handle) : (down (g.element h)).Nodup := by
  rw [ht.down_eq]
  exact nodup_membersOf hnodup h

end ToldTwice

namespace History

/-- The parents and the children tell the same links. -/
theorem children_told (hh : History g calls) :
    ToldTwice g Element.parent Element.children (childLinks calls) :=
  ⟨fun h => congrArg Links.parent (hh.links h), fun h => congrArg Links.children (hh.links h)⟩

/-- The sources and the outgoing edges tell the same links. -/
theorem sources_told (hh : History g calls) :
    ToldTwice g Element.source Element.outgoing (endLinks g Prod.fst calls) :=
  ⟨fun h => congrArg Links.source (hh.links h), fun h => congrArg Links.outgoing (hh.links h)⟩

/-- The targets and the incoming edges tell the same links. -/
theorem targets_told (hh : History g calls) :
    ToldTwice g Element.target Element.incoming (endLinks g Prod.snd calls) :=
  ⟨fun h => congrArg Links.target (hh.links h), fun h => congrArg Links.incoming (hh.links h)⟩

/-- All links that are held are told by the members. -/
theorem linksKept (hh : History g calls) : LinksKept g where
  parent _ _ := hh.children_told.mem_down
  source _ _ := hh.sources_told.mem_down
  target _ _ := hh.targets_told.mem_down

/-- All links are held and told if no member is linked twice. -/
theorem linksMutual (hh : History g calls) (honce : Once g calls) : LinksMutual g := by
  have hchildren : ((childLinks calls).map Prod.snd).Nodup := by
    rw [map_snd_childLinks]
    exact honce.children
  have hends : ∀ pick, ((endLinks g pick calls).map Prod.snd).Nodup := by
    intro pick
    rw [map_snd_endLinks]
    exact honce.edges
  have hsource : ∀ e x, (g.element e).source = some x ↔ e ∈ (g.element x).outgoing :=
    fun e x => hh.sources_told.up_eq_some (hends _)
  have htarget : ∀ e y, (g.element e).target = some y ↔ e ∈ (g.element y).incoming :=
    fun e y => hh.targets_told.up_eq_some (hends _)
  -- An edge joins its ends, whichever of them it is asked from.
  have hadjacents : ∀ a b, b ∈ g.adjacents a ↔
      (∃ e, (g.element e).source = some b ∧ (g.element e).target = some a) ∨
        ∃ e, (g.element e).source = some a ∧ (g.element e).target = some b := by
    intro a b
    rw [Diagram.adjacents_eq, List.mem_eraseDups, List.mem_append]
    simp only [Diagram.sourcesInto, Diagram.targetsFrom, List.mem_filterMap, ← hsource, ← htarget]
    exact or_congr (exists_congr fun e => and_comm) Iff.rfl
  constructor
  case parent => exact fun c p => hh.children_told.up_eq_some hchildren
  case source => exact hsource
  case target => exact htarget
  case children_nodup => exact hh.children_told.nodup_down hchildren
  case incoming_nodup => exact hh.targets_told.nodup_down (hends _)
  case outgoing_nodup => exact hh.sources_told.nodup_down (hends _)
  case adjacents_nodup =>
    intro h
    rw [Diagram.adjacents_eq]
    exact (FirstPlaces.eraseDups _).nodup
  case adjacents_comm =>
    intro a b
    rw [hadjacents a b, hadjacents b a, or_comm]

end History

/-- **The links of a diagram built by hand are kept on both sides.**  After any calls, parents and
ends know their elements; if no element was put below others twice and no edge was connected twice,
elements know their parents and ends as well.  A call that fails, such as connecting what is no
edge, changes nothing. -/
theorem links_of_calls (hpossible : Possible ⟨#[]⟩ calls) :
    LinksKept (afterAll ⟨#[]⟩ calls) ∧
      (Once (afterAll ⟨#[]⟩ calls) calls → LinksMutual (afterAll ⟨#[]⟩ calls)) ∧
      (∀ (g : Diagram) edge source target, (g.element edge).kind ≠ .edge →
        ∃ error, ((connect edge source target).runOn g).1 = .error error) ∧
      ∀ (g : Diagram) call error, (runOn call g).1 = .error error → call.after g = g := by
  have hh := History.of_possible hpossible
  refine ⟨hh.linksKept, hh.linksMutual, ?_, fun g call error => after_of_error⟩
  intro g edge source target hkind
  rw [runOn_connect, Diagram.connect, if_neg hkind]
  exact ⟨_, rfl⟩

/-- A node and two edges, of which the second leads from the node to the first and the first is a
loop at itself.  All are below the node, itself included.  The node is no edge, so the calls that
connect it fail. -/
def entangledCalls : List Call :=
  [make "n" .node (some []), make "e" .edge none, make "f" .edge none, addChild 0 0, addChild 0 2,
    addChild 0 1, connect 0 1 2, connect 2 0 1, connect 1 1 1, connect 0 0 0]

/-- Calls that entangle a node with itself keep the links mutual. -/
theorem links_of_calls_entangled : Possible ⟨#[]⟩ entangledCalls ∧
    Once (afterAll ⟨#[]⟩ entangledCalls) entangledCalls ∧
    (afterAll ⟨#[]⟩ entangledCalls).adjacents 1 = [0, 1] ∧
    LinksMutual (afterAll ⟨#[]⟩ entangledCalls) := by
  have hpossible : Possible ⟨#[]⟩ entangledCalls := by decide
  have honce : Once (afterAll ⟨#[]⟩ entangledCalls) entangledCalls := ⟨by decide, by decide⟩
  exact ⟨hpossible, honce, by decide, (links_of_calls hpossible).2.1 honce⟩

/-- An element that gets a second parent stays among the children of the first. -/
example : ((afterAll ⟨#[]⟩ [make "a" .node none, make "b" .node none, make "c" .node none,
    addChild 0 2, addChild 1 2]).element 0).children = [2] := by
  decide

end DiagramFilter.Call
