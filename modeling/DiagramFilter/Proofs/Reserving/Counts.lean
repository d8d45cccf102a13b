import DiagramFilter.Proofs.Laws.Quantifiers
import DiagramFilter.Proofs.Listing.Relations
import DiagramFilter.Proofs.Number.Whole

/-!
# The reserved tags of links

The links of an element are counted in three ways: a reserved truth value says whether there are
any, a reserved number how many there are, and the element lists have those of them that count with
a tag collection.  In a built diagram the three fit together (`Diagram.build_counts_agree`), since
its edges have both their ends, so that an element is adjacent to another one, or to itself, just if
it has an edge at all.

Numbers are doubles, and so are the numbers of links.  They keep the order of the numbers that they
stand for (`Double.ofNat_le`), but only up to `2 ^ 53` do they tell different ones apart and add up
to the right sum.  No diagram that fits into a memory has more links.
-/

namespace DiagramFilter

/-- The reserved tags of links, each with the number that it stands for. -/
def Registry.linkCounts : List (String × (Diagram → Handle → Nat)) :=
  [("children", childCount), ("adjacents", adjacentCount), ("incoming", incomingCount),
    ("outgoing", outgoingCount)]

/-- The links that an element list is about, each with and without a tag collection. -/
def Diagram.links (g : Diagram) (x : Handle) : List (ListSource × List Handle) :=
  [(.children, (g.element x).children), (.adjacents, g.adjacents x)]

namespace Diagram

variable {d : Document} {g : Diagram} {ws : List DanglingEdge} {x : Handle} {all : List Handle}
  {source : ListSource}

/-- An element list has the links with a tag collection. -/
theorem list_of_links (h : (source, all) ∈ g.links x) : g.list source x = g.taggable all := by
  simp only [links, List.mem_cons, Prod.mk.injEq, List.not_mem_nil, or_false] at h
  rcases h with ⟨rfl, rfl⟩ | ⟨rfl, rfl⟩ <;> rfl

/-- There are at most as many taggable elements as elements. -/
theorem length_taggable_le (g : Diagram) (hs : List Handle) : (g.taggable hs).length ≤ hs.length :=
  List.length_filter_le _ hs

/-- There are as many if all are taggable. -/
theorem length_taggable_eq : (g.taggable all).length = all.length ↔
    ∀ h ∈ all, (g.element h).isTaggable :=
  List.length_filter_eq_length_iff

/-- There are no more adjacent elements than edges. -/
theorem adjacentCount_le (g : Diagram) (x : Handle) : Registry.adjacentCount g x ≤
    Registry.incomingCount g x + Registry.outgoingCount g x := by
  have hdups : (g.sourcesInto x ++ g.targetsFrom x).eraseDups ⊆
      g.sourcesInto x ++ g.targetsFrom x := fun _ => List.mem_eraseDups.mp
  calc Registry.adjacentCount g x = (g.sourcesInto x ++ g.targetsFrom x).eraseDups.length := by
        rw [Registry.adjacentCount, adjacents_eq]
    _ ≤ (g.sourcesInto x ++ g.targetsFrom x).length :=
        ((FirstPlaces.eraseDups _).nodup.subperm hdups).length_le
    _ = (g.sourcesInto x).length + (g.targetsFrom x).length := List.length_append
    _ ≤ Registry.incomingCount g x + Registry.outgoingCount g x :=
        Nat.add_le_add (List.length_filterMap_le _ _) (List.length_filterMap_le _ _)

/-- A wired edge is an element of its diagram. -/
theorem lt_size_of_isWired {edge : Handle} (h : (g.element edge).isWired) : edge < g.size := by
  by_contra hle
  rw [element_of_size_le (Nat.le_of_not_lt hle)] at h
  cases h

/-- An element of a built diagram has an adjacent one just if it is an end of a wired edge. -/
theorem adjacentCount_pos (h : build d = .ok (g, ws)) : 0 < Registry.adjacentCount g x ↔
    ∃ edge, (g.element edge).isWired ∧
      ((g.element edge).source = some x ∨ (g.element edge).target = some x) := by
  obtain ⟨ht, hw⟩ := build_passes h
  rw [Registry.adjacentCount, List.length_pos_iff_exists_mem]
  simp only [adjacents_eq, List.mem_eraseDups, List.mem_append, mem_sourcesInto ht hw,
    mem_targetsFrom ht hw, leads_iff hw]
  constructor
  · rintro ⟨b, ⟨edge, -, hsource, htarget⟩ | ⟨edge, -, hsource, htarget⟩⟩
    · exact ⟨edge, by rw [Element.isWired, hsource, htarget]; rfl, Or.inr htarget⟩
    · exact ⟨edge, by rw [Element.isWired, hsource, htarget]; rfl, Or.inl hsource⟩
  · rintro ⟨edge, hwired, hend⟩
    have hmem := ht.mem_elementsFrom.mpr (lt_size_of_isWired hwired)
    obtain ⟨hsource, htarget⟩ := Bool.and_eq_true_iff.mp hwired
    obtain ⟨a, ha⟩ := Option.isSome_iff_exists.mp hsource
    obtain ⟨b, hb⟩ := Option.isSome_iff_exists.mp htarget
    rcases hend with hend | hend
    · exact ⟨b, Or.inr ⟨edge, hmem, hend, hb⟩⟩
    · exact ⟨a, Or.inl ⟨edge, hmem, ha, hend⟩⟩

end Diagram

namespace Expr

variable {env : Env} {g : Diagram} {s : Scope} {name : String}
  {total : Diagram → Handle → Nat} {source : ListSource} {all : List Handle}

/-- The comprehension that keeps all members of an element list. -/
def members (var : String) (source : ListSource) : Expr :=
  .comprehension var (.list source) (.bool true)

/-- The members of a list are its elements. -/
theorem eval_members (var : String) (source : ListSource) :
    (members var source).eval env s = .ok (.list (env.diagram.list source s.current)) := by
  have hsource : (list source).elements env s = .ok (env.diagram.list source s.current) :=
    elements_eq_ok.mpr (by rw [eval])
  have htest : ∀ h ∈ env.diagram.list source s.current,
      (bool true).test env s var h = .ok ((fun _ => true) h) := by
    intro h _
    rw [test, eval]
    rfl
  have hkept := eval_kept hsource htest
  rwa [List.filter_true] at hkept

/-- A list has members if its length is positive. -/
theorem eval_nonEmpty_members (var : String) (source : ListSource) :
    (nonEmpty (members var source)).eval env s =
      .ok (.bool (decide (0 < (env.diagram.list source s.current).length))) := by
  rw [eval, eval_members]
  rfl

/-- The length of an element list is the number of taggable links. -/
theorem eval_listed (h : (source, all) ∈ g.links s.current) (var : String) :
    (count (members var source)).eval ⟨g, .usual⟩ s =
      .ok (.number (.float (Double.ofNat (g.taggable all).length))) := by
  rw [eval, eval_members, Diagram.list_of_links h]
  rfl

/-- What the usual registry has for the links of an element. -/
theorem lookup_linkCounts (h : (name, total) ∈ Registry.linkCounts) :
    Registry.usual.boolean.lookup name = some (Registry.ofTest fun g h => 0 < total g h) ∧
      Registry.usual.numeric.lookup name = some (Registry.ofCount total) := by
  simp only [Registry.linkCounts, List.mem_cons, Prod.mk.injEq, List.not_mem_nil, or_false] at h
  rcases h with ⟨rfl, rfl⟩ | ⟨rfl, rfl⟩ | ⟨rfl, rfl⟩ | ⟨rfl, rfl⟩ <;> exact ⟨rfl, rfl⟩

section

variable (hplain : ∀ name ∈ Registry.linkCounts.map Prod.fst,
  (g.element s.current).findTag? name = none)

include hplain

/-- Without a stored tag, a tag of links says whether there are any. -/
theorem eval_linkTag (hname : (name, total) ∈ Registry.linkCounts) :
    (tag name).eval ⟨g, .usual⟩ s = .ok (.bool (decide (0 < total g s.current))) := by
  have hnone := hplain name (List.mem_map_of_mem hname)
  simp only [eval, Env.hasTag, Element.hasTag, hnone, Option.isSome_none, Bool.false_or,
    Registry.holds, Registry.boolean?, (lookup_linkCounts hname).1, Option.map_some,
    Option.getD_some, Registry.ofTest, Document.isVoid, Bool.not_not]

/-- Without a stored tag, its number is the number of links. -/
theorem eval_linkNumber (hname : (name, total) ∈ Registry.linkCounts) :
    (tagNumber name).eval ⟨g, .usual⟩ s =
      .ok (.number (.float (Double.ofNat (total g s.current)))) := by
  have hnone := hplain name (List.mem_map_of_mem hname)
  simp only [eval, Env.tagNumber, hnone, Registry.numeric?, (lookup_linkCounts hname).2,
    Option.map_some, Option.getD_some]
  rfl

/-- The reserved number of adjacent elements is their count. -/
theorem eval_adjacents : (tagNumber "adjacents").eval ⟨g, .usual⟩ s =
    .ok (.number (.float (Double.ofNat (Registry.adjacentCount g s.current)))) :=
  eval_linkNumber hplain (by simp [Registry.linkCounts])

/-- The reserved number of incoming edges is their count. -/
theorem eval_incoming : (tagNumber "incoming").eval ⟨g, .usual⟩ s =
    .ok (.number (.float (Double.ofNat (Registry.incomingCount g s.current)))) :=
  eval_linkNumber hplain (by simp [Registry.linkCounts])

/-- The reserved number of outgoing edges is their count. -/
theorem eval_outgoing : (tagNumber "outgoing").eval ⟨g, .usual⟩ s =
    .ok (.number (.float (Double.ofNat (Registry.outgoingCount g s.current)))) :=
  eval_linkNumber hplain (by simp [Registry.linkCounts])

/-- The tag that is called like an element list has the number of all its links. -/
theorem eval_links (h : (source, all) ∈ g.links s.current) :
    (tagNumber source.word).eval ⟨g, .usual⟩ s =
      .ok (.number (.float (Double.ofNat all.length))) := by
  simp only [Diagram.links, List.mem_cons, Prod.mk.injEq, List.not_mem_nil, or_false] at h
  rcases h with ⟨rfl, rfl⟩ | ⟨rfl, rfl⟩
  · have hchildren : ("children", Registry.childCount) ∈ Registry.linkCounts := by
      simp [Registry.linkCounts]
    simpa only [ListSource.word, Registry.childCount] using eval_linkNumber hplain hchildren
  · simpa only [ListSource.word, Registry.adjacentCount] using eval_adjacents hplain

/-- As long as doubles are exact, the number of edges is those coming in and those going out. -/
theorem eval_edges (hexact : Registry.incomingCount g s.current +
      Registry.outgoingCount g s.current ≤ 2 ^ 53) :
    (arith .add (tagNumber "incoming") (tagNumber "outgoing")).eval ⟨g, .usual⟩ s =
      .ok (.number (.float (Double.ofNat
        (Registry.incomingCount g s.current + Registry.outgoingCount g s.current)))) := by
  rw [← Double.ofNat_add hexact]
  exact eval_arith_float .add (eval_incoming hplain) (eval_outgoing hplain)

end

end Expr

/-- How the reserved tags of the links of the current element, and the element lists, fit
together. -/
structure CountsAgree (g : Diagram) (s : Scope) : Prop where
  /-- A tag of links holds just if its number is above zero. -/
  tag_iff : ∀ name ∈ Registry.linkCounts.map Prod.fst, ∃ b,
    (Expr.tag name).eval ⟨g, .usual⟩ s = .ok (.bool b) ∧
    (Expr.compare .gt (.tagNumber name) (.number 0)).eval ⟨g, .usual⟩ s = .ok (.bool b)
  /-- A list has as many members as there are taggable ones among the links. -/
  listed_number : ∀ source all, (source, all) ∈ g.links s.current → ∀ var, ∃ kept ≤ all.length,
    (Expr.count (.members var source)).eval ⟨g, .usual⟩ s =
      .ok (.number (.float (Double.ofNat kept))) ∧
    (Expr.tagNumber source.word).eval ⟨g, .usual⟩ s =
      .ok (.number (.float (Double.ofNat all.length))) ∧
    (kept = all.length ↔ ∀ h ∈ all, (g.element h).isTaggable)
  /-- So there are no more of them than links. -/
  listed_le : ∀ source all, (source, all) ∈ g.links s.current → ∀ var,
    (Expr.compare .le (.count (.members var source)) (.tagNumber source.word)).eval ⟨g, .usual⟩ s =
      .ok (.bool true)
  /-- There are as many if all links are taggable, and only then. -/
  listed_eq : ∀ source all, (source, all) ∈ g.links s.current → ∀ var, ∃ b,
    (Expr.compare .eq (.count (.members var source)) (.tagNumber source.word)).eval ⟨g, .usual⟩ s =
      .ok (.bool b) ∧
    ((∀ h ∈ all, (g.element h).isTaggable) → b = true) ∧
    (all.length ≤ 2 ^ 53 → b = true → ∀ h ∈ all, (g.element h).isTaggable)
  /-- Where an adjacent element is listed, there is one. -/
  adjacents_of_listed : ∀ var, ∃ b c,
    (Expr.nonEmpty (.members var .adjacents)).eval ⟨g, .usual⟩ s = .ok (.bool b) ∧
    (Expr.tag "adjacents").eval ⟨g, .usual⟩ s = .ok (.bool c) ∧ (b = true → c = true)
  /-- And there is one just if the element is an end of a wired edge. -/
  adjacents_iff : (Expr.tag "adjacents").eval ⟨g, .usual⟩ s = .ok (.bool true) ↔
    ∃ edge, (g.element edge).isWired ∧
      ((g.element edge).source = some s.current ∨ (g.element edge).target = some s.current)
  /-- There are no more adjacent elements than edges. -/
  adjacents_number : ∃ adjacents incoming outgoing, adjacents ≤ incoming + outgoing ∧
    (Expr.tagNumber "adjacents").eval ⟨g, .usual⟩ s =
      .ok (.number (.float (Double.ofNat adjacents))) ∧
    (Expr.tagNumber "incoming").eval ⟨g, .usual⟩ s =
      .ok (.number (.float (Double.ofNat incoming))) ∧
    (Expr.tagNumber "outgoing").eval ⟨g, .usual⟩ s =
      .ok (.number (.float (Double.ofNat outgoing)))
  adjacents_le : Registry.incomingCount g s.current + Registry.outgoingCount g s.current ≤ 2 ^ 53 →
    (Expr.compare .le (.tagNumber "adjacents")
      (.arith .add (.tagNumber "incoming") (.tagNumber "outgoing"))).eval ⟨g, .usual⟩ s =
        .ok (.bool true)

namespace Diagram

variable {d : Document} {g : Diagram} {ws : List DanglingEdge}

/-- **The reserved tags of links and the element lists agree**, in a built diagram and for elements
without stored tags that are called like links. -/
theorem build_counts_agree (h : build d = .ok (g, ws)) (s : Scope)
    (hplain : ∀ name ∈ Registry.linkCounts.map Prod.fst,
      (g.element s.current).findTag? name = none) : CountsAgree g s := by
  have hadjacents : ("adjacents", Registry.adjacentCount) ∈ Registry.linkCounts := by
    simp [Registry.linkCounts]
  constructor
  case tag_iff =>
    intro name hname
    obtain ⟨⟨_, total⟩, hmem, rfl⟩ := List.mem_map.mp hname
    refine ⟨_, Expr.eval_linkTag hplain hmem, ?_⟩
    rw [Expr.eval_compare_float .gt (Expr.eval_linkNumber hplain hmem) (by rw [Expr.eval]),
      CompareOp.test, decide_eq_decide.mpr Double.ofNat_gt_zero_iff]
  case listed_number =>
    intro source all hmem var
    exact ⟨_, length_taggable_le g all, Expr.eval_listed hmem var, Expr.eval_links hplain hmem,
      length_taggable_eq⟩
  case listed_le =>
    intro source all hmem var
    have hle := Double.ofNat_le (length_taggable_le g all)
    rw [Expr.eval_compare_float .le (Expr.eval_listed hmem var) (Expr.eval_links hplain hmem),
      CompareOp.test, decide_eq_true hle]
  case listed_eq =>
    intro source all hmem var
    refine ⟨_, Expr.eval_compare_float .eq (Expr.eval_listed hmem var)
      (Expr.eval_links hplain hmem), ?_, ?_⟩
    · intro hall
      rw [length_taggable_eq.mpr hall, CompareOp.test, Double.ofNat_beq_self]
    · intro hle heq
      rw [CompareOp.test, Double.ofNat_beq ((length_taggable_le g all).trans hle) hle,
        decide_eq_true_eq] at heq
      exact length_taggable_eq.mp heq
  case adjacents_of_listed =>
    intro var
    refine ⟨_, _, Expr.eval_nonEmpty_members var .adjacents,
      Expr.eval_linkTag hplain hadjacents, ?_⟩
    have hle : (g.list .adjacents s.current).length ≤ Registry.adjacentCount g s.current :=
      length_taggable_le g _
    rw [decide_eq_true_eq, decide_eq_true_eq]
    exact fun hpos => hpos.trans_le hle
  case adjacents_iff =>
    rw [Expr.eval_linkTag hplain hadjacents, Except.ok.injEq, Value.bool.injEq, decide_eq_true_eq,
      adjacentCount_pos h]
  case adjacents_number =>
    exact ⟨_, _, _, adjacentCount_le g s.current, Expr.eval_adjacents hplain,
      Expr.eval_incoming hplain, Expr.eval_outgoing hplain⟩
  case adjacents_le =>
    intro hexact
    have hle := Double.ofNat_le (adjacentCount_le g s.current)
    rw [Expr.eval_compare_float .le (Expr.eval_adjacents hplain) (Expr.eval_edges hplain hexact),
      CompareOp.test, decide_eq_true hle]

/-- The node at which an edge begins and ends: that edge comes in and goes out, and the node is
adjacent to itself, once. -/
theorem build_counts_agree_loop : ∃ g ws, build sample = .ok (g, ws) ∧
    Registry.adjacentCount g 3 = 1 ∧ Registry.incomingCount g 3 + Registry.outgoingCount g 3 = 2 ∧
    CountsAgree g ⟨thisName, 3, []⟩ := by
  have hfind : (build sample).toOption.map (fun built => (Registry.adjacentCount built.1 3,
      Registry.incomingCount built.1 3 + Registry.outgoingCount built.1 3,
      Registry.linkCounts.all fun p => ((built.1.element 3).findTag? p.1).isNone)) =
        some (1, 2, true) := by
    decide +kernel
  obtain ⟨g, ws, hbuilt, hfound⟩ := exists_built hfind
  simp only [Prod.mk.injEq] at hfound
  obtain ⟨hadjacents, hedges, hplain⟩ := hfound
  refine ⟨g, ws, hbuilt, hadjacents, hedges, build_counts_agree hbuilt _ fun name hname => ?_⟩
  obtain ⟨p, hp, rfl⟩ := List.mem_map.mp hname
  exact Option.isNone_iff_eq_none.mp (List.all_eq_true.mp hplain p hp)

end Diagram

end DiagramFilter
