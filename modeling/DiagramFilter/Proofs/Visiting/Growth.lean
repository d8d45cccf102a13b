import DiagramFilter.Proofs.Linking.History
import DiagramFilter.Proofs.Visiting.Trees

/-!
# Trees that calls build

A diagram that is built call by call is a row of trees as long as no element gets a second parent
and none is put below itself (`Call.KeepsTrees`).  Making an element plants one more tree, and
putting an element below another one grafts its tree onto the tree of the other (`Planted.step`).
-/

namespace DiagramFilter

open Diagram (size_add element_add_next element_add_of_lt element_of_size_le size_addChild
  element_addChild connect_eq_ok)

variable {g g' : Diagram} {t new : ElementTree} {ts : List ElementTree} {parent child h : Handle}

namespace ElementTree

mutual

/-- The tree with another one put below an element, behind what is there. -/
def graft (parent : Handle) (new : ElementTree) : ElementTree → ElementTree
  | node h below => node h (graftAll parent new below ++ if h = parent then [new] else [])

/-- The same for each tree of a row. -/
def graftAll (parent : Handle) (new : ElementTree) : List ElementTree → List ElementTree
  | [] => []
  | t :: ts => graft parent new t :: graftAll parent new ts

end

/-- Trees in a row are grafted one by one. -/
theorem graftAll_eq (parent : Handle) (new : ElementTree) (ts : List ElementTree) :
    graftAll parent new ts = ts.map (graft parent new) := by
  induction ts with
  | nil => rw [graftAll, List.map_nil]
  | cons t ts ih => rw [graftAll, List.map_cons, ih]

/-- A tree is grafted below its root, and behind the other trees if the root is the parent. -/
theorem graft_node (parent : Handle) (new : ElementTree) (h : Handle) (below : List ElementTree) :
    graft parent new (node h below) =
      node h (below.map (graft parent new) ++ if h = parent then [new] else []) := by
  rw [graft, graftAll_eq]

/-- A graft keeps the root. -/
@[simp]
theorem root_graft (parent : Handle) (new t : ElementTree) :
    (graft parent new t).root = t.root := by
  cases t with
  | node h below => rw [graft_node, root, root]

namespace StandsIn

/-- A tree stands wherever its elements have the same children. -/
theorem congr (ht : StandsIn g t)
    (hchildren : ∀ h ∈ t.preorder, (g'.element h).children = (g.element h).children) :
    StandsIn g' t := by
  induction ht with
  | @node h below hbelow _ ih =>
      simp only [preorder_node, List.forall_mem_cons] at hchildren
      refine .node (hchildren.1.trans hbelow) fun t hmem => ih t hmem fun k hk => ?_
      exact hchildren.2 k (List.mem_flatMap.mpr ⟨t, hmem, hk⟩)

/-- A tree with another one below its parent stands after the call that puts it there. -/
theorem graft (ht : StandsIn g t) (hparent : parent < g.size) (hchild : new.root < g.size)
    (hnew : StandsIn (g.addChild parent new.root) new) :
    StandsIn (g.addChild parent new.root) (.graft parent new t) := by
  induction ht with
  | @node h below hchildren _ ih =>
      rw [graft_node]
      refine .node ?_ fun t hmem => ?_
      · rw [element_addChild hparent hchild, hchildren]
        split_ifs <;> simp [Function.comp_def]
      · rcases List.mem_append.mp hmem with hmap | hmem
        · obtain ⟨u, hu, rfl⟩ := List.mem_map.mp hmap
          exact ih u hu
        · split_ifs at hmem
          · rw [List.mem_singleton.mp hmem]
            exact hnew
          · simp at hmem

end StandsIn

/-- The elements that grafting adds at an element. -/
def added (parent : Handle) (new : ElementTree) (h : Handle) : List Handle :=
  if h = parent then new.preorder else []

/-- Where the parent comes once, the elements of the new tree are added once. -/
theorem flatMap_added {hs : List Handle} (hnodup : hs.Nodup) (hmem : parent ∈ hs) :
    hs.flatMap (added parent new) = new.preorder := by
  obtain ⟨before, after, rfl⟩ := List.append_of_mem hmem
  have hother : ∀ row : List Handle, parent ∉ row → row.flatMap (added parent new) = [] := by
    intro row hrow
    refine List.flatMap_eq_nil_iff.mpr fun h hh => if_neg ?_
    rintro rfl
    exact hrow hh
  rw [List.nodup_middle, List.nodup_cons, List.mem_append, not_or] at hnodup
  rw [List.flatMap_append, List.flatMap_cons, hother before hnodup.1.1, hother after hnodup.1.2,
    added, if_pos rfl, List.nil_append, List.append_nil]

/-- Grafting onto the trees of a row adds what it adds to each of them. -/
theorem perm_graft_row (hts : ∀ t ∈ ts, (graft parent new t).preorder.Perm
      (t.preorder ++ t.preorder.flatMap (added parent new))) :
    ((ts.map (graft parent new)).flatMap preorder).Perm
      (ts.flatMap preorder ++ (ts.flatMap preorder).flatMap (added parent new)) := by
  induction ts with
  | nil => simp
  | cons t ts ih =>
      obtain ⟨ht, hts⟩ := List.forall_mem_cons.mp hts
      rw [List.map_cons, List.flatMap_cons, List.flatMap_cons, List.flatMap_append]
      refine (ht.append (ih hts)).trans ?_
      rw [List.append_assoc, List.append_assoc]
      refine List.Perm.append_left _ ?_
      rw [← List.append_assoc, ← List.append_assoc]
      exact List.perm_append_comm.append_right _

/-- Grafting adds the elements of the new tree for each place at which the parent is. -/
theorem StandsIn.perm_graft (ht : StandsIn g t) :
    (ElementTree.graft parent new t).preorder.Perm
      (t.preorder ++ t.preorder.flatMap (added parent new)) := by
  induction ht with
  | @node h below _ _ ih =>
      rw [graft_node, preorder_node, preorder_node, List.flatMap_append, List.flatMap_cons,
        List.cons_append]
      refine List.Perm.cons h (((perm_graft_row ih).append_right _).trans ?_)
      have hadded : (if h = parent then [new] else []).flatMap preorder = added parent new h := by
        rw [added]
        split_ifs <;> simp
      rw [hadded, List.append_assoc]
      exact List.perm_append_comm.append_left _

end ElementTree

/-- The elements of a diagram are those of a row of trees, each of them once. -/
structure Planted (g : Diagram) (ts : List ElementTree) : Prop where
  stands : ∀ t ∈ ts, t.StandsIn g
  perm : (ts.flatMap ElementTree.preorder).Perm (List.range g.size)

namespace Planted

/-- No element is planted twice. -/
theorem nodup (hp : Planted g ts) : (ts.flatMap ElementTree.preorder).Nodup :=
  hp.perm.nodup_iff.mpr List.nodup_range

/-- The planted elements are those of the store. -/
theorem mem_iff (hp : Planted g ts) : h ∈ ts.flatMap ElementTree.preorder ↔ h < g.size := by
  rw [hp.perm.mem_iff, List.mem_range]

/-- Every element is the root of a tree without repetitions. -/
theorem exists_tree (hp : Planted g ts) (hh : h < g.size) :
    ∃ t : ElementTree, t.root = h ∧ t.StandsIn g ∧ t.preorder.Nodup := by
  obtain ⟨t, hmem, hh⟩ := List.mem_flatMap.mp (hp.mem_iff.mpr hh)
  obtain ⟨u, hroot, hu, hinfix⟩ := (hp.stands t hmem).subtree hh
  have hsublist := (List.singleton_sublist.mpr hmem).flatMap ElementTree.preorder
  rw [List.flatMap_singleton] at hsublist
  exact ⟨u, hroot, hu, (hp.nodup.sublist hsublist).sublist hinfix.sublist⟩

/-- An element that is nobody's child is the root of one of the trees. -/
theorem exists_root (hp : Planted g ts) (hh : h < g.size)
    (htop : ∀ k, h ∉ (g.element k).children) : ∃ t ∈ ts, t.root = h := by
  obtain ⟨t, hmem, hh⟩ := List.mem_flatMap.mp (hp.mem_iff.mpr hh)
  refine ⟨t, hmem, ?_⟩
  rcases ((hp.stands t hmem).mem_preorder_iff.mp hh).cases_tail with heq | ⟨k, -, hchild⟩
  · exact heq.symm
  · exact absurd hchild (htop k)

/-- Trees stay planted where the size and all children do. -/
theorem congr (hp : Planted g ts) (hsize : g'.size = g.size)
    (hchildren : ∀ h, (g'.element h).children = (g.element h).children) : Planted g' ts where
  stands t hmem := (hp.stands t hmem).congr fun h _ => hchildren h
  perm := hsize ▸ hp.perm

/-- A new element is one more tree. -/
theorem add (hp : Planted g ts) {e : Element} (hchildren : e.children = []) :
    Planted (g.add e) (ts ++ [.node g.size []]) where
  stands t hmem := by
    rcases List.mem_append.mp hmem with hmem | hmem
    · refine (hp.stands t hmem).congr fun h hh => ?_
      have hlt := hp.mem_iff.mp (List.mem_flatMap.mpr ⟨t, hmem, hh⟩)
      rw [element_add_of_lt hlt]
    · rw [List.mem_singleton.mp hmem]
      refine .node ?_ fun t hmem => absurd hmem List.not_mem_nil
      rw [element_add_next, hchildren, List.map_nil]
  perm := by
    rw [size_add, List.range_succ, List.flatMap_append]
    exact hp.perm.append_right _

/-- Putting an element below another one grafts its tree, where it is nobody's child and the other
one is not at it or below it. -/
theorem addChild (hp : Planted g ts) (hparent : parent < g.size) (hchild : child < g.size)
    (htop : ∀ k, child ∉ (g.element k).children) (hacyclic : ¬ g.AtOrBelow child parent) :
    ∃ ts', Planted (g.addChild parent child) ts' := by
  obtain ⟨new, hmem, rfl⟩ := hp.exists_root hchild htop
  obtain ⟨before, after, rfl⟩ := List.append_of_mem hmem
  have hmoved : ((before ++ new :: after).flatMap ElementTree.preorder).Perm
      ((before ++ after).flatMap ElementTree.preorder ++ new.preorder) :=
    (List.perm_middle.trans (List.perm_append_singleton new _).symm).flatMap_right _ |>.trans
      (by simp)
  have hnew := hp.stands new hmem
  have hoff : parent ∉ new.preorder := fun hin => hacyclic (hnew.mem_preorder_iff.mp hin)
  have hon : parent ∈ (before ++ after).flatMap ElementTree.preorder := by
    have hin := hmoved.mem_iff.mp (hp.mem_iff.mpr hparent)
    exact (List.mem_append.mp hin).resolve_right hoff
  have hothers : ∀ t ∈ before ++ after, t.StandsIn g := by
    intro t ht
    refine hp.stands t ?_
    simp only [List.mem_append, List.mem_cons] at ht ⊢
    tauto
  have hnodup := (hmoved.nodup_iff.mp hp.nodup).of_append_left
  refine ⟨(before ++ after).map (ElementTree.graft parent new), fun t ht => ?_, ?_⟩
  · obtain ⟨u, hu, rfl⟩ := List.mem_map.mp ht
    refine (hothers u hu).graft hparent hchild (hnew.congr fun h hh => ?_)
    rw [element_addChild hparent hchild, if_neg (ne_of_mem_of_not_mem hh hoff), List.append_nil]
  · rw [size_addChild]
    refine (ElementTree.perm_graft_row fun t ht => (hothers t ht).perm_graft).trans ?_
    rw [ElementTree.flatMap_added hnodup hon]
    exact hmoved.symm.trans hp.perm

end Planted

namespace Call

/-- A call puts no element below a second parent, or below itself. -/
def KeepsTree (g : Diagram) : Call → Prop
  | addChild parent child => (∀ k, child ∉ (g.element k).children) ∧ ¬ g.AtOrBelow child parent
  | _ => True

/-- An element that is linked to no parent and to no children can be put below any other one. -/
theorem keepsTree_of_lone (htop : ∀ k < g.size, child ∉ (g.element k).children)
    (hbottom : (g.element child).children = []) (hne : child ≠ parent) :
    KeepsTree g (addChild parent child) := by
  refine ⟨fun k hmem => ?_, fun hbelow => ?_⟩
  · by_cases hk : k < g.size
    · exact htop k hk hmem
    · rw [element_of_size_le (Nat.le_of_not_lt hk)] at hmem
      exact List.not_mem_nil hmem
  · rcases hbelow.cases_head with heq | ⟨k, hmem, -⟩
    · exact hne heq
    · rw [hbottom] at hmem
      exact List.not_mem_nil hmem

/-- No call of a row does when it is made. -/
def KeepsTrees (g : Diagram) : List Call → Prop
  | [] => True
  | call :: calls => KeepsTree g call ∧ KeepsTrees (call.after g) calls

end Call

namespace Planted

open Call (Possible KeepsTree KeepsTrees after afterAll runOn_make runOn_addChild runOn_connect
  make_unlinked handles)

variable {call : Call} {calls : List Call}

/-- **One more call keeps the elements in a row of trees.** -/
theorem step (hp : Planted g ts) (hpossible : ∀ h ∈ call.handles, h < g.size)
    (hkeeps : KeepsTree g call) : ∃ ts', Planted (call.after g) ts' := by
  cases call with
  | make id kind tags =>
      rw [after, runOn_make]
      cases hmake : Element.make id kind tags with
      | error error => exact ⟨ts, hp⟩
      | ok e =>
          have hchildren : e.children = [] := by
            rw [← make_unlinked hmake]
            rfl
          exact ⟨_, hp.add hchildren⟩
  | addChild parent child =>
      have hparent : parent < g.size := hpossible parent (by simp [handles])
      have hchild : child < g.size := hpossible child (by simp [handles])
      rw [after, runOn_addChild]
      exact hp.addChild hparent hchild hkeeps.1 hkeeps.2
  | connect edge source target =>
      have hedge : edge < g.size := hpossible edge (by simp [handles])
      have hsource : source < g.size := hpossible source (by simp [handles])
      have htarget : target < g.size := hpossible target (by simp [handles])
      rw [after, runOn_connect]
      by_cases hkind : (g.element edge).kind = .edge
      · obtain ⟨g', hconnect, hsize, helement⟩ := connect_eq_ok hkind hedge hsource htarget
        rw [hconnect]
        exact ⟨ts, hp.congr hsize fun h => by rw [helement]⟩
      · rw [Diagram.connect, if_neg hkind]
        exact ⟨ts, hp⟩

/-- **So does a row of calls.** -/
theorem run (hp : Planted g ts) (hpossible : Possible g calls) (hkeeps : KeepsTrees g calls) :
    ∃ ts', Planted (afterAll g calls) ts' := by
  induction calls generalizing g ts with
  | nil => exact ⟨ts, hp⟩
  | cons call calls ih =>
      obtain ⟨ts', hp'⟩ := hp.step hpossible.1 hkeeps.1
      exact ih hp' hpossible.2 hkeeps.2

/-- A diagram without elements is the row without trees. -/
theorem empty : Planted ⟨#[]⟩ [] where
  stands _ hmem := absurd hmem List.not_mem_nil
  perm := .refl _

end Planted

namespace Diagram

/-- **The visit with a stack is the recursion over the tree.**  It is so for every tree that stands
in a diagram with all its elements different, and every element of a diagram that calls have built
is the root of such a tree, if the calls kept the elements in trees. -/
theorem visit_is_recursion :
    (∀ (g : Diagram) (t : ElementTree), t.StandsIn g → t.preorder.Nodup →
      t.VisitedInOrder g) ∧
    ∀ calls : List Call, Call.Possible ⟨#[]⟩ calls → Call.KeepsTrees ⟨#[]⟩ calls →
      ∀ root < (Call.afterAll ⟨#[]⟩ calls).size, ∃ t : ElementTree, t.root = root ∧
        t.StandsIn (Call.afterAll ⟨#[]⟩ calls) ∧ t.VisitedInOrder (Call.afterAll ⟨#[]⟩ calls) := by
  refine ⟨fun g t ht hnodup => ht.visitedInOrder hnodup, ?_⟩
  intro calls hpossible hkeeps root hroot
  obtain ⟨ts, hp⟩ := Planted.empty.run hpossible hkeeps
  obtain ⟨t, heq, ht, hnodup⟩ := hp.exists_tree hroot
  exact ⟨t, heq, ht, ht.visitedInOrder hnodup⟩

/-- Two of four elements have one id, and the search finds the one that comes first. -/
theorem visit_is_recursion_shared_id :
    let calls : List Call := [.make "r" .graph none, .make "a" .node none, .make "b" .node none,
      .make "a" .node none, .addChild 0 1, .addChild 1 2, .addChild 0 3]
    let g := Call.afterAll ⟨#[]⟩ calls
    Call.Possible ⟨#[]⟩ calls ∧ Call.KeepsTrees ⟨#[]⟩ calls ∧
      (∃ t : ElementTree, t.root = 0 ∧ t.StandsIn g ∧ t.VisitedInOrder g) ∧
      g.elementsFrom 0 = [0, 1, 2, 3] ∧ g.findFrom? 0 "a" = some 1 := by
  intro calls g
  have hpossible : Call.Possible ⟨#[]⟩ calls := by decide
  have hkeeps : Call.KeepsTrees ⟨#[]⟩ calls := by
    refine ⟨trivial, trivial, trivial, trivial, ?_, ?_, ?_, trivial⟩
    all_goals exact Call.keepsTree_of_lone (by decide) (by decide) (by decide)
  exact ⟨hpossible, hkeeps, visit_is_recursion.2 calls hpossible hkeeps 0 (by decide),
    by decide, by decide⟩

end Diagram

end DiagramFilter
