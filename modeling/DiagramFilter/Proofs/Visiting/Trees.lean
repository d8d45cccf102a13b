import DiagramFilter.Diagram.Turns
import DiagramFilter.Proofs.Building.Traversal
import Mathlib.Logic.Relation

/-!
# Trees of elements

The order of a recursion over a tree, each element before the trees of its children, is the order
in which the loop with its stack gives the elements out (`ElementTree.VisitedInOrder`).  The trees
that wait on the stack are passed from its top downwards, each of them whole, and what lies below
them plays no part in this (`ElementTree.StandsIn.turns_append`).  So the loop ends after as many
turns as the trees on the stack have elements.
-/

namespace DiagramFilter

open Diagram (Visits turn_concat turns_nil given_turns take_walk)

/-- An element is at another one or below it. -/
def Diagram.AtOrBelow (g : Diagram) : Handle → Handle → Prop :=
  Relation.ReflTransGen fun parent child => child ∈ (g.element parent).children

/-- A finite tree of elements. -/
inductive ElementTree where
  | node (h : Handle) (below : List ElementTree)

namespace ElementTree

variable {g : Diagram} {t : ElementTree} {ts : List ElementTree} {h k : Handle}

/-- The element at the top. -/
def root : ElementTree → Handle
  | node h _ => h

mutual

/-- The elements in the order of the recursion: the root, then the elements of each tree below
it. -/
def preorder : ElementTree → List Handle
  | node h below => h :: preorderAll below

/-- The elements of a row of trees, one tree after the other. -/
def preorderAll : List ElementTree → List Handle
  | [] => []
  | t :: ts => preorder t ++ preorderAll ts

end

/-- Trees in a row are visited one by one. -/
theorem preorderAll_eq (ts : List ElementTree) : preorderAll ts = ts.flatMap preorder := by
  induction ts with
  | nil => rw [preorderAll, List.flatMap_nil]
  | cons t ts ih => rw [preorderAll, List.flatMap_cons, ih]

/-- The root is visited before the trees below it. -/
@[simp]
theorem preorder_node (h : Handle) (below : List ElementTree) :
    (node h below).preorder = h :: below.flatMap preorder := by
  rw [preorder, preorderAll_eq]

/-- The root is visited. -/
theorem root_mem_preorder (t : ElementTree) : t.root ∈ t.preorder := by
  cases t with
  | node h below => simp [root]

/-- The roots of trees in a row come in the order of the row. -/
theorem roots_sublist (ts : List ElementTree) : (ts.map root).Sublist (ts.flatMap preorder) := by
  induction ts with
  | nil => exact .slnil
  | cons t ts ih =>
      rw [List.map_cons, List.flatMap_cons, ← List.singleton_append]
      exact (List.singleton_sublist.mpr t.root_mem_preorder).append ih

/-- A tree stands in a diagram if every element has as its children the roots of the trees below
it. -/
inductive StandsIn (g : Diagram) : ElementTree → Prop
  | node {h : Handle} {below : List ElementTree}
      (hchildren : (g.element h).children = below.map root)
      (hbelow : ∀ t ∈ below, StandsIn g t) : StandsIn g (node h below)

namespace StandsIn

/-- Trees that wait on the stack, the first one on top, are passed one after the other, if each
of them is passed on its own. -/
theorem turns_row (hts : ∀ t ∈ ts, ∀ given stack : List Handle,
      g.turn^[t.preorder.length] ⟨given, stack ++ [t.root]⟩ = ⟨given ++ t.preorder, stack⟩)
    (given stack : List Handle) :
    g.turn^[(ts.flatMap preorder).length] ⟨given, stack ++ (ts.map root).reverse⟩ =
      ⟨given ++ ts.flatMap preorder, stack⟩ := by
  induction ts generalizing given with
  | nil => simp
  | cons t ts ih =>
      obtain ⟨ht, hts⟩ := List.forall_mem_cons.mp hts
      rw [List.flatMap_cons, List.length_append, Nat.add_comm, Function.iterate_add_apply,
        List.map_cons, List.reverse_cons, ← List.append_assoc, ht, ih hts, List.append_assoc]

/-- The loop passes the tree on top of the stack in as many turns as the tree has elements, and
gives them out in the order of the recursion. -/
theorem turns_append (ht : StandsIn g t) (given stack : List Handle) :
    g.turn^[t.preorder.length] ⟨given, stack ++ [t.root]⟩ = ⟨given ++ t.preorder, stack⟩ := by
  induction ht generalizing given stack with
  | @node h below hchildren hbelow ih =>
      -- After the root's own turn the trees below it wait on the stack.
      rw [preorder_node, List.length_cons, Function.iterate_succ_apply, root, turn_concat,
        hchildren, turns_row ih, List.append_assoc, List.singleton_append]

/-- The loop over a tree ends after as many turns as the tree has elements. -/
theorem turns_eq (ht : StandsIn g t) :
    g.turn^[t.preorder.length] ⟨[], [t.root]⟩ = ⟨t.preorder, []⟩ := by
  simpa using ht.turns_append [] []

/-- After any number of turns the loop has given out the first elements of the order, one in each
turn, and its stack is empty as soon as these are all. -/
theorem turns_take (ht : StandsIn g t) (n : Nat) :
    (g.turn^[n] ⟨[], [t.root]⟩).given = t.preorder.take n ∧
      ((g.turn^[n] ⟨[], [t.root]⟩).stack = [] ↔ t.preorder.length ≤ n) := by
  obtain hle | hlt := le_or_gt t.preorder.length n
  · obtain ⟨more, rfl⟩ := Nat.exists_eq_add_of_le' hle
    rw [Function.iterate_add_apply, ht.turns_eq, turns_nil]
    simp
  · obtain ⟨more, hmore⟩ := Nat.exists_eq_add_of_le hlt.le
    have hend := ht.turns_eq
    have hgiven : (g.turn^[n] ⟨[], [t.root]⟩).given = t.preorder.take n := by
      have hwalk : (g.turn^[t.preorder.length] ⟨[], [t.root]⟩).given = t.preorder := by rw [hend]
      rw [given_turns, List.nil_append, hmore] at hwalk
      rw [given_turns, List.nil_append, ← hwalk, take_walk]
    refine ⟨hgiven, fun hstack => ?_, fun hle => absurd hlt hle.not_gt⟩
    -- Had the stack been empty before, nothing more would have been given out.
    rcases hv : g.turn^[n] ⟨[], [t.root]⟩ with ⟨given, stack⟩
    rw [hmore, Nat.add_comm, Function.iterate_add_apply, hv] at hend
    rw [hv] at hgiven hstack
    dsimp only at hgiven hstack
    rw [hstack, turns_nil, Visit.mk.injEq, hgiven] at hend
    have hlength := congrArg List.length hend.1
    rw [List.length_take] at hlength
    omega

/-- Trees in a row are visited one after the other. -/
theorem visits_row (hts : ∀ t ∈ ts, Visits g [t.root] t.preorder) :
    Visits g (ts.map root) (ts.flatMap preorder) := by
  induction ts with
  | nil => exact .nil
  | cons t ts ih =>
      obtain ⟨ht, hts⟩ := List.forall_mem_cons.mp hts
      exact ht.cons_row (ih hts)

/-- What is visited from the root of a tree on are its elements in their order. -/
theorem visits (ht : StandsIn g t) : Visits g [t.root] t.preorder := by
  induction ht with
  | @node h below hchildren hbelow ih =>
      rw [preorder_node, ← List.append_nil (below.flatMap preorder)]
      exact .cons (hchildren ▸ visits_row ih) .nil

/-- The visit gives the elements of a tree in the order of the recursion. -/
theorem elementsFrom_eq (ht : StandsIn g t) (hnodup : t.preorder.Nodup) :
    g.elementsFrom t.root = t.preorder :=
  ht.visits.elementsFrom hnodup

/-- Every element of a tree is the root of a tree whose elements stand together in the order. -/
theorem subtree (ht : StandsIn g t) (hk : k ∈ t.preorder) :
    ∃ u, u.root = k ∧ StandsIn g u ∧ u.preorder <:+: t.preorder := by
  induction ht with
  | @node h below hchildren hbelow ih =>
      rw [preorder_node, List.mem_cons, List.mem_flatMap] at hk
      rcases hk with rfl | ⟨t, hmem, hk⟩
      · exact ⟨.node k below, rfl, .node hchildren hbelow, List.infix_rfl⟩
      · obtain ⟨u, hroot, hu, hinfix⟩ := ih t hmem hk
        obtain ⟨before, after, rfl⟩ := List.append_of_mem hmem
        refine ⟨u, hroot, hu, hinfix.trans ?_⟩
        rw [preorder_node, List.flatMap_append, List.flatMap_cons]
        exact ⟨h :: before.flatMap preorder, after.flatMap preorder, by simp⟩

/-- The elements of a tree are those at or below its root. -/
theorem mem_preorder_iff (ht : StandsIn g t) : k ∈ t.preorder ↔ g.AtOrBelow t.root k := by
  constructor
  · intro hk
    induction ht with
    | @node h below hchildren hbelow ih =>
        rw [preorder_node, List.mem_cons, List.mem_flatMap] at hk
        rcases hk with rfl | ⟨t, hmem, hk⟩
        · exact .refl
        · refine .head ?_ (ih t hmem hk)
          rw [root, hchildren]
          exact List.mem_map_of_mem hmem
  · intro hk
    induction hk with
    | refl => exact t.root_mem_preorder
    | @tail parent child _ hchild hparent =>
        obtain ⟨u, rfl, hu, hinfix⟩ := ht.subtree hparent
        cases hu with
        | @node h below hchildren hbelow =>
            rw [root, hchildren] at hchild
            refine hinfix.subset ?_
            rw [preorder_node]
            exact List.mem_cons_of_mem h ((roots_sublist below).subset hchild)

/-- An element comes before its children, and these come in their order. -/
theorem children_sublist (ht : StandsIn g t) (hk : k ∈ t.preorder) :
    (k :: (g.element k).children).Sublist t.preorder := by
  obtain ⟨u, rfl, hu, hinfix⟩ := ht.subtree hk
  cases hu with
  | @node h below hchildren hbelow =>
      refine List.Sublist.trans ?_ hinfix.sublist
      rw [preorder_node, root, hchildren]
      exact (roots_sublist below).cons_cons h

/-- The visit is the recursion: at each element of a tree it gives the element, and then what the
visits from its children give, child by child. -/
theorem elementsFrom_eq_cons (ht : StandsIn g t) (hnodup : t.preorder.Nodup)
    (hk : k ∈ t.preorder) :
    g.elementsFrom k = k :: (g.element k).children.flatMap g.elementsFrom := by
  obtain ⟨u, rfl, hu, hinfix⟩ := ht.subtree hk
  have hnodup := hnodup.sublist hinfix.sublist
  rw [hu.elementsFrom_eq hnodup]
  cases hu with
  | @node h below hchildren hbelow =>
      rw [preorder_node] at hnodup ⊢
      rw [root, hchildren, List.flatMap_map]
      congr 1
      refine List.flatMap_congr fun t hmem => ?_
      have hsublist := (List.singleton_sublist.mpr hmem).flatMap preorder
      rw [List.flatMap_singleton] at hsublist
      exact ((hbelow t hmem).elementsFrom_eq (hnodup.of_cons.sublist hsublist)).symm

end StandsIn

/-- The visit from the root of a tree follows the recursion over the tree. -/
structure VisitedInOrder (g : Diagram) (t : ElementTree) : Prop where
  /-- Each turn of the loop gives out the next element of the order, and after the last one the
  loop is over. -/
  turns (n : Nat) : (g.turn^[n] ⟨[], [t.root]⟩).given = t.preorder.take n ∧
    ((g.turn^[n] ⟨[], [t.root]⟩).stack = [] ↔ t.preorder.length ≤ n)
  /-- So the whole visit gives the elements in this order, -/
  whole : g.elementsFrom t.root = t.preorder
  /-- each of them once, -/
  once : t.preorder.Nodup
  /-- and these are all. -/
  complete (k : Handle) : k ∈ t.preorder ↔ g.AtOrBelow t.root k
  /-- At every element the visit is the element and then the visits from its children. -/
  recursion : ∀ k ∈ t.preorder,
    g.elementsFrom k = k :: (g.element k).children.flatMap g.elementsFrom
  /-- An element comes before its children, and a child before its later siblings. -/
  siblings : ∀ k ∈ t.preorder, (k :: (g.element k).children).Sublist t.preorder
  /-- The search finds the first element of an id, also where others have it. -/
  found (id : String) (h : Handle) : g.findFrom? t.root id = some h ↔ (g.element h).id = id ∧
    ∃ before after, t.preorder = before ++ h :: after ∧ ∀ k ∈ before, (g.element k).id ≠ id
  /-- It finds nothing where none has it. -/
  missing (id : String) : g.findFrom? t.root id = none ↔ ∀ k ∈ t.preorder, (g.element k).id ≠ id

/-- **A tree whose elements are all different is visited in the order of the recursion.** -/
theorem StandsIn.visitedInOrder (ht : StandsIn g t) (hnodup : t.preorder.Nodup) :
    VisitedInOrder g t where
  turns := ht.turns_take
  whole := ht.elementsFrom_eq hnodup
  once := hnodup
  complete _ := ht.mem_preorder_iff
  recursion _ hk := ht.elementsFrom_eq_cons hnodup hk
  siblings _ hk := ht.children_sublist hk
  found id h := by
    rw [Diagram.findFrom?_eq, ht.elementsFrom_eq hnodup, List.find?_eq_some_iff_append]
    simp
  missing id := by
    rw [Diagram.findFrom?_eq, ht.elementsFrom_eq hnodup, List.find?_eq_none]
    simp

end ElementTree

end DiagramFilter
