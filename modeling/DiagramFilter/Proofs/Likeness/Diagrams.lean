import DiagramFilter.Eval.Basic
import Mathlib.Data.List.Forall2
import Mathlib.Logic.Relator

/-!
# Diagrams of one shape

Two diagrams have one shape if their elements correspond to each other: counterparts have the same
kind, both have a tag collection or neither has, and their links lead to counterparts in the same
order.  Ids and properties have no part in it, and of the tags only those count that are asked
about.

What an expression can find out about an element is then the same for its counterpart: the lists
that start from it (`Alike.list`), and whether it has a tag that is asked about, and which number
(`Alike.hasTag`, `Alike.tagNumber`).
-/

namespace DiagramFilter

open Relator (BiUnique LiftFun)

variable {R : Handle → Handle → Prop} {a b : Handle} {as bs : List Handle}

/-- Counterparts in rows are the same element or not in both rows. -/
theorem beq_eq_beq (hR : BiUnique R) {a a' b b' : Handle} (h : R a b) (h' : R a' b') :
    (a == a') = (b == b') := by
  rw [Bool.eq_iff_iff, beq_iff_eq, beq_iff_eq]
  exact Relator.rel_eq hR h h'

/-- Rows of counterparts stay so when the same ones are left out. -/
theorem forall₂_filter {p q : Handle → Bool} (h : List.Forall₂ R as bs)
    (hpq : ∀ a b, R a b → p a = q b) : List.Forall₂ R (as.filter p) (bs.filter q) :=
  List.rel_filter (fun a b hab => Bool.eq_iff_iff.mp (hpq a b hab)) h

/-- Rows of counterparts stay so when each element is kept where it first appears. -/
theorem forall₂_eraseDups (hR : BiUnique R) (h : List.Forall₂ R as bs) :
    List.Forall₂ R as.eraseDups bs.eraseDups := by
  induction hn : as.length using Nat.strongRecOn generalizing as bs with
  | ind n ih =>
      cases h with
      | nil => simp
      | @cons a b as bs hab h =>
          have hfilter : List.Forall₂ R (as.filter fun c => !c == a) (bs.filter fun c => !c == b) :=
            forall₂_filter h fun c d hcd => by rw [beq_eq_beq hR hcd hab]
          have hshorter : (as.filter fun c => !c == a).length < n := by
            have := List.length_filter_le (fun c => !c == a) as
            simp only [List.length_cons] at hn
            omega
          rw [List.eraseDups_cons, List.eraseDups_cons]
          exact .cons hab (ih _ hshorter hfilter rfl)

namespace Diagram

/-- Two diagrams have one shape under a correspondence of their elements, and counterparts have the
same first tags of the given names. -/
structure Alike (names : List String) (R : Handle → Handle → Prop) (g g' : Diagram) : Prop where
  /-- No element has two counterparts. -/
  unique : BiUnique R
  kind : ∀ {a b}, R a b → (g.element a).kind = (g'.element b).kind
  taggable : ∀ {a b}, R a b → (g.element a).isTaggable = (g'.element b).isTaggable
  /-- The first tag of each name is the same, or neither has one. -/
  tags : ∀ {a b}, R a b → ∀ name ∈ names,
    (g.element a).findTag? name = (g'.element b).findTag? name
  parent : ∀ {a b}, R a b → Option.Rel R (g.element a).parent (g'.element b).parent
  children : ∀ {a b}, R a b → List.Forall₂ R (g.element a).children (g'.element b).children
  source : ∀ {a b}, R a b → Option.Rel R (g.element a).source (g'.element b).source
  target : ∀ {a b}, R a b → Option.Rel R (g.element a).target (g'.element b).target
  incoming : ∀ {a b}, R a b → List.Forall₂ R (g.element a).incoming (g'.element b).incoming
  outgoing : ∀ {a b}, R a b → List.Forall₂ R (g.element a).outgoing (g'.element b).outgoing

namespace Alike

variable {names : List String} {g g' : Diagram}

/-- The taggable ones of counterparts are counterparts. -/
theorem taggable_row (hg : Alike names R g g') (h : List.Forall₂ R as bs) :
    List.Forall₂ R (g.taggable as) (g'.taggable bs) :=
  forall₂_filter h fun _ _ hab => hg.taggable hab

/-- Adjacent elements are told apart by what they are, not by their ids. -/
theorem adjacents (hg : Alike names R g g') (hab : R a b) :
    List.Forall₂ R (g.adjacents a) (g'.adjacents b) := by
  have hsources := List.rel_map (fun e e' he => hg.source he) (hg.incoming hab)
  have htargets := List.rel_map (fun e e' he => hg.target he) (hg.outgoing hab)
  have hends : List.Forall₂ R _ _ :=
    List.rel_filterMap (R := Option.Rel R) (fun o o' ho => ho) (List.rel_append hsources htargets)
  exact forall₂_eraseDups hg.unique hends

/-- The lists that start from counterparts are rows of counterparts. -/
theorem list (hg : Alike names R g g') (hab : R a b) (source : ListSource) :
    List.Forall₂ R (g.list source a) (g'.list source b) := by
  cases source with
  | self => exact .cons hab .nil
  | parent =>
      have hparent := hg.parent hab
      simp only [Diagram.list]
      generalize (g.element a).parent = p at hparent
      generalize (g'.element b).parent = p' at hparent
      cases hparent with
      | none => exact .nil
      | some hp => exact .cons hp .nil
  | children => exact hg.taggable_row (hg.children hab)
  | siblings =>
      have hparent := hg.parent hab
      simp only [Diagram.list]
      generalize (g.element a).parent = p at hparent
      generalize (g'.element b).parent = p' at hparent
      cases hparent with
      | none => exact .nil
      | some hp =>
          refine hg.taggable_row (forall₂_filter (hg.children hp) fun c d hcd => ?_)
          simp [Relator.rel_eq hg.unique hcd hab]
  | adjacents => exact hg.taggable_row (hg.adjacents hab)

/-- The usual reserved tags are read off the shape of a diagram. -/
theorem usual (hg : Alike names R g g') (hab : R a b) :
    (∀ entry ∈ Registry.usual.boolean, entry.2 g a = entry.2 g' b) ∧
      ∀ entry ∈ Registry.usual.numeric, entry.2 g a = entry.2 g' b := by
  have hchildren : Registry.childCount g a = Registry.childCount g' b :=
    (hg.children hab).length_eq
  have hadjacents : Registry.adjacentCount g a = Registry.adjacentCount g' b :=
    (hg.adjacents hab).length_eq
  have hincoming : Registry.incomingCount g a = Registry.incomingCount g' b :=
    (hg.incoming hab).length_eq
  have houtgoing : Registry.outgoingCount g a = Registry.outgoingCount g' b :=
    (hg.outgoing hab).length_eq
  have hkind : ∀ kind, Registry.isKind kind g a = Registry.isKind kind g' b := by
    intro kind
    rw [Registry.isKind, Registry.isKind, hg.kind hab]
  constructor
  · intro entry hentry
    simp only [Registry.usual, List.mem_cons, List.not_mem_nil, or_false] at hentry
    rcases hentry with rfl | rfl | rfl | rfl | rfl | rfl | rfl | rfl <;>
      simp only [Registry.ofTest, hkind, hchildren, hadjacents, hincoming, houtgoing]
  · intro entry hentry
    simp only [Registry.usual, List.mem_cons, List.not_mem_nil, or_false] at hentry
    rcases hentry with rfl | rfl | rfl | rfl <;>
      simp only [Registry.ofCount, hchildren, hadjacents, hincoming, houtgoing]

/-- Entries of a registry that are the same for two elements are found to be the same. -/
theorem map_lookup_eq {entries : List (String × Reserved)}
    (h : ∀ entry ∈ entries, entry.2 g a = entry.2 g' b) (name : String) :
    (entries.lookup name).map (fun f => f g a) = (entries.lookup name).map fun f => f g' b := by
  cases hf : entries.lookup name with
  | none => rfl
  | some f =>
      obtain ⟨before, after, heq, -⟩ := List.lookup_eq_some_iff.mp hf
      have hmem : (name, f) ∈ entries := by simp [heq]
      exact congrArg some (h _ hmem)

/-- Counterparts have the same tags of these names. -/
theorem hasTag (hg : Alike names R g g') (hab : R a b) {name : String} (hname : name ∈ names) :
    Env.hasTag ⟨g, .usual⟩ name a = Env.hasTag ⟨g', .usual⟩ name b := by
  have hreserved : Registry.usual.boolean? g name a = Registry.usual.boolean? g' name b :=
    map_lookup_eq (hg.usual hab).1 name
  simp only [Env.hasTag, Element.hasTag, Registry.holds, hg.tags hab name hname, hreserved]

/-- Counterparts have the same numbers of these tags. -/
theorem tagNumber (hg : Alike names R g g') (hab : R a b) {name : String} (hname : name ∈ names) :
    Env.tagNumber ⟨g, .usual⟩ name a = Env.tagNumber ⟨g', .usual⟩ name b := by
  have hreserved : Registry.usual.numeric? g name a = Registry.usual.numeric? g' name b := by
    have hmap := congrArg (Option.map Document.toFloat) (map_lookup_eq (hg.usual hab).2 name)
    rwa [Option.map_map, Option.map_map] at hmap
  simp only [Env.tagNumber, hg.tags hab name hname, hreserved]

end Alike

end Diagram

end DiagramFilter
