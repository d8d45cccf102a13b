import DiagramFilter.Eval.Basic

/-!
# Extending reserved tags

An expression asks for tags in two ways, whether an element has one and which number it has, and
each way has its own entries in a registry.  So an expression has the same value under two
registries that have the same entries for what it asks (`Expr.eval_registry_agree`), whatever else
is in them.

What an extension does to the entries is said by `Registry.agreeOn_extend`: it covers those of the
same names and ways, and leaves all others as they are.  Together this makes an extension
conservative (`Registry.extend_conservative`).
-/

namespace DiagramFilter

/-- What is asked of a tag: whether an element has it, or which number it has. -/
inductive TagUse where
  | presence (name : String)
  | number (name : String)
deriving DecidableEq

namespace Expr

mutual

/-- What an expression asks of tags. -/
def tagUses : Expr → List TagUse
  | tag name => [.presence name]
  | tagNumber name => [.number name]
  | not e | neg e | count e | nonEmpty e | focus _ e => e.tagUses
  | junction _ es => tagUsesAll es
  | compare _ a b | arith _ a b => a.tagUses ++ b.tagUses
  | quantified _ _ source body | comprehension _ source body => source.tagUses ++ body.tagUses
  | bool _ | number _ | var _ | list _ | unknownList _ | foreign _ => []

/-- What several expressions ask of tags. -/
def tagUsesAll : List Expr → List TagUse
  | [] => []
  | e :: es => e.tagUses ++ tagUsesAll es

end

end Expr

namespace Registry

variable {r r' x y z : Registry} {use : TagUse} {name : String}

/-- Two registries have the same entry, or both none, for what is asked of a tag: among the truth
values if it is the presence of the tag, among the numbers if it is its number. -/
def AgreeOn (r r' : Registry) : TagUse → Prop
  | .presence name => r.boolean.lookup name = r'.boolean.lookup name
  | .number name => r.numeric.lookup name = r'.numeric.lookup name

/-- A registry has an entry for what is asked of a tag. -/
def Covers (r : Registry) : TagUse → Prop
  | .presence name => name ∈ r.boolean.map Prod.fst
  | .number name => name ∈ r.numeric.map Prod.fst

/-- A registry has the entries of two others, those of the later one where both have one. -/
structure Merges (merged earlier later : Registry) : Prop where
  boolean : ∀ name, merged.boolean.lookup name =
    (later.boolean.lookup name).or (earlier.boolean.lookup name)
  numeric : ∀ name, merged.numeric.lookup name =
    (later.numeric.lookup name).or (earlier.numeric.lookup name)

/-- A name without an entry is not found. -/
theorem lookup_eq_none {entries : List (String × Reserved)} (h : name ∉ entries.map Prod.fst) :
    entries.lookup name = none := by
  rw [List.lookup_eq_none_iff]
  intro entry hentry
  rw [bne_iff_ne]
  rintro rfl
  exact h (List.mem_map_of_mem hentry)

/-- An extended registry has the entries of both, those of the extension first. -/
theorem extend_merges (r x : Registry) : (r.extend x).Merges r x :=
  ⟨fun _ => List.lookup_append, fun _ => List.lookup_append⟩

/-- An extension leaves all entries as they are that it does not cover. -/
theorem agreeOn_extend (h : ¬ x.Covers use) : (r.extend x).AgreeOn r use := by
  cases use with
  | presence name =>
      show (r.extend x).boolean.lookup name = r.boolean.lookup name
      rw [(extend_merges r x).boolean, lookup_eq_none h, Option.none_or]
  | number name =>
      show (r.extend x).numeric.lookup name = r.numeric.lookup name
      rw [(extend_merges r x).numeric, lookup_eq_none h, Option.none_or]

/-- Two extensions have the entries of one that merges them. -/
theorem extend_extend (h : z.Merges x y) (use : TagUse) :
    ((r.extend x).extend y).AgreeOn (r.extend z) use := by
  cases use with
  | presence name =>
      show ((r.extend x).extend y).boolean.lookup name = (r.extend z).boolean.lookup name
      rw [(extend_merges _ y).boolean, (extend_merges r x).boolean, (extend_merges r z).boolean,
        h.boolean, Option.or_assoc]
  | number name =>
      show ((r.extend x).extend y).numeric.lookup name = (r.extend z).numeric.lookup name
      rw [(extend_merges _ y).numeric, (extend_merges r x).numeric, (extend_merges r z).numeric,
        h.numeric, Option.or_assoc]

end Registry

section Agreement

variable {r r' : Registry} {g : Diagram} {h : Handle} {name : String}

/-- Registries that agree on a tag have the same answer for it. -/
theorem Env.hasTag_agree (hagree : r.AgreeOn r' (.presence name)) :
    Env.hasTag ⟨g, r⟩ name h = Env.hasTag ⟨g, r'⟩ name h := by
  have hlookup : r.boolean.lookup name = r'.boolean.lookup name := hagree
  simp only [Env.hasTag, Registry.holds, Registry.boolean?, hlookup]

/-- Registries that agree on a number have the same number for it. -/
theorem Env.tagNumber_agree (hagree : r.AgreeOn r' (.number name)) :
    Env.tagNumber ⟨g, r⟩ name h = Env.tagNumber ⟨g, r'⟩ name h := by
  have hlookup : r.numeric.lookup name = r'.numeric.lookup name := hagree
  simp only [Env.tagNumber, Registry.numeric?, hlookup]

namespace Expr

mutual

/-- **Coincidence.**  Registries that have the same entries for what an expression asks of tags give
it the same value, or the same error. -/
theorem eval_registry_agree {s : Scope} : (e : Expr) → (∀ use ∈ e.tagUses, r.AgreeOn r' use) →
    e.eval ⟨g, r⟩ s = e.eval ⟨g, r'⟩ s
  | bool _, _ | number _, _ | var _, _ | list _, _ | unknownList _, _ | foreign _, _ => by
      simp only [eval]
  | tag name, hagree => by
      simp only [eval, Env.hasTag_agree (hagree (.presence name) (by simp [tagUses]))]
  | tagNumber name, hagree => by
      simp only [eval, Env.tagNumber_agree (hagree (.number name) (by simp [tagUses]))]
  | not e, hagree | neg e, hagree | count e, hagree | nonEmpty e, hagree => by
      simp only [tagUses] at hagree
      simp only [eval, eval_registry_agree e hagree]
  | junction c es, hagree => by
      simp only [tagUses] at hagree
      simp only [eval, evalJunction_registry_agree c es hagree]
  | compare op a b, hagree | arith op a b, hagree => by
      simp only [tagUses, List.forall_mem_append] at hagree
      simp only [eval, eval_registry_agree a hagree.1, eval_registry_agree b hagree.2]
  | quantified q name source body, hagree | comprehension name source body, hagree => by
      simp only [tagUses, List.forall_mem_append] at hagree
      have hbody : ∀ h, body.eval ⟨g, r⟩ (s.bind name h) = body.eval ⟨g, r'⟩ (s.bind name h) :=
        fun h => eval_registry_agree body hagree.2
      simp only [eval, eval_registry_agree source hagree.1, hbody]
  | focus name body, hagree => by
      simp only [tagUses] at hagree
      have hbody : ∀ h, body.eval ⟨g, r⟩ (s.bind name h) = body.eval ⟨g, r'⟩ (s.bind name h) :=
        fun h => eval_registry_agree body hagree
      simp only [eval, hbody]

/-- Such registries give a connective between operands the same value. -/
theorem evalJunction_registry_agree {s : Scope} (c : Connective) : (es : List Expr) →
    (∀ use ∈ tagUsesAll es, r.AgreeOn r' use) →
    evalJunction ⟨g, r⟩ s c es = evalJunction ⟨g, r'⟩ s c es
  | [], _ => by simp only [evalJunction]
  | e :: es, hagree => by
      simp only [tagUsesAll, List.forall_mem_append] at hagree
      simp only [evalJunction, eval_registry_agree e hagree.1,
        evalJunction_registry_agree c es hagree.2]

end

/-- A stored tag is there, and has its number, whatever is reserved. -/
theorem eval_of_findTag? {s : Scope} {t : Tag} (r : Registry)
    (ht : (g.element s.current).findTag? name = some t) :
    (tag name).eval ⟨g, r⟩ s = .ok (.bool true) ∧
      (tagNumber name).eval ⟨g, r⟩ s = .ok (.number (.float t.num)) := by
  constructor
  · simp only [eval, Env.hasTag, Element.hasTag, ht, Option.isSome_some, Bool.true_or]
  · simp only [eval, Env.tagNumber, ht]
    rfl

end Expr

end Agreement

/-- **Extensions are conservative.**  A rule that asks nothing of tags that an extension covers does
not notice the extension.  A stored tag is found whatever is reserved.  Two extensions are one with
the merged entries, later ones first.  And the presence of a tag depends on the reserved truth
values alone, its number on the reserved numbers alone. -/
theorem Registry.extend_conservative (r : Registry) (g : Diagram) (s : Scope) :
    (∀ (x : Registry) (e : Expr),
      (∀ name, .presence name ∈ e.tagUses → name ∉ x.boolean.map Prod.fst) →
      (∀ name, .number name ∈ e.tagUses → name ∉ x.numeric.map Prod.fst) →
      e.eval ⟨g, r.extend x⟩ s = e.eval ⟨g, r⟩ s) ∧
    (∀ (name : String) (t : Tag), (g.element s.current).findTag? name = some t →
      (Expr.tag name).eval ⟨g, r⟩ s = .ok (.bool true) ∧
      (Expr.tagNumber name).eval ⟨g, r⟩ s = .ok (.number (.float t.num))) ∧
    (∀ x y : Registry, (x.extend y).Merges x y ∧ (r.extend x).extend y = r.extend (x.extend y) ∧
      ∀ z : Registry, z.Merges x y → (∀ use, ((r.extend x).extend y).AgreeOn (r.extend z) use) ∧
        ∀ e : Expr, e.eval ⟨g, (r.extend x).extend y⟩ s = e.eval ⟨g, r.extend z⟩ s) ∧
    (∀ (r' : Registry) (name : String),
      (r.boolean.lookup name = r'.boolean.lookup name →
        (Expr.tag name).eval ⟨g, r⟩ s = (Expr.tag name).eval ⟨g, r'⟩ s) ∧
      (r.numeric.lookup name = r'.numeric.lookup name →
        (Expr.tagNumber name).eval ⟨g, r⟩ s = (Expr.tagNumber name).eval ⟨g, r'⟩ s)) := by
  refine ⟨fun x e hpresence hnumber => ?_, fun name t ht => Expr.eval_of_findTag? r ht,
    fun x y => ⟨extend_merges x y, ?_, fun z hz => ⟨extend_extend hz, fun e => ?_⟩⟩,
    fun r' name => ⟨fun hboolean => ?_, fun hnumeric => ?_⟩⟩
  · refine Expr.eval_registry_agree e fun use huse => agreeOn_extend ?_
    cases use with
    | presence name => exact hpresence name huse
    | number name => exact hnumber name huse
  · simp only [extend, List.append_assoc]
  · exact Expr.eval_registry_agree e fun use _ => extend_extend hz use
  · refine Expr.eval_registry_agree _ fun use huse => ?_
    obtain rfl : use = .presence name := by simpa [Expr.tagUses] using huse
    exact hboolean
  · refine Expr.eval_registry_agree _ fun use huse => ?_
    obtain rfl : use = .number name := by simpa [Expr.tagUses] using huse
    exact hnumeric

/-- A registry in which no element has children and each has seven incoming edges. -/
def Registry.misleading : Registry where
  boolean := [("children", ofTest fun _ _ => false)]
  numeric := [("incoming", ofCount fun _ _ => 7)]

/-- A registry with other entries for all that is misleading. -/
def Registry.mending : Registry where
  boolean := [("children", ofTest fun g h => 0 < childCount g h), ("any", ofTest fun _ _ => true)]
  numeric := [("incoming", ofCount incomingCount)]

/-- Nothing that is misleading is left once it is mended. -/
theorem Registry.mending_merges : mending.Merges misleading mending := by
  constructor <;> intro name <;>
    simp only [mending, misleading, List.lookup_cons, List.lookup_nil]
  · cases name == "children" <;> simp
  · cases name == "incoming" <;> rfl

/-- A node with a stored tag that is called like its children. -/
def Diagram.labelled : Diagram where
  elements := #[{ id := "n", kind := .node, tags := some [⟨.string "children", 3⟩] }]

/-- The number of children is not misled where their presence is, nor the presence of incoming
edges where their number is; and a stored tag is not misled at all. -/
theorem Registry.extend_conservative_misleading :
    (Expr.compare .gt (.tagNumber "outgoing") (.tagNumber "children")).eval
        ⟨.labelled, usual.extend misleading⟩ ⟨thisName, 0, []⟩ =
      (Expr.compare .gt (.tagNumber "outgoing") (.tagNumber "children")).eval
        ⟨.labelled, usual⟩ ⟨thisName, 0, []⟩ ∧
    (Expr.tagNumber "children").eval ⟨.labelled, usual⟩ ⟨thisName, 0, []⟩ =
      .ok (.number (.float 3)) ∧
    (Expr.tag "children").eval ⟨.labelled, (usual.extend misleading).extend mending⟩
        ⟨thisName, 0, []⟩ =
      (Expr.tag "children").eval ⟨.labelled, usual.extend mending⟩ ⟨thisName, 0, []⟩ ∧
    (Expr.tag "incoming").eval ⟨.labelled, usual⟩ ⟨thisName, 0, []⟩ =
      (Expr.tag "incoming").eval ⟨.labelled, usual.extend misleading⟩ ⟨thisName, 0, []⟩ := by
  obtain ⟨hextend, hstored, htwice, halone⟩ :=
    extend_conservative usual .labelled ⟨thisName, 0, []⟩
  refine ⟨hextend _ _ ?_ ?_, (hstored "children" ⟨.string "children", 3⟩ rfl).2,
    ((htwice _ _).2.2 _ mending_merges).2 _, (halone _ _).1 rfl⟩
  · simp [Expr.tagUses]
  · simp [Expr.tagUses, misleading]

end DiagramFilter
