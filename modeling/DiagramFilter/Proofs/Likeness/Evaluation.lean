import DiagramFilter.Proofs.Likeness.Diagrams
import DiagramFilter.Proofs.Likeness.Results
import DiagramFilter.Proofs.Typing.Safety

/-!
# A rule sees the shape of a diagram and the tags it names

In diagrams of one shape an expression has like values on counterparts, whatever the ids, the
properties and the other tags are: the same truth value, the same number, or elements that are
counterparts; and where it has no value the error is the same.

* `Expr.eval_alike`: like values in scopes that bind counterparts, by induction on the expression.
* `Expr.eval_sees_named_tags`: what this says about rules.
-/

namespace DiagramFilter

open Relator (BiUnique)

variable {R : Handle → Handle → Prop}

/-- The same truth value or number, or elements that are counterparts. -/
inductive Value.Alike (R : Handle → Handle → Prop) : Value → Value → Prop
  | bool (value : Bool) : Alike R (.bool value) (.bool value)
  | number (value : Number) : Alike R (.number value) (.number value)
  | element {a b : Handle} (h : R a b) : Alike R (.element a) (.element b)
  | list {as bs : List Handle} (h : List.Forall₂ R as bs) : Alike R (.list as) (.list bs)

/-- Like values, or one error. -/
abbrev AlikeResults {α β : Type} (S : α → β → Prop) :
    Except EvalError α → Except EvalError β → Prop :=
  Related Eq S

namespace Value.Alike

variable {v v' w w' : Value} {as bs : List Handle}

/-- Alike values are true alike. -/
theorem truth_eq (h : Alike R v v') : v.truth = v'.truth := by
  cases h with
  | bool | number | element => rfl
  | list h => cases h <;> rfl

/-- Alike values are the same number, or none. -/
theorem number?_eq (h : Alike R v v') : v.number? = v'.number? := by
  cases h <;> rfl

/-- Alike values are of one type. -/
theorem typeName_eq (h : Alike R v v') : v.typeName = v'.typeName := by
  cases h <;> rfl

/-- The elements of alike values are counterparts. -/
theorem handles (h : Alike R v v') : AlikeResults (List.Forall₂ R) v.handles v'.handles := by
  cases h with
  | list h => exact .ok h
  | _ => exact .error rfl

/-- Alike values have the same length. -/
theorem length (h : Alike R v v') : AlikeResults Eq v.length v'.length := by
  cases h with
  | list h => exact .ok h.length_eq
  | _ => exact .error rfl

/-- The negative values of alike ones are alike. -/
theorem neg (h : Alike R v v') : AlikeResults (Alike R) v.neg v'.neg := by
  simp only [Value.neg, h.number?_eq, h.typeName_eq]
  cases v'.number? with
  | some n => exact .ok (.number _)
  | none => exact .error rfl

/-- Alike values are the same in one diagram if they are in the other. -/
theorem same_eq (hR : BiUnique R) (h : Alike R v v') (h' : Alike R w w') :
    v.same w = v'.same w' := by
  cases h with
  | element h =>
      cases h' with
      | element h' => simp only [Value.same, Relator.rel_eq hR h h']
      | _ => rfl
  | _ => cases h' <;> rfl

/-- Lists of counterparts are ordered alike. -/
theorem listOrder_eq (hR : BiUnique R) (op : CompareOp) {as bs as' bs' : List Handle}
    (h : List.Forall₂ R as as') (h' : List.Forall₂ R bs bs') :
    listOrder op as bs = listOrder op as' bs' := by
  induction h generalizing bs bs' with
  | nil => cases h' <;> rfl
  | @cons a a' as as' ha h ih =>
      cases h' with
      | nil => rfl
      | cons hb h' => simp only [listOrder, Relator.rel_eq hR ha hb, ih h', typeName]

/-- Alike values are compared alike. -/
theorem compare_eq (hR : BiUnique R) (op : CompareOp) (h : Alike R v v') (h' : Alike R w w') :
    v.compare op w = v'.compare op w' := by
  have hsame := same_eq hR h h'
  cases op with
  | eq | ne => simp only [Value.compare, hsame]
  | _ =>
      cases h with
      | list h =>
          cases h' with
          | list h' => simp only [Value.compare, listOrder_eq hR _ h h']
          | _ => rfl
      | _ => cases h' <;> rfl

/-- Lists of counterparts that are repeated are lists of counterparts. -/
theorem flatten_replicate (h : List.Forall₂ R as bs) (n : Nat) :
    List.Forall₂ R (Nat.repeat (as ++ ·) n []) (Nat.repeat (bs ++ ·) n []) := by
  induction n with
  | zero => exact .nil
  | succ n ih => exact List.rel_append h ih

/-- Copies of lists of counterparts are lists of counterparts. -/
theorem copies (h : List.Forall₂ R as bs) (n : Int) :
    Related Eq (List.Forall₂ R) (copies as n) (DiagramFilter.copies bs n) := by
  have hempty : as.isEmpty = bs.isEmpty := by
    cases h <;> rfl
  simp only [DiagramFilter.copies, hempty, h.length_eq]
  split
  · exact .error rfl
  · split
    · exact .ok .nil
    · split
      · exact .error rfl
      · exact .ok (flatten_replicate h _)

/-- Alike values are repeated alike. -/
theorem repeated (h : List.Forall₂ R as bs) (h' : Alike R w w') :
    AlikeResults (Alike R) (Value.repeated as w) (Value.repeated bs w') := by
  simp only [Value.repeated, h'.number?_eq, h'.typeName_eq]
  split
  · rename_i n _
    exact ((copies h n).mapError fun _ _ he => congrArg EvalError.copies he).map fun _ _ => .list
  · exact .error rfl

/-- Values of mixed types are combined alike. -/
theorem arithMixed (op : ArithOp) (h : Alike R v v') (h' : Alike R w w') :
    AlikeResults (Alike R) (Value.arithMixed op v w) (Value.arithMixed op v' w') := by
  cases op with
  | add =>
      cases h with
      | list h =>
          cases h' with
          | list h' => exact .ok (.list (List.rel_append h h'))
          | _ => exact .error rfl
      | bool | number => exact .error (by rw [h'.typeName_eq])
      | element h => exact .error (by rw [h'.typeName_eq]; rfl)
  | sub => exact .error (by rw [h.typeName_eq, h'.typeName_eq])
  | mul =>
      cases h with
      | list h => exact repeated h h'
      | bool b =>
          cases h' with
          | list h' => exact repeated h' (.bool b)
          | _ => exact .error rfl
      | number n =>
          cases h' with
          | list h' => exact repeated h' (.number n)
          | _ => exact .error rfl
      | element h =>
          cases h' with
          | list h' => exact repeated h' (.element h)
          | _ => exact .error rfl
  | div =>
      simp only [Value.arithMixed, h.typeName_eq, h'.number?_eq, h'.typeName_eq]
      split <;> exact .error rfl
  | mod =>
      simp only [Value.arithMixed, h.number?_eq, h.typeName_eq, h'.typeName_eq]
      cases v'.number? with
      | none => exact .error rfl
      | some n =>
          dsimp only
          cases n.toFloat <;> exact .error rfl

/-- Arithmetic makes alike values of alike ones. -/
theorem arith (op : ArithOp) (h : Alike R v v') (h' : Alike R w w') :
    AlikeResults (Alike R) (v.arith op w) (v'.arith op w') := by
  simp only [Value.arith, h.number?_eq, h'.number?_eq]
  split
  · exact (Related.same _).map fun _ _ heq => heq ▸ .number _
  · exact arithMixed op h h'

end Value.Alike

/-- Two scopes bind the same names, in the same order, to counterparts. -/
def Scope.Alike (R : Handle → Handle → Prop) (s t : Scope) : Prop :=
  List.Forall₂ (fun p q => p.1 = q.1 ∧ R p.2 q.2) s.bindings t.bindings

namespace Scope.Alike

variable {s t : Scope} {a b : Handle}

/-- The current elements of alike scopes are counterparts. -/
theorem current (h : Alike R s t) : R s.current t.current := by
  cases h with
  | cons h _ => exact h.2

/-- Alike scopes stay alike when counterparts are bound. -/
theorem bind (h : Alike R s t) (name : String) (hab : R a b) :
    Alike R (s.bind name a) (t.bind name b) :=
  .cons ⟨rfl, hab⟩ h

/-- Alike scopes have the same names. -/
theorem names_eq (h : Alike R s t) : s.names = t.names := by
  have hnames : s.bindings.map Prod.fst = t.bindings.map Prod.fst :=
    List.forall₂_eq_eq_eq ▸ List.rel_map (fun p q hpq => hpq.1) h
  rw [names, names, hnames]

/-- A name stands for counterparts in alike scopes. -/
theorem lookup (h : Alike R s t) (x : String) :
    Related Eq R (s.lookup x) (t.lookup x) := by
  have hrow : ∀ {l l' : List (String × Handle)},
      List.Forall₂ (fun p q => p.1 = q.1 ∧ R p.2 q.2) l l' →
      Option.Rel R (l.lookup x) (l'.lookup x) := by
    intro l l' hl
    induction hl with
    | nil => exact .none
    | @cons p q l l' hpq hl ih =>
        obtain ⟨name, a⟩ := p
        obtain ⟨name', b⟩ := q
        obtain ⟨rfl, hab⟩ : name = name' ∧ R a b := hpq
        rw [List.lookup_cons, List.lookup_cons]
        cases x == name with
        | true => exact .some hab
        | false => exact ih
  have hfound := hrow h
  simp only [Scope.lookup, h.names_eq]
  generalize s.bindings.lookup x = o at hfound
  generalize t.bindings.lookup x = o' at hfound
  cases hfound with
  | none => exact .error rfl
  | some hab => exact .ok hab

end Scope.Alike

/-- Lookups as evaluation makes them. -/
theorem lookup_alike {s t : Scope} (hs : s.Alike R t) (x : String) :
    AlikeResults R ((s.lookup x).mapError .undefinedVariable)
      ((t.lookup x).mapError .undefinedVariable) :=
  (hs.lookup x).mapError fun _ _ h => congrArg EvalError.undefinedVariable h

/-- A quantifier decides alike over counterparts that are tested alike. -/
theorem decideOver_alike (deciding : Bool) {test test' : Handle → Except EvalError Bool}
    {as bs : List Handle} (h : List.Forall₂ R as bs)
    (htest : ∀ a b, R a b → AlikeResults Eq (test a) (test' b)) :
    AlikeResults Eq (decideOver deciding test as) (decideOver deciding test' bs) := by
  induction h with
  | nil => exact .ok rfl
  | cons hab h ih =>
      refine (htest _ _ hab).bind fun c c' hc => ?_
      subst hc
      split
      · exact .ok rfl
      · exact ih

/-- Of counterparts that are tested alike, counterparts pass. -/
theorem keepPassing_alike {test test' : Handle → Except EvalError Bool} {as bs : List Handle}
    (h : List.Forall₂ R as bs) (htest : ∀ a b, R a b → AlikeResults Eq (test a) (test' b)) :
    AlikeResults (List.Forall₂ R) (keepPassing test as) (keepPassing test' bs) := by
  induction h with
  | nil => exact .ok .nil
  | cons hab h ih =>
      refine (htest _ _ hab).bind fun c c' hc => ih.bind fun kept kept' hkept => ?_
      subst hc
      cases c with
      | true => exact .ok (.cons hab hkept)
      | false => exact .ok hkept

namespace Expr

mutual

/-- The names of the tags that an expression asks for. -/
def tagNames : Expr → List String
  | tag name | tagNumber name => [name]
  | not e | neg e | count e | nonEmpty e | focus _ e => e.tagNames
  | junction _ es => tagNamesAll es
  | compare _ a b | arith _ a b => a.tagNames ++ b.tagNames
  | quantified _ _ source body | comprehension _ source body => source.tagNames ++ body.tagNames
  | bool _ | number _ | var _ | list _ | unknownList _ | foreign _ => []

/-- The names of the tags that several expressions ask for. -/
def tagNamesAll : List Expr → List String
  | [] => []
  | e :: es => e.tagNames ++ tagNamesAll es

end

variable {names : List String} {g g' : Diagram}

mutual

/-- **Likeness.**  In diagrams of one shape, with the same first tags of the names that an
expression asks for, and in scopes that bind counterparts, the expression has like values, or none
for the same reason. -/
theorem eval_alike (hg : g.Alike names R g') {s t : Scope} (hs : s.Alike R t) : (e : Expr) →
    e.tagNames ⊆ names → AlikeResults (Value.Alike R) (e.eval ⟨g, .usual⟩ s) (e.eval ⟨g', .usual⟩ t)
  | bool value, _ => by
      simp only [eval]
      exact .ok (.bool value)
  | number value, _ => by
      simp only [eval]
      exact .ok (.number _)
  | tag name, hnames => by
      have hname : name ∈ names := hnames (by simp [tagNames])
      simp only [eval, hg.hasTag hs.current hname]
      exact .ok (.bool _)
  | tagNumber name, hnames => by
      have hname : name ∈ names := hnames (by simp [tagNames])
      simp only [eval, hg.tagNumber hs.current hname]
      exact (Related.same _).bind fun x x' hx => hx ▸ .ok (.number _)
  | var name, _ => by
      simp only [eval]
      exact (lookup_alike hs name).bind fun a b hab => .ok (.element hab)
  | not e, hnames => by
      simp only [tagNames] at hnames
      simp only [eval]
      refine (eval_alike hg hs e hnames).bind fun v v' hv => ?_
      rw [hv.truth_eq]
      exact .ok (.bool _)
  | neg e, hnames => by
      simp only [tagNames] at hnames
      simp only [eval]
      exact (eval_alike hg hs e hnames).bind fun v v' hv => hv.neg
  | junction c es, hnames => by
      simp only [tagNames] at hnames
      simp only [eval]
      refine (evalJunction_alike hg hs c es hnames).bind fun value value' hvalue => ?_
      subst hvalue
      exact .ok (.bool _)
  | compare op a b, hnames => by
      simp only [tagNames, List.append_subset] at hnames
      simp only [eval]
      refine (eval_alike hg hs a hnames.1).bind fun v v' hv =>
        (eval_alike hg hs b hnames.2).bind fun w w' hw => ?_
      rw [Value.Alike.compare_eq hg.unique op hv hw]
      exact (Related.same _).bind fun value value' hvalue => hvalue ▸ .ok (.bool _)
  | arith op a b, hnames => by
      simp only [tagNames, List.append_subset] at hnames
      simp only [eval]
      exact (eval_alike hg hs a hnames.1).bind fun v v' hv =>
        (eval_alike hg hs b hnames.2).bind fun w w' hw => hv.arith op hw
  | quantified q name source body, hnames => by
      simp only [tagNames, List.append_subset] at hnames
      simp only [eval]
      refine (eval_alike hg hs source hnames.1).bind fun l l' hl =>
        hl.handles.bind fun as bs hrow => ?_
      refine (decideOver_alike _ hrow fun a b hab => ?_).bind fun value value' hvalue =>
        hvalue ▸ .ok (.bool _)
      exact (eval_alike hg (hs.bind name hab) body hnames.2).map fun v v' hv => hv.truth_eq
  | focus name body, hnames => by
      simp only [tagNames] at hnames
      simp only [eval]
      exact (lookup_alike hs name).bind fun a b hab => eval_alike hg (hs.bind name hab) body hnames
  | count source, hnames => by
      simp only [tagNames] at hnames
      simp only [eval]
      refine (eval_alike hg hs source hnames).bind fun l l' hl =>
        hl.length.bind fun n n' hn => ?_
      subst hn
      exact .ok (.number _)
  | nonEmpty source, hnames => by
      simp only [tagNames] at hnames
      simp only [eval]
      refine (eval_alike hg hs source hnames).bind fun l l' hl =>
        hl.length.bind fun n n' hn => ?_
      subst hn
      exact .ok (.bool _)
  | list source, _ => by
      simp only [eval]
      exact .ok (.list (hg.list hs.current source))
  | unknownList word, _ => by
      simp only [eval]
      exact .error rfl
  | comprehension name source body, hnames => by
      simp only [tagNames, List.append_subset] at hnames
      simp only [eval]
      refine (eval_alike hg hs source hnames.1).bind fun l l' hl =>
        hl.handles.bind fun as bs hrow => ?_
      refine (keepPassing_alike hrow fun a b hab => ?_).bind fun kept kept' hkept =>
        .ok (.list hkept)
      exact (eval_alike hg (hs.bind name hab) body hnames.2).map fun v v' hv => hv.truth_eq
  | foreign typeName, _ => by
      simp only [eval]
      exact .error rfl

/-- A connective has the same value then. -/
theorem evalJunction_alike (hg : g.Alike names R g') {s t : Scope} (hs : s.Alike R t)
    (c : Connective) : (es : List Expr) → tagNamesAll es ⊆ names →
    AlikeResults Eq (evalJunction ⟨g, .usual⟩ s c es) (evalJunction ⟨g', .usual⟩ t c es)
  | [], _ => by
      simp only [evalJunction]
      exact .ok rfl
  | e :: es, hnames => by
      simp only [tagNamesAll, List.append_subset] at hnames
      simp only [evalJunction]
      refine (eval_alike hg hs e hnames.1).bind fun v v' hv => ?_
      rw [hv.truth_eq]
      split
      · exact .ok rfl
      · exact evalJunction_alike hg hs c es hnames.2

end

/-- **What a rule sees.**  In diagrams of one shape in which counterparts have the same first tags
of the names that a rule asks for, the rule has the same truth value on counterparts. -/
theorem eval_sees_named_tags {text : String} {e : Expr} (hparse : Expr.parse text = .ok e)
    {g g' : Diagram} (hg : g.Alike e.tagNames R g') {a b : Handle} (hab : R a b) :
    (∃ v, e.evalOn ⟨g, .usual⟩ a = .ok (.bool v) ∧ e.evalOn ⟨g', .usual⟩ b = .ok (.bool v)) ∧
      e.holdsOn ⟨g, .usual⟩ a = e.holdsOn ⟨g', .usual⟩ b := by
  have hscope : Scope.Alike R ⟨thisName, a, []⟩ ⟨thisName, b, []⟩ := .cons ⟨rfl, hab⟩ .nil
  have hlike : AlikeResults (Value.Alike R) (e.evalOn ⟨g, .usual⟩ a) (e.evalOn ⟨g', .usual⟩ b) :=
    eval_alike hg hscope e fun _ h => h
  obtain ⟨v, hv⟩ : ∃ v, e.evalOn ⟨g, .usual⟩ a = .ok (.bool v) :=
    (typed_of_parse hparse).evalOn Registry.usual_total a
  have hv' : e.evalOn ⟨g', .usual⟩ b = .ok (.bool v) := by
    rw [hv] at hlike
    generalize e.evalOn ⟨g', .usual⟩ b = result at hlike
    cases hlike with
    | ok h => cases h; rfl
  exact ⟨⟨v, hv, hv'⟩, by rw [holdsOn, holdsOn, hv, hv']⟩

end Expr

/-- The family under equal ids, with the elements in another order, tags in another order, more of
them, and some again with other numbers. -/
def Diagram.familyInDisguise : Diagram where
  elements := #[
    { id := "x", kind := .node, parent := some 2,
      tags := some [⟨.string "c", 7⟩, ⟨.string "b", 2⟩, ⟨.string "a", 1⟩, ⟨.string "a", 5⟩] },
    { id := "x", kind := .node, tags := some [⟨.string "b", 3⟩, ⟨.string "b", 0⟩],
      properties := [("color", .string "red")], parent := some 2 },
    { id := "x", kind := .node, tags := some [⟨.string "c", 0⟩], children := [0, 1] }]

/-- The counterparts of the members of the family. -/
def Diagram.FamilyPairs (a b : Handle) : Prop :=
  a = 0 ∧ b = 2 ∨ a = 1 ∧ b = 0 ∨ a = 2 ∧ b = 1

/-- The disguise leaves the shape and the first tags of these names as they are. -/
theorem Diagram.family_alike :
    Alike ["a", "a", "b"] FamilyPairs family familyInDisguise := by
  have hroot : FamilyPairs 0 2 := .inl ⟨rfl, rfl⟩
  have hann : FamilyPairs 1 0 := .inr (.inl ⟨rfl, rfl⟩)
  have hbob : FamilyPairs 2 1 := .inr (.inr ⟨rfl, rfl⟩)
  have hunique : BiUnique FamilyPairs := by
    constructor <;> intro a b c h h' <;> simp only [FamilyPairs] at h h' <;> grind
  refine ⟨hunique, ?kind, ?taggable, ?tags, ?parent, ?children, ?source, ?target, ?incoming,
    ?outgoing⟩ <;> rintro a b (⟨rfl, rfl⟩ | ⟨rfl, rfl⟩ | ⟨rfl, rfl⟩)
  case tags.inl | tags.inr.inl | tags.inr.inr =>
    simp only [List.forall_mem_cons]
    exact ⟨rfl, rfl, rfl, by simp⟩
  case parent.inr.inl | parent.inr.inr => exact .some hroot
  case children.inl => exact .cons hann (.cons hbob .nil)
  case children.inr.inl | children.inr.inr => exact .nil
  all_goals first | rfl | exact .none | exact .nil

/-- A rule about siblings does not see the disguise. -/
theorem Expr.eval_sees_named_tags_family :
    ∃ e, Expr.parse "exists[x:siblings|#a&&$a<$b]" = .ok e ∧
      Diagram.Alike e.tagNames Diagram.FamilyPairs .family .familyInDisguise ∧
      Diagram.FamilyPairs 2 1 ∧
      e.holdsOn ⟨.family, .usual⟩ 2 = e.holdsOn ⟨.familyInDisguise, .usual⟩ 1 := by
  have htokens : Lexer.tokenize "exists[x:siblings|#a&&$a<$b]" = .ok
      [⟨.quantifier .any, "exists", 0⟩, ⟨.leftBracket, "[", 6⟩, ⟨.name, "x", 7⟩, ⟨.colon, ":", 8⟩,
      ⟨.list .siblings, "siblings", 9⟩, ⟨.pipe, "|", 17⟩, ⟨.hash, "#", 18⟩, ⟨.name, "a", 19⟩,
      ⟨.junction .and, "&&", 20⟩, ⟨.dollar, "$", 22⟩, ⟨.name, "a", 23⟩, ⟨.compare .lt, "<", 24⟩,
      ⟨.dollar, "$", 25⟩, ⟨.name, "b", 26⟩, ⟨.rightBracket, "]", 27⟩, ⟨.finish, "", 28⟩] := by
    decide +kernel
  have hparse : Expr.parse "exists[x:siblings|#a&&$a<$b]" = .ok (.quantified .any "x"
      (.list .siblings) (.junction .and [.tag "a",
        .compare .lt (.tagNumber "a") (.tagNumber "b")])) := by
    rw [Expr.parse, htokens]
    rfl
  have hnames : Expr.tagNames (.quantified .any "x" (.list .siblings) (.junction .and [.tag "a",
      .compare .lt (.tagNumber "a") (.tagNumber "b")])) = ["a", "a", "b"] := by
    simp [Expr.tagNames, Expr.tagNamesAll]
  have hbob : Diagram.FamilyPairs 2 1 := .inr (.inr ⟨rfl, rfl⟩)
  have halike := hnames ▸ Diagram.family_alike
  exact ⟨_, hparse, halike, hbob, (Expr.eval_sees_named_tags hparse halike hbob).2⟩

end DiagramFilter
