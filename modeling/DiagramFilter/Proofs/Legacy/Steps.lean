import DiagramFilter.Legacy.Convert
import DiagramFilter.Proofs.Lexing.Reading

/-!
# The steps of a conversion

A conversion descends into the operands of a record, in boolean or in numeric position.  `Fault`
says what can be wrong with a record by itself, and `IsUnknown` that nothing is known about its
connective; the two ends of a descent that fails are these.

`Lockstep` is the induction over conversions.  It is about two conversions of one record, which
may treat unknown connectives in different ways: a relation between their outcomes that every step
keeps holds of the outcomes for the whole record (`Lockstep.boolean`).  That a statement is about
one conversion alone is the case in which both are the same.
-/

namespace DiagramFilter.Legacy

/-- The position in which a record stands. -/
inductive Position where
  | boolean | numeric

/-- The fields of the operands of a connective, with their positions. -/
def BooleanShape.operands : BooleanShape → List (String × Position)
  | constant _ => []
  | identity | negation => [("operand", .boolean)]
  | junction _ | implication | equivalence =>
    [("leftOperand", .boolean), ("rightOperand", .boolean)]
  | choice => [("firstOperand", .boolean), ("secondOperand", .boolean), ("thirdOperand", .boolean)]
  | relation _ => [("leftOperand", .numeric), ("rightOperand", .numeric)]

/-- The fields of the operands of a numeric connective, with their positions. -/
def NumericShape.operands : NumericShape → List (String × Position)
  | constant => []
  | arith _ => [("leftOperand", .numeric), ("rightOperand", .numeric)]

/-- The fields of the operands that a connective has in a position, if it is known there. -/
def Position.operandsOf? : Position → String → Option (List (String × Position))
  | boolean, name => (BooleanShape.ofName? name).map BooleanShape.operands
  | numeric, name => (NumericShape.ofName? name).map NumericShape.operands

/-- What stands for an unknown connective in a position. -/
def Position.replacement : Position → String
  | boolean => "true"
  | numeric => "0"

/-- A record of a known connective takes an operand, which has a position, from a field. -/
structure Takes (pos : Position) (rule : Document) (name key : String) (pos' : Position) :
    Prop where
  head : head rule = .ok (.connective name)
  operands : ∃ fields, pos.operandsOf? name = some fields ∧ (key, pos') ∈ fields

/-- Nothing is known about a connective in a position. -/
structure IsUnknown (pos : Position) (rule : Document) (name : String) : Prop where
  head : head rule = .ok (.connective name)
  unknown : pos.operandsOf? name = none

/-- A record is a constant. -/
def IsConstant (rule : Document) : Prop :=
  head rule = .ok (.connective "CONST")

/-- What is wrong with a record by itself, besides that nothing is known about its connective. -/
inductive Fault : Position → Document → LegacyError → Prop
  | notObject {pos : Position} {rule : Document} (h : ∀ fields, rule ≠ .object fields) :
      Fault pos rule (.notObject rule.typeName)
  | unnamed {pos : Position} {rule : Document} (htag : rule.value? "tag" = none)
      (hname : rule.value? "name" = none) : Fault pos rule .unnamed
  | unwritable {pos : Position} {rule : Document} {name : String}
      (h : head rule = .ok (.tag name)) (hword : ¬ IsIdentifier name) :
      Fault pos rule (.unwritableTag name)
  | missing {pos pos' : Position} {rule : Document} {name key : String}
      (h : Takes pos rule name key pos') (hkey : rule.value? key = none) :
      Fault pos rule (.missing name key)
  | notNumber {rule : Document} (h : IsConstant rule)
      (hnum : ∀ n, rule.field? "num" ≠ some (.number n)) :
      Fault .numeric rule (.notNumber ((rule.field? "num").getD .null).quoted)
  | notFinite {rule : Document} {n : Number} {x : Float} (h : IsConstant rule)
      (hnum : rule.field? "num" = some (.number n)) (hx : n.toFloat = .ok x)
      (hinfinite : x.isFinite = false) : Fault .numeric rule (.notFinite n.text)
  | tooLarge {rule : Document} {n : Int} (h : IsConstant rule)
      (hnum : rule.field? "num" = some (.number (.int n))) (hlarge : Double.ofInt? n = none) :
      Fault .numeric rule .tooLarge

variable {pos pos' : Position} {rule : Document} {name key : String} {e : LegacyError}

/-- A record without a head is malformed. -/
theorem head_fault (h : head rule = .error e) : Fault pos rule e := by
  unfold head at h
  split at h
  · split at h
    · cases h
    · cases h
    · rename_i htag hname
      cases h
      exact .unnamed htag hname
  · rename_i hobject
    cases h
    exact .notObject hobject

/-- A name that is an identifier is written behind its marker. -/
theorem tagText_of_isIdentifier (marker : String) (h : IsIdentifier name) :
    tagText marker name = pure (marker ++ name) := by
  have hscan : Lexer.scanName name.toList = name.toList := by
    have happend : Lexer.scanName (name.toList ++ []) = name.toList :=
      Lexer.Reads.scanName_append h (by simp [Apart])
    rwa [List.append_nil] at happend
  have hne : name.toList ≠ [] := by
    obtain ⟨c, cs, hname, -⟩ := h
    rw [hname]
    exact List.cons_ne_nil c cs
  unfold tagText
  dsimp only
  rw [if_pos (by simpa [hscan] using hne)]

/-- A tag that is no identifier cannot be written. -/
theorem tagText_of_not_isIdentifier (marker : String) (h : ¬ IsIdentifier name) :
    tagText marker name = .fail (.unwritableTag name) := by
  unfold tagText
  dsimp only
  split
  · rename_i hword
    simp only [Bool.and_eq_true, Bool.not_eq_true', List.isEmpty_eq_false_iff,
      decide_eq_true_eq] at hword
    exact absurd (Lexer.isIdentifier_of_scanName hword.1 hword.2) h
  · rfl

/-- Constants have one name. -/
theorem eq_const_of_shape (h : NumericShape.ofName? name = some .constant) : name = "CONST" := by
  unfold NumericShape.ofName? at h
  split at h <;> cases h
  rfl

/-- A constant without a number is an error. -/
theorem constantText_of_not_number (hnum : ∀ n, rule.field? "num" ≠ some (.number n)) :
    constantText rule = .fail (.notNumber ((rule.field? "num").getD .null).quoted) := by
  unfold constantText
  cases hfield : rule.field? "num" with
  | none => rfl
  | some d => cases d with
    | number n => exact absurd hfield (hnum n)
    | _ => rfl

/-- A constant is written if its number is finite. -/
theorem constantText_of_toFloat_eq_ok {n : Number} {x : Float}
    (hnum : rule.field? "num" = some (.number n)) (hx : n.toFloat = .ok x) :
    constantText rule =
      if x.isFinite then pure (doubleText x) else .fail (.notFinite n.text) := by
  unfold constantText
  rw [hnum]
  dsimp only [Option.getD_some]
  rw [hx]
  rfl

/-- A constant that is beyond the doubles is an error. -/
theorem constantText_of_toFloat_eq_error {n : Number} {fault : Number.Error}
    (hnum : rule.field? "num" = some (.number n)) (hx : n.toFloat = .error fault) :
    constantText rule = .fail .tooLarge := by
  unfold constantText
  rw [hnum]
  dsimp only [Option.getD_some]
  rw [hx]

/-- A constant has a text, or there is a fault. -/
theorem constantText_cases (h : IsConstant rule) :
    (∃ text, constantText rule = pure text) ∨
      ∃ e, constantText rule = .fail e ∧ Fault .numeric rule e := by
  by_cases hnum : ∃ n, rule.field? "num" = some (.number n)
  · obtain ⟨n, hnum⟩ := hnum
    cases hx : n.toFloat with
    | ok x =>
        rw [constantText_of_toFloat_eq_ok hnum hx]
        by_cases hfinite : x.isFinite = true
        · exact .inl ⟨_, if_pos hfinite⟩
        · exact .inr ⟨_, if_neg hfinite, .notFinite h hnum hx (by simpa using hfinite)⟩
    | error fault =>
        obtain ⟨m, rfl, hlarge⟩ := Number.toFloat_eq_error hx
        exact .inr ⟨_, constantText_of_toFloat_eq_error hnum hx, .tooLarge h hnum hlarge⟩
  · have hnone : ∀ n, rule.field? "num" ≠ some (.number n) := fun n hn => hnum ⟨n, hn⟩
    exact .inr ⟨_, constantText_of_not_number hnone, .notNumber h hnone⟩

/-- The name of the records of a connective between truth values. -/
def junctionName : Connective → String
  | .and => "AND"
  | .or => "OR"

/-- The connective of a run has one name. -/
theorem ofName?_eq_junction {c : Connective} :
    BooleanShape.ofName? name = some (.junction c) ↔ name = junctionName c := by
  constructor
  · intro h
    unfold BooleanShape.ofName? at h
    split at h <;> cases h <;> rfl
  · rintro rfl
    cases c <;> rfl

/-- A run goes into the records of its connective. -/
theorem isJunction_iff {c : Connective} :
    isJunction c rule = true ↔ head rule = .ok (.connective (junctionName c)) := by
  unfold isJunction
  cases head rule with
  | error e => simp
  | ok root => cases root <;> simp [ofName?_eq_junction]

/-- Such a record takes an operand on either side. -/
theorem takes_of_isJunction {c : Connective} (h : isJunction c rule = true) (field : String)
    (hfield : field = "leftOperand" ∨ field = "rightOperand") :
    Takes .boolean rule (junctionName c) field .boolean := by
  refine ⟨isJunction_iff.mp h, (BooleanShape.junction c).operands, ?_, ?_⟩
  · rw [Position.operandsOf?, ofName?_eq_junction.mpr rfl]
    rfl
  · rcases hfield with rfl | rfl <;> simp [BooleanShape.operands]

/-- A relation between the outcomes of two conversions is kept by every step of them, where the
records are of a sort that goes over to their operands. -/
structure Lockstep (strict strict' : Bool) (Fits : Position → Document → Prop)
    (R : (α : Type) → Conversion α → Conversion α → Prop) : Prop where
  operand : ∀ {pos rule name key pos' d}, Fits pos rule → Takes pos rule name key pos' →
    rule.value? key = some d → Fits pos' d
  pure : ∀ {α} (a : α), R α (pure a) (pure a)
  bind : ∀ {α β} {o o' : Conversion α} {f f' : α → Conversion β}, R α o o' →
    (∀ a, R β (f a) (f' a)) → R β (o >>= f) (o' >>= f')
  fault : ∀ {α pos rule e}, Fits pos rule → Fault pos rule e → R α (.fail e) (.fail e)
  unknown : ∀ {pos rule name}, Fits pos rule → IsUnknown pos rule name →
    R String (unknownText strict name pos.replacement) (unknownText strict' name pos.replacement)

namespace Lockstep

variable {strict strict' : Bool} {Fits : Position → Document → Prop}
  {R : (α : Type) → Conversion α → Conversion α → Prop}

/-- Tags are converted in lockstep. -/
theorem tag (h : Lockstep strict strict' Fits R) (hfits : Fits pos rule)
    (hhead : head rule = .ok (.tag name)) (marker : String) :
    R String (tagText marker name) (tagText marker name) := by
  by_cases hword : IsIdentifier name
  · rw [tagText_of_isIdentifier marker hword]
    exact h.pure _
  · rw [tagText_of_not_isIdentifier marker hword]
    exact h.fault hfits (.unwritable hhead hword)

/-- An operand is looked up before the conversions go on with it. -/
theorem operand_bind {α : Type} (h : Lockstep strict strict' Fits R) (hfits : Fits pos rule)
    (htakes : Takes pos rule name key pos')
    {f f' : { d : Document // d.size < rule.size } → Conversion α}
    (hnext : ∀ d, Fits pos' d.1 → R α (f d) (f' d)) :
    R α (Legacy.operand rule name key >>= f) (Legacy.operand rule name key >>= f') := by
  unfold Legacy.operand
  split
  · rename_i d hd
    rw [Outcome.pure_bind, Outcome.pure_bind]
    exact hnext _ (h.operand hfits htakes hd)
  · rename_i hnone
    rw [Outcome.fail_bind, Outcome.fail_bind]
    exact h.fault hfits (.missing htakes hnone)

/-- A connective between two operands looks for the right one only when the left one is done. -/
theorem pair (h : Lockstep strict strict' Fits R) (hfits : Fits pos rule)
    {convert convert' : Document → Conversion String} (join : String → String → String)
    (hleft : Takes pos rule name "leftOperand" pos')
    (hright : Takes pos rule name "rightOperand" pos')
    (hconvert : ∀ d : { d : Document // d.size < rule.size }, Fits pos' d.1 →
      R String (convert d.1) (convert' d.1)) :
    R String
      (do let left ← Legacy.operand rule name "leftOperand"
          let a ← convert left.1
          let right ← Legacy.operand rule name "rightOperand"
          let b ← convert right.1
          return join a b)
      (do let left ← Legacy.operand rule name "leftOperand"
          let a ← convert' left.1
          let right ← Legacy.operand rule name "rightOperand"
          let b ← convert' right.1
          return join a b) := by
  refine h.operand_bind hfits hleft fun left hfitsLeft => ?_
  refine h.bind (hconvert left hfitsLeft) fun a => ?_
  refine h.operand_bind hfits hright fun right hfitsRight => ?_
  exact h.bind (hconvert right hfitsRight) fun b => h.pure _

/-- Constants are converted in lockstep. -/
theorem constant (h : Lockstep strict strict' Fits R) (hfits : Fits .numeric rule)
    (hconstant : IsConstant rule) : R String (constantText rule) (constantText rule) := by
  rcases constantText_cases hconstant with ⟨text, htext⟩ | ⟨e, htext, hfault⟩
  · rw [htext]
    exact h.pure text
  · rw [htext]
    exact h.fault hfits hfault

/-- The conversions of a record in numeric position are related. -/
theorem numeric (h : Lockstep strict strict' Fits R) (rule : Document)
    (hfits : Fits .numeric rule) :
    R String (Legacy.numeric strict rule) (Legacy.numeric strict' rule) := by
  rw [Legacy.numeric, Legacy.numeric]
  cases hhead : head rule with
  | error e => exact h.fault hfits (head_fault hhead)
  | ok root =>
      cases root with
      | tag name => exact h.tag hfits hhead "$"
      | connective name =>
          dsimp only
          cases hshape : NumericShape.ofName? name with
          | none => exact h.unknown hfits ⟨hhead, by rw [Position.operandsOf?, hshape]; rfl⟩
          | some shape =>
              have htakes : ∀ {key pos'}, (key, pos') ∈ shape.operands →
                  Takes .numeric rule name key pos' := fun hmem =>
                ⟨hhead, shape.operands, by rw [Position.operandsOf?, hshape]; rfl, hmem⟩
              cases shape with
              | constant =>
                  rw [eq_const_of_shape hshape] at hhead
                  exact h.constant hfits hhead
              | arith op =>
                  exact h.pair hfits (fun a b => "(" ++ a ++ op.symbol ++ b ++ ")")
                    (htakes (.head _)) (htakes (.tail _ (.head _))) fun d hd => h.numeric d.1 hd
termination_by rule.size
decreasing_by exact d.2

mutual

/-- **The conversions of a record are related** if every step keeps the relation. -/
theorem boolean (h : Lockstep strict strict' Fits R) (rule : Document)
    (hfits : Fits .boolean rule) :
    R String (Legacy.boolean strict rule) (Legacy.boolean strict' rule) := by
  rw [Legacy.boolean, Legacy.boolean]
  cases hhead : head rule with
  | error e => exact h.fault hfits (head_fault hhead)
  | ok root =>
      cases root with
      | tag name => exact h.tag hfits hhead "#"
      | connective name =>
          dsimp only
          cases hshape : BooleanShape.ofName? name with
          | none => exact h.unknown hfits ⟨hhead, by rw [Position.operandsOf?, hshape]; rfl⟩
          | some shape =>
              have htakes : ∀ {key pos'}, (key, pos') ∈ shape.operands →
                  Takes .boolean rule name key pos' := fun hmem =>
                ⟨hhead, shape.operands, by rw [Position.operandsOf?, hshape]; rfl, hmem⟩
              cases shape with
              | constant value => cases value <;> exact h.pure _
              | identity =>
                  refine h.operand_bind hfits (htakes (.head _)) fun inner hinner => ?_
                  exact h.bind (h.boolean inner.1 hinner) fun a => h.pure _
              | negation =>
                  refine h.operand_bind hfits (htakes (.head _)) fun inner hinner => ?_
                  exact h.bind (h.boolean inner.1 hinner) fun a => h.pure _
              | junction c =>
                  rw [ofName?_eq_junction] at hshape
                  subst hshape
                  refine h.operand_bind hfits (htakes (.tail _ (.head _))) fun right hright => ?_
                  refine h.operand_bind hfits (htakes (.head _)) fun left hleft => ?_
                  refine h.bind (h.run c left.1 hleft) fun as => ?_
                  exact h.bind (h.run c right.1 hright) fun bs => h.pure _
              | implication =>
                  exact h.pair hfits (fun a b => "(!" ++ a ++ "||" ++ b ++ ")")
                    (htakes (.head _)) (htakes (.tail _ (.head _))) fun d hd => h.boolean d.1 hd
              | equivalence =>
                  exact h.pair hfits (fun a b => "(" ++ a ++ "=" ++ b ++ ")")
                    (htakes (.head _)) (htakes (.tail _ (.head _))) fun d hd => h.boolean d.1 hd
              | choice =>
                  refine h.operand_bind hfits (htakes (.head _)) fun first hfirst => ?_
                  refine h.bind (h.boolean first.1 hfirst) fun a => ?_
                  refine h.operand_bind hfits (htakes (.tail _ (.head _))) fun second hsecond => ?_
                  refine h.bind (h.boolean second.1 hsecond) fun b => ?_
                  refine h.operand_bind hfits (htakes (.tail _ (.tail _ (.head _))))
                    fun third hthird => ?_
                  exact h.bind (h.boolean third.1 hthird) fun c => h.pure _
              | relation op =>
                  exact h.pair hfits (fun a b => "(" ++ a ++ op.symbol ++ b ++ ")")
                    (htakes (.head _)) (htakes (.tail _ (.head _))) fun d hd => h.numeric d.1 hd
termination_by (rule.size, 0)
decreasing_by
  all_goals
    apply Prod.Lex.left
    first
      | exact inner.2
      | exact left.2
      | exact right.2
      | exact d.2
      | exact first.2
      | exact second.2
      | exact third.2

/-- The conversions of a run are related. -/
theorem run (h : Lockstep strict strict' Fits R) (c : Connective) (rule : Document)
    (hfits : Fits .boolean rule) :
    R (List String) (Legacy.run strict c (junctionName c) rule)
      (Legacy.run strict' c (junctionName c) rule) := by
  rw [Legacy.run, Legacy.run]
  by_cases hjunction : isJunction c rule = true
  · rw [if_pos hjunction, if_pos hjunction]
    have htakes := takes_of_isJunction hjunction
    refine h.operand_bind hfits (htakes _ (.inr rfl)) fun right hright => ?_
    refine h.operand_bind hfits (htakes _ (.inl rfl)) fun left hleft => ?_
    refine h.bind (h.run c left.1 hleft) fun as => ?_
    exact h.bind (h.run c right.1 hright) fun bs => h.pure _
  · rw [if_neg hjunction, if_neg hjunction]
    exact h.bind (h.boolean rule hfits) fun a => h.pure _
termination_by (rule.size, 1)
decreasing_by
  · exact Prod.Lex.left _ _ left.2
  · exact Prod.Lex.left _ _ right.2
  · exact Prod.Lex.right _ Nat.zero_lt_one

end

end Lockstep

end DiagramFilter.Legacy
