import DiagramFilter.Proofs.Legacy.Leaves

/-!
# Converted records keep their meaning

The text that a legacy record is converted to is read as a rule, unless it is nested too deeply, and
the rule holds for an element exactly if the record does (`convert_preserves`).  The proof follows
the conversion: the text of each record means what the record means, in boolean and in numeric
position, by induction on the size of the record.
-/

namespace DiagramFilter

namespace Legacy

open Outcome (result_bind_eq_ok)

variable {strict : Bool} {rule : Document} {name text : String}

/-- A record that is a tag has its name under the key for tags. -/
theorem head_tag (h : head rule = .ok (.tag name)) :
    ∃ tag, rule.value? "tag" = some tag ∧ name = tag.display := by
  unfold head at h
  split at h
  · split at h
    · rename_i tag htag
      cases h
      exact ⟨tag, htag, rfl⟩
    · cases h
    · cases h
  · cases h

/-- A record that is a connective has no tag, and its name under the key for names. -/
theorem head_connective (h : head rule = .ok (.connective name)) :
    rule.value? "tag" = none ∧ ∃ d, rule.value? "name" = some d ∧ name = d.display := by
  unfold head at h
  split at h
  · split at h
    · cases h
    · rename_i d htag hname
      cases h
      exact ⟨htag, d, hname, rfl⟩
    · cases h
  · cases h

/-- An operand that is found stands under its key. -/
theorem operand_eq_ok {key : String} {d : { d : Document // d.size < rule.size }}
    (h : (operand rule name key).result = .ok d) : rule.value? key = some d.1 := by
  unfold operand at h
  split at h
  · rename_i d' hfield
    cases h
    exact hfield
  · cases h

/-- An operand is found and converted before the conversion goes on. -/
theorem operand_bind_eq_ok {α β : Type} {key : String} {convert : Document → Conversion α}
    {next : α → Conversion β} {result : β}
    (h : (operand rule name key >>= fun d => convert d.1 >>= next).result = .ok result) :
    ∃ d, rule.value? key = some d ∧
      ∃ a, (convert d).result = .ok a ∧ (next a).result = .ok result := by
  obtain ⟨d, hd, h⟩ := result_bind_eq_ok.mp h
  obtain ⟨a, ha, h⟩ := result_bind_eq_ok.mp h
  exact ⟨d.1, operand_eq_ok hd, a, ha, h⟩

/-- What a connective makes of its operands. -/
def BooleanShape.meaning (truth : String → Bool) (number : String → Float) : BooleanShape → Bool
  | constant value => value
  | identity => truth "operand"
  | negation => !truth "operand"
  | junction c => c.join (truth "leftOperand") (truth "rightOperand")
  | implication => !truth "leftOperand" || truth "rightOperand"
  | equivalence => truth "leftOperand" == truth "rightOperand"
  | choice => if truth "firstOperand" then truth "secondOperand" else truth "thirdOperand"
  | relation op => op.test (number "leftOperand") (number "rightOperand")

/-- What a numeric connective makes of its operands. -/
def NumericShape.meaning (rule : Document) (number : String → Float) : NumericShape → Float
  | constant => constantOf rule
  | arith op => op.apply (number "leftOperand") (number "rightOperand")

/-- The meaning of a name is that of the connective that it stands for. -/
theorem connectiveTruth_of_shape {shape : BooleanShape} (truth : String → Bool)
    (number : String → Float) (h : BooleanShape.ofName? name = some shape) :
    connectiveTruth name truth number = shape.meaning truth number := by
  unfold BooleanShape.ofName? at h
  split at h <;> cases h <;> rfl

/-- An unknown connective is true. -/
theorem connectiveTruth_of_none (truth : String → Bool) (number : String → Float)
    (h : BooleanShape.ofName? name = none) : connectiveTruth name truth number = true := by
  unfold connectiveTruth
  split
  all_goals first
    | rfl
    | cases h

/-- A connective of numbers means what its shape says. -/
theorem connectiveNumber_of_shape {shape : NumericShape} (number : String → Float)
    (h : NumericShape.ofName? name = some shape) :
    connectiveNumber rule name number = shape.meaning rule number := by
  unfold NumericShape.ofName? at h
  split at h <;> cases h <;> rfl

/-- An unknown connective of numbers is zero. -/
theorem connectiveNumber_of_none (number : String → Float) (h : NumericShape.ofName? name = none) :
    connectiveNumber rule name number = 0 := by
  unfold connectiveNumber
  split
  all_goals first
    | rfl
    | cases h

/-- An operand has the number of the record under its key. -/
theorem operandNumber_eq {env : Env} {h : Handle} {key : String} {d : Document}
    (hfield : rule.value? key = some d) : operandNumber env h rule key = numberOf env h d := by
  rw [operandNumber, hfield]
  rfl

/-- An operand has the truth value of the record under its key. -/
theorem operandTruth_eq {env : Env} {h : Handle} {key : String} {d : Document}
    (hfield : rule.value? key = some d) : operandTruth env h rule key = truthOf env h d := by
  rw [operandTruth, hfield]
  rfl

/-- The constant in place of an unknown connective. -/
theorem unknownText_eq_ok {replacement : String}
    (h : (unknownText strict name replacement).result = .ok text) : text = replacement := by
  unfold unknownText at h
  split at h
  · cases h
  · cases h
    rfl

/-- The text of a record in numeric position means its number. -/
theorem numeric_counts (strict : Bool) (rule : Document) {text : String}
    (hok : (numeric strict rule).result = .ok text) :
    Counts text fun env h => numberOf env h rule := by
  have hoperand : ∀ {key d a}, rule.value? key = some d → (numeric strict d).result = .ok a →
      Counts a fun env h => operandNumber env h rule key := fun hfield ha =>
    (numeric_counts strict _ ha).congr fun env h => (operandNumber_eq hfield).symm
  rw [numeric] at hok
  split at hok
  · cases hok
  · rename_i name hhead
    obtain ⟨tag, htag, rfl⟩ := head_tag hhead
    exact (tagNumber_counts hok).congr fun env h => (numberOf_tag env h htag).symm
  · rename_i name hhead
    obtain ⟨htag, d, hname, rfl⟩ := head_connective hhead
    have hmeaning : ∀ {shape}, NumericShape.ofName? d.display = some shape → ∀ env h,
        shape.meaning rule (operandNumber env h rule) = numberOf env h rule := by
      intro shape hshape env h
      rw [numberOf_connective env h htag hname, connectiveNumber_of_shape _ hshape]
    split at hok
    · rename_i hshape
      exact (constantText_counts hok).congr (hmeaning hshape)
    · rename_i op hshape
      obtain ⟨left, hleft, a, ha, hok⟩ := operand_bind_eq_ok hok
      obtain ⟨right, hright, b, hb, hok⟩ := operand_bind_eq_ok hok
      cases hok
      exact ((hoperand hleft ha).arith op (hoperand hright hb)).congr (hmeaning hshape)
    · rename_i hshape
      rw [unknownText_eq_ok hok]
      refine zero_counts.congr fun env h => ?_
      rw [numberOf_connective env h htag hname, connectiveNumber_of_none _ hshape]
termination_by rule.size
decreasing_by exact Document.size_lt_of_value? hfield

/-- What a run goes into is a record of its connective. -/
theorem isJunction_head {c : Connective} (h : isJunction c rule = true) :
    ∃ name, head rule = .ok (.connective name) ∧
      BooleanShape.ofName? name = some (.junction c) := by
  unfold isJunction at h
  split at h
  · rename_i name hhead
    exact ⟨name, hhead, by simpa using h⟩
  · cases h

mutual

/-- The text of a record in boolean position means its truth value. -/
theorem boolean_tells (strict : Bool) (rule : Document) {text : String}
    (hok : (boolean strict rule).result = .ok text) :
    Tells text fun env h => truthOf env h rule := by
  -- The operands stand under several keys, but mean the same under each of them.
  have hoperand : ∀ {key d a}, rule.value? key = some d → (boolean strict d).result = .ok a →
      Tells a fun env h => operandTruth env h rule key := fun hfield ha =>
    (boolean_tells strict _ ha).congr fun env h => (operandTruth_eq hfield).symm
  have hnumber : ∀ {key d a}, rule.value? key = some d → (numeric strict d).result = .ok a →
      Counts a fun env h => operandNumber env h rule key := fun hfield ha =>
    (numeric_counts strict _ ha).congr fun env h => (operandNumber_eq hfield).symm
  rw [boolean] at hok
  split at hok
  · cases hok
  · rename_i name hhead
    obtain ⟨tag, htag, rfl⟩ := head_tag hhead
    exact (tag_tells hok).congr fun env h => (truthOf_tag env h htag).symm
  · rename_i name hhead
    obtain ⟨htag, d, hname, rfl⟩ := head_connective hhead
    have hmeaning : ∀ {shape}, BooleanShape.ofName? d.display = some shape → ∀ env h,
        shape.meaning (operandTruth env h rule) (operandNumber env h rule) =
          truthOf env h rule := by
      intro shape hshape env h
      rw [truthOf_connective env h htag hname, connectiveTruth_of_shape _ _ hshape]
    split at hok
    · rename_i hshape
      cases hok
      exact (Tells.bool true).congr (hmeaning hshape)
    · rename_i hshape
      cases hok
      exact (Tells.bool false).congr (hmeaning hshape)
    · rename_i hshape
      obtain ⟨inner, hinner, a, ha, hok⟩ := operand_bind_eq_ok hok
      cases hok
      exact (hoperand hinner ha).parens.congr (hmeaning hshape)
    · rename_i hshape
      obtain ⟨inner, hinner, a, ha, hok⟩ := operand_bind_eq_ok hok
      cases hok
      exact (hoperand hinner ha).not.congr (hmeaning hshape)
    · rename_i c hshape
      obtain ⟨right, hright, hok⟩ := result_bind_eq_ok.mp hok
      obtain ⟨left, hleft, hok⟩ := result_bind_eq_ok.mp hok
      obtain ⟨as, has, hok⟩ := result_bind_eq_ok.mp hok
      obtain ⟨bs, hbs, hok⟩ := result_bind_eq_ok.mp hok
      cases hok
      have hrun := (run_tells strict c _ _ has).append (run_tells strict c _ _ hbs)
      have hlen : 2 ≤ (as ++ bs).length := by
        have hpos := (run_tells strict c _ _ has).length_pos
        have hpos' := (run_tells strict c _ _ hbs).length_pos
        rw [List.length_append]
        omega
      refine (Tells.group hrun hlen).congr fun env h => ?_
      rw [← hmeaning hshape, BooleanShape.meaning, operandTruth_eq (operand_eq_ok hleft),
        operandTruth_eq (operand_eq_ok hright)]
    · rename_i hshape
      obtain ⟨left, hleft, a, ha, hok⟩ := operand_bind_eq_ok hok
      obtain ⟨right, hright, b, hb, hok⟩ := operand_bind_eq_ok hok
      cases hok
      exact ((hoperand hleft ha).implication (hoperand hright hb)).congr (hmeaning hshape)
    · rename_i hshape
      obtain ⟨left, hleft, a, ha, hok⟩ := operand_bind_eq_ok hok
      obtain ⟨right, hright, b, hb, hok⟩ := operand_bind_eq_ok hok
      cases hok
      exact ((hoperand hleft ha).same (hoperand hright hb)).congr (hmeaning hshape)
    · rename_i hshape
      obtain ⟨first, hfirst, a, ha, hok⟩ := operand_bind_eq_ok hok
      obtain ⟨second, hsecond, b, hb, hok⟩ := operand_bind_eq_ok hok
      obtain ⟨third, hthird, c, hc, hok⟩ := operand_bind_eq_ok hok
      cases hok
      exact ((hoperand hfirst ha).choice (hoperand hsecond hb) (hoperand hthird hc)).congr
        (hmeaning hshape)
    · rename_i op hshape
      obtain ⟨left, hleft, a, ha, hok⟩ := operand_bind_eq_ok hok
      obtain ⟨right, hright, b, hb, hok⟩ := operand_bind_eq_ok hok
      cases hok
      exact (Tells.relation op (hnumber hleft ha) (hnumber hright hb)).congr (hmeaning hshape)
    · rename_i hshape
      rw [unknownText_eq_ok hok]
      refine (Tells.bool true).congr fun env h => ?_
      rw [truthOf_connective env h htag hname, connectiveTruth_of_none _ _ hshape]
termination_by (rule.size, 0)
decreasing_by
  all_goals
    apply Prod.Lex.left
    first
      | exact Document.size_lt_of_value? hfield
      | exact left.2
      | exact right.2

/-- The texts of a run mean together what the record means. -/
theorem run_tells (strict : Bool) (c : Connective) (name : String) (rule : Document)
    {texts : List String} (hok : (run strict c name rule).result = .ok texts) :
    TellsRun c texts fun env h => truthOf env h rule := by
  rw [run] at hok
  split at hok
  · rename_i hjunction
    obtain ⟨name', hhead, hshape⟩ := isJunction_head hjunction
    obtain ⟨htag, d, hname, rfl⟩ := head_connective hhead
    obtain ⟨right, hright, hok⟩ := result_bind_eq_ok.mp hok
    obtain ⟨left, hleft, hok⟩ := result_bind_eq_ok.mp hok
    obtain ⟨as, has, hok⟩ := result_bind_eq_ok.mp hok
    obtain ⟨bs, hbs, hok⟩ := result_bind_eq_ok.mp hok
    cases hok
    refine ((run_tells strict c name _ has).append (run_tells strict c name _ hbs)).congr
      fun env h => ?_
    rw [truthOf_connective env h htag hname, connectiveTruth_of_shape _ _ hshape,
      BooleanShape.meaning, operandTruth_eq (operand_eq_ok hleft),
      operandTruth_eq (operand_eq_ok hright)]
  · obtain ⟨a, ha, hok⟩ := result_bind_eq_ok.mp hok
    cases hok
    exact .singleton (boolean_tells strict rule ha)
termination_by (rule.size, 1)

end

/-- **Conversion.**  The text that a legacy record is converted to is read as a rule.  Under
reserved numbers that are numbers, the rule has on every element of every diagram the truth value
that the record has there by itself. -/
theorem convert_preserves {strict : Bool} {rule : Document} {text : String}
    (hok : (convert strict rule).result = .ok text) :
    ∃ e, Expr.ReadAs text e ∧ ∀ env h, env.registry.Total →
      e.evalOn env h = .ok (.bool (truthOf env h rule)) := by
  obtain ⟨e, hpiece, hmeans⟩ := boolean_tells strict rule hok
  exact ⟨e, hpiece.readAs (hmeans.typed.mono (by simp)),
    fun env h htotal => hmeans.eval env _ htotal⟩

/-- A record that compares a tag with a constant below zero. -/
def tagBelowConstant : Document :=
  .object [("name", .string "LESSTHAN"), ("leftOperand", .object [("tag", .string "a")]),
    ("rightOperand", .object [("name", .string "CONST"), ("num", .number (.int (-1)))])]

/-- The sign of the constant is taken neither for an operator nor for part of one. -/
theorem convert_preserves_constant :
    (convert true tagBelowConstant).result = .ok "($a<(-1))" ∧
      ∃ e, Expr.parse "($a<(-1))" = .ok e ∧
        e.evalOn ⟨{}, .usual⟩ 0 = .ok (.bool (truthOf ⟨{}, .usual⟩ 0 tagBelowConstant)) := by
  have hleft : (numeric true (.object [("tag", .string "a")])).result = .ok "$a" := by
    rw [numeric]
    rfl
  have hright : (numeric true (.object [("name", .string "CONST"),
      ("num", .number (.int (-1)))])).result = .ok "(-1)" := by
    rw [numeric]
    decide +kernel
  have hok : (convert true tagBelowConstant).result = .ok "($a<(-1))" := by
    rw [convert, boolean]
    refine result_bind_eq_ok.mpr ⟨⟨_, by decide +kernel⟩, rfl, ?_⟩
    refine result_bind_eq_ok.mpr ⟨_, hleft, ?_⟩
    refine result_bind_eq_ok.mpr ⟨⟨_, by decide +kernel⟩, rfl, ?_⟩
    exact result_bind_eq_ok.mpr ⟨_, hright, rfl⟩
  have htokens : Lexer.tokenize "($a<(-1))" = .ok [⟨.leftParen, "(", 0⟩, ⟨.dollar, "$", 1⟩,
      ⟨.name, "a", 2⟩, ⟨.compare .lt, "<", 3⟩, ⟨.leftParen, "(", 4⟩, ⟨.arith .sub, "-", 5⟩,
      ⟨.number, "1", 6⟩, ⟨.rightParen, ")", 7⟩, ⟨.rightParen, ")", 8⟩, ⟨.finish, "", 9⟩] := by
    decide +kernel
  have hparse : Expr.parse "($a<(-1))" = .ok (.compare .lt (.tagNumber "a")
      (.neg (.number (Parser.numberValue ⟨.number, "1", 6⟩)))) := by
    rw [Expr.parse, htokens]
    rfl
  obtain ⟨e, hread, hvalue⟩ := convert_preserves hok
  cases hread.eq_of_parse hparse
  exact ⟨hok, _, hparse, hvalue ⟨{}, .usual⟩ 0 Registry.usual_total⟩

end Legacy

end DiagramFilter
