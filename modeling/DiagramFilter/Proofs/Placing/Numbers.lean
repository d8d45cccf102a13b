import DiagramFilter.Proofs.Legacy.Leaves
import DiagramFilter.Proofs.Legacy.Steps
import DiagramFilter.Proofs.Placing.Scanning
import DiagramFilter.Proofs.Writing.Spelling

/-!
# Printed numbers as operands

Finite numbers are printed in two places, in written rules and for constants of legacy records.
Both texts are numerals of the magnitude, with a sign and parentheses around them below zero
(`SpellsNumber`).  Wherever an operand may stand, such a text is one operand by itself, whose value
is the number (`SpellsNumber.standsFor`), except that a zero has no sign.
-/

namespace DiagramFilter

variable {x : Float} {text : String}

/-- A text that may take the place of a `0` between blanks in any rule.  The rule keeps its shape,
with one operand for the text, and this operand and the rule have the values that they have with the
given number. -/
def StandsFor (text : String) (value : Float) : Prop :=
  ∀ before after e, Expr.parse (before ++ " 0 " ++ after) = .ok e →
    ∃ (context : Expr.Context) (operand : Expr), e = context.fill (.number 0) ∧
      (∀ env s, operand.eval env s = .ok (.number (.float value)) ∧
        (context.fill operand).eval env s = (context.fill (.number value)).eval env s) ∧
      Expr.ReadAs (before ++ text ++ after) (context.fill operand)

/-- A piece of text stands for the value of its operand. -/
theorem StandsFor.of_piece {operand : Expr} {value : Float}
    (hpiece : Piece .primary true true text.toList operand)
    (hstart : Lexer.StartsOperand text.toList)
    (htyped : ∀ bound, Typed bound operand (.value .numeric))
    (heval : ∀ env s, operand.eval env s = .ok (.number (.float value))) :
    StandsFor text value := by
  intro before after e h
  obtain ⟨context, rfl, hplaced⟩ := Expr.parse_placed hpiece hstart htyped h
  refine ⟨context, operand, rfl, fun env s => ⟨heval env s, ?_⟩, hplaced⟩
  refine context.eval_fill (fun s => ?_) s
  rw [heval, Expr.eval]

namespace SpellsNumber

/-- The text of a number may start an operand. -/
theorem startsOperand (h : SpellsNumber text x) : Lexer.StartsOperand text.toList := by
  obtain ⟨cs, ⟨d, width, hnumeral, -⟩, htext⟩ := h
  rw [htext]
  split
  · exact ⟨'(', _, rfl, .inr rfl⟩
  · obtain ⟨c, ds, rfl, hc⟩ := Lexer.Reads.numeral_head hnumeral
    exact ⟨c, ds, rfl, .inl hc⟩

/-- **Texts of numbers as operands.**  The text of a finite number stands for the number, without
the sign of a zero. -/
theorem standsFor (h : SpellsNumber text x)
    (hfinite : Double.magnitude x < Double.infinityBits) :
    StandsFor text (if x == 0 then 0 else x) := by
  refine .of_piece (.signedNumber h) h.startsOperand (fun bound => ?_) fun env s => ?_
  · split
    · exact .neg (.number _)
    · exact .number _
  · rw [Legacy.unsigned_zero_eq hfinite]
    split
    · simp only [Expr.eval]
      rfl
    · rw [Expr.eval]

end SpellsNumber

/-- A finite constant is converted to its text. -/
theorem Legacy.numeric_constant {rule : Document} {n : Number} (strict : Bool)
    (hconstant : Legacy.IsConstant rule) (hnum : rule.field? "num" = some (.number n))
    (hn : n.toFloat = .ok x) (hx : x.isFinite = true) :
    Legacy.numeric strict rule = pure (Legacy.doubleText x) := by
  have hshape : Legacy.NumericShape.ofName? "CONST" = some .constant := rfl
  rw [Legacy.numeric, hconstant]
  simp only [hshape, Legacy.constantText_of_toFloat_eq_ok hnum hn, if_pos hx]

/-- **Printed numbers.**  The text of a finite number in a written rule, and that of the constant
of a legacy record, stand for the number wherever an operand stands, except that a zero loses its
sign. -/
theorem number_texts_stand_for (hx : x.isFinite = true) :
    (∃ text, (Expr.number x).format = .ok text ∧ StandsFor text (if x == 0 then 0 else x)) ∧
      ∀ strict rule n, Legacy.IsConstant rule → rule.field? "num" = some (.number n) →
        n.toFloat = .ok x →
          ∃ text, Legacy.numeric strict rule = pure text ∧
            StandsFor text (if x == 0 then 0 else x) := by
  have hfinite := Double.isFinite_iff.mp hx
  constructor
  · have htext := spellsNumber_numberText (Nat.le_of_lt hfinite)
    exact ⟨_, Expr.format_number _, htext.standsFor hfinite⟩
  · intro strict rule n hconstant hnum hn
    exact ⟨_, Legacy.numeric_constant strict hconstant hnum hn hx,
      (Legacy.spellsNumber_doubleText hfinite).standsFor hfinite⟩

/-- A negative number stands for itself in both printed forms. -/
theorem number_texts_stand_for_negative :
    (-1.5 : Float).isFinite = true ∧ (Expr.number (-1.5)).format = .ok "(-1.5)" ∧
      StandsFor "(-1.5)" (-1.5) ∧ ∃ text, Legacy.numeric true (.object [("name", .string "CONST"),
        ("num", .number (.float (-1.5)))]) = pure text ∧ StandsFor text (-1.5) := by
  have hfinite : (-1.5 : Float).isFinite = true := by decide +kernel
  have hvalue : (if (-1.5 : Float) == 0 then 0 else -1.5) = -1.5 := by decide +kernel
  obtain ⟨⟨text, hformat, hstands⟩, hconstants⟩ := number_texts_stand_for hfinite
  rw [hvalue] at hstands hconstants
  have htext : text = "(-1.5)" := by
    rw [Expr.format_number] at hformat
    cases hformat
    decide +kernel
  subst htext
  exact ⟨hfinite, hformat, hstands, hconstants true _ _ rfl rfl rfl⟩

/-- The sign of a zero is lost on the way, so that its inverse changes. -/
theorem negative_zero_unsigned :
    (-0.0 : Float).isFinite = true ∧ (Expr.number (-0.0)).format = .ok "0" ∧
      Legacy.numeric true (.object [("name", .string "CONST"),
        ("num", .number (.float (-0.0)))]) = pure "0" ∧
      (∃ e, Expr.parse ("1/" ++ "0" ++ "<0") = .ok e ∧
        e.evalOn ⟨{}, .usual⟩ 0 = .ok (.bool false)) ∧
      (Expr.compare .lt (.arith .div (.number 1) (.number (-0.0))) (.number 0)).evalOn
        ⟨{}, .usual⟩ 0 = .ok (.bool true) := by
  have hfinite : (-0.0 : Float).isFinite = true := by decide +kernel
  have hformat : (Expr.number (-0.0)).format = .ok "0" := by
    rw [Expr.format_number, show Expr.numberText (-0.0) = "0" by decide +kernel]
  have hconstant : Legacy.numeric true (.object [("name", .string "CONST"),
      ("num", .number (.float (-0.0)))]) = pure (Legacy.doubleText (-0.0)) :=
    Legacy.numeric_constant true rfl rfl rfl hfinite
  rw [show Legacy.doubleText (-0.0) = "0" by decide +kernel] at hconstant
  have htokens : Lexer.tokenize ("1/" ++ "0" ++ "<0") = .ok [⟨.number, "1", 0⟩,
      ⟨.arith .div, "/", 1⟩, ⟨.number, "0", 2⟩, ⟨.compare .lt, "<", 3⟩, ⟨.number, "0", 4⟩,
      ⟨.finish, "", 5⟩] := by
    decide +kernel
  have hone : Parser.numberValue ⟨.number, "1", 0⟩ = 1 := by decide +kernel
  have hzero : Parser.numberValue ⟨.number, "0", 2⟩ = 0 := by decide +kernel
  have hparse : Expr.parse ("1/" ++ "0" ++ "<0") = .ok (.compare .lt (.arith .div (.number 1)
      (.number 0)) (.number 0)) := by
    rw [← hone, ← hzero, Expr.parse, htokens]
    rfl
  have hinverse : ∀ x : Float,
      (Expr.compare .lt (.arith .div (.number 1) (.number x)) (.number 0)).evalOn ⟨{}, .usual⟩ 0 =
        .ok (.bool (CompareOp.lt.test (ArithOp.div.apply 1 x) 0)) := fun x =>
    Expr.eval_compare_float _ (Expr.eval_arith_float _ (by rw [Expr.eval]) (by rw [Expr.eval]))
      (by rw [Expr.eval])
  refine ⟨hfinite, hformat, hconstant, ⟨_, hparse, ?_⟩, ?_⟩
  · rw [hinverse]
    exact congrArg _ (congrArg _ (by decide +kernel))
  · rw [hinverse]
    exact congrArg _ (congrArg _ (by decide +kernel))

end DiagramFilter
