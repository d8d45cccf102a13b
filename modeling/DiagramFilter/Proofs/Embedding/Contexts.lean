import DiagramFilter.Proofs.Embedding.Enclosing

/-!
# Rules inside rules

A rule can be put into the brackets of another one as it stands (`Expr.parse_embedded`).  Nothing
that the parser knows at its place comes into it: neither the names that are bound around it nor
whether a bare `>` would close something, and its characters do not run together with those beside
it.

The rules around it may be put into others again.  One context around rules is a step that keeps
spelling (`Embedded.spelled`), and what a text spells is what the parser makes of it, up to the
nesting limit.
-/

namespace DiagramFilter

/-- A binder over a list that has a word. -/
def binderText (name : String) (source : ListSource) (body : String) : String :=
  "[" ++ name ++ ":" ++ source.word ++ "|" ++ body ++ "]"

/-- Texts that come from accepted rules by putting rules into the brackets of contexts, with the
trees that come from the trees of these rules in the same way. -/
inductive Embedded : String → Expr → Prop
  | rule {text : String} {e : Expr} (h : Expr.parse text = .ok e) : Embedded text e
  | parens {s : String} {e : Expr} (h : Embedded s e) : Embedded ("(" ++ s ++ ")") e
  | not {s : String} {e : Expr} (h : Embedded s e) : Embedded ("!(" ++ s ++ ")") (.not e)
  | junction {s t : String} {a b : Expr} (c : Connective) (ha : Embedded s a) (hb : Embedded t b) :
      Embedded ("(" ++ s ++ ")" ++ c.symbol ++ "(" ++ t ++ ")") (.junction c [a, b])
  | equality {s t : String} {a b : Expr} {op : CompareOp} (hop : op.isEquality = true)
      (ha : Embedded s a) (hb : Embedded t b) :
      Embedded ("(" ++ s ++ ")" ++ op.symbol ++ "(" ++ t ++ ")") (.compare op a b)
  | quantified {s name : String} {e : Expr} (q : Quantifier) (hname : IsVariable name)
      (source : ListSource) (h : Embedded s e) :
      Embedded (q.word ++ binderText name source s) (.quantified q name (.list source) e)
  | nonEmpty {s name : String} {e : Expr} (hname : IsVariable name) (source : ListSource)
      (h : Embedded s e) :
      Embedded ("#" ++ binderText name source s) (.nonEmpty (.comprehension name (.list source) e))
  | counted {s name : String} {e : Expr} (hname : IsVariable name) (source : ListSource)
      (h : Embedded s e) :
      Embedded ("$" ++ binderText name source s ++ " > 0")
        (.compare .gt (.count (.comprehension name (.list source) e)) (.number 0))
  | focus {s : String} {e : Expr} (h : Embedded s e) :
      Embedded (thisName ++ "<(" ++ s ++ ")>") (.focus thisName e)

/-- A text whose tokens spell a rule. -/
def Spelled (text : String) (e : Expr) : Prop :=
  ∃ ts, Lexer.tokenize text = .ok ts ∧ Spells ts e

namespace Spelled

variable {text : String} {e : Expr}

/-- A spelled rule is typed as a truth value. -/
theorem typed (h : Spelled text e) : Typed [thisName] e (.value .boolean) := by
  obtain ⟨ts, -, hspells⟩ := h
  exact hspells.typed

/-- The text of a rule stays the same phrase where a closing sign follows. -/
theorem enclosed (h : Spelled text e) : Enclosed (.expression false) text.toList e := by
  obtain ⟨ts, htokens, hspells⟩ := h
  exact hspells.enclosed htokens

/-- A rule in parentheses is an operand. -/
theorem operand (h : Spelled text e) : Piece .unary true true ('(' :: (text.toList ++ [')'])) e :=
  h.enclosed.parens.unary

/-- A rule is the body of a binder. -/
theorem binder (h : Spelled text e) {name : String} (hname : IsVariable name)
    (source : ListSource) :
    ∃ cs, (binderText name source text).toList = '[' :: cs ∧
      Piece .comprehension true true ('[' :: cs) (.comprehension name (.list source) e) := by
  have hsource : Piece .list true true _ _ := .list source
  exact ⟨_, by simp [binderText], h.enclosed.comprehension hname hsource⟩

/-- Names that are bound around a rule are no matter to it. -/
theorem typed_body (h : Spelled text e) (name : String) :
    Typed [name, thisName] e (.value .boolean) :=
  h.typed.mono fun _ hx => List.mem_cons_of_mem _ hx

/-- A text that is a whole expression of the right type. -/
theorem of_piece {equals less : Bool} {cs : List Char}
    (h : Piece (.expression false) equals less cs e) (htext : text.toList = cs)
    (htyped : Typed [thisName] e (.value .boolean)) : Spelled text e := by
  subst htext
  exact h.spells htyped

/-- The text of a typed operand spells a rule. -/
theorem of_unary {equals less : Bool} {cs : List Char} (h : Piece .unary equals less cs e)
    (htext : text.toList = cs) (htyped : Typed [thisName] e (.value .boolean)) : Spelled text e :=
  of_piece (h.expression false) htext htyped

end Spelled

/-- The word for the current element is a variable. -/
theorem isVariable_thisName : IsVariable thisName :=
  ⟨Lexer.isIdentifier_of_scanName (by decide) (by decide), by decide⟩

/-- **Contexts.**  A text put together from rules spells the tree put together from their trees. -/
theorem Embedded.spelled {text : String} {e : Expr} (h : Embedded text e) : Spelled text e := by
  induction h with
  | rule h => exact Expr.spells_of_parse h
  | parens h ih => exact .of_unary ih.operand (by simp) ih.typed
  | not h ih => exact .of_unary ih.operand.not (by simp) (.not ih.typed)
  | @junction s t a b c ha hb iha ihb =>
      have hpair := Piece.pair false (iha.operand.junctionOperand false c) (.junction c)
        (ihb.operand.junctionOperand false c) (.junction c)
      refine .of_piece (hpair.lift fun _ _ h => h.expression_of_group) (by simp) ?_
      refine .junction fun e he => ?_
      rcases List.mem_pair.mp he with rfl | rfl
      · exact iha.typed
      · exact ihb.typed
  | @equality s t a b op hop ha hb iha ihb =>
      have hlevel : Level.equality.operator? false (.compare op) = some (.compare op) := by
        cases op with
        | eq | ne => rfl
        | _ => cases hop
      have hjoined := iha.operand.joined (.compare op) ihb.operand (.compare op)
        (fun _ _ _ hless => by cases hless) hlevel
      exact .of_piece hjoined (by simp) (.equality hop iha.typed ihb.typed)
  | @quantified s name e q hname source h ih =>
      obtain ⟨cs, htext, hbinder⟩ := ih.binder hname source
      exact .of_unary hbinder.quantified.unary (by simp [htext])
        (.quantified (.list source) (ih.typed_body name))
  | @nonEmpty s name e hname source h ih =>
      obtain ⟨cs, htext, hbinder⟩ := ih.binder hname source
      exact .of_unary hbinder.nonEmpty.unary (by simp [htext])
        (.nonEmpty (.comprehension (.list source) (ih.typed_body name)))
  | @counted s name e hname source h ih =>
      obtain ⟨cs, htext, hbinder⟩ := ih.binder hname source
      have hzero : Piece .primary true true ['0'] (.number 0) := .number spellsBits_zero
      have hcompared := hbinder.count.unary.joined (Separates.compare .gt).spaced hzero.unary
        (fun rest => .of_sign ' ' _ (by decide) (by decide)) (fun _ _ _ hless => by cases hless)
        (l := .relation) rfl
      exact .of_piece hcompared (by simp [htext, CompareOp.symbol])
        (.relation rfl (.count (.comprehension (.list source) (ih.typed_body name))) (.number 0))
  | focus h ih =>
      have hpiece : Piece .primary false true _ _ :=
        .focus isVariable_thisName (ih.operand.expression true)
      exact .of_unary hpiece.unary (by simp) (.focus (by simp) ih.typed (by simp))

/-- **Rules inside rules.**  Where rules are put into brackets of contexts, and these into contexts
again, the text is read as what the rules in their places were read as. -/
theorem Expr.parse_embedded {text : String} {e : Expr} (h : Embedded text e) :
    Expr.ReadAs text e := by
  obtain ⟨ts, htokens, hspells⟩ := h.spelled
  exact hspells.readAs htokens

/-- A bare `>` in a body is an operator there, also inside a focused expression. -/
theorem Expr.parse_embedded_focus :
    Embedded "this<(exists[x:children|$a>$b])>" (.focus "this" (.quantified .any "x"
        (.list .children) (.compare .gt (.tagNumber "a") (.tagNumber "b")))) ∧
      Expr.parse "this<(exists[x:children|$a>$b])>" = .ok (.focus "this" (.quantified .any "x"
        (.list .children) (.compare .gt (.tagNumber "a") (.tagNumber "b")))) := by
  have hrule : Expr.parse "$a>$b" = .ok (.compare .gt (.tagNumber "a") (.tagNumber "b")) := by
    have htokens : Lexer.tokenize "$a>$b" = .ok [⟨.dollar, "$", 0⟩, ⟨.name, "a", 1⟩,
        ⟨.compare .gt, ">", 2⟩, ⟨.dollar, "$", 3⟩, ⟨.name, "b", 4⟩, ⟨.finish, "", 5⟩] := by
      decide +kernel
    rw [Expr.parse, htokens]
    rfl
  have hname : IsVariable "x" :=
    ⟨Lexer.isIdentifier_of_scanName (by decide) (by decide), by decide⟩
  have hembedded : Embedded "this<(exists[x:children|$a>$b])>" _ :=
    .focus (.quantified .any hname .children (.rule hrule))
  refine ⟨hembedded, ?_⟩
  have hlen : (Lexer.tokenize "this<(exists[x:children|$a>$b])>").toOption.map List.length =
      some 18 := by
    decide +kernel
  obtain ⟨ts, htokens, -, hparse | ⟨-, hlong⟩⟩ := Expr.parse_embedded hembedded
  · exact hparse
  · rw [htokens] at hlen
    have hshort : ts.length = 18 := by simpa [Except.toOption] using hlen
    rw [hshort] at hlong
    exact absurd hlong (by decide)

end DiagramFilter
