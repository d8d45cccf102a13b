import DiagramFilter.Proofs.Writing.Room
import DiagramFilter.Proofs.Writing.Spelling

/-!
# Rules are read back as written

Every rule that can be written is read back from its written form as the same tree, and only such
rules are read from text (`Expr.parse_format`).

The parser may give up where the written form is nested too deeply, and the written form itself may
be out of reach, where the stack has no room for the calls that it takes.  Nothing else can happen.
-/

namespace DiagramFilter

/-- A typed expression that can be spelled has a written form that spells it. -/
theorem Typed.writes {bound : List String} {e : Expr} {c : Category} (h : Typed bound e c)
    (hspell : Spellable e) : Writes e e c := by
  obtain ⟨hwritable, hspelled⟩ := hspell.spelled_eq
  have hwrites := h.writes_spelled hwritable
  rwa [hspelled] at hwrites

/-- **Round trip.**  A rule that is read from text is well formed.  A well-formed rule has a written
form that is read as this rule.  On a stack with an end it is written if there is room for its
calls, and otherwise it is not. -/
theorem Expr.parse_format (e : Expr) :
    (∀ text, Expr.parse text = .ok e → WellFormed e) ∧
      (WellFormed e → ∃ text, e.WrittenAs text ∧ ReadAs text e) := by
  constructor
  · intro text hparse
    exact Expr.wellFormed_of_parse hparse
  · intro hwellFormed
    obtain ⟨text, htext, hpiece⟩ := hwellFormed.typed.writes hwellFormed.spellable
    exact ⟨text, writtenAs_of_format htext, hpiece.readAs hwellFormed.typed⟩

/-- Variables on both sides of an operator, under a binder, are read and written, on every stack with
room for three calls. -/
theorem Expr.parse_format_quantified :
    ∃ e, Expr.parse "exists[x:children|x=this]" = .ok e ∧ WellFormed e ∧ e.calls = 3 ∧
      e.WrittenAs "exists[x:children|(x = this)]" ∧ ReadAs "exists[x:children|(x = this)]" e := by
  have htokens : Lexer.tokenize "exists[x:children|x=this]" = .ok [⟨.quantifier .any, "exists", 0⟩,
      ⟨.leftBracket, "[", 6⟩, ⟨.name, "x", 7⟩, ⟨.colon, ":", 8⟩, ⟨.list .children, "children", 9⟩,
      ⟨.pipe, "|", 17⟩, ⟨.name, "x", 18⟩, ⟨.compare .eq, "=", 19⟩, ⟨.name, "this", 20⟩,
      ⟨.rightBracket, "]", 24⟩, ⟨.finish, "", 25⟩] := by
    decide +kernel
  have hparse : Expr.parse "exists[x:children|x=this]" = .ok (.quantified .any "x"
      (.list .children) (.compare .eq (.var "x") (.var "this"))) := by
    rw [Expr.parse, htokens]
    rfl
  have hwellFormed := (Expr.parse_format _).1 _ hparse
  obtain ⟨text, hwritten, hread⟩ := (Expr.parse_format _).2 hwellFormed
  have hpinned : (quantified .any "x" (.list .children)
      (.compare .eq (.var "x") (.var "this"))).format = .ok "exists[x:children|(x = this)]" := by
    decide +kernel
  cases hwritten.unbounded.symm.trans hpinned
  exact ⟨_, hparse, hwellFormed, rfl, hwritten, hread⟩

end DiagramFilter
