import DiagramFilter.Proofs.Grammar.Completeness
import DiagramFilter.Proofs.Grammar.Nesting
import DiagramFilter.Proofs.Lexing.Tokens

/-!
# What the parser accepts

A text that can be split into tokens is accepted exactly if its tokens spell a rule, and then the
rule is what they spell; only the nesting limit may be in the way
(`Expr.parse_accepts_grammar`).  In particular no row of tokens spells two rules.
-/

namespace DiagramFilter

variable {ts : List Token} {e e' : Expr}

namespace Parser

/-- What the parser makes of a row of tokens is spelled by it. -/
theorem rule_sound (hlexed : Lexed false ts) (h : rule ts = .ok e) : Spells ts e := by
  unfold rule at h
  dsimp only at h
  split at h
  · cases h
  obtain ⟨⟨e', rest⟩, hread, h⟩ := bind_eq_ok.mp h
  dsimp only at h
  split at h
  · rename_i hfinish
    simp only [bind_eq_ok, require_eq_ok, exists_const] at h
    obtain ⟨hboolean, h⟩ := h
    cases h
    obtain ⟨hderives, k, htyped⟩ :=
      levels_sound (operand_source_sound nestingLimit [thisName]).1 _ _ _ hread
    obtain ⟨front, rfl, -, hfront⟩ := hderives.consumed
    obtain ⟨afterMarker, hrest⟩ := hlexed.append_right hfront
    obtain ⟨last, hlast, rfl⟩ := hrest.eq_singleton hfinish
    exact ⟨⟨last, hlast, hderives⟩, typed_of_kind? htyped hboolean⟩
  · split at h <;> cases h

/-- A rule is read as an expression, if the nesting limit leaves room for its tokens. -/
theorem expression_of_spells (h : Spells ts e) {depth : Nat} (hlen : ts.length ≤ depth) :
    ∃ last : Token, last.kind = .finish ∧ expression depth [thisName] ts = .ok (e, [last]) := by
  obtain ⟨last, hlast, hderives⟩ := h.derives
  refine ⟨last, hlast, complete_of_derives hderives _ _ _ h.typed hlen ?_⟩
  simp only [peek, List.headD_cons, hlast]
  exact .of_closing (by simp)

/-- A row of tokens spells at most one rule. -/
theorem spells_unique (h : Spells ts e) (h' : Spells ts e') : e = e' := by
  obtain ⟨last, -, hread⟩ := expression_of_spells h (Nat.le_refl _)
  obtain ⟨last', -, hread'⟩ := expression_of_spells h' (Nat.le_refl _)
  cases hread.symm.trans hread'
  rfl

/-- A truth value that is read up to the end is the rule. -/
theorem rule_of_expression {last : Token} (hfirst : (peek ts).kind ≠ .finish)
    (hread : expression nestingLimit [thisName] ts = .ok (e, [last])) (hlast : last.kind = .finish)
    (hboolean : e.kind? = some .boolean) : rule ts = .ok e := by
  simp only [rule, hfirst, if_false, bind_eq_ok]
  refine ⟨_, hread, ?_⟩
  simp only [peek, List.headD_cons, hlast, if_true, bind_eq_ok]
  exact ⟨(), require_eq_ok.mpr hboolean, rfl⟩

/-- The parser rejects a row of tokens that spells a rule only if it is too long for the nesting
limit. -/
theorem rule_complete (h : Spells ts e) :
    rule ts = .ok e ∨ rule ts = .error tooDeep ∧ nestingLimit < ts.length := by
  obtain ⟨last, hlast, hderives⟩ := h.derives
  have hfirst : (peek ts).kind ≠ .finish := by
    obtain ⟨front, rfl, hne, hfront⟩ := hderives.consumed
    cases front with
    | nil => exact absurd rfl hne
    | cons t front => exact hfront t List.mem_cons_self
  rcases Nat.lt_or_ge nestingLimit ts.length with hlen | hlen
  · obtain ⟨last, hlast, hread⟩ := expression_of_spells h (Nat.le_refl ts.length)
    rcases expression_cut (Nat.le_of_lt hlen) [thisName] ts with hcut | hcut
    · refine Or.inr ⟨?_, hlen⟩
      simp only [rule, hfirst, if_false]
      rw [hcut]
      rfl
    · exact Or.inl (rule_of_expression hfirst (hcut.trans hread) hlast h.typed.kind?_eq)
  · obtain ⟨last, hlast, hread⟩ := expression_of_spells h hlen
    exact Or.inl (rule_of_expression hfirst hread hlast h.typed.kind?_eq)

end Parser

/-- The tokens of an accepted rule spell it. -/
theorem Expr.spells_of_parse {text : String} (h : Expr.parse text = .ok e) :
    ∃ ts, Lexer.tokenize text = .ok ts ∧ Spells ts e := by
  obtain ⟨ts, htokens, hrule⟩ := bind_eq_ok.mp h
  exact ⟨ts, htokens, Parser.rule_sound (Lexer.tokenize_lexed htokens) hrule⟩

/-- A text is read as a rule.  Its tokens spell the rule, and the parser gives the rule, unless
there are more tokens than the nesting limit and they are nested too deeply. -/
def Expr.ReadAs (text : String) (e : Expr) : Prop :=
  ∃ ts, Lexer.tokenize text = .ok ts ∧ Spells ts e ∧
    (Expr.parse text = .ok e ∨ Expr.parse text = .error Parser.tooDeep ∧ nestingLimit < ts.length)

/-- A text is read as the rule that its tokens spell. -/
theorem Spells.readAs {text : String} (h : Spells ts e) (htokens : Lexer.tokenize text = .ok ts) :
    Expr.ReadAs text e := by
  have hparse : Expr.parse text = Parser.rule ts := by
    rw [Expr.parse, htokens]
    rfl
  refine ⟨ts, htokens, h, ?_⟩
  rw [hparse]
  exact Parser.rule_complete h

/-- What the parser gives for such a text is the rule. -/
theorem Expr.ReadAs.eq_of_parse {text : String} (h : Expr.ReadAs text e)
    (hparse : Expr.parse text = .ok e') : e' = e := by
  obtain ⟨ts, -, -, hread | ⟨hread, -⟩⟩ := h
  · cases hparse.symm.trans hread
    rfl
  · cases hparse.symm.trans hread

/-- **Acceptance.**  If a text can be split into tokens, then what the parser gives is spelled by
the tokens, what is spelled by the tokens is what the parser gives, unless the rule has more tokens
than the nesting limit and is nested too deeply, and the tokens spell one rule at most. -/
theorem Expr.parse_accepts_grammar {text : String} {ts : List Token}
    (htokens : Lexer.tokenize text = .ok ts) :
    (∀ e, Expr.parse text = .ok e → Spells ts e) ∧
      (∀ e, Spells ts e → Expr.parse text = .ok e ∨
        Expr.parse text = .error Parser.tooDeep ∧ nestingLimit < ts.length) ∧
      ∀ e e', Spells ts e → Spells ts e' → e = e' := by
  have hparse : Expr.parse text = Parser.rule ts := by
    simp only [Expr.parse, htokens]
    rfl
  rw [hparse]
  exact ⟨fun e h => Parser.rule_sound (Lexer.tokenize_lexed htokens) h,
    fun e h => Parser.rule_complete h, fun e e' h h' => Parser.spells_unique h h'⟩

/-- The `>` behind the tag closes the focused expression. -/
theorem Expr.parse_accepts_focus :
    ∃ ts, Lexer.tokenize "this<#a>" = .ok ts ∧ Spells ts (.focus "this" (.tag "a")) := by
  have htokens : Lexer.tokenize "this<#a>" = .ok [⟨.name, "this", 0⟩, ⟨.compare .lt, "<", 4⟩,
      ⟨.hash, "#", 5⟩, ⟨.name, "a", 6⟩, ⟨.compare .gt, ">", 7⟩, ⟨.finish, "", 8⟩] := by
    decide +kernel
  have hparse : Expr.parse "this<#a>" = .ok (.focus "this" (.tag "a")) := by
    rw [Expr.parse, htokens]
    rfl
  exact ⟨_, htokens, (Expr.parse_accepts_grammar htokens).1 _ hparse⟩

end DiagramFilter
