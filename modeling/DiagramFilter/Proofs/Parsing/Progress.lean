import DiagramFilter.Proofs.Grammar.Nesting
import DiagramFilter.Proofs.Lexing.Tokens
import DiagramFilter.Proofs.Parsing.Phrases

/-!
# Reading in place ends, moves on and restores its state

A method moves on (`ParserM.MovesOn`) if it ends from every place inside the tokens, never asks for
a token where none is, and leaves the names and the sign as they were, with a result at a later
place.  It ends if the number of calls inside of each other is not kept below one that depends on
the number of tokens only (`ParserM.enoughCalls`).

Every method moves on (`ParserM.methods_move_on`).  Most of them follow a reader from every place,
and then there is nothing left to show; two are called in front of certain tokens only, and move on
in front of any others too.  So the outcome of reading a text in place is that of parsing it
(`Expr.parseInPlace_eq`).
-/

open DiagramFilter.Parser (peek Reader)

namespace DiagramFilter

namespace ParserM

variable {tokens : List Token} {d : Nat} {s : ParserState} {α : Type}

/-- The calls inside of each other that are enough for every method, anywhere in a row of tokens. -/
def enoughCalls (tokens : List Token) : Nat :=
  9 * (tokens.length + 1)

/-- There are enough calls for every method at every place. -/
theorem callsFrom_lt_enoughCalls (place : Nat) (m : Method α) :
    callsFrom tokens place m < enoughCalls tokens := by
  have hrank := m.rank_le
  rw [callsFrom, enoughCalls]
  omega

/-- From every place, a method ends with one outcome however many calls are allowed, as long as
these are enough.  It never asks for a token where none is, and if it gives a result it has passed
over `least` tokens or more, none of which ends a text, and the names and the sign are what they
were. -/
def MovesOn (tokens : List Token) (least : Nat) (m : Method α) : Prop :=
  ∀ s : ParserState, s.position < tokens.length →
    ∃ outcome, outcome ≠ .error .outOfRange ∧ outcome ≠ .error .unfinished ∧
      ∀ clock, enoughCalls tokens ≤ clock →
        ∃ s', (perform tokens clock m).runFrom s = (outcome, s') ∧
          ∀ a, outcome = .ok a → Passes tokens least s.position s'.position ∧
            s'.bound = s.bound ∧ s'.closing = s.closing

/-- A method that follows some reader from every place moves on. -/
theorem MovesOn.of_follows {least : Nat} {m : Method α}
    (h : ∀ s : ParserState, s.position < tokens.length → ∃ read, ∀ clock,
      enoughCalls tokens ≤ clock → Follows tokens least s (perform tokens clock m) read) :
    MovesOn tokens least m := by
  intro s hs
  obtain ⟨read, h⟩ := h s hs
  cases read with
  | error e =>
      refine ⟨.error (.refused e), by simp, by simp, fun clock hclock => ?_⟩
      obtain ⟨s', hrun⟩ := h clock hclock
      exact ⟨s', hrun, fun a ha => by simp at ha⟩
  | ok r =>
      refine ⟨.ok r.1, by simp, by simp, fun clock hclock => ?_⟩
      obtain ⟨k, hpasses, -, hrun⟩ := h clock hclock
      exact ⟨_, hrun, fun a _ => ⟨hpasses, rfl, rfl⟩⟩

/-- A method that reads on with all tokens ahead moves on. -/
theorem Reads.movesOn {m : Method α} {reader : Bool → List String → Reader α}
    (h : Reads tokens d m reader) (hd : tokens.length ≤ d) : MovesOn tokens 1 m :=
  .of_follows fun s hs => ⟨_, fun clock hclock => h s clock hs
    (Nat.le_trans hd (Nat.le_add_left _ _))
    (Nat.le_trans (Nat.le_of_lt (callsFrom_lt_enoughCalls _ _)) hclock)⟩

section Methods

variable (hend : EndsInFinish tokens)

include hend

/-- An operand without signs moves on, also in front of a sign, where it is refused. -/
theorem primary_movesOn : MovesOn tokens 1 .primary := by
  refine .of_follows fun s hs => ?_
  by_cases hsign : (peek (tokens.drop s.position)).kind = .not ∨
      (peek (tokens.drop s.position)).kind = .arith .sub
  · refine ⟨.error (.form (.unexpected (peek (tokens.drop s.position)).shown?)
      (some (peek (tokens.drop s.position)).position)), fun clock hclock => ?_⟩
    obtain ⟨clock, rfl⟩ := exists_succ_of_callsFrom (m := .primary) hs
      (Nat.le_trans (Nat.le_of_lt (callsFrom_lt_enoughCalls _ _)) hclock)
    rw [perform, method, primary]
    refine .look_zero hs ?_
    rcases hsign with hkind | hkind
    all_goals
      rw [hkind]
      exact ⟨s, rfl⟩
  · rw [not_or] at hsign
    exact ⟨_, fun clock hclock => (readsPhrases hend tokens.length).primary hend hs
      (Nat.le_succ_of_le (Nat.le_add_left _ _)) hsign.1 hsign.2
      (Nat.le_trans (Nat.le_of_lt (callsFrom_lt_enoughCalls _ _)) hclock)⟩

/-- A focused expression moves on, also where no name stands in front of a `<`. -/
theorem focus_movesOn : MovesOn tokens 1 .focus := by
  refine .of_follows fun s hs => ?_
  obtain ⟨i, hfirst, hname⟩ := exists_runFrom_advance hend hs
  obtain ⟨k, hsecond, hopening⟩ := exists_runFrom_advance (s := s.movedTo i) hend hfirst.inside
  refine ⟨focused s.bound (peek (tokens.drop s.position))
    (Parser.levels true (Parser.operand tokens.length s.bound)) (tokens.drop k),
    fun clock hclock => ?_⟩
  have hcalls : callsFrom tokens k (.junction .or) < enoughCalls tokens :=
    callsFrom_lt_enoughCalls k _
  obtain ⟨clock, rfl⟩ : ∃ n, clock = n + 1 := ⟨clock - 1, by omega⟩
  exact (readsPhrases hend tokens.length).focus_follows hend hname hfirst hopening hsecond
    (Nat.le_add_left _ _) (by omega)

end Methods

/-- What a reader of expressions makes of a row of tokens that is to be a rule. -/
def ruleOf (p : Reader Expr) (ts : List Token) : Except ParseError Expr :=
  let first := peek ts
  if first.kind = .finish then
    Parser.formError .emptyRule first
  else do
    let (e, rest) ← p ts
    let next := peek rest
    if next.kind = .finish then do
      Parser.require .rule .boolean e first
      return e
    else if next.kind = .rightParen then
      Parser.formError .mismatchedParentheses next
    else
      Parser.formError (.trailing next.shown?) next

/-- A rule is read by way of an expression. -/
theorem rule_eq_ruleOf :
    Parser.rule = ruleOf (Parser.expression nestingLimit [thisName]) := rfl

/-- A rule is cut short with its expression. -/
theorem ruleOf_cut {p q : Reader Expr} (ts : List Token) (hpq : Parser.Cut (p ts) (q ts)) :
    Parser.Cut (ruleOf p ts) (ruleOf q ts) := by
  rw [ruleOf, ruleOf]
  dsimp only
  split
  · exact .refl _
  · exact .bind_left hpq _

/-- A rule is read in place as it is by the reader that expressions follow. -/
theorem rule_runs {p : Reader Expr} {clock : Nat} (hs : s.position < tokens.length)
    (hread : Follows tokens 1 s (perform tokens clock (.junction .or))
      (p (tokens.drop s.position))) :
    ((rule tokens clock).runFrom s).1 =
      (ruleOf p (tokens.drop s.position)).mapError .refused := by
  rw [rule, ruleOf, runFrom_look hs]
  dsimp only
  by_cases hfirst : (peek (tokens.drop s.position)).kind = .finish
  · rw [if_pos hfirst, if_pos hfirst]
    rfl
  rw [if_neg hfirst, if_neg hfirst, runFrom_bind]
  cases hexpression : p (tokens.drop s.position) with
  | error e =>
      rw [hexpression] at hread
      obtain ⟨s', hrun⟩ := hread
      rw [hrun]
      rfl
  | ok r =>
      obtain ⟨e, rest⟩ := r
      rw [hexpression] at hread
      obtain ⟨k, hpasses, rfl, hrun⟩ := hread
      rw [hrun]
      dsimp only
      rw [runFrom_look hpasses.inside, ParserState.movedTo_position]
      change _ = Except.mapError _ (if (peek (tokens.drop k)).kind = .finish then _
        else _ : Except ParseError Expr)
      by_cases hlast : (peek (tokens.drop k)).kind = .finish
      · rw [if_pos hlast, if_pos hlast, require]
        cases Parser.require .rule .boolean e (peek (tokens.drop s.position)) with
        | error e => rfl
        | ok u => rfl
      · rw [if_neg hlast, if_neg hlast]
        by_cases hclosing : (peek (tokens.drop k)).kind = .rightParen
        · rw [if_pos hclosing, if_pos hclosing]
          rfl
        · rw [if_neg hclosing, if_neg hclosing]
          rfl

/-- The tokens of a text end with the one that says so. -/
theorem endsInFinish_of_lexed {afterMarker : Bool} (h : Lexed afterMarker tokens) :
    EndsInFinish tokens := by
  induction h with
  | finish ht => exact ⟨_, rfl, ht⟩
  | cons hfinish hword hname hrest ih =>
      obtain ⟨t, hlast, ht⟩ := ih
      refine ⟨t, ?_, ht⟩
      rw [List.getLast?_cons, hlast]
      rfl

end ParserM

/-- With enough calls every text is read in place to an end, without asking for a token where none
is, and what comes of it is what the text is parsed as, unless the nesting limit is in the way. -/
theorem Expr.parseInPlace_eq (text : String) :
    ∃ outcome, outcome ≠ .error .outOfRange ∧ outcome ≠ .error .unfinished ∧
      (outcome = (Expr.parse text).mapError .refused ∨ Expr.parse text = .error Parser.tooDeep) ∧
        ∃ enough, ∀ clock, enough ≤ clock → Expr.parseInPlace text clock = outcome := by
  simp only [Expr.parseInPlace, Expr.parse]
  cases htokens : Lexer.tokenize text with
  | error e => exact ⟨.error (.refused e), by simp, by simp, Or.inl rfl, 0, fun _ _ => rfl⟩
  | ok tokens =>
      have hend := ParserM.endsInFinish_of_lexed (Lexer.tokenize_lexed htokens)
      have hlength : 0 < tokens.length := by
        obtain ⟨t, hlast, -⟩ := hend
        exact List.length_pos_iff.mpr fun hnil => by simp [hnil] at hlast
      -- The depth may be as high as the tokens and the limit ask for.
      have hread := (ParserM.readsPhrases hend (max nestingLimit tokens.length)).expression hend
      refine ⟨(ParserM.ruleOf _ tokens).mapError .refused, ?_, ?_, ?_, _, fun clock hclock =>
        ParserM.rule_runs (s := .start) hlength
          (hread .start clock hlength (Nat.le_trans (Nat.le_max_right _ _) (Nat.le_add_left _ _))
            hclock)⟩
      · cases ParserM.ruleOf _ _ <;> simp [Except.mapError]
      · cases ParserM.ruleOf _ _ <;> simp [Except.mapError]
      · show _ = (Parser.rule tokens).mapError Halt.refused ∨ Parser.rule tokens = _
        rw [ParserM.rule_eq_ruleOf]
        rcases ParserM.ruleOf_cut tokens (Parser.expression_cut (Nat.le_max_left nestingLimit
          tokens.length) [thisName] tokens) with hcut | hcut
        · exact Or.inr hcut
        · exact Or.inl (congrArg (Except.mapError Halt.refused) hcut.symm)

namespace ParserM

/-- **Reading in place moves on, restores its state and ends.**  For every row of tokens that ends
with the one that says so, and from every place inside it, each method ends without asking for a
token where none is; if it gives a result it has passed over at least one token and over none that
ends a text, and the bound names and the sign for a closing `>` are what they were.  The loops over
operators end in the same way.  So every text is read to an end, with the outcome of parsing it. -/
theorem methods_move_on (hend : EndsInFinish tokens) :
    ((∀ c, MovesOn tokens 1 (.junction c)) ∧ (∀ l, MovesOn tokens 1 (.binary l)) ∧
      MovesOn tokens 1 .unary ∧ MovesOn tokens 1 .primary ∧
      (∀ marker, MovesOn tokens 1 (.tagName marker)) ∧ MovesOn tokens 1 .focus ∧
      MovesOn tokens 1 .list ∧ MovesOn tokens 1 .comprehension ∧ MovesOn tokens 1 .binding) ∧
    ((∀ c operands, operands ≠ [] → MovesOn tokens 0 (.junctionLoop c operands)) ∧
      ∀ l left, MovesOn tokens 0 (.binaryLoop l left)) ∧
    ∀ text, ∃ outcome, outcome ≠ .error .outOfRange ∧ outcome ≠ .error .unfinished ∧
      (outcome = (Expr.parse text).mapError .refused ∨ Expr.parse text = .error Parser.tooDeep) ∧
        ∃ enough, ∀ clock, enough ≤ clock → Expr.parseInPlace text clock = outcome := by
  have hle := Nat.le_refl tokens.length
  have hphrases := readsPhrases hend tokens.length
  have hcalls : ∀ (place clock : Nat) (m : Method Expr), enoughCalls tokens ≤ clock →
      callsFrom tokens place m ≤ clock := fun place clock m hclock =>
    Nat.le_trans (Nat.le_of_lt (callsFrom_lt_enoughCalls place m)) hclock
  refine ⟨⟨fun c => ?_, fun l => ?_, hphrases.unary.movesOn hle, primary_movesOn hend,
    fun marker => (ReadsPhrases.tagName (d := tokens.length) hend marker).movesOn hle,
    focus_movesOn hend, hphrases.list.movesOn hle,
    (hphrases.comprehension hend).movesOn (Nat.le_succ _), (hphrases.binding hend).movesOn hle⟩,
    ⟨fun c operands hne => ?_, fun l left => ?_⟩, Expr.parseInPlace_eq⟩
  · exact ((hphrases.unary.operandOf hend c).junction hend).movesOn hle
  · exact ((hphrases.unary.operandOn hend l).binary hend).movesOn hle
  · obtain rfl | ⟨before, previous, rfl⟩ := operands.eq_nil_or_concat
    · exact absurd rfl hne
    · rw [List.concat_eq_append]
      exact .of_follows fun s hs => ⟨_, fun clock hclock => junctionLoop_follows hend
        (hphrases.unary.operandOf hend c) tokens.length before previous hs
        (Nat.le_add_left _ _) (Nat.le_add_left _ _) (hcalls _ _ _ hclock)⟩
  · exact .of_follows fun s hs => ⟨_, fun clock hclock => binaryLoop_follows hend
      (hphrases.unary.operandOn hend l) tokens.length left hs (Nat.le_add_left _ _)
      (Nat.le_add_left _ _) (hcalls _ _ _ hclock)⟩

/-- The rule in which a `>` closes a focused expression, read in place. -/
theorem methods_move_on_focus :
    let tokens : List Token := [⟨.name, "this", 0⟩, ⟨.compare .lt, "<", 4⟩, ⟨.hash, "#", 5⟩,
      ⟨.name, "a", 6⟩, ⟨.compare .gt, ">", 7⟩, ⟨.finish, "", 8⟩]
    EndsInFinish tokens ∧ MovesOn tokens 1 .focus ∧
      ∃ enough, ∀ clock, enough ≤ clock →
        Expr.parseInPlace "this<#a>" clock = .ok (.focus "this" (.tag "a")) := by
  intro tokens
  have hend : EndsInFinish tokens := ⟨_, rfl, rfl⟩
  have htokens : Lexer.tokenize "this<#a>" = .ok tokens := by decide +kernel
  have hparse : Expr.parse "this<#a>" = .ok (.focus "this" (.tag "a")) := by
    rw [Expr.parse, htokens]
    rfl
  obtain ⟨⟨-, -, -, -, -, hfocus, -⟩, -, htext⟩ := methods_move_on hend
  obtain ⟨outcome, -, -, rfl | hdeep, enough, hrun⟩ := htext "this<#a>"
  · exact ⟨hend, hfocus, enough, fun clock hclock => by rw [hrun clock hclock, hparse]; rfl⟩
  · rw [hparse] at hdeep
    cases hdeep

end ParserM

end DiagramFilter
