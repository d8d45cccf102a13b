import DiagramFilter.Expr.InPlace
import DiagramFilter.Outcome
import Mathlib.Data.List.Basic
import Mathlib.Tactic.Common

/-!
# Reading in place, step by step

`Follows tokens least s work read` says what becomes of work that begins in the state `s`.  If
`read`, which is a result together with the tokens behind it, is one, then the work ends with that
result, has passed over `least` tokens or more and not over one that ends a text, and leaves the
names and the sign behind as it found them.  If `read` is an error, the work ends with that error.

Each rule below is for one way in which the methods are put together.  So the number of tokens
passed, the state and the result are told by one walk through a method.
-/

open DiagramFilter.Parser (peek)

namespace DiagramFilter

/-- The state at another place. -/
def ParserState.movedTo (s : ParserState) (k : Nat) : ParserState :=
  { s with position := k }

/-- A state that is moved is at the other place. -/
@[simp]
theorem ParserState.movedTo_position (s : ParserState) (k : Nat) : (s.movedTo k).position = k := rfl

/-- A row of tokens ends with the one that says so. -/
def EndsInFinish (tokens : List Token) : Prop :=
  ∃ t, tokens.getLast? = some t ∧ t.kind = .finish

/-- Going from one place to another one passes over `least` tokens or more, and over none that ends
a text. -/
structure Passes (tokens : List Token) (least i k : Nat) : Prop where
  le : i + least ≤ k
  inside : k < tokens.length
  unfinished : ∀ j, i ≤ j → j < k → ∃ t, tokens[j]? = some t ∧ t.kind ≠ .finish

namespace Passes

variable {tokens : List Token} {m n i k l : Nat}

/-- Nothing is passed over at a place. -/
theorem refl (hi : i < tokens.length) : Passes tokens 0 i i :=
  ⟨Nat.le_refl i, hi, fun j hij hji => by omega⟩

/-- What is passed over in two parts is passed over. -/
theorem trans (h : Passes tokens m i k) (h' : Passes tokens n k l) : Passes tokens (m + n) i l := by
  refine ⟨?_, h'.inside, fun j hij hjl => ?_⟩
  · have := h.le
    have := h'.le
    omega
  · rcases Nat.lt_or_ge j k with hjk | hkj
    · exact h.unfinished j hij hjk
    · exact h'.unfinished j hkj hjl

/-- What passes over many tokens passes over fewer. -/
theorem mono (h : Passes tokens m i k) (hle : n ≤ m) : Passes tokens n i k :=
  ⟨by have := h.le; omega, h.inside, h.unfinished⟩

end Passes

/-- There is a token at every place inside, the one that a reader sees there. -/
theorem getElem?_eq_peek {tokens : List Token} {k : Nat} (hk : k < tokens.length) :
    tokens[k]? = some (peek (tokens.drop k)) := by
  rw [peek, List.headD_eq_head?_getD, List.head?_drop, List.getElem?_eq_getElem hk]
  rfl

/-- Behind a token that does not end a text there is another one. -/
theorem succ_lt_length {tokens : List Token} {k : Nat} (hend : EndsInFinish tokens)
    (hk : k < tokens.length) (hkind : (peek (tokens.drop k)).kind ≠ .finish) :
    k + 1 < tokens.length := by
  obtain ⟨t, hlast, ht⟩ := hend
  rw [List.getLast?_eq_getElem?] at hlast
  by_contra hlength
  have hplace : tokens.length - 1 = k := by omega
  rw [hplace, getElem?_eq_peek hk, Option.some.injEq] at hlast
  exact hkind (hlast ▸ ht)

/-- A token that does not end a text may be passed over. -/
theorem Passes.one {tokens : List Token} {i : Nat} (hend : EndsInFinish tokens)
    (hi : i < tokens.length) (hkind : (peek (tokens.drop i)).kind ≠ .finish) :
    Passes tokens 1 i (i + 1) := by
  refine ⟨Nat.le_refl _, succ_lt_length hend hi hkind, fun j hj hj' => ?_⟩
  obtain rfl : j = i := by omega
  exact ⟨_, getElem?_eq_peek hi, hkind⟩

namespace ParserM

variable {α β : Type} {tokens : List Token} {m n : Nat} {s : ParserState} {work : ParserM α}
  {f : α → ParserM β} {read : Except ParseError (α × List Token)}

/-- Work after other work begins in the state that this leaves behind. -/
theorem runFrom_bind (work : ParserM α) (f : α → ParserM β) (s : ParserState) :
    (work >>= f).runFrom s =
      match work.runFrom s with
      | (.ok a, t) => (f a).runFrom t
      | (.error e, t) => (.error e, t) := by
  have hwork : work.runFrom s = work s := rfl
  have hbind : (work >>= f).runFrom s = ExceptT.bindCont f (work s).1 (work s).2 := rfl
  rw [hbind, hwork]
  rcases work s with ⟨e | a, t⟩ <;> rfl

/-- The state is looked at as it is. -/
theorem runFrom_get (f : ParserState → ParserM β) :
    (get >>= f).runFrom s = (f s).runFrom s := rfl

/-- The state is changed before the other work begins. -/
theorem runFrom_modify (change : ParserState → ParserState) (f : PUnit → ParserM β) :
    (modify change >>= f).runFrom s = (f ⟨⟩).runFrom (change s) := rfl

/-- The change after `finally` is made to whatever state the work leaves behind. -/
theorem runFrom_finally (work : ParserM α) (change : ParserState → ParserState) :
    (tryFinally work (modify change)).runFrom s =
      ((work.runFrom s).1, change (work.runFrom s).2) := by
  have hwork : work.runFrom s = work s := rfl
  rw [hwork]
  rcases hs : work s with ⟨e | a, t⟩ <;>
    simp [runFrom, ExceptT.run, StateT.run, tryFinally, MonadFinally.tryFinally', Functor.map,
      ExceptT.map, ExceptT.mk, bind, StateT.bind, hs] <;> rfl

/-- A look ahead is at the token that a reader sees. -/
theorem runFrom_look (hs : s.position < tokens.length) (f : Token → ParserM β) :
    (look tokens 0 >>= f).runFrom s = (f (peek (tokens.drop s.position))).runFrom s := by
  have hplace : min (s.position + 0) (tokens.length - 1) = s.position := by omega
  rw [look, bind_assoc, runFrom_get, hplace, tokenAt, getElem?_eq_peek hs]
  rfl

/-- A token that does not end a text is passed over. -/
theorem runFrom_advance (hs : s.position < tokens.length)
    (hkind : (peek (tokens.drop s.position)).kind ≠ .finish) :
    (advance tokens).runFrom s =
      (.ok (peek (tokens.drop s.position)), s.movedTo (s.position + 1)) := by
  rw [advance, runFrom_get, tokenAt, getElem?_eq_peek hs, pure_bind, if_neg hkind, runFrom_modify]
  rfl

/-- Where a text may end, the next token is passed over or is the last one. -/
theorem exists_runFrom_advance (hend : EndsInFinish tokens) (hs : s.position < tokens.length) :
    ∃ k, Passes tokens 0 s.position k ∧
      (advance tokens).runFrom s = (.ok (peek (tokens.drop s.position)), s.movedTo k) := by
  by_cases hkind : (peek (tokens.drop s.position)).kind = .finish
  · refine ⟨s.position, .refl hs, ?_⟩
    rw [advance, runFrom_get, tokenAt, getElem?_eq_peek hs, pure_bind, if_pos hkind]
    rfl
  · exact ⟨_, (Passes.one hend hs hkind).mono (Nat.zero_le 1), runFrom_advance hs hkind⟩

/-- Work that begins in a state does what a reader says. -/
def Follows (tokens : List Token) (least : Nat) (s : ParserState) (work : ParserM α) :
    Except ParseError (α × List Token) → Prop
  | .ok (a, rest) => ∃ k, Passes tokens least s.position k ∧ rest = tokens.drop k ∧
      work.runFrom s = (.ok a, s.movedTo k)
  | .error e => ∃ s', work.runFrom s = (.error (.refused e), s')

namespace Follows

/-- Work that passes over many tokens passes over fewer. -/
theorem mono (h : Follows tokens m s work read) (hle : n ≤ m) : Follows tokens n s work read := by
  cases read with
  | error e => exact h
  | ok r =>
      obtain ⟨k, hpasses, hrest, hrun⟩ := h
      exact ⟨k, hpasses.mono hle, hrest, hrun⟩

/-- Work that runs alike follows the same reader. -/
theorem congr {work' : ParserM α} (h : Follows tokens n s work read)
    (hrun : work'.runFrom s = work.runFrom s) : Follows tokens n s work' read := by
  cases read with
  | error e => exact h.imp fun s' h => hrun.trans h
  | ok r => exact h.imp fun k h => ⟨h.1, h.2.1, hrun.trans h.2.2⟩

/-- Work that only gives a result passes over nothing. -/
theorem pure (hs : s.position < tokens.length) (a : α) :
    Follows tokens 0 s (Pure.pure a) (.ok (a, tokens.drop s.position)) :=
  ⟨s.position, .refl hs, rfl, rfl⟩

/-- What follows after work that has ended goes on from where it has. -/
theorem after {a : α} {k : Nat} {read : Except ParseError (β × List Token)}
    (hrun : work.runFrom s = (.ok a, s.movedTo k)) (hpasses : Passes tokens m s.position k)
    (h : Follows tokens n (s.movedTo k) (f a) read) :
    Follows tokens (m + n) s (work >>= f) read := by
  have hbind : (work >>= f).runFrom s = (f a).runFrom (s.movedTo k) := by
    rw [runFrom_bind, hrun]
  cases read with
  | error e => exact h.imp fun s' h => hbind.trans h
  | ok r =>
      obtain ⟨l, hpasses', hrest, hrun'⟩ := h
      exact ⟨l, hpasses.trans hpasses', hrest, hbind.trans hrun'⟩

/-- Work after other work follows a reader after another one. -/
theorem bind {g : α × List Token → Except ParseError (β × List Token)}
    (h : Follows tokens m s work read)
    (hf : ∀ a k, Passes tokens m s.position k →
      Follows tokens n (s.movedTo k) (f a) (g (a, tokens.drop k))) :
    Follows tokens (m + n) s (work >>= f) (read >>= g) := by
  cases read with
  | error e =>
      obtain ⟨s', hrun⟩ := h
      exact ⟨s', by rw [runFrom_bind, hrun]⟩
  | ok r =>
      obtain ⟨a, rest⟩ := r
      obtain ⟨k, hpasses, rfl, hrun⟩ := h
      exact after hrun hpasses (hf a k hpasses)

/-- A check passes over nothing. -/
theorem check {x : Except ParseError α} {g : α → Except ParseError (β × List Token)}
    (hf : ∀ a, x = .ok a → Follows tokens n s (f a) (g a)) :
    Follows tokens n s (accept x >>= f) (x >>= g) := by
  cases x with
  | error e => exact ⟨s, rfl⟩
  | ok a => exact hf a rfl

/-- A look at the state passes over nothing. -/
theorem get {f : ParserState → ParserM β} {read : Except ParseError (β × List Token)}
    (h : Follows tokens n s (f s) read) : Follows tokens n s (MonadState.get >>= f) read :=
  h.congr (runFrom_get f)

/-- The names and the sign may be changed for the duration of work. -/
theorem shield {enter leave : ParserState → ParserState}
    (hposition : (enter s).position = s.position)
    (hleave : ∀ k, leave ((enter s).movedTo k) = s.movedTo k)
    (h : Follows tokens m (enter s) work read) :
    Follows tokens m s
      (modify enter >>= fun _ => work >>= fun a => modify leave >>= fun _ => Pure.pure a) read := by
  cases read with
  | error e =>
      obtain ⟨s', hrun⟩ := h
      exact ⟨s', by rw [runFrom_modify, runFrom_bind, hrun]⟩
  | ok r =>
      obtain ⟨k, hpasses, hrest, hrun⟩ := h
      rw [hposition] at hpasses
      refine ⟨k, hpasses, hrest, ?_⟩
      rw [runFrom_modify, runFrom_bind, hrun, ← hleave k]
      rfl

/-- They may be so before other work. -/
theorem shielded {enter leave : ParserState → ParserState}
    {g : α × List Token → Except ParseError (β × List Token)}
    (hposition : (enter s).position = s.position)
    (hleave : ∀ k, leave ((enter s).movedTo k) = s.movedTo k)
    (h : Follows tokens m (enter s) work read)
    (hf : ∀ a k, Passes tokens m s.position k →
      Follows tokens n (s.movedTo k) (f a) (g (a, tokens.drop k))) :
    Follows tokens (m + n) s
      (modify enter >>= fun _ => work >>= fun a => modify leave >>= fun _ => f a) (read >>= g) := by
  have hfollows := (h.shield hposition hleave).bind hf
  simp only [bind_assoc, pure_bind] at hfollows
  exact hfollows

/-- So they may with `finally`, which puts them back after an error too. -/
theorem guard {enter leave : ParserState → ParserState}
    (hposition : (enter s).position = s.position)
    (hleave : ∀ k, leave ((enter s).movedTo k) = s.movedTo k)
    (h : Follows tokens m (enter s) work read) :
    Follows tokens m s (modify enter >>= fun _ => tryFinally work (modify leave)) read := by
  have hrun : (modify enter >>= fun _ => tryFinally work (modify leave)).runFrom s =
      ((work.runFrom (enter s)).1, leave (work.runFrom (enter s)).2) := by
    rw [runFrom_modify, runFrom_finally]
  cases read with
  | error e =>
      obtain ⟨s', hwork⟩ := h
      exact ⟨leave s', by rw [hrun, hwork]⟩
  | ok r =>
      obtain ⟨k, hpasses, hrest, hwork⟩ := h
      rw [hposition] at hpasses
      exact ⟨k, hpasses, hrest, by rw [hrun, hwork, hleave]⟩

/-- A look ahead passes over nothing. -/
theorem look_zero {f : Token → ParserM β} {read : Except ParseError (β × List Token)}
    (hs : s.position < tokens.length)
    (h : Follows tokens n s (f (peek (tokens.drop s.position))) read) :
    Follows tokens n s (look tokens 0 >>= f) read :=
  h.congr (runFrom_look hs f)

/-- A look at the second token ahead. -/
theorem look_one {f : Token → ParserM β} {read : Except ParseError (β × List Token)}
    (hend : EndsInFinish tokens) (hs : s.position < tokens.length)
    (hkind : (peek (tokens.drop s.position)).kind ≠ .finish)
    (h : Follows tokens n s (f (peek (tokens.drop (s.position + 1)))) read) :
    Follows tokens n s (look tokens 1 >>= f) read := by
  refine h.congr ?_
  have hinside := succ_lt_length hend hs hkind
  have hplace : min (s.position + 1) (tokens.length - 1) = s.position + 1 := by omega
  rw [look, bind_assoc, runFrom_get, hplace, tokenAt, getElem?_eq_peek hinside]
  rfl

/-- A token that does not end a text is passed over. -/
theorem advance {f : Token → ParserM β} {read : Except ParseError (β × List Token)}
    (hend : EndsInFinish tokens) (hs : s.position < tokens.length)
    (hkind : (peek (tokens.drop s.position)).kind ≠ .finish)
    (h : Passes tokens 1 s.position (s.position + 1) →
      Follows tokens n (s.movedTo (s.position + 1)) (f (peek (tokens.drop s.position))) read) :
    Follows tokens (1 + n) s (ParserM.advance tokens >>= f) read := by
  have hpasses := Passes.one hend hs hkind
  exact after (runFrom_advance hs hkind) hpasses (h hpasses)

/-- A token of one kind is passed over, or is the reason to stop. -/
theorem expect {kind : TokenKind} {what : Expected} {f : Token → ParserM β}
    {g : List Token → Except ParseError (β × List Token)} (hend : EndsInFinish tokens)
    (hs : s.position < tokens.length) (hkind : kind ≠ .finish)
    (h : Passes tokens 1 s.position (s.position + 1) →
      Follows tokens n (s.movedTo (s.position + 1)) (f (peek (tokens.drop s.position)))
        (g (tokens.drop (s.position + 1)))) :
    Follows tokens (1 + n) s (ParserM.expect tokens kind what >>= f)
      (Parser.expect kind what (tokens.drop s.position) >>= g) := by
  rw [ParserM.expect, bind_assoc]
  refine look_zero hs ?_
  rw [Parser.expect]
  by_cases hfound : (peek (tokens.drop s.position)).kind = kind
  · rw [if_pos hfound, if_pos hfound, List.tail_drop]
    exact advance hend hs (hfound ▸ hkind) h
  · rw [if_neg hfound, if_neg hfound]
    exact ⟨s, rfl⟩

/-- A word behind a tag marker is passed over, or what stands there is the reason to stop. -/
theorem tagName (hend : EndsInFinish tokens) (hs : s.position < tokens.length) (marker : Token) :
    Follows tokens 1 s (ParserM.tagName tokens marker)
      (Parser.tagName marker (tokens.drop s.position)) := by
  rw [ParserM.tagName]
  refine look_zero hs ?_
  rw [Parser.tagName]
  by_cases hword : (peek (tokens.drop s.position)).kind = .name ||
      (peek (tokens.drop s.position)).kind.isKeyword
  · have hkind : (peek (tokens.drop s.position)).kind ≠ .finish := by
      intro hfinish
      simp [hfinish, TokenKind.isKeyword] at hword
    rw [if_pos hword, if_pos hword, List.tail_drop]
    refine advance (n := 0) hend hs hkind fun hpasses => ?_
    exact .pure hpasses.inside (peek (tokens.drop s.position)).text
  · rw [if_neg hword, if_neg hword]
    exact ⟨s, rfl⟩

end Follows

end ParserM

end DiagramFilter
