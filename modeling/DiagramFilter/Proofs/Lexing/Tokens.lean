import DiagramFilter.Expr.Lexer
import Mathlib.Tactic.Common

/-!
# The tokens of a rule

Whatever text is split, its tokens have one end, which is the last of them, and its words are
identifiers.  A name is spelled like a keyword only right behind a tag marker
(`Lexer.scan_lexed`).
-/

namespace DiagramFilter

/-- A letter or an underscore, and any number of letters, digits and underscores behind it. -/
def IsIdentifier (word : String) : Prop :=
  ∃ c cs, word.toList = c :: cs ∧ Lexer.isNameStart c = true ∧ ∀ d ∈ cs, Lexer.isNameChar d = true

/-- A word that is a name wherever it stands. -/
structure IsVariable (name : String) : Prop where
  identifier : IsIdentifier name
  ofWord : TokenKind.ofWord name = .name

/-- A row of tokens as it comes from a text, the first one right behind a tag marker or not. -/
inductive Lexed : (afterMarker : Bool) → List Token → Prop
  | finish {afterMarker : Bool} {t : Token} (ht : t.kind = .finish) : Lexed afterMarker [t]
  | cons {afterMarker : Bool} {t : Token} {ts : List Token} (hfinish : t.kind ≠ .finish)
      (hword : t.kind = .name ∨ t.kind.isKeyword = true → IsIdentifier t.text)
      (hname : t.kind = .name → afterMarker = true ∨ TokenKind.ofWord t.text = .name)
      (hrest : Lexed t.kind.isTagMarker ts) : Lexed afterMarker (t :: ts)

namespace Lexed

variable {afterMarker : Bool} {t : Token} {ts rest front : List Token}

/-- Behind a tag marker more words are names than elsewhere. -/
theorem of_false (h : Lexed false ts) : Lexed afterMarker ts := by
  cases h with
  | finish ht => exact .finish ht
  | cons hfinish hword hname hrest =>
      refine .cons hfinish hword (fun hkind => ?_) hrest
      rcases hname hkind with h | h
      · cases h
      · exact Or.inr h

/-- What is no name does not depend on a tag marker in front of it. -/
theorem of_ne_name (h : Lexed afterMarker (t :: ts)) (ht : t.kind ≠ .name) :
    Lexed false (t :: ts) := by
  cases h with
  | finish ht => exact .finish ht
  | cons hfinish hword hname hrest => exact .cons hfinish hword (fun h => absurd h ht) hrest

/-- The tokens behind one that does not end the rule. -/
theorem tail (h : Lexed afterMarker (t :: ts)) (ht : t.kind ≠ .finish) :
    Lexed t.kind.isTagMarker ts := by
  cases h with
  | finish hfinish => exact absurd hfinish ht
  | cons hfinish hword hname hrest => exact hrest

/-- The tokens behind one that is neither a tag marker nor the end of a rule. -/
theorem next (h : Lexed afterMarker (t :: ts)) {kind : TokenKind} (ht : t.kind = kind)
    (hfinish : kind ≠ .finish) (hmarker : kind.isTagMarker = false) : Lexed false ts := by
  subst ht
  have htail := h.tail hfinish
  rwa [hmarker] at htail

/-- A word and what stands behind it. -/
theorem word (h : Lexed afterMarker (t :: ts)) (ht : t.kind = .name ∨ t.kind.isKeyword = true) :
    IsIdentifier t.text ∧ Lexed false ts := by
  cases h with
  | finish hfinish =>
      rw [hfinish] at ht
      simp [TokenKind.isKeyword] at ht
  | cons hfinish hword hname hrest =>
      have hmarker : t.kind.isTagMarker = false := by
        generalize t.kind = kind at ht
        cases kind <;> simp_all [TokenKind.isKeyword, TokenKind.isTagMarker]
      exact ⟨hword ht, by rwa [hmarker] at hrest⟩

/-- A name where no tag marker stands in front of it. -/
theorem variable_name (h : Lexed false (t :: ts)) (ht : t.kind = .name) :
    IsVariable t.text ∧ Lexed false ts := by
  obtain ⟨hidentifier, hrest⟩ := h.word (Or.inl ht)
  refine ⟨⟨hidentifier, ?_⟩, hrest⟩
  cases h with
  | finish hfinish =>
      rw [hfinish] at ht
      cases ht
  | cons hfinish hword hname hrest => simpa using hname ht

/-- The tokens behind a front that does not end the rule. -/
theorem append_right (h : Lexed afterMarker (front ++ rest))
    (hfront : ∀ t ∈ front, t.kind ≠ .finish) : ∃ afterMarker, Lexed afterMarker rest := by
  induction front generalizing afterMarker with
  | nil => exact ⟨_, h⟩
  | cons t front ih =>
      rw [List.cons_append] at h
      exact ih (h.tail (hfront t List.mem_cons_self)) fun t ht =>
        hfront t (List.mem_cons_of_mem _ ht)

/-- Nothing follows the end of a rule. -/
theorem eq_singleton (h : Lexed afterMarker ts)
    (hfinish : (ts.headD ⟨.finish, "", 0⟩).kind = .finish) :
    ∃ last : Token, last.kind = .finish ∧ ts = [last] := by
  cases h with
  | finish ht => exact ⟨_, ht, rfl⟩
  | cons hne => exact absurd hfinish hne

end Lexed

/-- A word is a name or a keyword. -/
theorem TokenKind.ofWord_cases (word : String) :
    TokenKind.ofWord word = .name ∨ (TokenKind.ofWord word).isKeyword = true := by
  unfold ofWord
  cases hfind : keywords.find? fun k => k.label == word with
  | none => exact Or.inl rfl
  | some k =>
      have hmem := List.mem_of_find?_eq_some hfind
      have hkeyword : ∀ k ∈ keywords, k.isKeyword = true := by decide
      exact Or.inr (hkeyword k hmem)

namespace Lexer

/-- The name that is read is an identifier. -/
theorem scanName_isIdentifier (cs : List Char) (h : scanName cs ≠ []) :
    IsIdentifier (String.ofList (scanName cs)) := by
  cases cs with
  | nil => exact absurd rfl h
  | cons c cs =>
      by_cases hc : isNameStart c = true
      · refine ⟨c, cs.takeWhile isNameChar, ?_, hc, fun d hd => ?_⟩
        · simp [scanName, hc]
        · exact List.all_eq_true.mp List.all_takeWhile d hd
      · simp [scanName, hc] at h

/-- A text is an identifier if the word at its front is all of it. -/
theorem isIdentifier_of_scanName {word : String} (hne : word.toList ≠ [])
    (h : scanName word.toList = word.toList) : IsIdentifier word := by
  have hidentifier := scanName_isIdentifier word.toList (by rwa [h])
  rwa [h, String.ofList_toList] at hidentifier

/-- A sign is no word and does not end a rule. -/
theorem scanSign_kind {cs text : List Char} {kind : TokenKind}
    (h : scanSign cs = some (kind, text)) :
    kind ≠ .finish ∧ kind ≠ .name ∧ kind.isKeyword = false := by
  unfold scanSign at h
  split at h <;> cases h <;> simp [TokenKind.isKeyword]

/-- What a token is that a text starts with. -/
theorem scanToken_spec {afterMarker : Bool} {cs text : List Char} {kind : TokenKind}
    (h : scanToken afterMarker cs = some (kind, text)) :
    kind ≠ .finish ∧ (kind = .name ∨ kind.isKeyword = true → IsIdentifier (String.ofList text)) ∧
      (kind = .name → afterMarker = true ∨ TokenKind.ofWord (String.ofList text) = .name) := by
  unfold scanToken at h
  split at h
  · rename_i token hsign
    cases h
    obtain ⟨hfinish, hname, hkeyword⟩ := scanSign_kind hsign
    simp [hfinish, hname, hkeyword]
  · dsimp only at h
    split at h
    · cases h
      simp [TokenKind.isKeyword]
    · split at h
      · cases h
      · rename_i hword
        have hidentifier := scanName_isIdentifier cs (by simpa using hword)
        split at h
        · rename_i hmarker
          cases h
          exact ⟨by simp, fun _ => hidentifier, fun _ => Or.inl hmarker⟩
        · cases h
          refine ⟨fun hfinish => ?_, fun _ => hidentifier, fun hname => Or.inr hname⟩
          have hcases := TokenKind.ofWord_cases (String.ofList (scanName cs))
          simp [hfinish, TokenKind.isKeyword] at hcases

/-- **Tokens of a text.**  The tokens that a text is split into have one end, and their words are
identifiers, which are spelled like keywords only as keywords or right behind tag markers. -/
theorem scan_lexed {position : Nat} {afterMarker : Bool} {cs : List Char} {ts : List Token}
    (h : scan position afterMarker cs = .ok ts) : Lexed afterMarker ts := by
  fun_induction scan position afterMarker cs generalizing ts with
  | case1 position afterMarker =>
      cases h
      exact .finish rfl
  | case2 position afterMarker c cs hblank ih => exact (ih h).of_false
  | case3 position afterMarker c cs hblank htoken => cases h
  | case4 position afterMarker c cs hblank kind text htoken ih =>
      obtain ⟨hfinish, hword, hname⟩ := scanToken_spec htoken
      cases hrest : scan (position + text.length) kind.isTagMarker (cs.drop (text.length - 1)) with
      | error fault =>
          rw [hrest] at h
          cases h
      | ok rest =>
          rw [hrest] at h
          cases h
          exact .cons hfinish hword hname (ih hrest)

/-- The tokens of a rule. -/
theorem tokenize_lexed {text : String} {ts : List Token} (h : tokenize text = .ok ts) :
    Lexed false ts :=
  scan_lexed h

end Lexer

end DiagramFilter
