import DiagramFilter.Proofs.Lexing.Tokens
import DiagramFilter.Proofs.Number.Numeral
import Mathlib

/-!
# Reading text piece by piece

`Reads` says that a piece of text, at its place, is split into given tokens, whatever tokens the
text behind it has.  Pieces are read one after the other (`Reads.append`), and each sort of token is
read where the text behind it does not go on with it (`Reads.sign`, `Reads.word`,
`Reads.numeral`).
-/

namespace DiagramFilter

/-- The signs that a longer sign begins with, each with the character that prolongs it. -/
inductive Prolonged : (sign next : Char) → TokenKind → Prop
  | not : Prolonged '!' '=' .not
  | lt : Prolonged '<' '=' (.compare .lt)
  | gt : Prolonged '>' '=' (.compare .gt)
  | pipe : Prolonged '|' '|' .pipe

/-- Such a sign stands for itself in front of another character. -/
theorem Prolonged.scanSign {sign next : Char} {kind : TokenKind} {rest : List Char}
    (hsign : Prolonged sign next kind) (h : ∀ c ∈ rest.head?, c ≠ next) :
    Lexer.scanSign (sign :: rest) = some (kind, [sign]) := by
  cases rest with
  | nil => cases hsign <;> rfl
  | cons c rest =>
      have hc : c ≠ next := by simpa using h
      cases hsign <;> simp [Lexer.scanSign, hc]

/-- The closing brackets, each with the token that it is. -/
inductive Closing : Char → TokenKind → Prop
  | paren : Closing ')' .rightParen
  | bracket : Closing ']' .rightBracket

namespace Closing

variable {c : Char} {kind : TokenKind}

/-- A closing bracket is a token of its own, whatever stands behind it. -/
theorem scanSign (h : Closing c kind) (rest : List Char) :
    Lexer.scanSign (c :: rest) = some (kind, [c]) := by
  cases h <;> rfl

/-- No word or number goes on with a closing bracket, and none starts with it. -/
theorem apart (h : Closing c kind) :
    Lexer.isNameChar c = false ∧ Lexer.isNameStart c = false ∧ c.isDigit = false ∧ c ≠ '.' := by
  cases h <;> decide

/-- No sign ends with a closing bracket but itself. -/
theorem notMem_seconds (h : Closing c kind) : c ∉ ['&', '|', '='] := by
  cases h <;> decide

/-- A closing bracket neither marks a tag nor opens a focused expression. -/
theorem kind_spec (h : Closing c kind) : kind.isTagMarker = false ∧ kind ≠ .compare .lt := by
  cases h <;> simp [TokenKind.isTagMarker]

end Closing

namespace Lexer

/-- A sign is read in the same way right behind a tag marker as elsewhere. -/
theorem scan_marker {c : Char} {rest : List Char} {token : TokenKind × List Char}
    (h : scanSign (c :: rest) = some token) (position : Nat) (m m' : Bool) :
    scan position m (c :: rest) = scan position m' (c :: rest) := by
  rw [scan, scan]
  simp only [scanToken, h]

/-- A piece of text at an offset, right behind a tag marker or not, has the tokens `ts`; what
follows it is `rest`, and `afterMarker'` says whether that comes right behind a tag marker. -/
def Reads (position : Nat) (afterMarker : Bool) (cs : List Char) (ts : List Token)
    (afterMarker' : Bool) (rest : List Char) : Prop :=
  ∀ us, scan (position + cs.length) afterMarker' rest = .ok us →
    scan position afterMarker (cs ++ rest) = .ok (ts ++ us)

namespace Reads

variable {position : Nat} {m m' m'' : Bool} {cs cs' rest : List Char} {ts ts' : List Token}
  {kind : TokenKind}

/-- Pieces of text are read one after the other. -/
theorem append (h : Reads position m cs ts m' (cs' ++ rest))
    (h' : Reads (position + cs.length) m' cs' ts' m'' rest) :
    Reads position m (cs ++ cs') (ts ++ ts') m'' rest := by
  intro us hus
  rw [List.length_append, ← Nat.add_assoc] at hus
  rw [List.append_assoc, List.append_assoc]
  exact h _ (h' us hus)

/-- A blank is no token. -/
theorem blank : Reads position m [' '] [] false rest := by
  intro us hus
  have hblank : Text.isBlank ' ' = true := by decide
  rw [List.singleton_append, scan, if_pos hblank]
  exact hus

/-- The text of the next token is read as this token. -/
theorem token (position : Nat) {c : Char} (h : scanToken m (c :: cs ++ rest) = some (kind, c :: cs))
    (hblank : Text.isBlank c = false) :
    Reads position m (c :: cs) [⟨kind, String.ofList (c :: cs), position⟩] kind.isTagMarker
      rest := by
  intro us hus
  rw [List.cons_append] at h
  rw [List.cons_append, scan, if_neg (by simp [hblank]), h]
  simp only [List.length_cons, Nat.add_sub_cancel, List.drop_left]
  rw [List.length_cons] at hus
  rw [hus]
  rfl

/-- A sign is not blank. -/
theorem isBlank_of_scanSign {c : Char} {text : List Char}
    (h : scanSign (c :: cs) = some (kind, text)) : Text.isBlank c = false := by
  unfold scanSign at h
  split at h
  all_goals first
    | cases h; done
    | (rename_i heq; cases heq; decide)

/-- A sign is read where the text behind it does not make it a longer one. -/
theorem sign (position : Nat) (m : Bool) {c : Char}
    (h : scanSign (c :: cs ++ rest) = some (kind, c :: cs)) :
    Reads position m (c :: cs) [⟨kind, String.ofList (c :: cs), position⟩] kind.isTagMarker
      rest := by
  refine token position ?_ (isBlank_of_scanSign h)
  simp only [scanToken, h]

/-- A sign of one character. -/
theorem mark (position : Nat) (m : Bool) (c : Char) (rest : List Char)
    (h : scanSign (c :: rest) = some (kind, [c])) :
    Reads position m [c] [⟨kind, String.ofList [c], position⟩] kind.isTagMarker rest :=
  sign position m h

/-- Words and numbers do not start with a sign. -/
theorem scanSign_eq_none {c : Char} (h : isNameStart c = true ∨ c.isDigit = true) :
    scanSign (c :: cs) = none := by
  unfold scanSign
  split
  all_goals first
    | rfl
    | (rename_i heq; cases heq; exact absurd h (by decide))

/-- The characters of words are letters, digits and underscores. -/
theorem toNat_of_isNameChar {c : Char} (h : isNameChar c = true) :
    48 ≤ c.toNat ∧ c.toNat ≤ 122 := by
  have hunderscore : '_'.toNat = 95 := rfl
  simp only [isNameChar, Char.isAlphanum, Char.isAlpha, Char.isUpper, Char.isLower, Char.isDigit,
    Bool.or_eq_true, Bool.and_eq_true, decide_eq_true_eq, ge_iff_le, UInt32.le_iff_toNat_le,
    Char.toNat_val] at h
  simp at h
  rcases h with ((h | h) | h) | rfl
  all_goals omega

/-- What starts a name goes on in one. -/
theorem isNameChar_of_isNameStart {c : Char} (h : isNameStart c = true) : isNameChar c = true := by
  simp only [isNameStart, Bool.or_eq_true, decide_eq_true_eq] at h
  simp only [isNameChar, Char.isAlphanum, Bool.or_eq_true, decide_eq_true_eq]
  rcases h with h | h
  · exact Or.inl (Or.inl h)
  · exact Or.inr h

/-- The characters of words are not blank. -/
theorem isBlank_of_isNameChar {c : Char} (h : isNameChar c = true) : Text.isBlank c = false := by
  obtain ⟨hle, hge⟩ := toNat_of_isNameChar h
  rw [Bool.eq_false_iff]
  intro hblank
  simp [Text.isBlank, Text.blankRanges] at hblank
  omega

/-- What starts a name is no digit. -/
theorem isDigit_of_isNameStart {c : Char} (h : isNameStart c = true) : c.isDigit = false := by
  have hunderscore : '_'.toNat = 95 := rfl
  rw [Bool.eq_false_iff]
  intro hdigit
  simp only [isNameStart, Char.isAlpha, Char.isUpper, Char.isLower, Bool.or_eq_true,
    Bool.and_eq_true, decide_eq_true_eq, ge_iff_le, UInt32.le_iff_toNat_le, Char.toNat_val] at h
  have hle := (Char.isDigit_iff_toNat.mp hdigit).2
  simp at h hle
  rcases h with (h | h) | rfl
  all_goals omega

/-- Words are not numbers. -/
theorem scanNumber_eq_nil {c : Char} (h : isNameStart c = true) : scanNumber (c :: cs) = [] := by
  have hdigit := isDigit_of_isNameStart h
  have hpoint : c ≠ '.' := by
    rintro rfl
    exact absurd h (by decide)
  have hmantissa : scanMantissa (c :: cs) = [] := by
    unfold scanMantissa
    simp [hdigit, hpoint]
  simp [scanNumber, hmantissa]

/-- An identifier is read as a whole, if no word goes on behind it. -/
theorem scanName_append {word : String} (h : IsIdentifier word) (hrest : Apart rest) :
    scanName (word.toList ++ rest) = word.toList := by
  obtain ⟨c, cs, hword, hc, hcs⟩ := h
  rw [hword, List.cons_append, scanName, if_pos hc,
    takeWhile_append_stop hcs fun d hd => (hrest d hd).1]

/-- A word is read where the text behind it does not go on with it. -/
theorem word (position : Nat) (m : Bool) {word : String} (h : IsIdentifier word)
    (hrest : Apart rest) :
    Reads position m word.toList
      [⟨if m then .name else TokenKind.ofWord word, word, position⟩] false rest := by
  have hscan := scanName_append h hrest
  obtain ⟨c, cs, hword, hc, hcs⟩ := h
  have htext : String.ofList (c :: cs) = word := by rw [← hword, String.ofList_toList]
  have hmarker : (if m then .name else TokenKind.ofWord word).isTagMarker = false := by
    have hkind := TokenKind.ofWord_cases word
    cases m with
    | true => rfl
    | false =>
        generalize TokenKind.ofWord word = kind at hkind
        cases kind <;> simp_all [TokenKind.isTagMarker, TokenKind.isKeyword]
  rw [hword, List.cons_append] at hscan
  have htoken : scanToken m (c :: cs ++ rest) =
      some (if m then .name else TokenKind.ofWord word, c :: cs) := by
    rw [List.cons_append]
    simp only [scanToken, scanSign_eq_none (Or.inl hc), scanNumber_eq_nil hc, hscan, htext]
    cases m <;> rfl
  have hread := token position htoken
    (isBlank_of_isNameChar (isNameChar_of_isNameStart hc))
  rwa [hmarker, htext, ← hword] at hread

/-- A numeral starts with a digit. -/
theorem numeral_head {d : Decimal} {width : Nat} (h : Numeral cs d width) :
    ∃ c ds, cs = c :: ds ∧ c.isDigit = true := by
  cases h with
  | @whole ds es e hne hds hes =>
      cases ds with
      | nil => exact absurd rfl hne
      | cons c ds => exact ⟨c, _, rfl, hds c List.mem_cons_self⟩
  | @pointed ds fs es e hne hds hfs hes =>
      cases ds with
      | nil => exact absurd rfl hne
      | cons c ds => exact ⟨c, _, rfl, hds c List.mem_cons_self⟩

/-- A numeral is read where the text behind it does not go on with it. -/
theorem numeral {d : Decimal} {width : Nat} (h : Numeral cs d width) (hrest : Apart rest) :
    Reads position m cs [⟨.number, String.ofList cs, position⟩] false rest := by
  have hscan := h.scanNumber hrest
  obtain ⟨c, ds, rfl, hc⟩ := numeral_head h
  have hname : isNameChar c = true := by simp [isNameChar, Char.isAlphanum, hc]
  refine token position ?_ (isBlank_of_isNameChar hname)
  rw [List.cons_append] at hscan ⊢
  simp only [scanToken, scanSign_eq_none (Or.inr hc), hscan]
  rfl

end Reads

end Lexer

end DiagramFilter
