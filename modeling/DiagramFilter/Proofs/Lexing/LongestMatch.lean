import DiagramFilter.Proofs.Lexing.Reading

/-!
# Tokens in front of blanks

A token is the longest piece that starts at its place, so the text behind it has a say in where it
ends.  A blank never does go on with a token.  So a token stays the same if a blank or the end of
the text comes earlier than before, be it right behind the token or only further on, where the
scanner of numbers still looks: `Cropped` says what the text behind a token may become, and
`scanToken_cropped` that the token stays.
-/

namespace DiagramFilter.Lexer

open Decimal (IsDigits)

/-- The first text goes on as the second one does, up to a blank or to its end.  What comes behind
the blank is any text. -/
inductive Cropped : List Char → List Char → Prop
  | nil {ds : List Char} : Cropped [] ds
  | blank {c : Char} {cs ds : List Char} (hc : Text.isBlank c = true) : Cropped (c :: cs) ds
  | cons {c : Char} {cs ds : List Char} (h : Cropped cs ds) : Cropped (c :: cs) (c :: ds)

variable {cs ds t u : List Char}

/-- Nothing but a blank can come to the front of the text. -/
theorem Cropped.head (h : Cropped cs ds) {P : Char → Prop} (hP : ∀ c, Text.isBlank c = true → P c)
    (hds : ∀ d ∈ ds.head?, P d) : ∀ c ∈ cs.head?, P c := by
  cases h with
  | nil => simp
  | blank hc => simpa using hP _ hc
  | cons h => simpa using hds

/-- The same text may stand in front of both. -/
theorem Cropped.append (h : Cropped cs ds) (t : List Char) : Cropped (t ++ cs) (t ++ ds) := by
  induction t with
  | nil => exact h
  | cons c t ih => exact .cons ih

/-- A blank is no letter, digit or sign. -/
theorem blank_ne {c : Char} (hc : Text.isBlank c = true) {d : Char}
    (hd : Text.isBlank d = false) : c ≠ d := by
  rintro rfl
  rw [hc] at hd
  cases hd

/-- A blank is no character of a name. -/
theorem isNameChar_of_isBlank {c : Char} (hc : Text.isBlank c = true) : isNameChar c = false := by
  rw [Bool.eq_false_iff]
  intro hname
  exact blank_ne hc (Reads.isBlank_of_isNameChar hname) rfl

/-- A blank is no digit. -/
theorem isDigit_of_isBlank {c : Char} (hc : Text.isBlank c = true) : c.isDigit = false :=
  isDigit_of_not_isNameChar (isNameChar_of_isBlank hc)

/-- What is behind a row of characters of one sort does not start with such a one. -/
theorem stop_of_takeWhile {p : Char → Bool} (ht : (t ++ ds).takeWhile p = t) :
    (∀ c ∈ t, p c = true) ∧ ∀ d ∈ ds.head?, p d = false := by
  have hall : ∀ c ∈ t, p c = true := by
    intro c hc
    rw [← ht] at hc
    exact List.mem_takeWhile_imp hc
  refine ⟨hall, ?_⟩
  intro d hd
  rw [List.takeWhile_append_of_pos hall] at ht
  cases ds with
  | nil => cases hd
  | cons d' ds =>
      cases hd
      rw [Bool.eq_false_iff]
      intro hpd
      simp [hpd] at ht

/-- A row of characters of one sort ends where it did. -/
theorem takeWhile_cropped {p : Char → Bool} (hp : ∀ c, Text.isBlank c = true → p c = false)
    (h : Cropped cs ds) (ht : (t ++ ds).takeWhile p = t) : (t ++ cs).takeWhile p = t := by
  obtain ⟨hall, hstop⟩ := stop_of_takeWhile ht
  exact takeWhile_append_stop hall (h.head hp hstop)

/-- A name in front of a text is one in front of the cropped text. -/
theorem scanName_cropped (h : Cropped cs ds) (hne : t ≠ []) (ht : scanName (t ++ ds) = t) :
    scanName (t ++ cs) = t := by
  cases t with
  | nil => exact absurd rfl hne
  | cons c t =>
      rw [List.cons_append, scanName] at ht ⊢
      by_cases hc : isNameStart c = true
      · rw [if_pos hc] at ht ⊢
        rw [takeWhile_cropped (fun _ => isNameChar_of_isBlank) h (List.cons.inj ht).2]
      · rw [if_neg hc] at ht
        cases ht

/-- A text is a row of characters of one sort and a rest that does not start with such a one. -/
theorem exists_front (p : Char → Bool) (text : List Char) :
    ∃ front rest, text = front ++ rest ∧ (∀ c ∈ front, p c = true) ∧
      ∀ c ∈ rest.head?, p c = false := by
  refine ⟨text.takeWhile p, text.dropWhile p, List.takeWhile_append_dropWhile.symm, ?_, ?_⟩
  · intro c hc
    exact List.mem_takeWhile_imp hc
  · intro c hc
    have hstop := List.head?_dropWhile_not p text
    rw [Option.mem_def.mp hc] at hstop
    exact hstop

/-- The mantissa at the front of a text is one of the two. -/
theorem scanMantissa_cases (text : List Char) (hne : scanMantissa text ≠ []) :
    (∃ u rest, text = u ++ rest ∧ scanMantissa text = u ∧ IsDigits u ∧
      ∀ c ∈ rest.head?, c.isDigit = false ∧ c ≠ '.') ∨
    ∃ u fs rest, text = u ++ '.' :: (fs ++ rest) ∧ scanMantissa text = u ++ '.' :: fs ∧
      IsDigits u ∧ IsDigits fs ∧ ¬ (u = [] ∧ fs = []) ∧ ∀ c ∈ rest.head?, c.isDigit = false := by
  obtain ⟨u, rest, rfl, hu, hrest⟩ := exists_front Char.isDigit text
  by_cases hpoint : ∃ r, rest = '.' :: r
  · obtain ⟨r, rfl⟩ := hpoint
    obtain ⟨fs, rest, rfl, hfs, hstop⟩ := exists_front Char.isDigit r
    have hdigits : ¬ (u = [] ∧ fs = []) := by
      rintro ⟨rfl, rfl⟩
      apply hne
      have hnone : ([] ++ rest).takeWhile Char.isDigit = [] := takeWhile_append_stop (by simp) hstop
      rw [List.nil_append] at hnone
      simp [scanMantissa, hnone]
    exact Or.inr ⟨u, fs, rest, rfl, scanMantissa_pointed hu hfs hdigits hstop, hu, hfs, hdigits,
      hstop⟩
  · have hboth : ∀ c ∈ rest.head?, c.isDigit = false ∧ c ≠ '.' := by
      intro c hc
      refine ⟨hrest c hc, ?_⟩
      rintro rfl
      cases rest with
      | nil => cases hc
      | cons d rest =>
          cases hc
          exact hpoint ⟨rest, rfl⟩
    exact Or.inl ⟨u, rest, rfl, scanMantissa_whole hu hboth, hu, hboth⟩

/-- The digits in front of a text are those in front of the cropped text. -/
theorem scanMantissa_cropped (h : Cropped cs ds) (hne : t ≠ []) (ht : scanMantissa (t ++ ds) = t) :
    scanMantissa (t ++ cs) = t := by
  have hpoint : ∀ c, Text.isBlank c = true → c.isDigit = false ∧ c ≠ '.' := by
    intro c hc
    exact ⟨isDigit_of_isBlank hc, blank_ne hc (by decide)⟩
  rcases scanMantissa_cases (t ++ ds) (by rwa [ht]) with
    ⟨u, rest, htext, hscan, hu, hrest⟩ | ⟨u, fs, rest, htext, hscan, hu, hfs, hdigits, hrest⟩
  · obtain rfl : t = u := ht.symm.trans hscan
    obtain rfl : ds = rest := List.append_cancel_left htext
    exact scanMantissa_whole hu (h.head hpoint hrest)
  · obtain rfl : t = u ++ '.' :: fs := ht.symm.trans hscan
    obtain rfl : ds = rest := by simpa using htext
    have hscan := scanMantissa_pointed hu hfs hdigits
      (h.head (fun c hc => (hpoint c hc).1) hrest)
    simpa using hscan

/-- The sign of an exponent, in front of its digits; it may be missing. -/
def IsSign (sign body : List Char) : Prop :=
  sign = ['+'] ∨ sign = ['-'] ∨ sign = [] ∧ ∀ c ∈ body.head?, c ≠ '+' ∧ c ≠ '-'

/-- Every text begins with a sign or with none. -/
theorem exists_sign (cs : List Char) : ∃ sign body, cs = sign ++ body ∧ IsSign sign body := by
  cases cs with
  | nil => exact ⟨[], [], rfl, Or.inr (Or.inr ⟨rfl, by simp⟩)⟩
  | cons c cs =>
      by_cases hplus : c = '+'
      · exact ⟨['+'], cs, by rw [hplus]; rfl, Or.inl rfl⟩
      · by_cases hminus : c = '-'
        · exact ⟨['-'], cs, by rw [hminus]; rfl, Or.inr (Or.inl rfl)⟩
        · exact ⟨[], c :: cs, rfl, Or.inr (Or.inr ⟨rfl, by simpa using ⟨hplus, hminus⟩⟩)⟩

/-- An exponent is its mark with a sign and all digits behind it, if there are any. -/
theorem scanExponent_mark {e : Char} {sign body : List Char} (he : e = 'e' ∨ e = 'E')
    (hsign : IsSign sign body) :
    scanExponent (e :: (sign ++ body)) = if body.takeWhile Char.isDigit = [] then []
      else e :: (sign ++ body.takeWhile Char.isDigit) := by
  have hfound : (((sign ++ body).take 1).filter fun c => c = '+' || c = '-') = sign := by
    rcases hsign with rfl | rfl | ⟨rfl, hbody⟩
    · rfl
    · rfl
    · cases body with
      | nil => rfl
      | cons c body => simpa using hbody
  have hmark : (e = 'e' || e = 'E') = true := by simpa using he
  simp [scanExponent, hmark, hfound]

/-- No exponent is found where none was. -/
theorem scanExponent_cropped_nil (h : Cropped cs ds) (hds : scanExponent ds = []) :
    scanExponent cs = [] := by
  cases h with
  | nil => rfl
  | blank hc =>
      simp [scanExponent, blank_ne hc (by decide : Text.isBlank 'e' = false),
        blank_ne hc (by decide : Text.isBlank 'E' = false)]
  | @cons e cs ds h =>
      have hdigits : ∀ {cs ds : List Char}, Cropped cs ds → ds.takeWhile Char.isDigit = [] →
          cs.takeWhile Char.isDigit = [] :=
        fun h hnone => takeWhile_cropped (t := []) (fun _ => isDigit_of_isBlank) h hnone
      by_cases he : e = 'e' ∨ e = 'E'
      · cases h with
        | nil => simp [scanExponent]
        | @blank c cs _ hc =>
            have hsign : IsSign [] (c :: cs) := by
              refine Or.inr (Or.inr ⟨rfl, ?_⟩)
              simpa using ⟨blank_ne hc (by decide : Text.isBlank '+' = false),
                blank_ne hc (by decide : Text.isBlank '-' = false)⟩
            have hscan := scanExponent_mark he hsign
            rwa [List.takeWhile_cons, isDigit_of_isBlank hc] at hscan
        | @cons c cs ds h =>
            obtain ⟨sign, body, hbody, hsign⟩ := exists_sign (c :: ds)
            rw [hbody, scanExponent_mark he hsign] at hds
            have hnone : body.takeWhile Char.isDigit = [] := by
              by_contra hsome
              rw [if_neg hsome] at hds
              cases hds
            -- The sign is still there, or there is none and the same character is no digit.
            rcases hsign with rfl | rfl | ⟨rfl, hstop⟩
            · cases hbody
              exact (scanExponent_mark he (Or.inl rfl)).trans (if_pos (hdigits h hnone))
            · cases hbody
              exact (scanExponent_mark he (Or.inr (Or.inl rfl))).trans (if_pos (hdigits h hnone))
            · cases hbody
              have hsign : IsSign [] (c :: cs) := Or.inr (Or.inr ⟨rfl, hstop⟩)
              exact (scanExponent_mark he hsign).trans (if_pos (hdigits (.cons h) hnone))
      · simp [scanExponent, not_or.mp he]

/-- An exponent in front of a text is one in front of the cropped text. -/
theorem scanExponent_cropped (h : Cropped cs ds) (ht : scanExponent (t ++ ds) = t) :
    scanExponent (t ++ cs) = t := by
  cases t with
  | nil => exact scanExponent_cropped_nil h ht
  | cons e u =>
      rw [List.cons_append] at ht ⊢
      have he : e = 'e' ∨ e = 'E' := by
        by_contra he
        simp [scanExponent, not_or.mp he] at ht
      obtain ⟨sign, body, hbody, hsign⟩ := exists_sign (u ++ ds)
      rw [hbody, scanExponent_mark he hsign] at ht
      by_cases hnone : body.takeWhile Char.isDigit = []
      · rw [if_pos hnone] at ht
        cases ht
      · rw [if_neg hnone] at ht
        obtain ⟨digits, hdigits⟩ : ∃ digits, body.takeWhile Char.isDigit = digits := ⟨_, rfl⟩
        rw [hdigits] at ht hnone
        obtain rfl : sign ++ digits = u := (List.cons.inj ht).2
        obtain rfl : digits ++ ds = body := by simpa using hbody
        have htake := takeWhile_cropped (fun _ => isDigit_of_isBlank) h hdigits
        have hsign' : IsSign sign (digits ++ cs) := by
          obtain ⟨d, digits, rfl⟩ := List.exists_cons_of_ne_nil hnone
          exact hsign
        rw [List.append_assoc, scanExponent_mark he hsign', htake, if_neg hnone]

/-- A number in front of a text is one in front of the cropped text. -/
theorem scanNumber_cropped (h : Cropped cs ds) (hne : t ≠ []) (ht : scanNumber (t ++ ds) = t) :
    scanNumber (t ++ cs) = t := by
  obtain ⟨mantissa, hmantissa⟩ : ∃ m, scanMantissa (t ++ ds) = m := ⟨_, rfl⟩
  by_cases hnone : mantissa = []
  · rw [hnone] at hmantissa
    rw [scanNumber, hmantissa] at ht
    exact absurd ht.symm hne
  · simp only [scanNumber, hmantissa, List.isEmpty_iff, if_neg hnone] at ht
    obtain ⟨exponent, hexponent⟩ :
      ∃ x, scanExponent ((t ++ ds).drop mantissa.length) = x := ⟨_, rfl⟩
    rw [hexponent] at ht
    subst ht
    rw [List.append_assoc, List.drop_left] at hexponent
    rw [List.append_assoc] at hmantissa ⊢
    have hmantissa' := scanMantissa_cropped (h.append exponent) hnone hmantissa
    have hexponent' := scanExponent_cropped h hexponent
    simp only [scanNumber, hmantissa', List.drop_left, hexponent', List.isEmpty_iff, if_neg hnone]

/-- A sign stays as it is, since nothing prolongs it that did not before. -/
theorem scanSign_cropped {kind : TokenKind} (h : Cropped cs ds)
    (ht : scanSign (t ++ ds) = some (kind, t)) : scanSign (t ++ cs) = some (kind, t) := by
  have hprolonged : ∀ {sign next : Char} {kind : TokenKind}, Prolonged sign next kind →
      Text.isBlank next = false → (∀ rest, ds = next :: rest → False) →
      scanSign (sign :: cs) = some (kind, [sign]) := by
    intro sign next kind hsign hnext hds
    refine hsign.scanSign (h.head (fun c hc => blank_ne hc hnext) ?_)
    rintro d hd rfl
    cases ds with
    | nil => cases hd
    | cons d' ds =>
        cases hd
        exact hds ds rfl
  generalize htext : t ++ ds = text at ht
  unfold scanSign at ht
  split at ht
  all_goals cases ht
  all_goals first
    | rfl
    | (rename_i hlonger; cases htext; exact hprolonged .pipe (by decide) hlonger)
    | (rename_i hlonger; cases htext; exact hprolonged .not (by decide) hlonger)
    | (rename_i hlonger; cases htext; exact hprolonged .gt (by decide) hlonger)
    | (rename_i hlonger; cases htext; exact hprolonged .lt (by decide) hlonger)

/-- What starts a number is no sign, whatever comes behind it. -/
theorem scanSign_eq_none_of_number {c : Char} (ht : scanNumber (c :: u) ≠ []) :
    scanSign (c :: cs) = none := by
  by_cases hpoint : c = '.'
  · rw [hpoint]
    rfl
  · apply Reads.scanSign_eq_none
    right
    by_contra hdigit
    exact ht (by simp [scanNumber, scanMantissa, hdigit, hpoint])

/-- What a word is, right behind a tag marker or not. -/
def wordKind (afterMarker : Bool) (word : List Char) : TokenKind :=
  if afterMarker then .name else .ofWord (String.ofList word)

/-- A token that is no sign is a number or a word. -/
theorem scanToken_of_no_sign {m : Bool} {text : List Char} {kind : TokenKind}
    (hsign : scanSign text = none) (ht : scanToken m text = some (kind, t)) :
    (scanNumber text = t ∧ t ≠ [] ∧ kind = .number) ∨
      scanName text = t ∧ t ≠ [] ∧ kind = wordKind m t := by
  simp only [scanToken, hsign] at ht
  by_cases hnumber : scanNumber text = []
  · right
    rw [if_neg (by simp [hnumber])] at ht
    by_cases hword : scanName text = []
    · rw [if_pos (by simp [hword])] at ht
      cases ht
    · rw [if_neg (by simp [hword])] at ht
      cases m <;> cases ht <;> exact ⟨rfl, hword, rfl⟩
  · left
    rw [if_pos (by simp [hnumber])] at ht
    cases ht
    exact ⟨rfl, hnumber, rfl⟩

/-- **Tokens stay.**  Whatever the text behind a token becomes, up to where it went on before, the
token is still found.  What it is does not change, unless it is a word and no longer behind a tag
marker. -/
theorem scanToken_cropped {m : Bool} {kind : TokenKind} (h : Cropped cs ds) (hne : t ≠ [])
    (ht : scanToken m (t ++ ds) = some (kind, t)) :
    (∀ m', scanToken m' (t ++ cs) = some (kind, t)) ∨
      kind = wordKind m t ∧ ∀ m', scanToken m' (t ++ cs) = some (wordKind m' t, t) := by
  cases hsign : scanSign (t ++ ds) with
  | some token =>
      rw [scanToken, hsign] at ht
      cases ht
      left
      intro m'
      rw [scanToken, scanSign_cropped h hsign]
  | none =>
      obtain ⟨c, u, rfl⟩ := List.exists_cons_of_ne_nil hne
      rcases scanToken_of_no_sign hsign ht with ⟨hnumber, -, rfl⟩ | ⟨hname, -, hkind⟩
      · left
        have hnumber' := scanNumber_cropped h hne hnumber
        have hsign' : scanSign (c :: (u ++ cs)) = none := by
          apply scanSign_eq_none_of_number
          rw [← List.cons_append, hnumber]
          exact hne
        intro m'
        rw [List.cons_append] at hnumber' ⊢
        simp only [scanToken, hsign', hnumber']
        rfl
      · right
        have hstart : isNameStart c = true := by
          by_contra hstart
          simp [scanName, hstart] at hname
        have hname' := scanName_cropped h hne hname
        refine ⟨hkind, ?_⟩
        intro m'
        rw [List.cons_append] at hname' ⊢
        simp only [scanToken, Reads.scanSign_eq_none (Or.inl hstart),
          Reads.scanNumber_eq_nil hstart, hname', wordKind]
        cases m' <;> rfl

/-- The digits that are read stand in front. -/
theorem scanMantissa_front (text : List Char) : scanMantissa text <+: text := by
  by_cases hne : scanMantissa text = []
  · rw [hne]
    exact List.nil_prefix
  · rcases scanMantissa_cases text hne with ⟨u, rest, rfl, hscan, -, -⟩ |
      ⟨u, fs, rest, rfl, hscan, -, -, -, -⟩
    · rw [hscan]
      exact List.prefix_append u rest
    · rw [hscan]
      exact ⟨rest, by simp⟩

/-- The exponent that is read stands in front. -/
theorem scanExponent_front (text : List Char) : scanExponent text <+: text := by
  cases text with
  | nil => exact List.nil_prefix
  | cons e text =>
      by_cases he : e = 'e' ∨ e = 'E'
      · obtain ⟨sign, body, rfl, hsign⟩ := exists_sign text
        rw [scanExponent_mark he hsign]
        split
        · exact List.nil_prefix
        · have hdigits := List.takeWhile_prefix (l := body) Char.isDigit
          exact List.cons_prefix_cons.mpr ⟨rfl, (List.prefix_append_right_inj sign).mpr hdigits⟩
      · simp [scanExponent, not_or.mp he]

/-- The number that is read stands in front. -/
theorem scanNumber_front (text : List Char) : scanNumber text <+: text := by
  have hmantissa := scanMantissa_front text
  rw [scanNumber]
  split
  · exact List.nil_prefix
  · obtain ⟨rest, hrest⟩ := hmantissa
    have hexponent := scanExponent_front rest
    generalize scanMantissa text = mantissa at hrest
    subst hrest
    rw [List.drop_left]
    exact (List.prefix_append_right_inj mantissa).mpr hexponent

/-- The name that is read stands in front. -/
theorem scanName_front (text : List Char) : scanName text <+: text := by
  cases text with
  | nil => exact List.nil_prefix
  | cons c text =>
      rw [scanName]
      split
      · exact List.cons_prefix_cons.mpr ⟨rfl, List.takeWhile_prefix _⟩
      · exact List.nil_prefix

/-- The characters of a token stand at the front of the text, and there are some. -/
theorem scanToken_front {m : Bool} {text : List Char} {kind : TokenKind}
    (ht : scanToken m text = some (kind, t)) : t <+: text ∧ t ≠ [] := by
  cases hsign : scanSign text with
  | some token =>
      rw [scanToken, hsign] at ht
      cases ht
      unfold scanSign at hsign
      split at hsign
      all_goals cases hsign
      all_goals exact ⟨⟨_, rfl⟩, List.cons_ne_nil _ _⟩
  | none =>
      rcases scanToken_of_no_sign hsign ht with ⟨rfl, hne, -⟩ | ⟨rfl, hne, -⟩
      · exact ⟨scanNumber_front text, hne⟩
      · exact ⟨scanName_front text, hne⟩

end DiagramFilter.Lexer
