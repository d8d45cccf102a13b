import DiagramFilter.Proofs.Layout.Scanning

/-!
# Lexemes

`Lexeme` says which pieces of text are tokens, and of which kinds, without a word about how they are
found.  A text is split at its front into such a piece (`scanToken_lexeme`), and no piece that is
longer stands there (`scanToken_longest`); there is no token only where no piece stands at all.
-/

namespace DiagramFilter

/-- The kinds of tokens that have one written form, which is no word. -/
def TokenKind.isSign : TokenKind → Bool
  | number | name | bool _ | quantifier _ | list _ | finish => false
  | _ => true

namespace Lexer

open Decimal (IsDigits)

/-- Digits, with a point among them or not. -/
inductive IsMantissa : List Char → Prop
  | whole {ds : List Char} (hds : IsDigits ds) (hne : ds ≠ []) : IsMantissa ds
  | pointed {ds fs : List Char} (hds : IsDigits ds) (hfs : IsDigits fs)
      (hne : ¬ (ds = [] ∧ fs = [])) : IsMantissa (ds ++ '.' :: fs)

/-- A mark with a sign or none and digits behind it, or nothing at all. -/
inductive IsExponent : List Char → Prop
  | none : IsExponent []
  | some {e : Char} {sign ds : List Char} (he : e = 'e' ∨ e = 'E')
      (hsign : sign = ['+'] ∨ sign = ['-'] ∨ sign = []) (hds : IsDigits ds) (hne : ds ≠ []) :
      IsExponent (e :: (sign ++ ds))

/-- The pieces of text that are tokens of a kind.  The same word may be a name in one place and a
keyword in another. -/
inductive Lexeme : TokenKind → List Char → Prop
  | sign {kind : TokenKind} (hkind : kind.isSign = true) : Lexeme kind kind.label.toList
  | number {mantissa exponent : List Char} (hmantissa : IsMantissa mantissa)
      (hexponent : IsExponent exponent) : Lexeme .number (mantissa ++ exponent)
  | word {cs : List Char} (m : Bool) (hcs : IsIdentifier (String.ofList cs)) :
      Lexeme (wordKind m cs) cs

variable {m : Bool} {cs rest t u : List Char} {kind kind' : TokenKind}

/-- A sign that is read is a lexeme of its kind. -/
theorem scanSign_lexeme (h : scanSign cs = some (kind, t)) : Lexeme kind t := by
  unfold scanSign at h
  split at h
  all_goals cases h
  all_goals exact .sign rfl

/-- The digits that are read are the digits of a number. -/
theorem scanMantissa_isMantissa (h : scanMantissa cs ≠ []) : IsMantissa (scanMantissa cs) := by
  rcases scanMantissa_cases cs h with ⟨ds, rest, -, hscan, hds, -⟩ |
    ⟨ds, fs, rest, -, hscan, hds, hfs, hne, -⟩
  · rw [hscan] at h ⊢
    exact .whole hds h
  · rw [hscan]
    exact .pointed hds hfs hne

/-- The exponent that is read is one. -/
theorem scanExponent_isExponent (cs : List Char) : IsExponent (scanExponent cs) := by
  cases cs with
  | nil => exact .none
  | cons e cs =>
      by_cases he : e = 'e' ∨ e = 'E'
      · obtain ⟨sign, body, rfl, hsign⟩ := exists_sign cs
        rw [scanExponent_mark he hsign]
        split
        · exact .none
        · rename_i hne
          have hdigits : IsDigits (body.takeWhile Char.isDigit) := fun c hc =>
            List.mem_takeWhile_imp hc
          exact .some he (hsign.imp id (Or.imp id And.left)) hdigits hne
      · simpa [scanExponent, not_or.mp he] using IsExponent.none

/-- **Tokens are lexemes** of their kind. -/
theorem scanToken_lexeme (h : scanToken m cs = some (kind, t)) : Lexeme kind t := by
  cases hsign : scanSign cs with
  | some token =>
      rw [scanToken, hsign] at h
      cases h
      exact scanSign_lexeme hsign
  | none =>
      rcases scanToken_of_no_sign hsign h with ⟨rfl, hne, rfl⟩ | ⟨rfl, hne, rfl⟩
      · by_cases hmantissa : scanMantissa cs = []
        · simp [scanNumber, hmantissa] at hne
        · rw [scanNumber, if_neg (by simp [hmantissa])]
          exact .number (scanMantissa_isMantissa hmantissa) (scanExponent_isExponent _)
      · exact .word m (scanName_isIdentifier cs hne)

/-- A sign is found, or a longer one that it starts. -/
theorem scanSign_longest (hkind : kind.isSign = true) (rest : List Char) :
    ∃ kind' t, scanSign (kind.label.toList ++ rest) = some (kind', t) ∧
      kind.label.toList.length ≤ t.length := by
  have hprolonged : ∀ {sign next : Char} {kind : TokenKind}, Prolonged sign next kind →
      (∃ kind' t, scanSign (sign :: next :: rest.tail) = some (kind', t) ∧ 1 ≤ t.length) →
      ∃ kind' t, scanSign (sign :: rest) = some (kind', t) ∧ 1 ≤ t.length := by
    intro sign next kind hsign hlonger
    by_cases hnext : ∃ rest', rest = next :: rest'
    · obtain ⟨rest', rfl⟩ := hnext
      exact hlonger
    · refine ⟨kind, [sign], hsign.scanSign ?_, le_refl 1⟩
      rintro c hc rfl
      cases rest with
      | nil => cases hc
      | cons d rest =>
          cases hc
          exact hnext ⟨rest, rfl⟩
  cases kind with
  | number | name | bool value | quantifier q | list source | finish => cases hkind
  | leftParen | rightParen | leftBracket | rightBracket | colon | hash | dollar =>
      exact ⟨_, _, rfl, le_refl _⟩
  | pipe => exact hprolonged .pipe ⟨_, _, rfl, by decide⟩
  | not => exact hprolonged .not ⟨_, _, rfl, by decide⟩
  | junction c => cases c <;> exact ⟨_, _, rfl, le_refl _⟩
  | compare op =>
      cases op with
      | eq | ne | le | ge => exact ⟨_, _, rfl, le_refl _⟩
      | lt => exact hprolonged .lt ⟨_, _, rfl, by decide⟩
      | gt => exact hprolonged .gt ⟨_, _, rfl, by decide⟩
  | arith op => cases op <;> exact ⟨_, _, rfl, le_refl _⟩

/-- The mantissa at the front of a text is the longest one. -/
theorem scanMantissa_longest (h : IsMantissa u) (rest : List Char) :
    u.length ≤ (scanMantissa (u ++ rest)).length := by
  cases h with
  | whole hds hne =>
      obtain ⟨ds, rest, rfl, hds', hstop⟩ := exists_front Char.isDigit rest
      have hall := IsDigits.append hds hds'
      rw [← List.append_assoc]
      by_cases hpoint : ∃ rest', rest = '.' :: rest'
      · obtain ⟨rest', rfl⟩ := hpoint
        obtain ⟨fs, rest, rfl, hfs, hstop⟩ := exists_front Char.isDigit rest'
        rw [scanMantissa_pointed hall hfs (by simp [hne]) hstop]
        simp
      · have hboth : ∀ c ∈ rest.head?, c.isDigit = false ∧ c ≠ '.' := by
          intro c hc
          refine ⟨hstop c hc, ?_⟩
          rintro rfl
          exact hpoint (List.head?_eq_some_iff.mp hc)
        rw [scanMantissa_whole hall hboth]
        simp
  | @pointed ds fs hds hfs hne =>
      obtain ⟨fs', rest, rfl, hfs', hstop⟩ := exists_front Char.isDigit rest
      have hscan := scanMantissa_pointed hds (IsDigits.append hfs hfs') (by simp_all) hstop
      rw [List.append_assoc] at hscan
      rw [List.append_assoc, List.cons_append, hscan]
      simp

/-- A mantissa ends in front of the mark of an exponent. -/
theorem scanMantissa_mark (h : IsMantissa u) {e : Char} (he : e = 'e' ∨ e = 'E')
    (rest : List Char) : scanMantissa (u ++ e :: rest) = u := by
  have hstop : e.isDigit = false ∧ e ≠ '.' := by
    rcases he with rfl | rfl <;> decide
  cases h with
  | whole hds hne => exact scanMantissa_whole hds (by simpa using hstop)
  | pointed hds hfs hne =>
      have hrest : ∀ c ∈ (e :: rest).head?, c.isDigit = false := by simpa using hstop.1
      have hscan := scanMantissa_pointed hds hfs hne hrest
      simpa using hscan

/-- The number at the front of a text is the longest one. -/
theorem scanNumber_longest {mantissa exponent : List Char} (hmantissa : IsMantissa mantissa)
    (hexponent : IsExponent exponent) (rest : List Char) :
    (mantissa ++ exponent).length ≤ (scanNumber (mantissa ++ exponent ++ rest)).length := by
  have hlength : 0 < mantissa.length := by
    cases hmantissa with
    | whole hds hne => exact List.length_pos_iff.mpr hne
    | pointed hds hfs hne => simp
  cases hexponent with
  | none =>
      have hlongest := scanMantissa_longest hmantissa rest
      have hne : scanMantissa (mantissa ++ rest) ≠ [] := by
        rw [← List.length_pos_iff]
        omega
      rw [List.append_nil, scanNumber, if_neg (by simp [hne]), List.length_append]
      omega
  | @some e sign ds he hsign hds hne =>
      obtain ⟨ds', rest, rfl, hds', hstop⟩ := exists_front Char.isDigit rest
      have hbody : IsSign sign (ds ++ ds' ++ rest) := by
        refine hsign.imp id (Or.imp id fun h => ⟨h, ?_⟩)
        obtain ⟨d, ds, rfl⟩ := List.exists_cons_of_ne_nil hne
        have hd := hds d List.mem_cons_self
        simp only [List.cons_append, List.head?_cons, Option.mem_some_iff, forall_eq']
        constructor
        all_goals
          rintro rfl
          cases hd
      have htake : (ds ++ ds' ++ rest).takeWhile Char.isDigit = ds ++ ds' :=
        takeWhile_append_stop (IsDigits.append hds hds') hstop
      have hscan := scanExponent_mark he hbody
      rw [htake, if_neg (by simp [hne])] at hscan
      have hfront : mantissa ++ e :: (sign ++ ds) ++ (ds' ++ rest) =
          mantissa ++ e :: (sign ++ (ds ++ ds' ++ rest)) := by simp
      have hne' : mantissa ≠ [] := List.length_pos_iff.mp hlength
      rw [hfront, scanNumber, scanMantissa_mark hmantissa he, List.drop_left, hscan,
        if_neg (by simp [hne'])]
      simp

/-- The word at the front of a text is the longest one. -/
theorem scanName_longest (h : IsIdentifier (String.ofList u)) (rest : List Char) :
    u.length ≤ (scanName (u ++ rest)).length := by
  obtain ⟨c, cs, hcs, hc, hall⟩ := h
  rw [String.toList_ofList] at hcs
  subst hcs
  rw [List.cons_append, scanName, if_pos hc, List.takeWhile_append_of_pos hall]
  simp

/-- Where a word starts, the longest one is found. -/
theorem scanToken_word {c : Char} (hc : isNameStart c = true) (m : Bool) (cs : List Char) :
    scanToken m (c :: cs) = some (wordKind m (scanName (c :: cs)), scanName (c :: cs)) := by
  have hne : scanName (c :: cs) ≠ [] := by
    simp [scanName, hc]
  simp only [scanToken, Reads.scanSign_eq_none (Or.inl hc), Reads.scanNumber_eq_nil hc, wordKind]
  cases m <;> simp [hne]

/-- **Longest match.**  Where a lexeme stands, a token is found that is not shorter. -/
theorem scanToken_longest (h : Lexeme kind u) (hu : u <+: cs) (m : Bool) :
    ∃ kind' t, scanToken m cs = some (kind', t) ∧ u.length ≤ t.length := by
  obtain ⟨rest, rfl⟩ := hu
  cases h with
  | sign hkind =>
      obtain ⟨kind', t, hscan, hlength⟩ := scanSign_longest hkind rest
      exact ⟨kind', t, by rw [scanToken, hscan], hlength⟩
  | @number mantissa exponent hmantissa hexponent =>
      have hlongest := scanNumber_longest hmantissa hexponent rest
      have hnumber : scanNumber (mantissa ++ exponent ++ rest) ≠ [] := by
        intro hnil
        rw [hnil, List.length_nil] at hlongest
        cases hmantissa <;> simp_all
      obtain ⟨c, tail, htext⟩ : ∃ c tail, mantissa ++ exponent ++ rest = c :: tail := by
        apply List.exists_cons_of_ne_nil
        intro hnil
        exact hnumber (by rw [hnil]; rfl)
      rw [htext] at hnumber hlongest ⊢
      have hsign : scanSign (c :: tail) = none := scanSign_eq_none_of_number hnumber
      refine ⟨.number, _, ?_, hlongest⟩
      simp only [scanToken, hsign]
      rw [if_pos (by simp [hnumber])]
  | word m' hword =>
      have hlongest := scanName_longest hword rest
      obtain ⟨c, cs, hcs, hc, hall⟩ := hword
      rw [String.toList_ofList] at hcs
      subst hcs
      exact ⟨_, _, scanToken_word hc m (cs ++ rest), hlongest⟩

/-- A mark without digits is left to the next token. -/
example : scanToken false "2e+x".toList = some (.number, ['2']) := by decide

/-- No lexeme stands where no token is found. -/
theorem not_lexeme_of_scanToken (h : scanToken m cs = none) (hu : u <+: cs) :
    ¬ Lexeme kind u := by
  intro hlexeme
  obtain ⟨kind', t, hscan, -⟩ := scanToken_longest hlexeme hu m
  rw [h] at hscan
  cases hscan

/-- The characters of numbers. -/
theorem number_chars {mantissa exponent : List Char} (hmantissa : IsMantissa mantissa)
    (hexponent : IsExponent exponent) {c : Char} (hc : c ∈ mantissa ++ exponent) :
    c.isDigit = true ∨ c ∈ ['.', 'e', 'E', '+', '-'] := by
  rcases List.mem_append.mp hc with hc | hc
  · cases hmantissa with
    | whole hds hne => exact Or.inl (hds c hc)
    | pointed hds hfs hne =>
        rcases List.mem_append.mp hc with hc | hc
        · exact Or.inl (hds c hc)
        · rcases List.mem_cons.mp hc with rfl | hc
          · exact Or.inr (by decide)
          · exact Or.inl (hfs c hc)
  · cases hexponent with
    | none => cases hc
    | some he hsign hds hne =>
        rcases List.mem_cons.mp hc with rfl | hc
        · rcases he with rfl | rfl <;> exact Or.inr (by decide)
        · rcases List.mem_append.mp hc with hc | hc
          · rcases hsign with rfl | rfl | rfl
            · exact Or.inr (by simp_all)
            · exact Or.inr (by simp_all)
            · cases hc
          · exact Or.inl (hds c hc)

/-- A text whose last character marks a tag. -/
def EndsInMarker (cs : List Char) : Prop :=
  cs.getLast? = some '#' ∨ cs.getLast? = some '$'

instance (cs : List Char) : Decidable (EndsInMarker cs) :=
  inferInstanceAs (Decidable (_ ∨ _))

/-- What stands in front of other characters does not say how the text ends. -/
theorem endsInMarker_append (front : List Char) (hne : u ≠ []) :
    EndsInMarker (front ++ u) ↔ EndsInMarker u := by
  obtain ⟨c, hc⟩ := Option.isSome_iff_exists.mp (List.getLast?_isSome.mpr hne)
  simp [EndsInMarker, List.getLast?_append, hc]

/-- A blank marks no tag. -/
theorem not_endsInMarker_blank {c : Char} (hc : Text.isBlank c = true) : ¬ EndsInMarker [c] := by
  rintro (hends | hends)
  all_goals
    cases hends
    revert hc
    decide

/-- Tag markers end in these characters, and no other lexeme does. -/
theorem endsInMarker_iff (h : Lexeme kind u) : EndsInMarker u ↔ kind.isTagMarker = true := by
  have hnone : ∀ {u : List Char}, (∀ c ∈ u, c ≠ '#' ∧ c ≠ '$') → ¬ EndsInMarker u := by
    intro u hu hends
    rcases hends with hends | hends
    · exact (hu _ (List.mem_of_getLast? hends)).1 rfl
    · exact (hu _ (List.mem_of_getLast? hends)).2 rfl
  cases h with
  | sign hkind =>
      cases kind with
      | number | name | bool value | quantifier q | list source | finish => cases hkind
      | junction c => cases c <;> decide
      | compare op => cases op <;> decide
      | arith op => cases op <;> decide
      | leftParen | rightParen | leftBracket | rightBracket | colon | pipe | hash | dollar | not =>
          decide
  | number hmantissa hexponent =>
      refine iff_of_false (hnone ?_) (by simp [TokenKind.isTagMarker])
      intro c hc
      rcases number_chars hmantissa hexponent hc with hc | hc
      · constructor
        all_goals
          rintro rfl
          cases hc
      · constructor
        all_goals
          rintro rfl
          revert hc
          decide
  | word m hword =>
      obtain ⟨d, ds, hds, hd, hall⟩ := hword
      rw [String.toList_ofList] at hds
      have hmarker : (wordKind m u).isTagMarker = false :=
        isTagMarker_of_isWord (isWord_wordKind m u)
      refine iff_of_false (hnone ?_) (by simp [hmarker])
      intro c hc
      have hname : isNameChar c = true := by
        rw [hds] at hc
        rcases List.mem_cons.mp hc with rfl | hc
        · exact Reads.isNameChar_of_isNameStart hd
        · exact hall c hc
      constructor
      all_goals
        rintro rfl
        revert hname
        decide

end Lexer

end DiagramFilter
