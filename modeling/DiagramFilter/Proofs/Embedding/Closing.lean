import DiagramFilter.Proofs.Lexing.LongestMatch

/-!
# Tokens in front of a closing bracket

No token goes on with a closing bracket.  So the token at the front of a text is the same when the
text is over as when a closing bracket comes next: every scanner stops at the bracket as it stops at
the end (`scanToken_closed`).
-/

namespace DiagramFilter.Lexer

variable {c : Char} {kind : TokenKind} {cs rest : List Char} {p : Char → Bool}

/-- Characters of a sort end at the latest before one of another sort. -/
theorem takeWhile_closed (hp : p c = false) : (cs ++ c :: rest).takeWhile p = cs.takeWhile p := by
  induction cs with
  | nil => simp [hp]
  | cons d cs ih => rw [List.cons_append, List.takeWhile_cons, List.takeWhile_cons, ih]

/-- A name ends in front of a closing sign. -/
theorem scanName_closed (hc : Closing c kind) : scanName (cs ++ c :: rest) = scanName cs := by
  cases cs with
  | nil => simp [scanName, hc.apart]
  | cons d cs => rw [List.cons_append, scanName, scanName, takeWhile_closed hc.apart.1]

/-- The digits of a number end in front of a closing sign. -/
theorem scanMantissa_closed (hc : Closing c kind) :
    scanMantissa (cs ++ c :: rest) = scanMantissa cs := by
  obtain ⟨-, -, hdigit, hpoint⟩ := hc.apart
  have hle : (cs.takeWhile Char.isDigit).length ≤ cs.length := (List.takeWhile_prefix _).length_le
  simp only [scanMantissa, takeWhile_closed hdigit, List.drop_append_of_le_length hle]
  generalize cs.drop (cs.takeWhile Char.isDigit).length = behind
  cases behind with
  | nil => simp [hpoint]
  | cons d behind =>
      by_cases hd : d = '.'
      · rw [hd, List.cons_append]
        simp only [takeWhile_closed hdigit]
      · simp [hd]

/-- The exponent of a number ends in front of a closing sign. -/
theorem scanExponent_closed (hc : Closing c kind) :
    scanExponent (cs ++ c :: rest) = scanExponent cs := by
  cases cs with
  | nil => cases hc <;> rfl
  | cons e cs =>
      obtain ⟨sign, body, rfl, hsign⟩ := exists_sign cs
      have hsign' : IsSign sign (body ++ c :: rest) := by
        rcases hsign with hsign | hsign | ⟨hsign, hbody⟩
        · exact Or.inl hsign
        · exact Or.inr (Or.inl hsign)
        · refine Or.inr (Or.inr ⟨hsign, ?_⟩)
          cases body with
          | nil => cases hc <;> simp
          | cons d body => simpa using hbody
      by_cases he : e = 'e' ∨ e = 'E'
      · rw [List.cons_append, List.append_assoc, scanExponent_mark he hsign',
          scanExponent_mark he hsign, takeWhile_closed hc.apart.2.2.1]
      · simp [scanExponent, not_or.mp he]

/-- A number ends in front of a closing sign. -/
theorem scanNumber_closed (hc : Closing c kind) :
    scanNumber (cs ++ c :: rest) = scanNumber cs := by
  have hle : (scanMantissa cs).length ≤ cs.length := (scanMantissa_front cs).length_le
  simp only [scanNumber, scanMantissa_closed hc, List.drop_append_of_le_length hle,
    scanExponent_closed hc]

/-- Two texts start with the same one of the characters that end a sign of two, or both with none of
them. -/
def StartAlike (cs ds : List Char) : Prop :=
  ∀ next ∈ ['&', '|', '='], (cs.head? = some next ↔ ds.head? = some next)

/-- Of what stands behind the first character of a sign only the next one matters. -/
theorem scanSign_startAlike {ds : List Char} (h : StartAlike cs ds) {d : Char}
    {token : TokenKind × List Char} (hsign : scanSign (d :: cs) = some token) :
    scanSign (d :: ds) = some token := by
  have hpair : ∀ {next tail}, next ∈ ['&', '|', '='] → cs = next :: tail →
      ∃ tail', ds = next :: tail' := by
    rintro next tail hnext rfl
    exact List.head?_eq_some_iff.mp ((h next hnext).mp rfl)
  have hsingle : ∀ {sign next : Char} {kind : TokenKind}, Prolonged sign next kind →
      next ∈ ['&', '|', '='] → (∀ tail, cs = next :: tail → False) →
      scanSign (sign :: ds) = some (kind, [sign]) := by
    intro sign next kind hprolonged hnext hne
    refine hprolonged.scanSign ?_
    rintro e he rfl
    obtain ⟨tail, htail⟩ := List.head?_eq_some_iff.mp ((h e hnext).mpr he)
    exact hne tail htail
  generalize htext : d :: cs = text at hsign
  unfold scanSign at hsign
  split at hsign
  case h_1 | h_2 | h_3 | h_4 | h_5 =>
    obtain ⟨rfl, hcs⟩ := List.cons.inj htext
    obtain ⟨tail, rfl⟩ := hpair (by simp) hcs
    exact hsign
  case h_11 hne =>
    cases htext
    cases hsign
    exact hsingle .pipe (by simp) hne
  case h_14 hne =>
    cases htext
    cases hsign
    exact hsingle .not (by simp) hne
  case h_16 hne =>
    cases htext
    cases hsign
    exact hsingle .gt (by simp) hne
  case h_17 hne =>
    cases htext
    cases hsign
    exact hsingle .lt (by simp) hne
  case h_23 => cases hsign
  all_goals
    obtain ⟨rfl, -⟩ := List.cons.inj htext
    exact hsign

/-- A sign of two characters does not end in a closing sign. -/
theorem scanSign_closed (hc : Closing c kind) (d : Char) :
    scanSign (d :: (cs ++ c :: rest)) = scanSign (d :: cs) := by
  have halike : StartAlike cs (cs ++ c :: rest) := by
    intro next hnext
    cases cs with
    | nil =>
        have hne : c ≠ next := fun heq => hc.notMem_seconds (heq ▸ hnext)
        simp [hne]
    | cons e cs => rfl
  cases hsign : scanSign (d :: cs) with
  | some token => exact scanSign_startAlike halike hsign
  | none =>
      cases hsign' : scanSign (d :: (cs ++ c :: rest)) with
      | none => rfl
      | some token =>
          have hback := scanSign_startAlike (fun next hnext => (halike next hnext).symm) hsign'
          exact absurd (hsign.symm.trans hback) nofun

/-- **Closing brackets end tokens.**  The token at the front of a text is the same when a closing
bracket stands behind the text. -/
theorem scanToken_closed (hc : Closing c kind) (m : Bool) (d : Char) :
    scanToken m (d :: cs ++ c :: rest) = scanToken m (d :: cs) := by
  have hnumber := @scanNumber_closed c kind (d :: cs) rest hc
  have hname := @scanName_closed c kind (d :: cs) rest hc
  simp only [scanToken, hnumber, hname]
  rw [List.cons_append, scanSign_closed hc]

end DiagramFilter.Lexer
