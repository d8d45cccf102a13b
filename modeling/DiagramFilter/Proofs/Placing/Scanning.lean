import DiagramFilter.Proofs.Lexing.Lexemes
import DiagramFilter.Proofs.Placing.Rows

/-!
# Operands in texts

The text of an operand is put into the text of a rule in the place of a `0` between blanks.  Without
the blanks the characters of the operand stand right beside those of the rule.  Yet they do not run
together: words and numbers stand apart in a rule, and signs do not go on with an operand.  So all
other tokens stay as they are (`Lexer.scan_filled`), and the parser makes of the text the same rule
with the operand in the place of the number (`Expr.parse_placed`).
-/

namespace DiagramFilter

namespace Lexer

open Decimal (IsDigits)

variable {m : Bool} {kind : TokenKind} {position : Nat} {c : Char} {cs t rest rest' : List Char}
  {ts : List Token}

/-- A number is all of a numeral where the text behind it does not go on with it. -/
theorem scanNumber_apart {mantissa exponent : List Char} (hmantissa : IsMantissa mantissa)
    (hexponent : IsExponent exponent) (hrest : Apart rest) :
    scanNumber (mantissa ++ exponent ++ rest) = mantissa ++ exponent := by
  have hne : mantissa ≠ [] := by
    cases hmantissa with
    | whole hds hne => exact hne
    | pointed hds hfs hne => simp
  cases hexponent with
  | none =>
      have hmantissa' : scanMantissa (mantissa ++ rest) = mantissa := by
        cases hmantissa with
        | whole hds hne =>
            exact scanMantissa_whole hds fun c hc => ⟨hrest.not_isDigit c hc, (hrest c hc).2⟩
        | pointed hds hfs hdigits =>
            simpa using scanMantissa_pointed hds hfs hdigits hrest.not_isDigit
      have hexponent : scanExponent rest = [] := Exponent.none.scanExponent hrest
      simp [scanNumber, hmantissa', hexponent, hne]
  | @some e sign ds he hsign hds hne' =>
      have hbody : IsSign sign (ds ++ rest) := by
        refine hsign.imp id (Or.imp id fun h => ⟨h, ?_⟩)
        obtain ⟨d, ds, rfl⟩ := List.exists_cons_of_ne_nil hne'
        simpa using Exponent.head_ne_sign (hds d List.mem_cons_self)
      have htake : (ds ++ rest).takeWhile Char.isDigit = ds :=
        takeWhile_append_stop hds hrest.not_isDigit
      have hscan := scanExponent_mark he hbody
      rw [htake, if_neg hne'] at hscan
      have hfront : mantissa ++ e :: (sign ++ ds) ++ rest =
          mantissa ++ e :: (sign ++ (ds ++ rest)) := by simp
      rw [hfront, scanNumber, scanMantissa_mark hmantissa he, List.drop_left, hscan,
        if_neg (by simpa using hne)]

/-- A word is never taken for a sign. -/
theorem isWordOrNumber_wordKind (m : Bool) (word : List Char) :
    (wordKind m word).isWordOrNumber = true := by
  rcases isWord_wordKind m word with hkind | hkind
  · rw [hkind]
    rfl
  · generalize wordKind m word = kind at hkind
    cases kind <;> first | rfl | cases hkind

/-- A token stays where another text comes behind it, if that starts with no character that ends a
sign, unless the first one did, and does not go on with a word or number. -/
theorem scanToken_beside (h : scanToken m (t ++ rest) = some (kind, t)) (hne : t ≠ [])
    (halike : StartAlike rest rest') (hapart : kind.isWordOrNumber = true → Apart rest') :
    scanToken m (t ++ rest') = some (kind, t) := by
  obtain ⟨c, u, rfl⟩ := List.exists_cons_of_ne_nil hne
  cases hsign : scanSign (c :: u ++ rest) with
  | some token =>
      rw [scanToken, hsign] at h
      cases h
      have halike' : StartAlike (u ++ rest) (u ++ rest') := by
        cases u with
        | nil => exact halike
        | cons d u => exact fun _ _ => Iff.rfl
      have hsign' := scanSign_startAlike halike' hsign
      rw [List.cons_append, scanToken, hsign']
  | none =>
      rcases scanToken_of_no_sign hsign h with ⟨hnumber, -, rfl⟩ | ⟨hname, -, rfl⟩
      · have hmantissa : scanMantissa (c :: u ++ rest) ≠ [] := by
          intro hnone
          rw [scanNumber, hnone] at hnumber
          cases hnumber
        have hnumber' : scanNumber (c :: u ++ rest') = c :: u := by
          rw [scanNumber, if_neg (by simpa using hmantissa)] at hnumber
          rw [← hnumber]
          exact scanNumber_apart (scanMantissa_isMantissa hmantissa) (scanExponent_isExponent _)
            (hapart rfl)
        have hsign' : scanSign (c :: (u ++ rest')) = none :=
          scanSign_eq_none_of_number (by rw [← List.cons_append, hnumber']; exact hne)
        rw [List.cons_append] at hnumber' ⊢
        simp only [scanToken, hsign', hnumber']
        rfl
      · have hword := scanName_isIdentifier (c :: u ++ rest) (by rw [hname]; exact hne)
        have hname' := Reads.scanName_append hword (hapart (isWordOrNumber_wordKind m (c :: u)))
        rw [hname, String.toList_ofList] at hname'
        obtain ⟨d, ds, hds, hd, -⟩ := hword
        rw [hname, String.toList_ofList] at hds
        obtain ⟨rfl, rfl⟩ := List.cons.inj hds
        rw [List.cons_append] at hname' ⊢
        rw [scanToken_word hd, hname']

/-- A sign is no character of a word or number. -/
theorem apart_of_scanSign {token : TokenKind × List Char} (h : scanSign (c :: cs) = some token) :
    isNameChar c = false ∧ c ≠ '.' := by
  unfold scanSign at h
  split at h
  all_goals first
    | cases h; done
    | (rename_i heq; cases heq; decide)

/-- A text whose first token is neither a word nor a number does not go on with one. -/
theorem apart_of_scan (h : scan position m cs = .ok ts)
    (hhead : ∀ t ∈ ts.head?, t.kind.isWordOrNumber = false) : Apart cs := by
  intro c hc
  obtain ⟨rest, rfl⟩ := List.head?_eq_some_iff.mp hc
  by_cases hblank : Text.isBlank c = true
  · exact ⟨isNameChar_of_isBlank hblank, blank_ne hblank (by decide)⟩
  rw [scan, if_neg hblank] at h
  split at h
  · cases h
  · rename_i kind text htoken
    obtain ⟨us, -, h⟩ := bind_eq_ok.mp h
    cases h
    have hkind : kind.isWordOrNumber = false := hhead _ rfl
    cases hsign : scanSign (c :: rest) with
    | some token => exact apart_of_scanSign hsign
    | none =>
        rcases scanToken_of_no_sign hsign htoken with ⟨-, -, rfl⟩ | ⟨-, -, rfl⟩
        · cases hkind
        · rw [isWordOrNumber_wordKind] at hkind
          cases hkind

/-- No character of a lexeme is blank. -/
theorem Lexeme.isBlank_eq_false (h : Lexeme kind t) (hc : c ∈ t) : Text.isBlank c = false := by
  cases h with
  | sign hkind =>
      have hall : (kind.label.toList.all fun c => !Text.isBlank c) = true := by
        cases kind with
        | junction connective => cases connective <;> decide
        | compare op => cases op <;> decide
        | arith op => cases op <;> decide
        | number | name | bool | quantifier | list | finish => cases hkind
        | _ => decide
      simpa using List.all_eq_true.mp hall c hc
  | number hmantissa hexponent =>
      rcases number_chars hmantissa hexponent hc with hdigit | hmark
      · exact Reads.isBlank_of_isNameChar (by simp [isNameChar, Char.isAlphanum, hdigit])
      · have hall : (['.', 'e', 'E', '+', '-'].all fun c => !Text.isBlank c) = true := by decide
        simpa using List.all_eq_true.mp hall c hmark
  | word m hword =>
      obtain ⟨d, ds, hds, hd, hall⟩ := hword
      rw [String.toList_ofList] at hds
      subst hds
      apply Reads.isBlank_of_isNameChar
      rcases List.mem_cons.mp hc with rfl | hc
      · exact Reads.isNameChar_of_isNameStart hd
      · exact hall c hc

/-- A text has the same tokens in another place. -/
theorem scan_moved {us : List Token} (h : scan position m cs = .ok ts) (position' : Nat) :
    ∃ ts', scan position' m cs = .ok ts' ∧ Filled us false ts ts' := by
  fun_induction scan position m cs generalizing ts position' with
  | case1 position m =>
      cases h
      rw [scan]
      exact ⟨_, rfl, .cons rfl rfl .nil⟩
  | case2 position m c cs hblank ih =>
      rw [scan, if_pos hblank]
      exact ih h (position' + 1)
  | case3 position m c cs hblank htoken => cases h
  | case4 position m c cs hblank kind text htoken ih =>
      obtain ⟨rest, hrest, h⟩ := bind_eq_ok.mp h
      cases h
      obtain ⟨ts', hts', hrow⟩ := ih hrest (position' + text.length)
      rw [scan, if_neg hblank]
      simp only [htoken, hts']
      exact ⟨_, rfl, .cons rfl rfl hrow⟩

/-- A `0` between blanks is a token. -/
theorem scan_zero {after : List Char} (h : scan position m (' ' :: '0' :: ' ' :: after) = .ok ts) :
    ∃ us, ts = ⟨.number, "0", position + 1⟩ :: us ∧ scan (position + 3) false after = .ok us := by
  have hblank : Text.isBlank ' ' = true := by decide
  have hzero : Text.isBlank '0' = false := by decide
  have htoken : scanToken false ('0' :: ' ' :: after) = some (.number, ['0']) := rfl
  rw [scan, if_pos hblank, scan, if_neg (by simp [hzero])] at h
  simp only [htoken] at h
  obtain ⟨us, hus, h⟩ := bind_eq_ok.mp h
  cases h
  simp only [List.length_singleton, Nat.sub_self, List.drop_zero] at hus
  rw [scan, if_pos hblank] at hus
  exact ⟨us, rfl, hus⟩

/-- The text of an operand starts with a digit or a parenthesis. -/
def StartsOperand (cs : List Char) : Prop :=
  ∃ c ds, cs = c :: ds ∧ (c.isDigit = true ∨ c = '(')

/-- It is read in the same way right behind a tag marker as elsewhere. -/
theorem StartsOperand.scan (h : StartsOperand cs) (position : Nat) (m m' : Bool) :
    Lexer.scan position m (cs ++ rest) = Lexer.scan position m' (cs ++ rest) := by
  obtain ⟨c, ds, rfl, hdigit | rfl⟩ := h
  · have hsign : scanSign (c :: (ds ++ rest)) = none := Reads.scanSign_eq_none (Or.inr hdigit)
    have hnumber : scanNumber (c :: (ds ++ rest)) ≠ [] := by
      intro hnil
      have hmantissa : IsMantissa [c] := .whole (by simpa [IsDigits] using hdigit) (by simp)
      have hlongest := scanNumber_longest hmantissa .none (ds ++ rest)
      rw [List.append_nil, List.singleton_append, hnil] at hlongest
      cases hlongest
    rw [List.cons_append, Lexer.scan, Lexer.scan]
    simp [scanToken, hsign, hnumber]
  · exact scan_marker rfl position m m'

/-- No sign goes on with it. -/
theorem StartsOperand.startAlike (h : StartsOperand cs) (before after rest : List Char) :
    StartAlike (before ++ ' ' :: rest) (before ++ (cs ++ after)) := by
  cases before with
  | cons c before => exact fun _ _ => Iff.rfl
  | nil =>
      obtain ⟨c, ds, rfl, hc⟩ := h
      have hother : c ∉ ['&', '|', '='] := by
        intro hmem
        rcases hc with hdigit | rfl
        · have hall : (['&', '|', '='].all fun c => !c.isDigit) = true := by decide
          simpa [hdigit] using List.all_eq_true.mp hall c hmem
        · revert hmem
          decide
      intro next hnext
      have hne : c ≠ next := fun heq => hother (heq ▸ hnext)
      have hblank : ' ' ≠ next := by
        rintro rfl
        revert hnext
        decide
      simp [hne, hblank]

/-- The text of an operand is read in front of a text that does not go on with a number. -/
theorem scan_placed {operand : Expr} (hpiece : Piece .primary true true cs operand)
    (hstart : StartsOperand cs) {after : List Char} {us : List Token}
    (h : scan position false after = .ok us)
    (hhead : ∀ t ∈ us.head?, t.kind.isWordOrNumber = false) (position' : Nat) (m : Bool) :
    ∃ vs us', (∀ tail, Derives .primary (vs ++ tail) operand tail) ∧
      scan position' m (cs ++ after) = .ok (vs ++ us') ∧ Filled vs false us us' := by
  obtain ⟨vs, hread, hderives⟩ := hpiece.reads position' after ⟨apart_of_scan h hhead, by simp⟩
  obtain ⟨us', hus', hrow⟩ := scan_moved h (position' + cs.length)
  refine ⟨vs, us', fun tail => hderives tail (by simp [Behind]), ?_, hrow⟩
  rw [hstart.scan position' m false]
  exact hread us' hus'

/-- **Operands in texts.**  Where the text of an operand takes the place of a `0` between blanks,
its tokens take the place of this token, if no words or numbers stood side by side. -/
theorem scan_filled {operand : Expr} (hpiece : Piece .primary true true cs operand)
    (hstart : StartsOperand cs) {before after : List Char}
    (h : scan position m (before ++ ' ' :: '0' :: ' ' :: after) = .ok ts) (hspaced : Spaced ts)
    (position' : Nat) :
    ∃ us ts', (∀ tail, Derives .primary (us ++ tail) operand tail) ∧
      scan position' m (before ++ (cs ++ after)) = .ok ts' ∧ Filled us true ts ts' := by
  generalize htext : before ++ ' ' :: '0' :: ' ' :: after = text at h
  fun_induction scan position m text generalizing before ts position' with
  | case1 position m => simp at htext
  | case2 position m c text hblank ih =>
      cases before with
      | nil =>
          obtain ⟨rfl, rfl⟩ := List.cons.inj htext
          have hzero : scan position m (' ' :: '0' :: ' ' :: after) = .ok ts := by
            rw [scan, if_pos hblank]
            exact h
          obtain ⟨us, rfl, hus⟩ := scan_zero hzero
          obtain ⟨vs, us', hvs, hscan, hrow⟩ :=
            scan_placed hpiece hstart hus (hspaced.head rfl) position' m
          exact ⟨vs, vs ++ us', hvs, hscan, .hole rfl rfl hrow⟩
      | cons d before =>
          obtain ⟨rfl, rfl⟩ := List.cons.inj htext
          rw [List.cons_append, scan, if_pos hblank]
          exact ih hspaced (position' + 1) rfl h
  | case3 position m c text hblank htoken => cases h
  | case4 position m c text hblank kind t htoken ih =>
      obtain ⟨rest, hrest, h⟩ := bind_eq_ok.mp h
      cases h
      obtain ⟨⟨behind, hfront⟩, hne⟩ := scanToken_front htoken
      obtain ⟨d, u, rfl⟩ := List.exists_cons_of_ne_nil hne
      rw [List.cons_append] at hfront
      obtain ⟨rfl, rfl⟩ := List.cons.inj hfront
      cases before with
      | nil =>
          obtain ⟨rfl, -⟩ := List.cons.inj htext
          exact absurd (by decide) hblank
      | cons c before =>
          obtain ⟨rfl, hbehind⟩ := List.cons.inj htext
          -- The token ends in front of the blank.
          obtain ⟨mid, rfl, rfl⟩ : ∃ mid, before = u ++ mid ∧
              behind = mid ++ ' ' :: '0' :: ' ' :: after := by
            rcases List.append_eq_append_iff.mp hbehind with ⟨extra, hextra, hrest⟩ | ⟨mid, hmid⟩
            · cases extra with
              | nil => exact ⟨[], by simpa using hextra.symm, by simpa using hrest.symm⟩
              | cons e extra =>
                  obtain ⟨rfl, -⟩ := List.cons.inj hrest
                  have hmem : ' ' ∈ c :: u := by simp [hextra]
                  exact absurd ((scanToken_lexeme htoken).isBlank_eq_false hmem) (by decide)
            · exact ⟨mid, hmid⟩
          simp only [List.length_cons, Nat.add_sub_cancel, List.drop_left] at ih hrest
          obtain ⟨us, ts', hus, hts', hrow⟩ :=
            ih hspaced.tail (position' + (c :: u).length) rfl hrest
          have hapart : kind.isWordOrNumber = true → Apart (mid ++ (cs ++ after)) := by
            intro hword
            have hhead := hspaced.head hword
            cases mid with
            | nil =>
                obtain ⟨us, rfl, -⟩ := scan_zero hrest
                cases hhead _ rfl
            | cons d mid =>
                have hmid := apart_of_scan hrest hhead
                exact fun e he => hmid e he
          have hstays := scanToken_beside htoken hne (hstart.startAlike mid after _) hapart
          have hscan := scan_cons (by simpa using hblank) hstays hts'
          rw [List.cons_append, List.append_assoc, ← List.cons_append]
          exact ⟨us, _, hus, hscan, .cons rfl rfl hrow⟩

end Lexer

/-- **Operands in rules.**  Where a `0` between blanks is read in a rule, it is an operand of it,
and the text of any numeric operand may take its place, blanks included.  That text is read as the
same rule with that operand. -/
theorem Expr.parse_placed {text : String} {operand : Expr}
    (hpiece : Piece .primary true true text.toList operand)
    (hstart : Lexer.StartsOperand text.toList)
    (hoperand : ∀ bound, Typed bound operand (.value .numeric)) {before after : String} {e : Expr}
    (h : Expr.parse (before ++ " 0 " ++ after) = .ok e) :
    ∃ context : Expr.Context, e = context.fill (.number 0) ∧
      Expr.ReadAs (before ++ text ++ after) (context.fill operand) := by
  obtain ⟨ts, htokens, hspells⟩ := Expr.spells_of_parse h
  have hspaced : Spaced ts := by
    obtain ⟨last, hlast, hderives⟩ := hspells.derives
    obtain ⟨front, hts, hfront⟩ := hderives.spaced.close (by rw [hlast]; rfl)
    rwa [hts, List.append_nil]
  have hscan :
      Lexer.scan 0 false (before.toList ++ ' ' :: '0' :: ' ' :: after.toList) = .ok ts := by
    rw [← htokens, Lexer.tokenize]
    simp
  obtain ⟨us, ts', hus, hscan', hrow⟩ := Lexer.scan_filled hpiece hstart hscan hspaced 0
  obtain ⟨context, rfl, hspells'⟩ := hspells.filled hus hoperand hrow
  refine ⟨context, rfl, hspells'.readAs ?_⟩
  rw [Lexer.tokenize]
  simpa using hscan'

end DiagramFilter
