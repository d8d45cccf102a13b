import DiagramFilter.Proofs.Layout.Parsing
import DiagramFilter.Proofs.Lexing.Tiling

/-!
# Carets below errors

The message of an error in a rule shows the text of the rule, and in a line of its own below it a
caret for the position of the error.  The position is always one of the text or right behind it
(`Expr.parse_position`).  The caret stands as far from the margin as if all of the text were in one
line.  So it points at the position if the text has one line, and at a wrong place, or at nothing
at all, if it has several (`Expr.parse_caret`).
-/

namespace DiagramFilter

variable {text : String} {e : ParseError}

/-- All tokens of a text, with the end of the rule, are at places of the text. -/
theorem Lexer.position_le {ts : List Token} (h : Lexer.tokenize text = .ok ts) :
    ∀ t ∈ ts, t.position ≤ text.toList.length := by
  have htiles := Lexer.scan_tiles text.toList
  have hscan : Lexer.scan 0 false text.toList = .ok ts := h
  rw [hscan] at htiles
  cases htiles with
  | ok htiles =>
      intro t ht
      rcases List.mem_append.mp ht with ht | ht
      · exact le_trans (Nat.le_add_right _ _) (htiles.within t ht).2
      · obtain rfl := List.mem_singleton.mp ht
        exact le_refl _

/-- Equal positions of a text with a number of characters. -/
def SameWithin (length position position' : Nat) : Prop :=
  position = position' ∧ position ≤ length

/-- The tokens of a text beside themselves. -/
theorem Lexer.rows_self {ts : List Token} (h : Lexer.tokenize text = .ok ts) :
    Rows (SameWithin text.toList.length) false ts ts := by
  have hscan : Lexer.scan 0 false text.toList = .ok ts := h
  obtain ⟨ts', hts', hrows⟩ := Lexer.scan_relaid (Lexer.scan_laid hscan false) hscan 0
  obtain rfl : ts = ts' := by
    rw [hscan] at hts'
    exact Except.ok.inj hts'
  refine hrows.related fun i t t' ht ht' => ?_
  rw [ht] at ht'
  cases ht'
  exact ⟨rfl, Lexer.position_le h t (List.mem_of_getElem? ht)⟩

/-- The position of an error, if it has one, is that of a character of the text or of its end. -/
theorem Expr.parse_position (h : Expr.parse text = .error e) :
    e.position = -1 ∨ ∃ p : Nat, e.position = p ∧ p ≤ text.toList.length := by
  rcases bind_eq_error.mp h with h | ⟨ts, htokens, h⟩
  · have htiles := Lexer.scan_tiles text.toList
    have hscan : Lexer.scan 0 false text.toList = .error e := h
    rw [hscan] at htiles
    cases htiles with
    | error htiles hc hblank hnone =>
        obtain ⟨hlt, -⟩ := List.getElem?_eq_some_iff.mp hc
        exact Or.inr ⟨_, rfl, hlt.le⟩
  · have halike := Parser.rule_alike (Lexer.rows_self htokens)
    rw [h] at halike
    cases halike with
    | error halike =>
        cases halike with
        | form fault hposition =>
            cases hposition with
            | none => exact Or.inl rfl
            | some hsame => exact Or.inr ⟨_, rfl, hsame.2⟩
        | kind fault hsame => exact Or.inr ⟨_, rfl, hsame.2⟩
        | undefinedVariable fault => exact Or.inl rfl

/-- The number of characters of a text in its last line.  Lines end with line feeds. -/
def column (cs : List Char) : Nat :=
  (cs.reverse.takeWhile fun c => c != '\n').length

/-- Characters of the same line move the column to the right. -/
theorem column_append (cs : List Char) {ds : List Char} (hds : '\n' ∉ ds) :
    column (cs ++ ds) = column cs + ds.length := by
  have hall : ∀ c ∈ ds.reverse, (c != '\n') = true := by
    intro c hc
    rw [bne_iff_ne]
    rintro rfl
    exact hds (List.mem_reverse.mp hc)
  rw [column, column, List.reverse_append, List.takeWhile_append_of_pos hall, List.length_append,
    List.length_reverse, Nat.add_comm]

/-- A line break starts a new line. -/
theorem column_break (cs : List Char) : column (cs ++ ['\n']) = 0 := by
  simp [column]

/-- Behind a line break only the characters of the new line count. -/
theorem column_line (cs : List Char) {ds : List Char} (hds : '\n' ∉ ds) :
    column (cs ++ '\n' :: ds) = ds.length := by
  rw [← List.singleton_append, ← List.append_assoc, column_append _ hds, column_break, Nat.zero_add]

/-- A text with a line break has fewer characters in its last line than it has at all. -/
theorem column_lt (cs : List Char) {ds : List Char} (hds : '\n' ∈ ds) :
    column (cs ++ ds) < ds.length := by
  obtain ⟨line, before, hreverse, hline⟩ :=
    List.eq_append_cons_of_mem (List.mem_reverse.mpr hds)
  have hsplit : ds = before.reverse ++ '\n' :: line.reverse := by
    rw [← List.reverse_reverse ds, hreverse]
    simp
  rw [hsplit, ← List.append_assoc, column_line _ (mt List.mem_reverse.mp hline)]
  simp
  omega

/-- A message shows a text and ends with a caret in a line of its own.  The place `p` of the text is
in the line right above the caret, and in the column of the caret. -/
def PointsAt (message text : String) (p : Nat) : Prop :=
  ∃ lead indent, message.toList =
      lead ++ text.toList ++ '\n' :: (List.replicate indent ' ' ++ ['^']) ∧
    '\n' ∉ text.toList.drop p ∧ column (lead ++ text.toList.take p) = indent

/-- The form of a message with a caret. -/
theorem withPointer_toList (reason : String) (htext : text ≠ "") (p : Nat) :
    (withPointer reason text p).toList = reason.toList ++ ['\n', ' ', ' '] ++ text.toList ++
      '\n' :: (List.replicate (p + 2) ' ' ++ ['^']) := by
  have hempty : text.isEmpty = false := by simpa using htext
  have hplace : ¬ (p : Int) < 0 := by omega
  simp [withPointer, hempty, hplace, List.replicate_succ]

/-- A caret points at its place if the text has only one line, and at no place of a longer text. -/
theorem withPointer_pointsAt (reason : String) (htext : text ≠ "") {p : Nat}
    (hp : p ≤ text.toList.length) :
    PointsAt (withPointer reason text p) text p ↔ '\n' ∉ text.toList := by
  have hlast : ∀ k, '\n' ∉ List.replicate k ' ' ++ ['^'] := by
    intro k hmem
    simp at hmem
  have htake : (text.toList.take p).length = p := by
    rw [List.length_take, Nat.min_eq_left hp]
  constructor
  · rintro ⟨lead, indent, hmessage, hline, hcolumn⟩ hbreak
    -- Both last lines are the same, and the column of the caret is known of one of them.
    have hindent : indent = p + 2 := by
      have hcolumns := congrArg column hmessage
      rw [withPointer_toList reason htext, column_line _ (hlast _), column_line _ (hlast _)]
        at hcolumns
      simpa using hcolumns.symm
    rw [← List.take_append_drop p text.toList] at hbreak
    rcases List.mem_append.mp hbreak with hbreak | hbreak
    · have hlt := column_lt lead hbreak
      omega
    · exact hline hbreak
  · intro hone
    refine ⟨reason.toList ++ ['\n', ' ', ' '], p + 2, withPointer_toList reason htext p, ?_, ?_⟩
    · exact fun hmem => hone (List.mem_of_mem_drop hmem)
    · rw [column_append _ fun hmem => hone (List.mem_of_mem_take hmem), column_line _ (by simp),
        htake]
      simp [Nat.add_comm]

/-- **Carets.**  The position of an error in a text, if it has one, is that of a character of the
text or of its end.  The caret of its message points at this position if, and only if, the text has
no line feeds.  Only a line feed ends a line here: a carriage return or another separator takes one
column of its line, as any character does. -/
theorem Expr.parse_caret (h : Expr.parse text = .error e) (htext : text ≠ "")
    (hposition : e.position ≠ -1) :
    ∃ p : Nat, e.position = p ∧ p ≤ text.toList.length ∧
      (PointsAt (e.message text) text p ↔ '\n' ∉ text.toList) := by
  rcases Expr.parse_position h with hnone | ⟨p, hp, hle⟩
  · exact absurd hnone hposition
  · refine ⟨p, hp, hle, ?_⟩
    rw [ParseError.message, hp]
    exact withPointer_pointsAt e.reason htext hle

/-- The caret for the end of a rule stands right behind its text. -/
theorem Expr.parse_caret_end :
    Expr.parse "#a &&" = .error (.form .missingOperand (some 5)) ∧
      PointsAt "Unexpected end of rule, expected an operand\n  #a &&\n       ^" "#a &&" 5 := by
  have htokens : Lexer.tokenize "#a &&" =
      .ok [⟨.hash, "#", 0⟩, ⟨.name, "a", 1⟩, ⟨.junction .and, "&&", 3⟩, ⟨.finish, "", 5⟩] := by
    decide +kernel
  have hparse : Expr.parse "#a &&" = .error (.form .missingOperand (some 5)) := by
    rw [Expr.parse, htokens]
    rfl
  have hmessage : ParseError.message "#a &&" (.form .missingOperand (some 5)) =
      "Unexpected end of rule, expected an operand\n  #a &&\n       ^" := by
    decide +kernel
  obtain ⟨p, hp, -, hcaret⟩ := Expr.parse_caret hparse (by decide) (by decide)
  obtain rfl : 5 = p := Int.ofNat.inj hp
  rw [hmessage] at hcaret
  exact ⟨hparse, hcaret.mpr (by decide)⟩

/-- The second word stands at the margin of its line, and the caret behind that line. -/
theorem Expr.parse_caret_astray :
    Expr.parse "true\ntrue" = .error (.form (.trailing (some "true")) (some 5)) ∧
      ParseError.message "true\ntrue" (.form (.trailing (some "true")) (some 5)) =
        "Unexpected 'true' after rule\n  true\ntrue\n       ^" ∧
      ¬ PointsAt "Unexpected 'true' after rule\n  true\ntrue\n       ^" "true\ntrue" 5 := by
  have htokens : Lexer.tokenize "true\ntrue" =
      .ok [⟨.bool true, "true", 0⟩, ⟨.bool true, "true", 5⟩, ⟨.finish, "", 9⟩] := by
    decide +kernel
  have hmessage : ParseError.message "true\ntrue" (.form (.trailing (some "true")) (some 5)) =
      "Unexpected 'true' after rule\n  true\ntrue\n       ^" := by
    decide +kernel
  refine ⟨by rw [Expr.parse, htokens]; rfl, hmessage, ?_⟩
  rw [← hmessage]
  intro hpoints
  have hone := (withPointer_pointsAt _ (by decide) (by decide)).mp hpoints
  exact hone (by decide)

end DiagramFilter
