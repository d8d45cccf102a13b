import DiagramFilter.Outcome
import DiagramFilter.Proofs.Lexing.LongestMatch

/-!
# Tokens in another layout

A text is its tokens in order with blanks between them, and other blanks make another layout of the
same tokens.  Where tokens touch, they may be taken apart, and where they are apart, they stay so;
everything else about the blanks may change (`Relaid`).

The tokens of the two layouts are the same, one by one (`Lexer.scan_relaid`), with one exception: a
word right behind a tag marker is a name, and when it is moved away from the marker it is whatever
the word is elsewhere.  `Rows` keeps track of this.
-/

namespace DiagramFilter

open Lexer (Cropped)

/-- Blanks, or nothing. -/
def IsGap (gap : List Char) : Prop :=
  ∀ c ∈ gap, Text.isBlank c = true

/-- Nothing is a gap. -/
theorem IsGap.nil : IsGap [] :=
  List.forall_mem_nil _

/-- Two texts that both are the given tokens in order, with gaps before each.  The last token is the
end of the rule and has no characters.  Between two tokens (`inner`) the gap of the second text is
empty only if that of the first one is. -/
inductive Relaid : (inner : Bool) → List Token → List Char → List Char → Prop
  | finish {inner : Bool} {t : Token} {gap gap' : List Char} (hgap : IsGap gap)
      (hgap' : IsGap gap') : Relaid inner [t] gap gap'
  | cons {inner : Bool} {t : Token} {ts : List Token} {gap gap' cs cs' : List Char}
      (hgap : IsGap gap) (hgap' : IsGap gap') (hinner : inner = true → gap' = [] → gap = [])
      (hrest : Relaid true ts cs cs') :
      Relaid inner (t :: ts) (gap ++ (t.text.toList ++ cs)) (gap' ++ (t.text.toList ++ cs'))

namespace Relaid

variable {inner : Bool} {ts : List Token} {cs cs' : List Char}

/-- Behind a token the other layout goes on as the first one, or with a blank. -/
theorem cropped (h : Relaid true ts cs cs') : Cropped cs' cs := by
  generalize hinner : true = inner at h
  induction h with
  | @finish inner t gap gap' hgap hgap' =>
      cases gap' with
      | nil => exact .nil
      | cons c gap' => exact .blank (hgap' c List.mem_cons_self)
  | @cons inner t ts gap gap' cs cs' hgap hgap' hgaps hrest ih =>
      cases gap' with
      | nil =>
          rw [hgaps hinner.symm rfl]
          exact (ih rfl).append _
      | cons c gap' => exact .blank (hgap' c List.mem_cons_self)

/-- A blank at the front of both texts. -/
theorem blank {c : Char} (hc : Text.isBlank c = true) (h : Relaid inner ts cs cs') :
    Relaid inner ts (c :: cs) (c :: cs') := by
  have hcons : ∀ {gap : List Char}, IsGap gap → IsGap (c :: gap) :=
    fun hgap => List.forall_mem_cons.mpr ⟨hc, hgap⟩
  cases h with
  | finish hgap hgap' => exact .finish (hcons hgap) (hcons hgap')
  | cons hgap hgap' hinner hrest => exact .cons (hcons hgap) (hcons hgap') (by simp) hrest

end Relaid

/-- A name or a keyword. -/
def TokenKind.IsWord (kind : TokenKind) : Prop :=
  kind = .name ∨ kind.isKeyword = true

/-- Two tokens with the same text and of the same kind, at related positions.  Right behind a tag
marker a word may be of one kind in one place and of another in the other. -/
structure Token.Alike (R : Nat → Nat → Prop) (afterMarker : Bool) (t t' : Token) : Prop where
  kind : t.kind = t'.kind ∨ afterMarker = true ∧ t.kind.IsWord ∧ t'.kind.IsWord
  text : t.text = t'.text
  position : R t.position t'.position

/-- Two rows of tokens that are alike one by one, up to the end of both rules. -/
inductive Rows (R : Nat → Nat → Prop) : (afterMarker : Bool) → List Token → List Token → Prop
  | finish {m : Bool} {t t' : Token} (h : t.Alike R m t') (ht : t.kind = .finish) :
      Rows R m [t] [t']
  | cons {m : Bool} {t t' : Token} {ts ts' : List Token} (h : t.Alike R m t')
      (ht : t.kind ≠ .finish) (hrest : Rows R t.kind.isTagMarker ts ts') :
      Rows R m (t :: ts) (t' :: ts')

namespace Rows

variable {R : Nat → Nat → Prop} {m : Bool} {ts ts' : List Token}

/-- Alike rows are of one length. -/
theorem length_eq (h : Rows R m ts ts') : ts.length = ts'.length := by
  induction h with
  | finish h ht => rfl
  | cons h ht hrest ih => rw [List.length_cons, List.length_cons, ih]

/-- Alike rows have the same texts. -/
theorem texts_eq (h : Rows R m ts ts') : ts.map Token.text = ts'.map Token.text := by
  induction h with
  | finish h ht => rw [List.map_singleton, List.map_singleton, h.text]
  | cons h ht hrest ih => rw [List.map_cons, List.map_cons, h.text, ih]

/-- Tokens with the same number are at positions that are related in any way in which they all
are. -/
theorem related {R' : Nat → Nat → Prop} (h : Rows R m ts ts')
    (hR : ∀ (i : Nat) (t t' : Token), ts[i]? = some t → ts'[i]? = some t' →
      R' t.position t'.position) :
    Rows R' m ts ts' := by
  induction h with
  | finish h ht => exact .finish ⟨h.kind, h.text, hR 0 _ _ rfl rfl⟩ ht
  | cons h ht hrest ih =>
      refine .cons ⟨h.kind, h.text, hR 0 _ _ rfl rfl⟩ ht (ih ?_)
      intro i t t' ht ht'
      exact hR (i + 1) t t' (by simpa using ht) (by simpa using ht')

end Rows

namespace Lexer

variable {m : Bool} {position : Nat} {cs gap : List Char} {t : Token} {ts : List Token}

/-- A gap is passed over, and what is behind it is no longer right behind a tag marker. -/
theorem scan_gap (hgap : IsGap gap) (position : Nat) (m : Bool) (cs : List Char) :
    scan position m (gap ++ cs) = scan (position + gap.length) (gap.isEmpty && m) cs := by
  induction gap generalizing position m with
  | nil => rfl
  | cons c gap ih =>
      obtain ⟨hc, hgap⟩ := List.forall_mem_cons.mp hgap
      rw [List.cons_append, scan, if_pos hc, ih hgap]
      simp [Nat.add_assoc, Nat.add_comm 1]

/-- Every token but the last starts with a character that is no blank. -/
theorem scan_starts (h : scan position m cs = .ok (t :: ts)) (hts : ts ≠ []) :
    ∃ c u, t.text.toList = c :: u ∧ Text.isBlank c = false := by
  fun_induction scan position m cs with
  | case1 position m =>
      cases h
      exact absurd rfl hts
  | case2 position m c cs hblank ih => exact ih h
  | case3 position m c cs hblank htoken => cases h
  | case4 position m c cs hblank kind text htoken ih =>
      obtain ⟨rest, hrest, h⟩ := bind_eq_ok.mp h
      cases h
      obtain ⟨⟨rest', hfront⟩, hne⟩ := scanToken_front htoken
      obtain ⟨d, u, rfl⟩ := List.exists_cons_of_ne_nil hne
      rw [List.cons_append] at hfront
      obtain ⟨rfl, -⟩ := List.cons.inj hfront
      exact ⟨d, u, String.toList_ofList, by simpa using hblank⟩

/-- The first token of a text and what is scanned behind it. -/
theorem scan_first {c : Char} {u : List Char} (htext : t.text.toList = c :: u)
    (hc : Text.isBlank c = false) (h : scan position m (c :: u ++ cs) = .ok (t :: ts)) :
    scanToken m (c :: u ++ cs) = some (t.kind, c :: u) ∧
      scan (position + (c :: u).length) t.kind.isTagMarker cs = .ok ts := by
  rw [List.cons_append] at h ⊢
  rw [scan, if_neg (by simp [hc])] at h
  split at h
  · cases h
  · rename_i kind text htoken
    obtain ⟨rest, hrest, h⟩ := bind_eq_ok.mp h
    cases h
    rw [String.toList_ofList] at htext
    subst htext
    exact ⟨htoken, by simpa using hrest⟩

/-- A token that is found at the front of a text, with the tokens behind it. -/
theorem scan_cons {c : Char} {u : List Char} {kind : TokenKind} (hc : Text.isBlank c = false)
    (htoken : scanToken m (c :: u ++ cs) = some (kind, c :: u))
    (hrest : scan (position + (c :: u).length) kind.isTagMarker cs = .ok ts) :
    scan position m (c :: u ++ cs) = .ok (⟨kind, String.ofList (c :: u), position⟩ :: ts) := by
  have hread := Reads.token position htoken hc
  exact hread ts hrest

/-- Every text is laid out as its tokens with gaps before them. -/
theorem scan_laid (h : scan position m cs = .ok ts) (inner : Bool) : Relaid inner ts cs cs := by
  fun_induction scan position m cs generalizing ts inner with
  | case1 position m =>
      cases h
      exact .finish .nil .nil
  | case2 position m c cs hblank ih => exact (ih h inner).blank hblank
  | case3 position m c cs hblank htoken => cases h
  | case4 position m c cs hblank kind text htoken ih =>
      obtain ⟨rest, hrest, h⟩ := bind_eq_ok.mp h
      cases h
      obtain ⟨⟨behind, hfront⟩, hne⟩ := scanToken_front htoken
      obtain ⟨d, u, rfl⟩ := List.exists_cons_of_ne_nil hne
      rw [List.cons_append] at hfront
      obtain ⟨rfl, rfl⟩ := List.cons.inj hfront
      have hlaid : Relaid inner (⟨kind, String.ofList (d :: u), position⟩ :: rest) _ _ :=
        .cons .nil .nil (fun _ _ => rfl) (ih hrest true)
      simpa using hlaid

/-- What a word is, behind a tag marker or not, is a kind of words. -/
theorem isWord_wordKind (m : Bool) (word : List Char) : (wordKind m word).IsWord := by
  cases m with
  | true => exact Or.inl rfl
  | false => exact TokenKind.ofWord_cases _

/-- Tag markers are no words. -/
theorem isTagMarker_of_isWord {kind : TokenKind} (h : kind.IsWord) : kind.isTagMarker = false := by
  rcases h with rfl | h
  · rfl
  · cases kind <;> first | rfl | cases h

/-- **Layouts.**  A text in another layout has the same tokens, but for the kinds of words that are
moved away from tag markers. -/
theorem scan_relaid {inner : Bool} {cs' : List Char} (hlaid : Relaid inner ts cs cs')
    (h : scan position m cs = .ok ts) (position' : Nat) :
    ∃ ts', scan position' m cs' = .ok ts' ∧ Rows (fun _ _ => True) m ts ts' := by
  induction hlaid generalizing position position' m with
  | @finish inner t gap gap' hgap hgap' =>
      have hscan := scan_gap hgap position m []
      have hscan' := scan_gap hgap' position' m []
      rw [List.append_nil] at hscan hscan'
      rw [hscan, scan] at h
      cases h
      rw [hscan', scan]
      exact ⟨_, rfl, .finish ⟨Or.inl rfl, rfl, trivial⟩ rfl⟩
  | @cons inner t ts gap gap' cs cs' hgap hgap' hinner hrest ih =>
      have hts : ts ≠ [] := by
        rintro rfl
        cases hrest
      obtain ⟨c, u, htext, hc⟩ := scan_starts h hts
      rw [scan_gap hgap, htext] at h
      obtain ⟨htoken, hbehind⟩ := scan_first htext hc h
      rw [scan_gap hgap', htext]
      have hfinish := (scanToken_spec htoken).1
      have hsame : t.text = String.ofList (c :: u) := by rw [← htext, String.ofList_toList]
      obtain ⟨ts', hts', hrows⟩ := ih hbehind (position' + gap'.length + (c :: u).length)
      rcases scanToken_cropped hrest.cropped (List.cons_ne_nil c u) htoken with
        hstays | ⟨hkind, hword⟩
      · exact ⟨_, scan_cons hc (hstays _) hts', .cons ⟨Or.inl rfl, hsame, trivial⟩ hfinish hrows⟩
      · have hmarker := isTagMarker_of_isWord (isWord_wordKind (gap'.isEmpty && m) (c :: u))
        have hold := isWord_wordKind (gap.isEmpty && m) (c :: u)
        rw [hkind, isTagMarker_of_isWord hold, ← hmarker] at hts'
        refine ⟨_, scan_cons hc (hword _) hts', .cons ⟨?_, hsame, trivial⟩ hfinish hrows⟩
        -- Only right behind a marker does it matter for a word whether there is a gap.
        cases m with
        | false => exact Or.inl (by simpa using hkind)
        | true => exact Or.inr ⟨rfl, hkind ▸ hold, isWord_wordKind _ _⟩

end Lexer

end DiagramFilter
