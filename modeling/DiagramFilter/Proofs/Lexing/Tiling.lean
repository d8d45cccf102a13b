import DiagramFilter.Proofs.Lexing.Lexemes

/-!
# Tokens tile their text

The tokens of a text lie on it side by side, each on the characters that it is made of, and only
blanks show between them (`Tiles`).  Each of them is the longest lexeme that starts at its place
(`Token.Stands`).  Where no lexeme starts and no blank stands, the splitting of the text ends with
an error at that place, and what comes before is tiled all the same (`Tokenized`).
-/

namespace DiagramFilter

open Lexer (Lexeme EndsInMarker wordKind)

/-- The offset right behind a token. -/
def Token.stop (t : Token) : Nat :=
  t.position + t.text.length

/-- A token is made of the characters at its place in a text, which are the longest lexeme that
starts there.  A word is a name right behind a tag marker and elsewhere what its letters say. -/
structure Token.Stands (text : List Char) (t : Token) : Prop where
  nonempty : t.text ≠ ""
  slice : (text.drop t.position).take t.text.length = t.text.toList
  lexeme : Lexeme t.kind t.text.toList
  longest : ∀ kind u, Lexeme kind u → u <+: text.drop t.position → u.length ≤ t.text.length
  name : IsIdentifier t.text → EndsInMarker (text.take t.position) → t.kind = .name
  keyword : IsIdentifier t.text → ¬ EndsInMarker (text.take t.position) →
    t.kind = .ofWord t.text

/-- Tokens cover a text from one offset to another, in order and side by side, and leave nothing
but blanks uncovered. -/
structure Tiles (text : List Char) (start stop : Nat) (ts : List Token) : Prop where
  le : start ≤ stop
  stands : ∀ t ∈ ts, t.Stands text
  within : ∀ t ∈ ts, start ≤ t.position ∧ t.stop ≤ stop
  ordered : ts.Pairwise fun t u => t.stop ≤ u.position
  blank : ∀ i c, start ≤ i → i < stop → text[i]? = some c →
    (∀ t ∈ ts, i < t.position ∨ t.stop ≤ i) → Text.isBlank c = true

/-- What the splitting of a text from an offset on may come to: tokens that tile it and one for the
end of the rule, or an error at the first character that is no blank, that no token covers and that
starts no lexeme. -/
inductive Tokenized (text : List Char) (start : Nat) : Except ParseError (List Token) → Prop
  | ok {ts : List Token} (h : Tiles text start text.length ts) :
      Tokenized text start (.ok (ts ++ [⟨.finish, "", text.length⟩]))
  | error {ts : List Token} {position : Nat} {c : Char} (h : Tiles text start position ts)
      (hc : text[position]? = some c) (hblank : Text.isBlank c = false)
      (hnone : ∀ kind u, Lexeme kind u → ¬ u <+: text.drop position) :
      Tokenized text start (.error (.form
        (.unexpectedCharacter (Text.quoted (String.singleton c))) (some position)))

variable {text : List Char} {start stop : Nat} {t : Token} {ts : List Token}

namespace Tiles

/-- An empty piece of a text is tiled by no tokens. -/
theorem nil (text : List Char) (start : Nat) : Tiles text start start [] where
  le := le_refl start
  stands := List.forall_mem_nil _
  within := List.forall_mem_nil _
  ordered := .nil
  blank := by
    intro i c hstart hstop
    omega

/-- A blank in front of a tiling. -/
theorem blank_cons {c : Char} (hc : text[start]? = some c) (hblank : Text.isBlank c = true)
    (h : Tiles text (start + 1) stop ts) : Tiles text start stop ts where
  le := by
    have hle := h.le
    omega
  stands := h.stands
  within := by
    intro t ht
    obtain ⟨hstart, hstop⟩ := h.within t ht
    exact ⟨by omega, hstop⟩
  ordered := h.ordered
  blank := by
    intro i d hstart hstop hd hfree
    rcases Nat.eq_or_lt_of_le hstart with rfl | hlt
    · rw [hc] at hd
      cases hd
      exact hblank
    · exact h.blank i d hlt hstop hd hfree

/-- A token in front of a tiling. -/
theorem cons (ht : t.Stands text) (h : Tiles text t.stop stop ts) :
    Tiles text t.position stop (t :: ts) where
  le := le_trans (Nat.le_add_right _ _) h.le
  stands := List.forall_mem_cons.mpr ⟨ht, h.stands⟩
  within := by
    refine List.forall_mem_cons.mpr ⟨⟨le_refl _, h.le⟩, ?_⟩
    intro u hu
    obtain ⟨hstart, hstop⟩ := h.within u hu
    exact ⟨le_trans (Nat.le_add_right _ _) hstart, hstop⟩
  ordered := List.pairwise_cons.mpr ⟨fun u hu => (h.within u hu).1, h.ordered⟩
  blank := by
    intro i c hstart hstop hc hfree
    obtain ⟨hfirst, hfree⟩ := List.forall_mem_cons.mp hfree
    have hbehind : t.stop ≤ i := by omega
    exact h.blank i c hbehind hstop hc hfree

end Tiles

namespace Tokenized

variable {result : Except ParseError (List Token)}

/-- A blank in front leaves the tokens as they are. -/
theorem blank_cons {c : Char} (hc : text[start]? = some c) (hblank : Text.isBlank c = true)
    (h : Tokenized text (start + 1) result) : Tokenized text start result := by
  cases h with
  | ok h => exact .ok (h.blank_cons hc hblank)
  | error h hd hnoblank hnone => exact .error (h.blank_cons hc hblank) hd hnoblank hnone

/-- A token in front of a row that tiles the rest makes a row that tiles the text. -/
theorem cons (ht : t.Stands text) (h : Tokenized text t.stop result) :
    Tokenized text t.position (result >>= fun ts => return t :: ts) := by
  cases h with
  | ok h => exact .ok (h.cons ht)
  | error h hc hblank hnone => exact .error (h.cons ht) hc hblank hnone

end Tokenized

namespace Lexer

variable {m : Bool} {front cs u : List Char} {kind : TokenKind}

/-- What is found behind a front stands there. -/
theorem stands_of_scanToken (hm : m = true ↔ EndsInMarker front)
    (h : scanToken m cs = some (kind, u)) :
    Token.Stands (front ++ cs) ⟨kind, String.ofList u, front.length⟩ := by
  obtain ⟨⟨rest, rfl⟩, hne⟩ := scanToken_front h
  have hword : IsIdentifier (String.ofList u) → kind = wordKind m u := by
    rintro ⟨c, ds, hu, hc, -⟩
    rw [String.toList_ofList] at hu
    subst hu
    rw [List.cons_append, scanToken_word hc, Option.some.injEq, Prod.mk.injEq] at h
    obtain ⟨hkind, hlongest⟩ := h
    rw [← hkind, hlongest]
  refine ⟨?_, ?_, ?_, ?_, ?_, ?_⟩
  · intro hempty
    apply hne
    have htext : String.ofList u = "" := hempty
    rw [← String.toList_ofList (l := u), htext]
    rfl
  · simp
  · rw [String.toList_ofList]
    exact scanToken_lexeme h
  · intro kind' v hv hfront
    rw [List.drop_left] at hfront
    obtain ⟨kind', t, hfound, hlength⟩ := scanToken_longest hv hfront m
    rw [h] at hfound
    cases hfound
    simpa using hlength
  · intro hidentifier hends
    rw [List.take_left] at hends
    rw [hword hidentifier, wordKind, if_pos (hm.mpr hends)]
  · intro hidentifier hends
    rw [List.take_left] at hends
    rw [hword hidentifier, wordKind, if_neg (mt hm.mp hends)]

/-- Splitting goes on behind any front of a text: the rest of the text is tiled from there on.  That
a marker has just been read can be seen from the front. -/
theorem scan_tokenized (front cs : List Char) (m : Bool) (hm : m = true ↔ EndsInMarker front) :
    Tokenized (front ++ cs) front.length (scan front.length m cs) := by
  generalize hposition : front.length = position
  fun_induction scan position m cs generalizing front with
  | case1 position m =>
      rw [← hposition, List.append_nil]
      exact .ok (.nil front front.length)
  | case2 position m c cs hblank ih =>
      have hfront : false = true ↔ EndsInMarker (front ++ [c]) := by
        rw [endsInMarker_append front (List.cons_ne_nil c [])]
        exact iff_of_false (by simp) (not_endsInMarker_blank hblank)
      have htail := ih _ hfront (by simp [hposition])
      rw [List.append_assoc] at htail
      refine htail.blank_cons ?_ hblank
      rw [← hposition]
      simp
  | case3 position m c cs hblank hnone =>
      subst hposition
      refine .error (.nil _ _) (by simp) (by simpa using hblank) ?_
      intro kind u hu hstarts
      rw [List.drop_left] at hstarts
      exact not_lexeme_of_scanToken hnone hstarts hu
  | case4 position m c cs hblank kind u htoken ih =>
      subst hposition
      have hstands := stands_of_scanToken hm htoken
      obtain ⟨⟨rest, hrest⟩, hne⟩ := scanToken_front htoken
      have hbehind : cs.drop (u.length - 1) = rest := by
        obtain ⟨d, u, rfl⟩ := List.exists_cons_of_ne_nil hne
        obtain ⟨rfl, rfl⟩ := List.cons.inj hrest
        simp
      have hfront : kind.isTagMarker = true ↔ EndsInMarker (front ++ u) := by
        rw [endsInMarker_append front hne, endsInMarker_iff (scanToken_lexeme htoken)]
      rw [hbehind] at ih
      have htail := ih _ hfront (by simp)
      rw [List.append_assoc, hrest] at htail
      refine Tokenized.cons hstands ?_
      rw [Token.stop, String.length_ofList, hbehind]
      exact htail

/-- A text is tiled from its first character on, in front of which there is no tag marker. -/
theorem scan_tiles (text : List Char) : Tokenized text 0 (scan 0 false text) :=
  scan_tokenized [] text false (by simp [EndsInMarker])

/-- **Longest match.**  Every text is split into tokens that tile it, each of them the longest
lexeme at its place, with the end of the rule behind the last character; or else the splitting ends
at the first character that is no blank and starts no lexeme, behind tokens that tile the text up to
there.  So no sign stands in front of a character that would prolong it, and no number or word
could be extended to the right. -/
theorem tokenize_tiles (text : String) : Tokenized text.toList 0 (tokenize text) :=
  scan_tiles text.toList

end Lexer

end DiagramFilter
