import DiagramFilter.Proofs.Embedding.Closing
import DiagramFilter.Proofs.Writing.Piece

/-!
# Rules inside brackets

A text that spells a rule by itself is read as a phrase of the same expression wherever a closing
bracket stands behind it (`Spells.enclosed`).  Two things make this true.

* No token goes on with the bracket, so the text has the tokens that it has by itself, at other
  places (`Lexer.scan_closed`).
* A derivation does not look at the places of tokens, and never at the token at the end of the
  rule, so that other tokens may stand there (`Derives.continued`).
-/

namespace DiagramFilter

open Lexer (Reads)

/-- The second row has the tokens of the first one, wherever they stand, and goes on with others
where the first one ends. -/
inductive Continued (tail : List Token) : List Token → List Token → Prop
  | finish {t : Token} (ht : t.kind = .finish) : Continued tail [t] tail
  | cons {t t' : Token} {ts ts' : List Token} (hfinish : t.kind ≠ .finish)
      (hkind : t'.kind = t.kind) (htext : t'.text = t.text) (hrest : Continued tail ts ts') :
      Continued tail (t :: ts) (t' :: ts')

namespace Continued

variable {tail ts us : List Token} {t : Token}

/-- A token that does not end the rule is in both rows. -/
theorem uncons (h : Continued tail (t :: ts) us) (ht : t.kind ≠ .finish) :
    ∃ t' ts', us = t' :: ts' ∧ t'.kind = t.kind ∧ t'.text = t.text ∧ Continued tail ts ts' := by
  cases h with
  | finish hfinish => exact absurd hfinish ht
  | cons hfinish hkind htext hrest => exact ⟨_, _, rfl, hkind, htext, hrest⟩

/-- A row that goes on begins with no token of a kind, if neither it nor what follows does. -/
theorem head_ne (h : Continued tail ts us) {kind : TokenKind}
    (htail : ∀ t ∈ tail.head?, t.kind ≠ kind) (hts : ∀ t ∈ ts.head?, t.kind ≠ kind) :
    ∀ t ∈ us.head?, t.kind ≠ kind := by
  cases h with
  | finish hfinish => exact htail
  | cons hfinish hkind htext hrest => simpa [hkind] using hts

end Continued

/-- A name or keyword does not end a rule. -/
theorem TokenKind.ne_finish_of_word {kind : TokenKind}
    (h : kind = .name ∨ kind.isKeyword = true) : kind ≠ .finish := by
  rintro rfl
  simp [isKeyword] at h

/-- Derivations go through when the row goes on, if it does not go on with a `<`. -/
theorem Derives.continued {n : Nonterminal} {ts rest tail : List Token} {e : Expr}
    (h : Derives n ts e rest) (htail : Behind false tail) {us : List Token}
    (hus : Continued tail ts us) : ∃ rest', Derives n us e rest' ∧ Continued tail rest rest' := by
  -- What a part leaves of the longer row is where the next part begins.
  induction h generalizing us with
  | single he ih =>
      obtain ⟨rest', he, hrest⟩ := ih hus
      exact ⟨rest', .single he, hrest⟩
  | grouped he ih =>
      obtain ⟨rest', he, hrest⟩ := ih hus
      exact ⟨rest', .grouped he, hrest⟩
  | operand he ih =>
      obtain ⟨rest', he, hrest⟩ := ih hus
      exact ⟨rest', .operand he, hrest⟩
  | primary he ih =>
      obtain ⟨rest', he, hrest⟩ := ih hus
      exact ⟨rest', .primary he, hrest⟩
  | nested hsource ih =>
      obtain ⟨rest', hsource, hrest⟩ := ih hus
      exact ⟨rest', .nested hsource, hrest⟩
  | pair ha hsign hb iha ihb =>
      obtain ⟨_, ha, hmid⟩ := iha hus
      obtain ⟨sign', mid', rfl, hkind, -, hmid⟩ := hmid.uncons (by simp [hsign])
      obtain ⟨rest', hb, hrest⟩ := ihb hmid
      exact ⟨rest', .pair ha (hkind.trans hsign) hb, hrest⟩
  | more ha hsign hes iha ihes =>
      obtain ⟨_, ha, hmid⟩ := iha hus
      obtain ⟨sign', mid', rfl, hkind, -, hmid⟩ := hmid.uncons (by simp [hsign])
      obtain ⟨rest', hes, hrest⟩ := ihes hmid
      exact ⟨rest', .more ha (hkind.trans hsign) hes, hrest⟩
  | joined ha hsign hb iha ihb =>
      obtain ⟨_, ha, hmid⟩ := iha hus
      obtain ⟨sign', mid', rfl, hkind, -, hmid⟩ := hmid.uncons <| by
        intro hfinish
        rw [hfinish, Level.operator?_finish] at hsign
        cases hsign
      obtain ⟨rest', hb, hrest⟩ := ihb hmid
      exact ⟨rest', .joined ha (hkind ▸ hsign) hb, hrest⟩
  | not hsign he ih =>
      obtain ⟨sign', us, rfl, hkind, -, hus⟩ := hus.uncons (by simp [hsign])
      obtain ⟨rest', he, hrest⟩ := ih hus
      exact ⟨rest', .not (hkind.trans hsign) he, hrest⟩
  | neg hsign he ih =>
      obtain ⟨sign', us, rfl, hkind, -, hus⟩ := hus.uncons (by simp [hsign])
      obtain ⟨rest', he, hrest⟩ := ih hus
      exact ⟨rest', .neg (hkind.trans hsign) he, hrest⟩
  | @number t rest ht =>
      obtain ⟨t', us, rfl, hkind, htext, hus⟩ := hus.uncons (by simp [ht])
      have hvalue : Parser.numberValue t' = Parser.numberValue t := by
        rw [Parser.numberValue, Parser.numberValue, htext]
      rw [← hvalue]
      exact ⟨us, .number (hkind.trans ht), hus⟩
  | bool ht =>
      obtain ⟨t', us, rfl, hkind, -, hus⟩ := hus.uncons (by simp [ht])
      exact ⟨us, .bool (hkind.trans ht), hus⟩
  | tag hmarker ht =>
      obtain ⟨marker', us, rfl, hkind, -, hus⟩ := hus.uncons (by simp [hmarker])
      obtain ⟨t', us, rfl, hkind', htext, hus⟩ := hus.uncons (TokenKind.ne_finish_of_word ht)
      rw [← htext]
      exact ⟨us, .tag (hkind.trans hmarker) (by rwa [hkind']), hus⟩
  | tagNumber hmarker ht =>
      obtain ⟨marker', us, rfl, hkind, -, hus⟩ := hus.uncons (by simp [hmarker])
      obtain ⟨t', us, rfl, hkind', htext, hus⟩ := hus.uncons (TokenKind.ne_finish_of_word ht)
      rw [← htext]
      exact ⟨us, .tagNumber (hkind.trans hmarker) (by rwa [hkind']), hus⟩
  | nonEmpty hmarker hsource ih =>
      obtain ⟨marker', us, rfl, hkind, -, hus⟩ := hus.uncons (by simp [hmarker])
      obtain ⟨rest', hsource, hrest⟩ := ih hus
      exact ⟨rest', .nonEmpty (hkind.trans hmarker) hsource, hrest⟩
  | count hmarker hsource ih =>
      obtain ⟨marker', us, rfl, hkind, -, hus⟩ := hus.uncons (by simp [hmarker])
      obtain ⟨rest', hsource, hrest⟩ := ih hus
      exact ⟨rest', .count (hkind.trans hmarker) hsource, hrest⟩
  | quantified hword hbinder ih =>
      obtain ⟨word', us, rfl, hkind, -, hus⟩ := hus.uncons (by simp [hword])
      obtain ⟨rest', hbinder, hrest⟩ := ih hus
      exact ⟨rest', .quantified (hkind.trans hword) hbinder, hrest⟩
  | focus hname hopening hbody hclose ih =>
      obtain ⟨name', us, rfl, hkind, htext, hus⟩ := hus.uncons (by simp [hname])
      obtain ⟨opening', us, rfl, hkind', -, hus⟩ := hus.uncons (by simp [hopening])
      obtain ⟨_, hbody, hrest⟩ := ih hus
      obtain ⟨close', rest', rfl, hkind'', -, hrest⟩ := hrest.uncons (by simp [hclose])
      rw [← htext]
      exact ⟨rest', .focus (hkind.trans hname) (hkind'.trans hopening) hbody
        (hkind''.trans hclose), hrest⟩
  | var hname hrest =>
      obtain ⟨name', us, rfl, hkind, htext, hus⟩ := hus.uncons (by simp [hname])
      rw [← htext]
      exact ⟨us, .var (hkind.trans hname) (hus.head_ne (htail rfl) hrest), hus⟩
  | parens hopening he hclose ih =>
      obtain ⟨opening', us, rfl, hkind, -, hus⟩ := hus.uncons (by simp [hopening])
      obtain ⟨_, he, hrest⟩ := ih hus
      obtain ⟨close', rest', rfl, hkind', -, hrest⟩ := hrest.uncons (by simp [hclose])
      exact ⟨rest', .parens (hkind.trans hopening) he (hkind'.trans hclose), hrest⟩
  | list hword =>
      obtain ⟨word', us, rfl, hkind, -, hus⟩ := hus.uncons (by simp [hword])
      exact ⟨us, .list (hkind.trans hword), hus⟩
  | comprehension hopening hname hcolon hsource hpipe hbody hclose ihs ihb =>
      obtain ⟨opening', us, rfl, hkind, -, hus⟩ := hus.uncons (by simp [hopening])
      obtain ⟨name', us, rfl, hkind', htext, hus⟩ := hus.uncons (by simp [hname])
      obtain ⟨colon', us, rfl, hkind'', -, hus⟩ := hus.uncons (by simp [hcolon])
      obtain ⟨_, hsource, hmid⟩ := ihs hus
      obtain ⟨pipe', mid', rfl, hkindPipe, -, hmid⟩ := hmid.uncons (by simp [hpipe])
      obtain ⟨_, hbody, hrest⟩ := ihb hmid
      obtain ⟨close', rest', rfl, hkindClose, -, hrest⟩ := hrest.uncons (by simp [hclose])
      rw [← htext]
      exact ⟨rest', .comprehension (hkind.trans hopening) (hkind'.trans hname)
        (hkind''.trans hcolon) hsource (hkindPipe.trans hpipe) hbody (hkindClose.trans hclose),
        hrest⟩

/-- The signs that may stand right behind another one to make it longer, and that are not part of a
phrase by themselves. -/
def TokenKind.isSecond (kind : TokenKind) : Prop :=
  kind = .compare .eq ∨ kind = .pipe ∨ kind = .junction .or

/-- No phrase starts with a sign that would go on with the sign in front of it. -/
theorem Derives.head_not_second {n : Nonterminal} {ts rest : List Token} {e : Expr}
    (h : Derives n ts e rest) : ∀ t ∈ ts.head?, ¬ t.kind.isSecond := by
  induction h with
  | single _ ih | grouped _ ih | operand _ ih | primary _ ih | nested _ ih => exact ih
  | pair _ _ _ iha | more _ _ _ iha | joined _ _ _ iha => exact iha
  | not hfirst | neg hfirst | number hfirst | bool hfirst | tag hfirst | tagNumber hfirst
  | nonEmpty hfirst | count hfirst | quantified hfirst | focus hfirst | var hfirst
  | parens hfirst | list hfirst | comprehension hfirst =>
      simp [TokenKind.isSecond, hfirst]

namespace Lexer

/-- The first token of a text that starts with a sign. -/
theorem scan_head {c : Char} {cs text : List Char} {kind : TokenKind} {position : Nat} {m : Bool}
    {ts : List Token} (hsign : scanSign (c :: cs) = some (kind, text))
    (h : scan position m (c :: cs) = .ok ts) : ∃ t ∈ ts.head?, t.kind = kind := by
  rw [scan, if_neg (by simp [Reads.isBlank_of_scanSign hsign])] at h
  simp only [scanToken, hsign] at h
  obtain ⟨us, -, h⟩ := bind_eq_ok.mp h
  cases h
  exact ⟨_, rfl, rfl⟩

/-- **Tokens in front of a closing bracket.**  A text has the tokens that it has by itself when a
closing bracket stands behind it, wherever the text stands. -/
theorem scan_closed {c : Char} {kind : TokenKind} (hc : Closing c kind) {position : Nat} {m : Bool}
    {cs : List Char} {ts : List Token} (h : scan position m cs = .ok ts) (position' : Nat)
    (rest : List Char) : ∃ front, Reads position' m cs front false (c :: rest) ∧
      ∀ tail, Continued tail ts (front ++ tail) := by
  fun_induction scan position m cs generalizing ts position' with
  | case1 position m =>
      cases h
      refine ⟨[], fun us hus => ?_, fun tail => .finish rfl⟩
      rw [List.nil_append, scan_marker (hc.scanSign rest) position' m false]
      exact hus
  | case2 position m d cs hblank ih =>
      obtain ⟨front, hread, hcontinued⟩ := ih h (position' + 1)
      refine ⟨front, fun us hus => ?_, hcontinued⟩
      rw [List.cons_append, scan, if_pos hblank]
      refine hread us ?_
      rwa [List.length_cons, Nat.add_comm cs.length, ← Nat.add_assoc] at hus
  | case3 position m d cs hblank htoken => cases h
  | case4 position m d cs hblank kind' text htoken ih =>
      obtain ⟨us, hus, h⟩ := bind_eq_ok.mp h
      cases h
      obtain ⟨⟨behind, hbehind⟩, hne⟩ := scanToken_front htoken
      cases text with
      | nil => exact absurd rfl hne
      | cons d' text =>
          rw [List.cons_append] at hbehind
          obtain ⟨rfl, rfl⟩ := List.cons.inj hbehind
          simp only [List.length_cons, Nat.add_sub_cancel, List.drop_left] at ih hus
          obtain ⟨front, hread, hcontinued⟩ := ih hus (position' + (d' :: text).length)
          have hfirst : Reads position' m (d' :: text)
              [⟨kind', String.ofList (d' :: text), position'⟩] kind'.isTagMarker
              (behind ++ c :: rest) := by
            refine Reads.token position' ?_ (by simpa using hblank)
            rw [List.cons_append, ← List.append_assoc, ← List.cons_append, scanToken_closed hc]
            exact htoken
          exact ⟨_, hfirst.append hread, fun tail =>
            .cons (scanToken_spec htoken).1 rfl rfl (hcontinued tail)⟩

end Lexer

/-- No sign in front of a text that spells a rule goes on with it. -/
theorem Spells.opens {text : String} {ts : List Token} {e : Expr} (h : Spells ts e)
    (htokens : Lexer.tokenize text = .ok ts) : Opens text.toList := by
  obtain ⟨last, -, hderives⟩ := h.derives
  have hhead := hderives.head_not_second
  rw [Lexer.tokenize] at htokens
  generalize text.toList = cs at htokens
  cases cs with
  | nil =>
      rw [Lexer.scan] at htokens
      cases htokens
      exact absurd hderives.length_lt (by simp)
  | cons c cs =>
      refine ⟨c, cs, rfl, ?_, ?_⟩
      · rintro rfl
        have hsign : Lexer.scanSign ('=' :: cs) = some (.compare .eq, ['=']) := rfl
        obtain ⟨t, ht, hkind⟩ := Lexer.scan_head hsign htokens
        exact hhead t ht (Or.inl hkind)
      · rintro rfl
        by_cases hbar : ∃ ds, cs = '|' :: ds
        · obtain ⟨ds, rfl⟩ := hbar
          have hsign : Lexer.scanSign ('|' :: '|' :: ds) = some (.junction .or, ['|', '|']) := rfl
          obtain ⟨t, ht, hkind⟩ := Lexer.scan_head hsign htokens
          exact hhead t ht (Or.inr (Or.inr hkind))
        · have hsign : Lexer.scanSign ('|' :: cs) = some (.pipe, ['|']) := by
            refine Prolonged.pipe.scanSign ?_
            rintro d hd rfl
            obtain ⟨ds, hds⟩ := List.head?_eq_some_iff.mp hd
            exact hbar ⟨ds, hds⟩
          obtain ⟨t, ht, hkind⟩ := Lexer.scan_head hsign htokens
          exact hhead t ht (Or.inr (Or.inl hkind))

/-- **Rules inside brackets.**  A text that spells a rule is read as a whole expression in front of
every closing bracket. -/
theorem Spells.enclosed {text : String} {ts : List Token} {e : Expr} (h : Spells ts e)
    (htokens : Lexer.tokenize text = .ok ts) : Enclosed (.expression false) text.toList e := by
  refine ⟨h.opens htokens, fun {c kind} hc position rest => ?_⟩
  obtain ⟨hmarker, hkind⟩ := hc.kind_spec
  obtain ⟨front, hread, hcontinued⟩ := Lexer.scan_closed hc htokens position rest
  have hclose := Reads.mark (position + text.toList.length) false c rest (hc.scanSign rest)
  rw [hmarker] at hclose
  refine ⟨front, _, rfl, hread.append hclose, fun tail => ?_⟩
  obtain ⟨last, hlast, hderives⟩ := h.derives
  have hbehind : Behind false (⟨kind, String.ofList [c], position + text.toList.length⟩ :: tail) :=
    .cons false hkind tail
  obtain ⟨rest', hderives', hrest⟩ := hderives.continued hbehind (hcontinued _)
  cases hrest with
  | finish => exact hderives'
  | cons hfinish => exact absurd hlast hfinish

end DiagramFilter
