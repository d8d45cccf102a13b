import DiagramFilter.Proofs.Grammar.Soundness
import DiagramFilter.Proofs.Layout.Scanning
import DiagramFilter.Proofs.Likeness.Results
import Mathlib.Data.Option.Basic

/-!
# Rules in another layout

The parser makes the same of two rows of tokens that are alike (`Rows`): the same tree, or an error
of the same class with the same reason, which points at tokens that correspond to each other.  A
word whose kind depends on the layout stands only right behind a tag marker, and there the parser
takes names and keywords alike.

Each parser is looked at once: `Blind` says that it does not see the layout, and the parsers that
are made of others are blind if these are.  `Expr.parse_relaid` puts this together with what is
known of the tokens.
-/

namespace DiagramFilter

/-- Errors of one class with one reason, at related positions. -/
inductive ParseError.Alike (R : Nat → Nat → Prop) : ParseError → ParseError → Prop
  | form (fault : FormFault) {position position' : Option Nat}
      (h : Option.Rel R position position') : Alike R (.form fault position) (.form fault position')
  | kind (fault : KindFault) {position position' : Nat} (h : R position position') :
      Alike R (.kind fault position) (.kind fault position')
  | undefinedVariable (fault : UndefinedVariable) :
      Alike R (.undefinedVariable fault) (.undefinedVariable fault)

variable {R : Nat → Nat → Prop} {m : Bool} {t t' : Token} {ts ts' : List Token}

namespace Token.Alike

/-- Away from tag markers words are of one kind. -/
theorem kind_eq (h : t.Alike R false t') : t.kind = t'.kind := by
  rcases h.kind with h | ⟨h, -⟩
  · exact h
  · cases h

/-- What is no word is of one kind everywhere. -/
theorem kind_iff (h : t.Alike R m t') {kind : TokenKind} (hkind : ¬ kind.IsWord) :
    t.kind = kind ↔ t'.kind = kind := by
  rcases h.kind with h | ⟨-, hword, hword'⟩
  · rw [h]
  · constructor <;> rintro rfl
    · exact absurd hword hkind
    · exact absurd hword' hkind

/-- Of two alike tokens both are words or neither is. -/
theorem isWord_iff (h : t.Alike R m t') : t.kind.IsWord ↔ t'.kind.IsWord := by
  rcases h.kind with h | ⟨-, hword, hword'⟩
  · rw [h]
  · exact iff_of_true hword hword'

/-- Alike tokens are shown alike in errors. -/
theorem shown?_eq (h : t.Alike R m t') : t.shown? = t'.shown? := by
  have hfinish : t.kind = .finish ↔ t'.kind = .finish :=
    h.kind_iff (by rintro (h | h) <;> cases h)
  simp only [Token.shown?, hfinish, h.text]

end Token.Alike

namespace Rows

/-- The next tokens of alike rows are alike. -/
theorem peek (h : Rows R m ts ts') : (Parser.peek ts).Alike R m (Parser.peek ts') := by
  cases h with
  | finish h ht => exact h
  | cons h ht hrest => exact h

/-- The rows behind their first tokens. -/
theorem tail (h : Rows R m ts ts') {kind : TokenKind} (hkind : (Parser.peek ts).kind = kind)
    (hfinish : kind ≠ .finish) : Rows R kind.isTagMarker ts.tail ts'.tail := by
  cases h with
  | finish h ht => exact absurd (hkind.symm.trans ht) hfinish
  | cons h ht hrest =>
      rw [← hkind]
      exact hrest

/-- Rows that do not start with a word do not depend on a tag marker before them. -/
theorem of_not_word (h : Rows R m ts ts') (hword : ¬ (Parser.peek ts).kind.IsWord) :
    Rows R false ts ts' := by
  have halike : ∀ {t t' : Token}, t.Alike R m t' → ¬ t.kind.IsWord → t.Alike R false t' := by
    intro t t' h hword
    refine ⟨?_, h.text, h.position⟩
    rcases h.kind with hkind | ⟨-, hkind, -⟩
    · exact Or.inl hkind
    · exact absurd hkind hword
  cases h with
  | finish h ht => exact .finish (halike h hword) ht
  | cons h ht hrest => exact .cons (halike h hword) ht hrest

end Rows

namespace Parser

/-- Related results, or one error in two layouts. -/
abbrev SameOutcome (R : Nat → Nat → Prop) {α β : Type} (S : α → β → Prop) :
    Except ParseError α → Except ParseError β → Prop :=
  Related (ParseError.Alike R) S

/-- The same result in front of rows that are alike, or one error in two layouts. -/
abbrev SameReading (R : Nat → Nat → Prop) {α : Type} :
    Except ParseError (α × List Token) → Except ParseError (α × List Token) → Prop :=
  SameOutcome R fun r r' => r.1 = r'.1 ∧ Rows R false r.2 r'.2

/-- A parser that does not see the layout. -/
def Blind (R : Nat → Nat → Prop) {α : Type} (p : Reader α) : Prop :=
  ∀ {ts ts' : List Token}, Rows R false ts ts' → SameReading R (p ts) (p ts')

/-- The same fault at alike tokens is the same outcome. -/
theorem formError_alike {α β : Type} {S : α → β → Prop} (fault : FormFault)
    (h : t.Alike R m t') : SameOutcome R S (formError fault t) (formError fault t') :=
  .error (.form fault (.some h.position))

/-- Readings that are alike go on to outcomes that are. -/
theorem reading_bind {α β γ : Type} {S : β → γ → Prop} {x x' : Except ParseError (α × List Token)}
    {f : α × List Token → Except ParseError β} {f' : α × List Token → Except ParseError γ}
    (h : SameReading R x x')
    (hf : ∀ a rest rest', Rows R false rest rest' → SameOutcome R S (f (a, rest)) (f' (a, rest'))) :
    SameOutcome R S (x >>= f) (x' >>= f') := by
  refine h.bind ?_
  rintro ⟨a, rest⟩ ⟨_, rest'⟩ ⟨rfl, hrest⟩
  exact hf a rest rest' hrest

/-- A token of a kind is passed over in both rows or in neither. -/
theorem expect_alike (kind : TokenKind) (what : Expected) (hfinish : kind ≠ .finish)
    (hmarker : kind.isTagMarker = false) (h : Rows R false ts ts') :
    SameOutcome R (Rows R false) (expect kind what ts) (expect kind what ts') := by
  simp only [expect, ← h.peek.kind_eq, ← h.peek.shown?_eq]
  split
  · rename_i hkind
    have htail := h.tail hkind hfinish
    rw [hmarker] at htail
    exact .ok htail
  · exact formError_alike _ h.peek

/-- An operand is accepted at both places or at neither. -/
theorem require_alike (role : Role) (wanted : Kind) (e : Expr) (h : R t.position t'.position) :
    SameOutcome R Eq (require role wanted e t) (require role wanted e t') := by
  unfold require
  split
  · exact .ok rfl
  · exact .error (.kind _ h)

/-- A name is bound in both rows or in neither. -/
theorem requireBound_alike (bound : List String) (name : String) :
    SameOutcome R Eq (requireBound bound name) (requireBound bound name) := by
  unfold requireBound
  split
  · exact .ok rfl
  · exact .error (.undefinedVariable _)

/-- Two joins that make the same of the same operands. -/
def SameJoin (R : Nat → Nat → Prop) (join join' : Join) : Prop :=
  ∀ left right, SameOutcome R Eq (join left right) (join' left right)

/-- Arithmetic makes the same at alike tokens. -/
theorem joinArith_same (op : ArithOp) (h : R t.position t'.position) :
    SameJoin R (joinArith op t) (joinArith op t') := by
  intro left right
  exact (require_alike _ _ _ h).bind fun _ _ _ => (require_alike _ _ _ h).bind fun _ _ _ => .ok rfl

/-- A relation makes the same at alike tokens. -/
theorem joinRelation_same (op : CompareOp) (h : R t.position t'.position) :
    SameJoin R (joinRelation op t) (joinRelation op t') := by
  intro left right
  exact (require_alike _ _ _ h).bind fun _ _ _ => (require_alike _ _ _ h).bind fun _ _ _ => .ok rfl

/-- An equality makes the same at alike tokens. -/
theorem joinEquality_same (op : CompareOp) (h : R t.position t'.position) :
    SameJoin R (joinEquality op t) (joinEquality op t') := by
  intro left right
  unfold joinEquality
  split
  · exact .ok rfl
  · exact .error (.kind _ h)

/-- The operators of a level are the same ones in every layout, and join in the same way. -/
theorem join?_same (closing : Bool) (l : Level) (h : t.Alike R false t') :
    Option.Rel (SameJoin R) (l.join? closing t) (l.join? closing t') := by
  have hkind := h.kind_eq
  have hposition := h.position
  obtain ⟨kind, text, position⟩ := t
  obtain ⟨kind', text', position'⟩ := t'
  obtain rfl : kind = kind' := hkind
  cases l with
  | equality =>
      simp only [Level.join?, equalityJoin?]
      split
      · exact .some (joinEquality_same _ hposition)
      · exact .some (joinEquality_same _ hposition)
      · exact .none
  | relation =>
      simp only [Level.join?, relationJoin?]
      split
      · cases closing with
        | true => exact .none
        | false => exact .some (joinRelation_same _ hposition)
      · exact .some (joinRelation_same _ hposition)
      · exact .some (joinRelation_same _ hposition)
      · exact .some (joinRelation_same _ hposition)
      · exact .none
  | term =>
      simp only [Level.join?, termJoin?]
      split
      · exact .some (joinArith_same _ hposition)
      · exact .some (joinArith_same _ hposition)
      · exact .none
  | factor =>
      simp only [Level.join?, factorJoin?]
      split
      · exact .some (joinArith_same _ hposition)
      · exact .some (joinArith_same _ hposition)
      · exact .some (joinArith_same _ hposition)
      · exact .none

/-- An operator is neither the end of a rule nor a tag marker. -/
theorem join?_kind {closing : Bool} {l : Level} {join : Join} (h : l.join? closing t = some join) :
    t.kind ≠ .finish ∧ t.kind.isTagMarker = false := by
  obtain ⟨make, hmake⟩ : ∃ make, l.operator? closing t.kind = some make := by
    rw [← Option.ne_none_iff_exists']
    intro hnone
    rw [join?_eq_none.mpr hnone] at h
    cases h
  rcases Level.operator?_cases hmake with ⟨op, hkind, -⟩ | ⟨op, hkind, -⟩ <;> rw [hkind] <;>
    exact ⟨by simp, rfl⟩

variable {p : Reader Expr}

/-- The loop of a level does not see the layout if its operands do not. -/
theorem binaryTail_blind (closing : Bool) (l : Level) (hp : Blind R p) (rounds : Nat)
    (left : Expr) : Blind R (binaryTail (l.join? closing) p rounds left) := by
  induction rounds generalizing left with
  | zero =>
      intro ts ts' h
      exact .ok ⟨rfl, h⟩
  | succ rounds ih =>
      intro ts ts' h
      have hjoins := join?_same closing l h.peek
      simp only [binaryTail]
      cases hjoin : l.join? closing (peek ts) with
      | none =>
          rw [hjoin] at hjoins
          generalize l.join? closing (peek ts') = other at hjoins
          cases hjoins
          exact .ok ⟨rfl, h⟩
      | some join =>
          obtain ⟨hfinish, hmarker⟩ := join?_kind hjoin
          have htail := h.tail rfl hfinish
          rw [hmarker] at htail
          rw [hjoin] at hjoins
          generalize l.join? closing (peek ts') = other at hjoins
          cases hjoins with
          | some hsame =>
              refine reading_bind (hp htail) fun right rest rest' hrest =>
                (hsame left right).bind ?_
              rintro joined _ rfl
              exact ih joined hrest

/-- A level does not see the layout if its operands do not. -/
theorem binaryLevel_blind (closing : Bool) (l : Level) (hp : Blind R p) :
    Blind R (binaryLevel (l.join? closing) p) := by
  intro ts ts' h
  refine reading_bind (hp h) fun left rest rest' hrest => ?_
  dsimp only
  rw [hrest.length_eq]
  exact binaryTail_blind closing l hp _ left hrest

/-- The loop of a connective does not see the layout if its operands do not. -/
theorem junctionTail_blind (c : Connective) (hp : Blind R p) (rounds : Nat) (previous : Expr) :
    Blind R (junctionTail c p rounds previous) := by
  induction rounds generalizing previous with
  | zero =>
      intro ts ts' h
      exact .ok ⟨rfl, h⟩
  | succ rounds ih =>
      intro ts ts' h
      simp only [junctionTail, ← h.peek.kind_eq]
      split
      · rename_i hkind
        exact reading_bind (hp (h.tail hkind (by simp))) fun next rest rest' hrest =>
          (require_alike _ _ _ h.peek.position).bind fun _ _ _ =>
            (require_alike _ _ _ h.peek.position).bind fun _ _ _ =>
              reading_bind (ih next hrest) fun more rest rest' hrest => .ok ⟨rfl, hrest⟩
      · exact .ok ⟨rfl, h⟩

/-- The level of a connective does not see the layout if its operands do not. -/
theorem junctionLevel_blind (c : Connective) (hp : Blind R p) : Blind R (junctionLevel c p) := by
  intro ts ts' h
  refine reading_bind (hp h) fun first rest rest' hrest => ?_
  dsimp only
  rw [hrest.length_eq]
  exact reading_bind (junctionTail_blind c hp _ first hrest) fun more rest rest' hrest =>
    .ok ⟨rfl, hrest⟩

/-- All levels of operators above a parser of operands that does not see the layout. -/
theorem levels_blind (closing : Bool) (hp : Blind R p) : Blind R (levels closing p) :=
  junctionLevel_blind .or (junctionLevel_blind .and (binaryLevel_blind closing .equality
    (binaryLevel_blind closing .relation (binaryLevel_blind closing .term
      (binaryLevel_blind closing .factor hp)))))

/-- Behind a tag marker names and keywords are taken alike. -/
theorem tagName_alike {marker marker' : Token} (hmarker : marker.text = marker'.text)
    (h : Rows R true ts ts') : SameReading R (tagName marker ts) (tagName marker' ts') := by
  have hword : ∀ t : Token, (t.kind = .name || t.kind.isKeyword) = true ↔ t.kind.IsWord := by
    intro t
    simp [TokenKind.IsWord]
  simp only [tagName]
  by_cases hname : (peek ts).kind.IsWord
  · rw [if_pos ((hword _).mpr hname), if_pos ((hword _).mpr (h.peek.isWord_iff.mp hname))]
    have hfinish : (peek ts).kind ≠ .finish := by
      intro hfinish
      rw [hfinish] at hname
      rcases hname with hname | hname <;> cases hname
    have htail := h.tail rfl hfinish
    rw [Lexer.isTagMarker_of_isWord hname] at htail
    exact .ok ⟨h.peek.text, htail⟩
  · rw [if_neg (mt (hword _).mp hname), if_neg (mt (hword _).mp (mt h.peek.isWord_iff.mpr hname)),
      hmarker, h.peek.shown?_eq]
    exact formError_alike _ h.peek

/-- A binder does not see the layout if its list and its body do not. -/
theorem binding_blind {source : Reader Expr} {body : String → Reader Expr}
    (hsource : Blind R source) (hbody : ∀ name, Blind R (body name)) :
    Blind R (binding source body) := by
  intro ts ts' h
  refine (expect_alike .leftBracket _ (by simp) rfl h).bind fun rest rest' hrest => ?_
  have hvar := hrest.peek
  simp only [← hvar.kind_eq, ← hvar.text]
  split
  · exact formError_alike _ hvar
  · refine (expect_alike .name _ (by simp) rfl hrest).bind fun rest rest' hrest =>
      (expect_alike .colon _ (by simp) rfl hrest).bind fun rest rest' hrest =>
        reading_bind (hsource hrest) fun list rest rest' hrest => ?_
    have hpipe := hrest.peek.position
    exact (expect_alike .pipe _ (by simp) rfl hrest).bind fun rest rest' hrest =>
      reading_bind (hbody _ hrest) fun e rest rest' hrest =>
        (require_alike _ _ _ hpipe).bind fun _ _ _ =>
          (expect_alike .rightBracket _ (by simp) rfl hrest).bind fun rest rest' hrest =>
            .ok ⟨rfl, hrest⟩

/-- Behind a tag marker a bracket, which is one in every layout, opens a binder, and else there is
the name of a tag. -/
theorem marked_alike {bracket : Reader (String × Expr × Expr)} (hbracket : Blind R bracket)
    {marker marker' : Token} (hmarker : marker.text = marker'.text)
    (make : String → Expr → Expr → Expr) (leaf : String → Expr) (h : Rows R true ts ts') :
    SameReading R
      (if (peek ts).kind = .leftBracket then do
        let ((var, list, body), rest) ← bracket ts
        return (make var list body, rest)
      else do
        let (name, rest) ← tagName marker ts
        return (leaf name, rest))
      (if (peek ts').kind = .leftBracket then do
        let ((var, list, body), rest) ← bracket ts'
        return (make var list body, rest)
      else do
        let (name, rest) ← tagName marker' ts'
        return (leaf name, rest)) := by
  have hnot : ¬ TokenKind.leftBracket.IsWord := by
    rintro (hword | hword) <;> cases hword
  have hsame := h.peek.kind_iff hnot
  by_cases hopening : (peek ts).kind = .leftBracket
  · rw [if_pos hopening, if_pos (hsame.mp hopening)]
    have hrows := h.of_not_word (hopening ▸ hnot)
    exact reading_bind (hbracket hrows) fun binder rest rest' hrest => .ok ⟨rfl, hrest⟩
  · rw [if_neg hopening, if_neg (mt hsame.mpr hopening)]
    exact reading_bind (tagName_alike hmarker h) fun name rest rest' hrest => .ok ⟨rfl, hrest⟩

/-- Operands and lists are read in the same way in every layout. -/
theorem operand_source_blind (depth : Nat) (bound : List String) :
    Blind R (operand depth bound) ∧ Blind R (source depth bound) := by
  -- Operands have lists in them and lists have operands, each one level of nesting deeper.
  induction depth generalizing bound with
  | zero =>
      constructor
      · intro ts ts' h
        rw [operand, operand]
        exact .error (.form _ .none)
      · intro ts ts' h
        rw [source, source]
        exact .error (.form _ .none)
  | succ depth ih =>
      have hoperand : ∀ bound, Blind R (operand depth bound) := fun bound => (ih bound).1
      have hbinding : Blind R (binding (source depth bound)
          fun var => levels false (operand depth (var :: bound))) :=
        binding_blind (ih bound).2 fun var => levels_blind false (hoperand (var :: bound))
      constructor
      · intro ts ts' h
        have hfirst := h.peek
        rw [operand, operand]
        simp only [← hfirst.kind_eq, ← hfirst.text, ← hfirst.shown?_eq]
        split
        · rename_i hkind
          exact reading_bind (hoperand bound (h.tail hkind (by simp))) fun e rest rest' hrest =>
            (require_alike _ _ _ hfirst.position).bind fun _ _ _ => .ok ⟨rfl, hrest⟩
        · rename_i hkind
          exact reading_bind (hoperand bound (h.tail hkind (by simp))) fun e rest rest' hrest =>
            (require_alike _ _ _ hfirst.position).bind fun _ _ _ => .ok ⟨rfl, hrest⟩
        · rename_i hkind
          refine .ok ⟨?_, h.tail hkind (by simp)⟩
          rw [numberValue, numberValue, hfirst.text]
        · rename_i value hkind
          exact .ok ⟨rfl, h.tail hkind (by simp)⟩
        · rename_i hkind
          exact marked_alike hbinding hfirst.text (fun var list body =>
            .nonEmpty (.comprehension var list body)) .tag (h.tail hkind (by simp))
        · rename_i hkind
          exact marked_alike hbinding hfirst.text (fun var list body =>
            .count (.comprehension var list body)) .tagNumber (h.tail hkind (by simp))
        · rename_i q hkind
          exact reading_bind (hbinding (h.tail hkind (by simp))) fun binder rest rest' hrest =>
            .ok ⟨rfl, hrest⟩
        · rename_i hkind
          have hnext := h.tail hkind (by simp)
          simp only [← hnext.peek.kind_eq]
          split
          · rename_i hless
            refine (requireBound_alike bound _).bind fun _ _ _ =>
              reading_bind (levels_blind true (hoperand bound) (hnext.tail hless (by simp)))
                fun body rest rest' hrest => ?_
            dsimp only
            split
            · exact .error (.kind _ hfirst.position)
            · exact (expect_alike (.compare .gt) _ (by simp) rfl hrest).bind fun rest rest' hrest =>
                .ok ⟨rfl, hrest⟩
          · exact (requireBound_alike bound _).bind fun _ _ _ => .ok ⟨rfl, hnext⟩
        · rename_i hkind
          refine reading_bind (levels_blind false (hoperand bound) (h.tail hkind (by simp)))
            fun e rest rest' hrest => ?_
          simp only [← hrest.peek.kind_eq]
          split
          · rename_i hclose
            exact .ok ⟨rfl, hrest.tail hclose (by simp)⟩
          · exact formError_alike _ hfirst
        · exact formError_alike _ hfirst
        · exact formError_alike _ hfirst
        · exact formError_alike _ hfirst
      · intro ts ts' h
        have hfirst := h.peek
        rw [source, source]
        simp only [← hfirst.kind_eq, ← hfirst.shown?_eq]
        split
        · rename_i word hkind
          exact .ok ⟨rfl, h.tail hkind (by simp)⟩
        · exact reading_bind (hbinding h) fun binder rest rest' hrest => .ok ⟨rfl, hrest⟩
        · exact formError_alike _ hfirst

/-- What a whole row of tokens spells does not depend on the layout. -/
theorem rule_alike (h : Rows R false ts ts') : SameOutcome R Eq (rule ts) (rule ts') := by
  have hfirst := h.peek
  simp only [rule, ← hfirst.kind_eq]
  split
  · exact formError_alike _ hfirst
  · have hexpression : Blind R (expression nestingLimit [thisName]) :=
      levels_blind false (operand_source_blind nestingLimit [thisName]).1
    refine reading_bind (hexpression h) fun e rest rest' hrest => ?_
    have hnext := hrest.peek
    simp only [← hnext.kind_eq, ← hnext.shown?_eq]
    split
    · exact (require_alike _ _ _ hfirst.position).bind fun _ _ _ => .ok rfl
    · split
      · exact formError_alike _ hnext
      · exact formError_alike _ hnext

end Parser

/-- Two positions of tokens that have the same number in two rows. -/
def SamePlace (ts ts' : List Token) (position position' : Nat) : Prop :=
  ∃ (i : Nat) (t t' : Token), ts[i]? = some t ∧ ts'[i]? = some t' ∧ t.position = position ∧
    t'.position = position'

/-- **Layout.**  A text that can be split into tokens is its tokens with gaps before them.  In every
other layout of the tokens, the text has tokens with the same texts, and it is read as the same
rule, or fails with an error of the same class and the same reason, at the token with the same
number. -/
theorem Expr.parse_relaid {text : String} {ts : List Token}
    (htokens : Lexer.tokenize text = .ok ts) :
    Relaid false ts text.toList text.toList ∧
      ∀ text' : String, Relaid false ts text.toList text'.toList →
        ∃ ts', Lexer.tokenize text' = .ok ts' ∧ ts'.map Token.text = ts.map Token.text ∧
          Related (ParseError.Alike (SamePlace ts ts')) Eq (Expr.parse text)
            (Expr.parse text') := by
  refine ⟨Lexer.scan_laid htokens false, ?_⟩
  intro text' hlaid
  obtain ⟨ts', htokens', hrows⟩ := Lexer.scan_relaid hlaid htokens 0
  refine ⟨ts', htokens', hrows.texts_eq.symm, ?_⟩
  have hplaces : Rows (SamePlace ts ts') false ts ts' :=
    hrows.related fun i t t' ht ht' => ⟨i, t, t', ht, ht', rfl, rfl⟩
  have htokens' : Lexer.tokenize text' = .ok ts' := htokens'
  rw [Expr.parse, Expr.parse, htokens, htokens']
  exact Parser.rule_alike hplaces

/-- A tag that is called like a keyword may be moved away from its marker. -/
theorem Expr.parse_relaid_apart :
    ∃ ts, Lexer.tokenize "#children" = .ok ts ∧
      Relaid false ts "#children".toList "\t# children ".toList ∧
      ∃ ts', Lexer.tokenize "\t# children " = .ok ts' ∧ ts'.map Token.text = ts.map Token.text ∧
        Related (ParseError.Alike (SamePlace ts ts')) Eq (Expr.parse "#children")
          (Expr.parse "\t# children ") := by
  have htokens : Lexer.tokenize "#children" =
      .ok [⟨.hash, "#", 0⟩, ⟨.name, "children", 1⟩, ⟨.finish, "", 9⟩] := by
    decide +kernel
  have hnone : IsGap [] := .nil
  have hspace : IsGap [' '] := List.forall_mem_singleton.mpr (by decide)
  have htab : IsGap ['\t'] := List.forall_mem_singleton.mpr (by decide)
  have hfinish : Relaid true [⟨.finish, "", 9⟩] [] [' '] := .finish hnone hspace
  have hword : Relaid true [⟨.name, "children", 1⟩, ⟨.finish, "", 9⟩] _ _ :=
    .cons hnone hspace (fun _ _ => rfl) hfinish
  have hlaid : Relaid false [⟨.hash, "#", 0⟩, ⟨.name, "children", 1⟩, ⟨.finish, "", 9⟩] _ _ :=
    .cons hnone htab (by simp) hword
  exact ⟨_, htokens, hlaid, (Expr.parse_relaid htokens).2 "\t# children " hlaid⟩

end DiagramFilter
