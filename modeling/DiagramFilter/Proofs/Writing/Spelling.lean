import DiagramFilter.Proofs.Writing.Respelling

/-!
# Written forms

The written form of a typed expression that can be written is a piece of text that spells the
expression `Expr.spelled` (`Typed.writes_spelled`).  `Writes` says of an expression that its written
form spells another one; there is one lemma about it for each shape of expression, from which the
theorem is put together by induction on the typing judgement.
-/

namespace DiagramFilter

/-- The magnitude of a number is printed in a rule as a numeral that is read as it. -/
theorem spellsBits_exprMagnitudeText {x : Float}
    (h : Double.magnitude x ≤ Double.infinityBits) :
    SpellsBits (Expr.magnitudeText x).toList (Double.magnitude x) := by
  unfold Expr.magnitudeText
  split
  · rename_i hinf
    rw [Double.isInf_iff.mp hinf]
    exact spellsBits_infinity
  · rename_i hinf
    have hlt : Double.magnitude x < Double.infinityBits :=
      Nat.lt_of_le_of_ne h fun heq => hinf (Double.isInf_iff.mpr heq)
    rcases Double.toInt?_cases hlt with ⟨hnone, -⟩ | ⟨n, hunits, hsome⟩
    · simp only [hnone, String.toList_ofList]
      exact spellsBits_magnitudeText hlt
    · have habs : (if Double.isNegative x then -(n : Int) else n).natAbs = n := by
        split <;> simp
      simp only [hsome, habs, Nat.toString_eq_repr, Nat.toList_repr]
      exact spellsBits_toDigits hlt hunits

/-- The text of a number spells it, with its sign or without. -/
theorem spellsNumber_numberText {x : Float} (h : Double.magnitude x ≤ Double.infinityBits) :
    SpellsNumber (Expr.numberText x) x := by
  refine ⟨_, spellsBits_exprMagnitudeText h, ?_⟩
  rw [Expr.numberText]
  split
  · simp
  · rfl

/-- A number is read back from its text: as it is, or as the opposite of its magnitude. -/
theorem Piece.numberText {equals less : Bool} {x : Float} (hnumber : x.isNaN = false)
    (hzero : (x == 0) = true → Double.isNegative x = false) :
    Piece .primary equals less (Expr.numberText x).toList (Expr.number x).spelled := by
  have hle : Double.magnitude x ≤ Double.infinityBits := by
    by_contra hlt
    rw [Double.isNaN_iff.mpr (Nat.lt_of_not_le hlt)] at hnumber
    cases hnumber
  have hpiece : Piece .primary equals less (Expr.numberText x).toList _ :=
    .signedNumber (spellsNumber_numberText hle)
  have hvalue := Double.ofMagnitude_magnitude hle
  rw [Expr.spelled]
  by_cases hlt : x < 0
  · rw [if_pos hlt] at hpiece ⊢
    have hopposite : -x = Double.ofMagnitude false (Double.magnitude x) := by
      have hneg := @Double.neg_ofMagnitude (Double.isNegative x) _ hle
      rwa [hvalue, (Double.lt_zero_iff.mp hlt).1] at hneg
    rwa [hopposite]
  · rw [if_neg hlt] at hpiece ⊢
    have hsign : Double.isNegative x = false := by
      by_contra hnegative
      rw [Double.lt_zero_iff] at hlt
      have hnone : Double.magnitude x = 0 := by
        have := hlt ∘ fun h => ⟨by simpa using hnegative, h, hle⟩
        simpa using this
      exact hnegative (hzero (Double.beq_zero_iff.mpr hnone))
    rw [hsign] at hvalue
    rwa [hvalue] at hpiece

/-- The written form of an expression spells another one, as a value or as a list.  That of a
comprehension is one in every place. -/
def Writes (e e' : Expr) : Category → Prop
  | .value k =>
    ∃ text, e.format = .ok text ∧ Piece .primary false (k != .element) text.toList e'
  | .list =>
    ∃ text, e.formatSource = .ok text ∧ Piece .list true true text.toList e' ∧
      ∀ name source body, e = .comprehension name source body →
        ∃ cs, text.toList = '[' :: cs ∧ Piece .comprehension true true ('[' :: cs) e'

namespace Writes

variable {e e' a a' b b' source source' body body' : Expr} {es es' : List Expr} {k k' : Kind}
  {name : String}

/-- Operands have written forms, in order. -/
theorem formatAll (hes : List.Forall₂ (fun e e' => Writes e e' (.value .boolean)) es es') :
    ∃ texts, Expr.formatAll es = .ok texts ∧
      List.Forall₂ (Piece .primary false true) (texts.map String.toList) es' := by
  induction hes with
  | nil => exact ⟨[], Expr.formatAll_nil, .nil⟩
  | cons he hes ih =>
      obtain ⟨text, htext, hpiece⟩ := he
      obtain ⟨texts, htexts, hpieces⟩ := ih
      exact ⟨text :: texts, Expr.formatAll_cons_of_ok htext htexts, .cons hpiece hpieces⟩

/-- An expression whose written form is a piece of text. -/
theorem of_format {text : String} {cs : List Char} (hformat : e.format = .ok text)
    (htext : text.toList = cs) (hpiece : Piece .primary false (k != .element) cs e') :
    Writes e e' (.value k) :=
  ⟨text, hformat, by rwa [htext]⟩

/-- The text between the parentheses of a connective. -/
theorem gathered {c : Connective} {texts : List (List Char)} (hne : es ≠ [])
    (hes : List.Forall₂ (Piece .primary false true) texts es) :
    Piece (.expression false) false true ((' ' :: c.symbol.toList ++ [' ']).intercalate texts)
      (Expr.gather c es) := by
  match hes with
  | .nil => exact absurd rfl hne
  | .cons he .nil =>
      rw [List.intercalate_singleton]
      exact he.unary.expression false
  | hes@(.cons _ (.cons _ _)) =>
      have hoperands := hes.imp fun _ _ h => h.unary.junctionOperand false c
      have hgroup := Piece.group hoperands (by simp) (Separates.junction c).spaced
        fun rest => .cons false ' ' _ (by decide) (by decide) (by decide)
      exact hgroup.lift fun _ _ h => h.expression_of_group

/-- Operands in parentheses. -/
theorem junction {c : Connective} (hne : es' ≠ [])
    (hes : List.Forall₂ (fun e e' => Writes e e' (.value .boolean)) es es') :
    Writes (.junction c es) (.gather c es') (.value .boolean) := by
  obtain ⟨texts, htexts, hpieces⟩ := formatAll hes
  refine of_format (Expr.format_junction_of_ok c htexts) ?_ (.parens (gathered hne hpieces))
  simp

/-- Two operands with an operator between them, in parentheses. -/
theorem binary {kind : TokenKind} {symbol : String} {l : Level} {make : Expr → Expr → Expr}
    (ha : Writes a a' (.value k)) (hb : Writes b b' (.value k))
    (hformat : ∀ texta textb, a.format = .ok texta → b.format = .ok textb →
      (make a b).format = .ok ("(" ++ texta ++ " " ++ symbol ++ " " ++ textb ++ ")"))
    (hsep : Separates symbol.toList kind) (hkind : k = .element → kind ≠ .compare .lt)
    (hop : l.operator? false kind = some make) : Writes (make a b) (make a' b') (.value k') := by
  obtain ⟨texta, htexta, hpiecea⟩ := ha
  obtain ⟨textb, htextb, hpieceb⟩ := hb
  have hbehind : ∀ (t : Token) tail, t.kind = kind → Behind (k != .element) (t :: tail) := by
    intro t tail ht hk
    simpa [ht] using hkind (by simpa using hk)
  refine of_format (hformat _ _ htexta htextb) ?_
    (hpiecea.unary.operation hsep.spaced hpieceb.unary
      (fun rest => .cons false ' ' _ (by decide) (by decide) (by decide)) hbehind hop)
  simp

/-- Two operands that are compared. -/
theorem compare {op : CompareOp} (ha : Writes a a' (.value k)) (hb : Writes b b' (.value k))
    (hop : k = .element → op ≠ .lt) :
    Writes (.compare op a b) (.compare op a' b') (.value .boolean) := by
  obtain ⟨l, hl⟩ := Level.exists_compare op
  refine binary ha hb (fun texta textb htexta htextb => ?_) (.compare op) (by simpa using hop) hl
  rw [Expr.format_compare, htexta, htextb]
  rfl

/-- Two numbers with an operation between them. -/
theorem arith {op : ArithOp} (ha : Writes a a' (.value .numeric))
    (hb : Writes b b' (.value .numeric)) :
    Writes (.arith op a b) (.arith op a' b') (.value .numeric) := by
  obtain ⟨l, hl⟩ := Level.exists_arith op
  refine binary ha hb (fun texta textb htexta htextb => ?_) (.arith op) (by simp) hl
  rw [Expr.format_arith, htexta, htextb]
  rfl

/-- A binder in brackets, wherever it stands. -/
theorem brackets (hname : IsVariable name) (hsource : Writes source source' .list)
    (hbody : Writes body body' (.value .boolean)) :
    ∃ text cs, (Expr.comprehension name source body).formatSource = .ok text ∧
      (∀ q, (Expr.quantified q name source body).format = .ok (q.word ++ text)) ∧
      text.toList = '[' :: cs ∧
      Piece .comprehension true true ('[' :: cs) (.comprehension name source' body') := by
  obtain ⟨textSource, htextSource, hpieceSource, -⟩ := hsource
  obtain ⟨textBody, htextBody, hpieceBody⟩ := hbody
  have hpiece : Piece .comprehension true true _ _ :=
    .comprehension hname hpieceSource (hpieceBody.unary.expression false)
  refine ⟨"[" ++ name ++ ":" ++ textSource ++ "|" ++ textBody ++ "]", _, ?_, fun q => ?_, ?_,
    hpiece⟩
  · rw [Expr.formatSource_comprehension, htextSource, htextBody]
    rfl
  · rw [Expr.format_quantified, htextSource, htextBody]
    simp only [bind, Except.bind, pure, Except.pure, String.append_assoc]
  · simp

/-- A list is a comprehension behind a tag marker. -/
theorem bracketed {bound : List String} (htyped : Typed bound source .list)
    (h : Writes source source.spelled .list) :
    ∃ text cs, source.formatBracketed = .ok text ∧ text.toList = '[' :: cs ∧
      Piece .comprehension true true ('[' :: cs) source.spelled.asComprehension := by
  cases htyped with
  | list source =>
      have hlist : Piece .list true true source.word.toList (.list source) := .list source
      have hbody : Piece .primary true true _ (.bool true) := .bool true
      have hpiece : Piece .comprehension true true _ _ :=
        .comprehension Expr.isVariable_anyName hlist (hbody.unary.expression false)
      refine ⟨_, _, Expr.formatBracketed_list source, ?_, hpiece⟩
      simp [Expr.anyName, TokenKind.label]
  | comprehension hsource hbody =>
      obtain ⟨text, htext, -, hbrackets⟩ := h
      obtain ⟨cs, hcs, hpiece⟩ := hbrackets _ _ _ rfl
      rw [← Expr.formatBracketed_comprehension] at htext
      exact ⟨text, cs, htext, hcs, hpiece⟩

end Writes

/-- **Written forms.**  A typed expression that can be written has a written form, which spells what
`Expr.spelled` says. -/
theorem Typed.writes_spelled {bound : List String} {e : Expr} {c : Category} (h : Typed bound e c)
    (hwritable : Writable e) : Writes e e.spelled c := by
  induction h with
  | bool value =>
      refine .of_format ?_ rfl (.bool value)
      cases value <;> exact Expr.format_bool _
  | number value =>
      cases hwritable with
      | number hnumber hzero =>
          exact .of_format (Expr.format_number _) rfl (.numberText hnumber hzero)
  | tag name =>
      cases hwritable with
      | tag hname => exact .of_format (Expr.format_tag _) (by simp) (.tag hname)
  | tagNumber name =>
      cases hwritable with
      | tagNumber hname => exact .of_format (Expr.format_tagNumber _) (by simp) (.tagNumber hname)
  | var hbound =>
      cases hwritable with
      | var hname => exact .of_format (Expr.format_var _) rfl (.var hname)
  | not he ih =>
      cases hwritable with
      | not hwritable =>
          obtain ⟨text, htext, hpiece⟩ := ih hwritable
          refine .of_format (by rw [Expr.format_not, htext]; rfl) ?_
            (.parens (hpiece.unary.not.expression false))
          simp
  | neg he ih =>
      cases hwritable with
      | neg hwritable =>
          obtain ⟨text, htext, hpiece⟩ := ih hwritable
          refine .of_format (by rw [Expr.format_neg, htext]; rfl) ?_
            (.parens (hpiece.unary.neg.expression false))
          simp
  | @junction bound c es hes ih =>
      cases hwritable with
      | junction hne hwritable =>
          rw [Expr.spelled, Expr.spelledAll_eq]
          refine .junction (by simpa using hne) ?_
          exact List.forall₂_map_right_iff.mpr
            (List.forall₂_same.mpr fun e he => ih e he (hwritable e he))
  | equality hop ha hb iha ihb =>
      cases hwritable with
      | compare hwritablea hwritableb =>
          refine .compare (iha hwritablea) (ihb hwritableb) fun _ hlt => ?_
          rw [hlt] at hop
          cases hop
  | relation hop ha hb iha ihb =>
      cases hwritable with
      | compare hwritablea hwritableb => exact .compare (iha hwritablea) (ihb hwritableb) (by simp)
  | arith ha hb iha ihb =>
      cases hwritable with
      | arith hwritablea hwritableb => exact .arith (iha hwritablea) (ihb hwritableb)
  | @quantified bound q name source body hsource hbody ihs ihb =>
      cases hwritable with
      | quantified hname hsource hbody =>
          obtain ⟨text, cs, -, hformat, htext, hpiece⟩ :=
            Writes.brackets hname (ihs hsource) (ihb hbody)
          refine .of_format (hformat q) ?_ hpiece.weaken.quantified
          rw [String.toList_append, htext]
  | focus hbound hbody hk ih =>
      cases hwritable with
      | focus hname hwritable =>
          obtain ⟨text, htext, hpiece⟩ := ih hwritable
          refine .of_format (by rw [Expr.format_focus, htext]; rfl) ?_
            (.focus hname (hpiece.unary.expression true))
          simp
  | count hsource ih =>
      cases hwritable with
      | count hwritable =>
          obtain ⟨text, cs, htext, hcs, hpiece⟩ := (ih hwritable).bracketed hsource
          refine .of_format (by rw [Expr.format_count, htext]; rfl) ?_ hpiece.weaken.count
          simp [hcs]
  | nonEmpty hsource ih =>
      cases hwritable with
      | nonEmpty hwritable =>
          obtain ⟨text, cs, htext, hcs, hpiece⟩ := (ih hwritable).bracketed hsource
          refine .of_format (by rw [Expr.format_nonEmpty, htext]; rfl) ?_ hpiece.weaken.nonEmpty
          simp [hcs]
  | list source => exact ⟨_, Expr.formatSource_list source, .list source, by simp⟩
  | comprehension hsource hbody ihs ihb =>
      cases hwritable with
      | comprehension hname hsource hbody =>
          obtain ⟨text, cs, hformat, -, htext, hpiece⟩ :=
            Writes.brackets hname (ihs hsource) (ihb hbody)
          refine ⟨text, hformat, ?_, fun _ _ _ _ => ⟨cs, htext, hpiece⟩⟩
          rw [htext]
          exact hpiece.nested

end DiagramFilter
