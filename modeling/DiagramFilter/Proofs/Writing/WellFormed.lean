import DiagramFilter.Proofs.Grammar.Acceptance
import DiagramFilter.Proofs.Number.Bits
import DiagramFilter.Proofs.Number.Rounding

/-!
# Rules that can be written

A tree can be written as rule text if it is typed as a truth value and its leaves can be spelled:
variables and tags are words, and numbers have no sign.  Every rule that is read from text is such
a tree (`Expr.wellFormed_of_parse`).
-/

namespace DiagramFilter

/-- A tree whose leaves have a spelling and whose groups have the operands that they need.  A
keyword names a tag, but no variable. -/
inductive Spellable : Expr → Prop
  | bool (value : Bool) : Spellable (.bool value)
  | number {value : Float} (hnumber : value.isNaN = false)
      (hsign : Double.isNegative value = false) : Spellable (.number value)
  | tag {name : String} (hname : IsIdentifier name) : Spellable (.tag name)
  | tagNumber {name : String} (hname : IsIdentifier name) : Spellable (.tagNumber name)
  | var {name : String} (hname : IsVariable name) : Spellable (.var name)
  | not {e : Expr} (he : Spellable e) : Spellable (.not e)
  | neg {e : Expr} (he : Spellable e) : Spellable (.neg e)
  | junction {c : Connective} {es : List Expr} (hlen : 2 ≤ es.length)
      (hes : ∀ e ∈ es, Spellable e) : Spellable (.junction c es)
  | compare {op : CompareOp} {a b : Expr} (ha : Spellable a) (hb : Spellable b) :
      Spellable (.compare op a b)
  | arith {op : ArithOp} {a b : Expr} (ha : Spellable a) (hb : Spellable b) :
      Spellable (.arith op a b)
  | quantified {q : Quantifier} {name : String} {source body : Expr} (hname : IsVariable name)
      (hsource : Spellable source) (hbody : Spellable body) :
      Spellable (.quantified q name source body)
  | focus {name : String} {body : Expr} (hname : IsVariable name) (hbody : Spellable body) :
      Spellable (.focus name body)
  | count {name : String} {source body : Expr}
      (h : Spellable (.comprehension name source body)) :
      Spellable (.count (.comprehension name source body))
  | nonEmpty {name : String} {source body : Expr}
      (h : Spellable (.comprehension name source body)) :
      Spellable (.nonEmpty (.comprehension name source body))
  | list (source : ListSource) : Spellable (.list source)
  | comprehension {name : String} {source body : Expr} (hname : IsVariable name)
      (hsource : Spellable source) (hbody : Spellable body) :
      Spellable (.comprehension name source body)

/-- A rule that can be written: a truth value with the element itself as its only free variable,
whose parts have a spelling. -/
structure WellFormed (e : Expr) : Prop where
  typed : Typed [thisName] e (.value .boolean)
  spellable : Spellable e

/-- The value of a number token is a number and has no sign. -/
theorem Parser.numberValue_spec (t : Token) :
    (numberValue t).isNaN = false ∧ Double.isNegative (numberValue t) = false := by
  unfold numberValue Decimal.readDouble?
  cases Decimal.read? t.text.toList with
  | none => exact ⟨by decide, by decide⟩
  | some decimal =>
      obtain ⟨d, width⟩ := decimal
      have hle := d.toBits_le width
      exact ⟨Double.isNaN_ofMagnitude hle, Double.isNegative_ofMagnitude hle⟩

/-- The brackets of a binder do not depend on a tag marker in front of them. -/
theorem Derives.lexed_comprehension {afterMarker : Bool} {ts rest : List Token} {e : Expr}
    (h : Derives .comprehension ts e rest) (hlexed : Lexed afterMarker ts) : Lexed false ts := by
  cases h with
  | comprehension hopening hname hcolon hsource hpipe hbody hclose =>
      exact hlexed.of_ne_name (by simp [hopening])

/-- A phrase of the tokens of a text has a spelling, and the tokens behind it do not depend on
it. -/
theorem Derives.spellable {n : Nonterminal} {ts rest : List Token} {e : Expr}
    (h : Derives n ts e rest) (hlexed : Lexed false ts) : Spellable e ∧ Lexed false rest := by
  -- No phrase ends in a tag marker, so the tokens behind each part are like those of a whole text.
  induction h with
  | single he ih | grouped he ih | operand he ih | primary he ih | nested hsource ih =>
      exact ih hlexed
  | pair ha hsign hb iha ihb =>
      obtain ⟨ha, hlexed⟩ := iha hlexed
      obtain ⟨hb, hlexed⟩ := ihb (hlexed.next hsign nofun rfl)
      exact ⟨.junction (by simp) (by simpa using ⟨ha, hb⟩), hlexed⟩
  | more ha hsign hes iha ihes =>
      obtain ⟨ha, hlexed⟩ := iha hlexed
      obtain ⟨hgroup, hlexed⟩ := ihes (hlexed.next hsign nofun rfl)
      cases hgroup with
      | junction hlen hes => exact ⟨.junction (by simp; omega) (by simpa using ⟨ha, hes⟩), hlexed⟩
  | joined ha hsign hb iha ihb =>
      obtain ⟨ha, hlexed⟩ := iha hlexed
      rcases Level.operator?_cases hsign with ⟨op, hkind, rfl⟩ | ⟨op, hkind, rfl⟩
      all_goals
        obtain ⟨hb, hlexed⟩ := ihb (hlexed.next hkind nofun rfl)
      · exact ⟨.compare ha hb, hlexed⟩
      · exact ⟨.arith ha hb, hlexed⟩
  | not hsign he ih =>
      obtain ⟨he, hlexed⟩ := ih (hlexed.next hsign nofun rfl)
      exact ⟨.not he, hlexed⟩
  | neg hsign he ih =>
      obtain ⟨he, hlexed⟩ := ih (hlexed.next hsign nofun rfl)
      exact ⟨.neg he, hlexed⟩
  | @number t rest ht =>
      obtain ⟨hnumber, hsign⟩ := Parser.numberValue_spec t
      exact ⟨.number hnumber hsign, hlexed.next ht nofun rfl⟩
  | bool ht => exact ⟨.bool _, hlexed.next ht nofun rfl⟩
  | tag hmarker ht =>
      obtain ⟨hname, hlexed⟩ := (hlexed.tail (by simp [hmarker])).word ht
      exact ⟨.tag hname, hlexed⟩
  | tagNumber hmarker ht =>
      obtain ⟨hname, hlexed⟩ := (hlexed.tail (by simp [hmarker])).word ht
      exact ⟨.tagNumber hname, hlexed⟩
  | nonEmpty hmarker hsource ih =>
      obtain ⟨h, hrest⟩ := ih (hsource.lexed_comprehension (hlexed.tail (by simp [hmarker])))
      cases hsource
      exact ⟨.nonEmpty h, hrest⟩
  | count hmarker hsource ih =>
      obtain ⟨h, hrest⟩ := ih (hsource.lexed_comprehension (hlexed.tail (by simp [hmarker])))
      cases hsource
      exact ⟨.count h, hrest⟩
  | quantified hword hbinder ih =>
      obtain ⟨h, hlexed⟩ := ih (hlexed.next hword nofun rfl)
      cases h with
      | comprehension hname hsource hbody => exact ⟨.quantified hname hsource hbody, hlexed⟩
  | focus hname hopening hbody hclose ih =>
      obtain ⟨hvariable, hlexed⟩ := hlexed.variable_name hname
      obtain ⟨hbody, hlexed⟩ := ih (hlexed.next hopening nofun rfl)
      exact ⟨.focus hvariable hbody, hlexed.next hclose nofun rfl⟩
  | var hname hrest =>
      obtain ⟨hvariable, hlexed⟩ := hlexed.variable_name hname
      exact ⟨.var hvariable, hlexed⟩
  | parens hopening he hclose ih =>
      obtain ⟨he, hlexed⟩ := ih (hlexed.next hopening nofun rfl)
      exact ⟨he, hlexed.next hclose nofun rfl⟩
  | list hword =>
      exact ⟨.list _, hlexed.next hword nofun rfl⟩
  | comprehension hopening hname hcolon hsource hpipe hbody hclose ihs ihb =>
      have hinside := hlexed.next hopening nofun rfl
      obtain ⟨hvariable, hinside⟩ := hinside.variable_name hname
      obtain ⟨hsource, hinside⟩ := ihs (hinside.next hcolon nofun rfl)
      obtain ⟨hbody, hinside⟩ := ihb (hinside.next hpipe nofun rfl)
      exact ⟨.comprehension hvariable hsource hbody, hinside.next hclose nofun rfl⟩

/-- Every rule that is read from text can be written. -/
theorem Expr.wellFormed_of_parse {text : String} {e : Expr} (h : Expr.parse text = .ok e) :
    WellFormed e := by
  obtain ⟨ts, htokens, hrule⟩ := bind_eq_ok.mp h
  have hlexed := Lexer.tokenize_lexed htokens
  obtain ⟨⟨last, -, hderives⟩, htyped⟩ := Parser.rule_sound hlexed hrule
  exact ⟨htyped, (hderives.spellable hlexed).1⟩

end DiagramFilter
