import DiagramFilter.Proofs.Legacy.Denotation
import DiagramFilter.Proofs.Writing.Piece
import Mathlib.Data.List.Forall2

/-!
# Texts with a meaning

A text of a legacy record is put together from texts without looking into them.  What is needed of
each of them is that it is an operand of any operator, whatever stands behind it, and means a truth
value or a number of the element (`Tells`, `Counts`).  The ways in which texts are put together keep
this, and do with the meanings what the operators say.
-/

namespace DiagramFilter.Legacy

/-- A text is an operand that means a truth value of the element, with anything behind it. -/
def Tells (text : String) (truth : Env → Handle → Bool) : Prop :=
  ∃ e, Piece .primary true true text.toList e ∧ MeansTruth e truth

/-- A text is an operand that means a number of the element, with anything behind it. -/
def Counts (text : String) (number : Env → Handle → Float) : Prop :=
  ∃ e, Piece .primary true true text.toList e ∧ MeansNumber e number

/-- Texts are the operands of a connective that means a truth value of the element. -/
def TellsRun (c : Connective) (texts : List String) (truth : Env → Handle → Bool) : Prop :=
  ∃ es, List.Forall₂ (Piece .primary true true) (texts.map String.toList) es ∧
    es ≠ [] ∧ MeansRun c es truth

variable {p q r : Env → Handle → Bool} {x y : Env → Handle → Float} {c : Connective}
  {texta textb textc : String} {as bs : List String}

/-- A text that counts a number counts an equal one. -/
theorem Counts.congr (h : Counts texta x) (heq : ∀ env h, x env h = y env h) : Counts texta y := by
  obtain ⟨e, hpiece, hmeans⟩ := h
  exact ⟨e, hpiece, hmeans.congr fun env h => by rw [heq]⟩

/-- Two numbers with an operation between them. -/
theorem Counts.arith (op : ArithOp) (ha : Counts texta x) (hb : Counts textb y) :
    Counts ("(" ++ texta ++ op.symbol ++ textb ++ ")") fun env h =>
      op.apply (x env h) (y env h) := by
  obtain ⟨a, hpiecea, hmeansa⟩ := ha
  obtain ⟨b, hpieceb, hmeansb⟩ := hb
  obtain ⟨l, hl⟩ := Level.exists_arith op
  have hpiece : Piece .primary true true _ _ :=
    hpiecea.unary.operation (.arith op) hpieceb.unary (.arith op) (fun _ _ _ => nofun) hl
  refine ⟨_, ?_, hmeansa.arith op hmeansb⟩
  simpa using hpiece

namespace Tells

/-- A text that tells a truth value tells an equal one. -/
theorem congr (h : Tells texta p) (heq : ∀ env h, p env h = q env h) : Tells texta q := by
  obtain ⟨e, hpiece, hmeans⟩ := h
  exact ⟨e, hpiece, hmeans.congr fun env h => by rw [heq]⟩

/-- The word for a truth value tells it. -/
theorem bool (value : Bool) : Tells (TokenKind.bool value).label fun _ _ => value :=
  ⟨_, .bool value, .bool value⟩

/-- Parentheses do not change what is told. -/
theorem parens (h : Tells texta p) : Tells ("(" ++ texta ++ ")") p := by
  obtain ⟨e, hpiece, hmeans⟩ := h
  have hparens : Piece .primary true true _ _ := .parens (hpiece.unary.expression false)
  refine ⟨e, ?_, hmeans⟩
  simpa using hparens

/-- A negation tells the opposite. -/
theorem not (h : Tells texta p) : Tells ("(!" ++ texta ++ ")") fun env h => !p env h := by
  obtain ⟨e, hpiece, hmeans⟩ := h
  have hparens : Piece .primary true true _ _ := .parens (hpiece.unary.not.expression false)
  refine ⟨_, ?_, hmeans.not⟩
  simpa using hparens

/-- Two operands that are compared. -/
theorem relation (op : CompareOp) (ha : Counts texta x) (hb : Counts textb y) :
    Tells ("(" ++ texta ++ op.symbol ++ textb ++ ")") fun env h =>
      op.test (x env h) (y env h) := by
  obtain ⟨a, hpiecea, hmeansa⟩ := ha
  obtain ⟨b, hpieceb, hmeansb⟩ := hb
  obtain ⟨l, hl⟩ := Level.exists_compare op
  have hpiece : Piece .primary true true _ _ :=
    hpiecea.unary.operation (.compare op) hpieceb.unary (.compare op) (fun _ _ _ => nofun) hl
  refine ⟨_, ?_, hmeansa.compare op hmeansb⟩
  simpa using hpiece

/-- Two truth values that are compared. -/
theorem same (ha : Tells texta p) (hb : Tells textb q) :
    Tells ("(" ++ texta ++ "=" ++ textb ++ ")") fun env h => p env h == q env h := by
  obtain ⟨a, hpiecea, hmeansa⟩ := ha
  obtain ⟨b, hpieceb, hmeansb⟩ := hb
  obtain ⟨l, hl⟩ := Level.exists_compare .eq
  have hpiece : Piece .primary true true _ _ :=
    hpiecea.unary.operation (.compare .eq) hpieceb.unary (.compare .eq) (fun _ _ _ => nofun) hl
  refine ⟨_, ?_, hmeansa.same hmeansb⟩
  simpa [CompareOp.symbol] using hpiece

/-- A group of operands in parentheses. -/
theorem group (h : TellsRun c as p) (hlen : 2 ≤ as.length) :
    Tells ("(" ++ c.symbol.intercalate as ++ ")") p := by
  obtain ⟨es, hpieces, -, hmeans⟩ := h
  have hlength : 2 ≤ es.length := by
    rw [← hpieces.length_eq, List.length_map]
    exact hlen
  have hoperands := hpieces.imp fun _ _ h => h.unary.junctionOperand false c
  have hgroup := Piece.group hoperands hlength (.junction c) (.junction c)
  have hpiece : Piece .primary true true _ _ :=
    .parens (hgroup.lift fun _ _ h => h.expression_of_group)
  refine ⟨_, ?_, hmeans.junction⟩
  simpa using hpiece

/-- One truth value implies another: the second holds, or the first one does not. -/
theorem implication (ha : Tells texta p) (hb : Tells textb q) :
    Tells ("(!" ++ texta ++ "||" ++ textb ++ ")") fun env h => !p env h || q env h := by
  obtain ⟨a, hpiecea, hmeansa⟩ := ha
  obtain ⟨b, hpieceb, hmeansb⟩ := hb
  have hpair := Piece.pair false (hpiecea.unary.not.junctionOperand false .or)
    (.junction .or) (hpieceb.unary.junctionOperand false .or) (.junction .or)
  have hpiece : Piece .primary true true _ _ :=
    .parens (hpair.lift fun _ _ h => h.expression_of_group)
  refine ⟨_, ?_, hmeansa.not.pair .or hmeansb⟩
  simpa [Connective.symbol] using hpiece

/-- One of two truth values, chosen by a third. -/
theorem choice (ha : Tells texta p) (hb : Tells textb q) (hc : Tells textc r) :
    Tells ("(" ++ texta ++ "&&" ++ textb ++ "||!" ++ texta ++ "&&" ++ textc ++ ")") fun env h =>
      if p env h then q env h else r env h := by
  obtain ⟨a, hpiecea, hmeansa⟩ := ha
  obtain ⟨b, hpieceb, hmeansb⟩ := hb
  obtain ⟨c, hpiecec, hmeansc⟩ := hc
  have hthen := Piece.pair false (hpiecea.unary.junctionOperand false .and) (.junction .and)
    (hpieceb.unary.junctionOperand false .and) (.junction .and)
  have helse := Piece.pair false (hpiecea.unary.not.junctionOperand false .and) (.junction .and)
    (hpiecec.unary.junctionOperand false .and) (.junction .and)
  have hpair := Piece.pair false (c := .or) (hthen.lift fun _ _ h => .grouped h) (.junction .or)
    (helse.lift fun _ _ h => .grouped h) (.junction .or)
  have hpiece : Piece .primary true true _ _ :=
    .parens (hpair.lift fun _ _ h => h.expression_of_group)
  have hmeans := (hmeansa.pair .and hmeansb).pair .or (hmeansa.not.pair .and hmeansc)
  refine ⟨_, ?_, hmeans.congr fun env h => ?_⟩
  · simpa [Connective.symbol] using hpiece
  · simp only [Connective.join]
    cases p env h <;> simp

end Tells

namespace TellsRun

/-- A run that tells a truth value tells an equal one. -/
theorem congr (h : TellsRun c as p) (heq : ∀ env h, p env h = q env h) : TellsRun c as q := by
  obtain ⟨es, hpieces, hne, htyped, heval⟩ := h
  exact ⟨es, hpieces, hne, htyped, fun env scope htotal => by rw [heval env scope htotal, heq]⟩

/-- One text is a run. -/
theorem singleton (h : Tells texta p) : TellsRun c [texta] p := by
  obtain ⟨e, hpiece, hmeans⟩ := h
  exact ⟨[e], by simpa using hpiece, by simp, .singleton hmeans⟩

/-- Two runs are joined to one by their connective. -/
theorem append (ha : TellsRun c as p) (hb : TellsRun c bs q) :
    TellsRun c (as ++ bs) fun env h => c.join (p env h) (q env h) := by
  obtain ⟨es, hpieces, hne, hmeans⟩ := ha
  obtain ⟨es', hpieces', -, hmeans'⟩ := hb
  refine ⟨es ++ es', ?_, by simp [hne], hmeans.append hmeans'⟩
  rw [List.map_append]
  exact List.rel_append hpieces hpieces'

/-- A run has a text. -/
theorem length_pos (h : TellsRun c as p) : 0 < as.length := by
  obtain ⟨es, hpieces, hne, -⟩ := h
  rw [← List.length_map String.toList, hpieces.length_eq]
  exact List.length_pos_iff.mpr hne

end TellsRun

end DiagramFilter.Legacy
