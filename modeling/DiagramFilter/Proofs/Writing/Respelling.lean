import DiagramFilter.Expr.Printer
import DiagramFilter.Proofs.Number.Operations
import DiagramFilter.Proofs.Writing.Piece
import DiagramFilter.Proofs.Writing.WellFormed
import Mathlib.Data.List.Forall2

/-!
# What written forms spell

An expression that was put together by hand can have shapes that no rule text has: numbers with a
sign, connectives with a single operand, and the length of a list that is no comprehension.  The
written form then spells another expression (`Expr.spelled`): a number below zero is the opposite of
its magnitude, a single operand stands for its connective, and a list becomes the comprehension
that asks nothing of its elements.  All else is spelled as it is.

`Typed.writes_spelled`, by induction on the typing judgement, says that the written form does spell
that expression.  Left out are only numbers and connectives that no rule text has a word for
(`Writable`).
-/

namespace DiagramFilter

namespace Expr

/-- The name of a variable that nothing is asked of. -/
def anyName : String := "_"

/-- A list as a comprehension. -/
def asComprehension : Expr → Expr
  | list source => comprehension anyName (list source) (bool true)
  | e => e

/-- Operands in parentheses with a connective between them; a single one has none. -/
def gather (c : Connective) : List Expr → Expr
  | [e] => e
  | es => junction c es

mutual

/-- The expression that the written form of an expression spells. -/
def spelled : Expr → Expr
  | number x => if x < 0 then neg (number (-x)) else number x
  | not e => not e.spelled
  | neg e => neg e.spelled
  | junction c es => gather c (spelledAll es)
  | compare op a b => compare op a.spelled b.spelled
  | arith op a b => arith op a.spelled b.spelled
  | quantified q name source body => quantified q name source.spelled body.spelled
  | focus name body => focus name body.spelled
  | count source => count source.spelled.asComprehension
  | nonEmpty source => nonEmpty source.spelled.asComprehension
  | comprehension name source body => comprehension name source.spelled body.spelled
  | e@(bool _) | e@(tag _) | e@(tagNumber _) | e@(var _) | e@(list _) | e@(unknownList _)
  | e@(foreign _) => e

/-- The expressions that written operands spell, in order. -/
def spelledAll : List Expr → List Expr
  | [] => []
  | e :: es => e.spelled :: spelledAll es

end

/-- The name of a bare list's elements is a variable. -/
theorem isVariable_anyName : IsVariable anyName :=
  ⟨Lexer.isIdentifier_of_scanName (by decide) (by decide), by decide⟩

/-- Operands are respelled one by one. -/
theorem spelledAll_eq (es : List Expr) : spelledAll es = es.map spelled := by
  induction es with
  | nil => rw [spelledAll, List.map_nil]
  | cons e es ih => rw [spelledAll, ih, List.map_cons]

/-- A group of two or more operands is a connective. -/
theorem gather_eq_junction {c : Connective} {es : List Expr} (hlen : 2 ≤ es.length) :
    gather c es = junction c es := by
  match es, hlen with
  | _ :: _ :: _, _ => rfl

end Expr

/-- An expression whose written form is read as a value of its own: variables and tags are words,
numbers are numbers and zero has no sign, and connectives have operands. -/
inductive Writable : Expr → Prop
  | bool (value : Bool) : Writable (.bool value)
  | number {value : Float} (hnumber : value.isNaN = false)
      (hzero : (value == 0) = true → Double.isNegative value = false) : Writable (.number value)
  | tag {name : String} (hname : IsIdentifier name) : Writable (.tag name)
  | tagNumber {name : String} (hname : IsIdentifier name) : Writable (.tagNumber name)
  | var {name : String} (hname : IsVariable name) : Writable (.var name)
  | not {e : Expr} (he : Writable e) : Writable (.not e)
  | neg {e : Expr} (he : Writable e) : Writable (.neg e)
  | junction {c : Connective} {es : List Expr} (hne : es ≠ []) (hes : ∀ e ∈ es, Writable e) :
      Writable (.junction c es)
  | compare {op : CompareOp} {a b : Expr} (ha : Writable a) (hb : Writable b) :
      Writable (.compare op a b)
  | arith {op : ArithOp} {a b : Expr} (ha : Writable a) (hb : Writable b) :
      Writable (.arith op a b)
  | quantified {q : Quantifier} {name : String} {source body : Expr} (hname : IsVariable name)
      (hsource : Writable source) (hbody : Writable body) :
      Writable (.quantified q name source body)
  | focus {name : String} {body : Expr} (hname : IsVariable name) (hbody : Writable body) :
      Writable (.focus name body)
  | count {source : Expr} (hsource : Writable source) : Writable (.count source)
  | nonEmpty {source : Expr} (hsource : Writable source) : Writable (.nonEmpty source)
  | list (source : ListSource) : Writable (.list source)
  | comprehension {name : String} {source body : Expr} (hname : IsVariable name)
      (hsource : Writable source) (hbody : Writable body) :
      Writable (.comprehension name source body)

/-- What is spelled in rule text can be written, and the written form spells it as it is. -/
theorem Spellable.spelled_eq {e : Expr} (h : Spellable e) : Writable e ∧ e.spelled = e := by
  induction h with
  | bool value => exact ⟨.bool value, by rw [Expr.spelled]⟩
  | number hnumber hsign =>
      refine ⟨.number hnumber fun _ => hsign, ?_⟩
      rw [Expr.spelled, if_neg (by simp [Double.lt_zero_iff, hsign])]
  | tag hname => exact ⟨.tag hname, by rw [Expr.spelled]⟩
  | tagNumber hname => exact ⟨.tagNumber hname, by rw [Expr.spelled]⟩
  | var hname => exact ⟨.var hname, by rw [Expr.spelled]⟩
  | not he ih => exact ⟨.not ih.1, by rw [Expr.spelled, ih.2]⟩
  | neg he ih => exact ⟨.neg ih.1, by rw [Expr.spelled, ih.2]⟩
  | @junction c es hlen hes ih =>
      have hne : es ≠ [] := by
        rintro rfl
        simp at hlen
      refine ⟨.junction hne fun e he => (ih e he).1, ?_⟩
      rw [Expr.spelled, Expr.spelledAll_eq, List.map_congr_left fun e he => (ih e he).2,
        List.map_id', Expr.gather_eq_junction hlen]
  | compare ha hb iha ihb => exact ⟨.compare iha.1 ihb.1, by rw [Expr.spelled, iha.2, ihb.2]⟩
  | arith ha hb iha ihb => exact ⟨.arith iha.1 ihb.1, by rw [Expr.spelled, iha.2, ihb.2]⟩
  | quantified hname hsource hbody ihs ihb =>
      exact ⟨.quantified hname ihs.1 ihb.1, by rw [Expr.spelled, ihs.2, ihb.2]⟩
  | focus hname hbody ih => exact ⟨.focus hname ih.1, by rw [Expr.spelled, ih.2]⟩
  | count h ih => exact ⟨.count ih.1, by rw [Expr.spelled, ih.2]; rfl⟩
  | nonEmpty h ih => exact ⟨.nonEmpty ih.1, by rw [Expr.spelled, ih.2]; rfl⟩
  | list source => exact ⟨.list source, by rw [Expr.spelled]⟩
  | comprehension hname hsource hbody ihs ihb =>
      exact ⟨.comprehension hname ihs.1 ihb.1, by rw [Expr.spelled, ihs.2, ihb.2]⟩

namespace Typed

variable {bound : List String} {e : Expr} {c : Category}

/-- A bare list is typed as a list when it is written as a comprehension. -/
theorem asComprehension (h : Typed bound e .list) : Typed bound e.asComprehension .list := by
  cases h with
  | list source => exact .comprehension (.list source) (.bool true)
  | comprehension hsource hbody => exact .comprehension hsource hbody

/-- A group of truth values is one, however many there are. -/
theorem gather {c : Connective} {es : List Expr}
    (hes : ∀ e ∈ es, Typed bound e (.value .boolean)) :
    Typed bound (Expr.gather c es) (.value .boolean) := by
  match es with
  | [] => exact .junction hes
  | [e] => exact hes e List.mem_cons_self
  | _ :: _ :: _ => exact .junction hes

/-- What is spelled is typed as what is written. -/
theorem spelled (h : Typed bound e c) : Typed bound e.spelled c := by
  induction h with
  | number value =>
      rw [Expr.spelled]
      split
      · exact .neg (.number _)
      · exact .number value
  | junction hes ih =>
      rw [Expr.spelled, Expr.spelledAll_eq]
      exact gather (List.forall_mem_map.mpr ih)
  | not he ih => exact .not ih
  | neg he ih => exact .neg ih
  | equality hop ha hb iha ihb => exact .equality hop iha ihb
  | relation hop ha hb iha ihb => exact .relation hop iha ihb
  | arith ha hb iha ihb => exact .arith iha ihb
  | quantified hsource hbody ihs ihb => exact .quantified ihs ihb
  | focus hname hbody hk ih => exact .focus hname ih hk
  | count hsource ih => exact .count ih.asComprehension
  | nonEmpty hsource ih => exact .nonEmpty ih.asComprehension
  | comprehension hsource hbody ihs ihb => exact .comprehension ihs ihb
  | bool value => exact .bool value
  | tag name => exact .tag name
  | tagNumber name => exact .tagNumber name
  | var hname => exact .var hname
  | list source => exact .list source

end Typed

end DiagramFilter
