import DiagramFilter.Expr.Basic
import Mathlib.Tactic.Common

/-!
# The kinds of expressions as a judgement

An expression stands for a value of one kind or for a list of elements.  The judgement
`Typed bound e c` says which, for an expression in which only the names `bound` may be used
freely.  It puts the two static conditions on rules together: operands have the kinds that their
operators ask for, and every variable is bound where it is used.

The kind that the judgement gives is the one that `Expr.kind?` computes (`Typed.kind?_eq`), so an
expression is typed in at most one way.
-/

namespace DiagramFilter

/-- What an expression stands for. -/
inductive Category where
  /-- A value of a kind. -/
  | value (kind : Kind)
  /-- A list of elements. -/
  | list
deriving DecidableEq

/-- An expression whose operands fit together and whose free variables are among `bound`, with
what it stands for.  The source of a binder does not see the name that its body sees. -/
inductive Typed : (bound : List String) → Expr → Category → Prop
  | bool {bound : List String} (value : Bool) : Typed bound (.bool value) (.value .boolean)
  | number {bound : List String} (value : Float) : Typed bound (.number value) (.value .numeric)
  | tag {bound : List String} (name : String) : Typed bound (.tag name) (.value .boolean)
  | tagNumber {bound : List String} (name : String) :
      Typed bound (.tagNumber name) (.value .numeric)
  | var {bound : List String} {name : String} (hname : name ∈ bound) :
      Typed bound (.var name) (.value .element)
  | not {bound : List String} {e : Expr} (he : Typed bound e (.value .boolean)) :
      Typed bound (.not e) (.value .boolean)
  | neg {bound : List String} {e : Expr} (he : Typed bound e (.value .numeric)) :
      Typed bound (.neg e) (.value .numeric)
  | junction {bound : List String} {c : Connective} {es : List Expr}
      (hes : ∀ e ∈ es, Typed bound e (.value .boolean)) :
      Typed bound (.junction c es) (.value .boolean)
  | equality {bound : List String} {op : CompareOp} {a b : Expr} {k : Kind}
      (hop : op.isEquality = true) (ha : Typed bound a (.value k)) (hb : Typed bound b (.value k)) :
      Typed bound (.compare op a b) (.value .boolean)
  | relation {bound : List String} {op : CompareOp} {a b : Expr}
      (hop : op.isEquality = false) (ha : Typed bound a (.value .numeric))
      (hb : Typed bound b (.value .numeric)) :
      Typed bound (.compare op a b) (.value .boolean)
  | arith {bound : List String} {op : ArithOp} {a b : Expr}
      (ha : Typed bound a (.value .numeric)) (hb : Typed bound b (.value .numeric)) :
      Typed bound (.arith op a b) (.value .numeric)
  | quantified {bound : List String} {q : Quantifier} {name : String} {source body : Expr}
      (hsource : Typed bound source .list)
      (hbody : Typed (name :: bound) body (.value .boolean)) :
      Typed bound (.quantified q name source body) (.value .boolean)
  | focus {bound : List String} {name : String} {body : Expr} {k : Kind} (hname : name ∈ bound)
      (hbody : Typed bound body (.value k)) (hk : k ≠ .element) :
      Typed bound (.focus name body) (.value k)
  | count {bound : List String} {source : Expr} (hsource : Typed bound source .list) :
      Typed bound (.count source) (.value .numeric)
  | nonEmpty {bound : List String} {source : Expr} (hsource : Typed bound source .list) :
      Typed bound (.nonEmpty source) (.value .boolean)
  | list {bound : List String} (source : ListSource) : Typed bound (.list source) .list
  | comprehension {bound : List String} {name : String} {source body : Expr}
      (hsource : Typed bound source .list)
      (hbody : Typed (name :: bound) body (.value .boolean)) :
      Typed bound (.comprehension name source body) .list

namespace Typed

variable {bound bound' : List String} {e : Expr} {c : Category} {k k' : Kind}

/-- The kind of a typed expression is the one that is read off its root. -/
theorem kind?_eq (h : Typed bound e (.value k)) : e.kind? = some k := by
  generalize hc : Category.value k = c at h
  induction h generalizing k with
  | focus hname hbody hk ih => exact ih hc
  | list source => cases hc
  | comprehension hsource hbody ihs ihb => cases hc
  | _ => cases hc; rfl

/-- An expression has at most one kind. -/
theorem kind_unique (h : Typed bound e (.value k)) (h' : Typed bound' e (.value k')) : k = k' :=
  Option.some.inj (h.kind?_eq.symm.trans h'.kind?_eq)

/-- More bound names do no harm. -/
theorem mono (h : Typed bound e c) (hsub : ∀ x ∈ bound, x ∈ bound') : Typed bound' e c := by
  have hcons : ∀ {bound bound' : List String} (name : String), (∀ x ∈ bound, x ∈ bound') →
      ∀ x ∈ name :: bound, x ∈ name :: bound' := by
    intro bound bound' name hsub x hx
    rcases List.mem_cons.mp hx with rfl | hx
    · exact List.mem_cons_self
    · exact List.mem_cons_of_mem _ (hsub x hx)
  induction h generalizing bound' with
  | bool value => exact .bool value
  | number value => exact .number value
  | tag name => exact .tag name
  | tagNumber name => exact .tagNumber name
  | var hname => exact .var (hsub _ hname)
  | not he ih => exact .not (ih hsub)
  | neg he ih => exact .neg (ih hsub)
  | junction hes ih => exact .junction fun e he => ih e he hsub
  | equality hop ha hb iha ihb => exact .equality hop (iha hsub) (ihb hsub)
  | relation hop ha hb iha ihb => exact .relation hop (iha hsub) (ihb hsub)
  | arith ha hb iha ihb => exact .arith (iha hsub) (ihb hsub)
  | quantified hsource hbody ihs ihb => exact .quantified (ihs hsub) (ihb (hcons _ hsub))
  | focus hname hbody hk ih => exact .focus (hsub _ hname) (ih hsub) hk
  | count hsource ih => exact .count (ih hsub)
  | nonEmpty hsource ih => exact .nonEmpty (ih hsub)
  | list source => exact .list source
  | comprehension hsource hbody ihs ihb => exact .comprehension (ihs hsub) (ihb (hcons _ hsub))

end Typed

end DiagramFilter
