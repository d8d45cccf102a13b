import DiagramFilter.Proofs.Laws.Passing
import DiagramFilter.Proofs.Typing.Judgement

/-!
# Expressions with a hole

A context is an expression in which one operand is left out.  What it becomes when an operand is put
in depends on the operand only through its category (`Expr.Context.typed_fill`) and its value
(`Expr.Context.eval_fill`).
-/

namespace DiagramFilter.Expr

/-- An expression with a hole in the place of one operand, list or body. -/
inductive Context where
  | hole
  | not (inner : Context)
  | neg (inner : Context)
  | junction (c : Connective) (before : List Expr) (inner : Context) (behind : List Expr)
  | compareLeft (op : CompareOp) (inner : Context) (right : Expr)
  | compareRight (op : CompareOp) (left : Expr) (inner : Context)
  | arithLeft (op : ArithOp) (inner : Context) (right : Expr)
  | arithRight (op : ArithOp) (left : Expr) (inner : Context)
  | quantifiedSource (q : Quantifier) (name : String) (inner : Context) (body : Expr)
  | quantifiedBody (q : Quantifier) (name : String) (source : Expr) (inner : Context)
  | focus (name : String) (inner : Context)
  | count (inner : Context)
  | nonEmpty (inner : Context)
  | comprehensionSource (name : String) (inner : Context) (body : Expr)
  | comprehensionBody (name : String) (source : Expr) (inner : Context)

namespace Context

/-- The expression that a context becomes with another one in its hole. -/
def fill (e : Expr) : Context → Expr
  | hole => e
  | not inner => .not (inner.fill e)
  | neg inner => .neg (inner.fill e)
  | junction c before inner behind => .junction c (before ++ inner.fill e :: behind)
  | compareLeft op inner right => .compare op (inner.fill e) right
  | compareRight op left inner => .compare op left (inner.fill e)
  | arithLeft op inner right => .arith op (inner.fill e) right
  | arithRight op left inner => .arith op left (inner.fill e)
  | quantifiedSource q name inner body => .quantified q name (inner.fill e) body
  | quantifiedBody q name source inner => .quantified q name source (inner.fill e)
  | focus name inner => .focus name (inner.fill e)
  | count inner => .count (inner.fill e)
  | nonEmpty inner => .nonEmpty (inner.fill e)
  | comprehensionSource name inner body => .comprehension name (inner.fill e) body
  | comprehensionBody name source inner => .comprehension name source (inner.fill e)

variable {a b : Expr}

/-- A context has the category that it has with an operand in its hole, with any operand of the same
category in it. -/
theorem typed_fill {c c' : Category} {bound : List String}
    (ha : ∀ {bound c}, Typed bound a c → c = c') (hb : ∀ bound, Typed bound b c')
    (context : Context) (h : Typed bound (context.fill a) c) : Typed bound (context.fill b) c := by
  induction context generalizing bound c with
  | hole =>
      obtain rfl := ha h
      exact hb bound
  | not inner ih =>
      cases h with
      | not he => exact .not (ih he)
  | neg inner ih =>
      cases h with
      | neg he => exact .neg (ih he)
  | junction connective before inner behind ih =>
      cases h with
      | junction hes =>
          obtain ⟨hbefore, hes⟩ := List.forall_mem_append.mp hes
          obtain ⟨he, hbehind⟩ := List.forall_mem_cons.mp hes
          exact .junction (List.forall_mem_append.mpr
            ⟨hbefore, List.forall_mem_cons.mpr ⟨ih he, hbehind⟩⟩)
  | compareLeft op inner right ih =>
      cases h with
      | equality hop hleft hright => exact .equality hop (ih hleft) hright
      | relation hop hleft hright => exact .relation hop (ih hleft) hright
  | compareRight op left inner ih =>
      cases h with
      | equality hop hleft hright => exact .equality hop hleft (ih hright)
      | relation hop hleft hright => exact .relation hop hleft (ih hright)
  | arithLeft op inner right ih =>
      cases h with
      | arith hleft hright => exact .arith (ih hleft) hright
  | arithRight op left inner ih =>
      cases h with
      | arith hleft hright => exact .arith hleft (ih hright)
  | quantifiedSource q name inner body ih =>
      cases h with
      | quantified hsource hbody => exact .quantified (ih hsource) hbody
  | quantifiedBody q name source inner ih =>
      cases h with
      | quantified hsource hbody => exact .quantified hsource (ih hbody)
  | focus name inner ih =>
      cases h with
      | focus hname hbody hk => exact .focus hname (ih hbody) hk
  | count inner ih =>
      cases h with
      | count hsource => exact .count (ih hsource)
  | nonEmpty inner ih =>
      cases h with
      | nonEmpty hsource => exact .nonEmpty (ih hsource)
  | comprehensionSource name inner body ih =>
      cases h with
      | comprehension hsource hbody => exact .comprehension (ih hsource) hbody
  | comprehensionBody name source inner ih =>
      cases h with
      | comprehension hsource hbody => exact .comprehension hsource (ih hbody)

/-- A context has the value that it has with any other operand of the same value in its hole. -/
theorem eval_fill {env : Env} (h : ∀ s, a.eval env s = b.eval env s) (context : Context)
    (s : Scope) : (context.fill a).eval env s = (context.fill b).eval env s := by
  induction context generalizing s with
  | hole => exact h s
  | junction c before inner behind ih =>
      simp only [fill, Expr.eval, evalJunction_append, evalJunction, ih]
  | _ => simp only [fill, Expr.eval, *]

end Context

end DiagramFilter.Expr
