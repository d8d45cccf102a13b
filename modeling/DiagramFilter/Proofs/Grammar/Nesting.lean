import DiagramFilter.Expr.Parser
import Mathlib.Tactic.Common

/-!
# The nesting limit

The parser counts how deeply operands are nested and gives up at a limit.  Nothing else depends on
the limit: a parser with a higher one gives the same result, unless the lower one was in the way
(`Parser.operand_cut`).  What the parser does on a row of tokens can therefore be found out with
as high a limit as the row needs.

`Cut x y` says that `x` is the result `y`, or was cut short by the limit.
-/

namespace DiagramFilter.Parser

/-- The error of a rule that is nested too deeply. -/
abbrev tooDeep : ParseError :=
  .form .nestedTooDeeply none

/-- A result is another one, or was cut short by the nesting limit. -/
def Cut {α : Type} (x y : Except ParseError α) : Prop :=
  x = .error tooDeep ∨ x = y

namespace Cut

variable {α β : Type}

/-- A result that is not cut short is the same. -/
theorem refl (x : Except ParseError α) : Cut x x :=
  Or.inr rfl

/-- What is cut short may be cut shorter. -/
theorem trans {x y z : Except ParseError α} (h : Cut x y) (h' : Cut y z) : Cut x z := by
  rcases h with h | rfl
  · exact Or.inl h
  · exact h'

/-- Steps that may be cut short make up a result that may be. -/
theorem bind {x y : Except ParseError α} {f g : α → Except ParseError β} (h : Cut x y)
    (hf : ∀ a, Cut (f a) (g a)) : Cut (x >>= f) (y >>= g) := by
  rcases h with rfl | rfl
  · exact Or.inl rfl
  · cases x with
    | error e => exact Or.inr rfl
    | ok a => exact hf a

/-- What follows a step may be cut short. -/
theorem bind_right (x : Except ParseError α) {f g : α → Except ParseError β}
    (hf : ∀ a, Cut (f a) (g a)) : Cut (x >>= f) (x >>= g) :=
  (refl x).bind hf

/-- What begins with a step that is cut short is cut short. -/
theorem bind_left {x y : Except ParseError α} (h : Cut x y) (f : α → Except ParseError β) :
    Cut (x >>= f) (y >>= f) :=
  h.bind fun a => refl (f a)

end Cut

variable {p q : Reader Expr}

/-- The loop of a level is cut short with its operands. -/
theorem binaryTail_cut (join? : Token → Option Join) (hpq : ∀ ts, Cut (p ts) (q ts)) (rounds : Nat)
    (left : Expr) (ts : List Token) :
    Cut (binaryTail join? p rounds left ts) (binaryTail join? q rounds left ts) := by
  induction rounds generalizing left ts with
  | zero => exact .refl _
  | succ rounds ih =>
      simp only [binaryTail]
      cases join? (peek ts) with
      | none => exact .refl _
      | some join => exact (hpq ts.tail).bind fun r => .bind_right _ fun joined => ih joined r.2

/-- A level is cut short with its operands. -/
theorem binaryLevel_cut (join? : Token → Option Join) (hpq : ∀ ts, Cut (p ts) (q ts))
    (ts : List Token) : Cut (binaryLevel join? p ts) (binaryLevel join? q ts) :=
  (hpq ts).bind fun r => binaryTail_cut join? hpq r.2.length r.1 r.2

/-- The loop of a connective is cut short with its operands. -/
theorem junctionTail_cut (c : Connective) (hpq : ∀ ts, Cut (p ts) (q ts)) (rounds : Nat)
    (previous : Expr) (ts : List Token) :
    Cut (junctionTail c p rounds previous ts) (junctionTail c q rounds previous ts) := by
  induction rounds generalizing previous ts with
  | zero => exact .refl _
  | succ rounds ih =>
      simp only [junctionTail]
      split
      · exact (hpq ts.tail).bind fun r => .bind_right _ fun _ => .bind_right _ fun _ =>
          .bind_left (ih r.1 r.2) _
      · exact .refl _

/-- The level of a connective is cut short with its operands. -/
theorem junctionLevel_cut (c : Connective) (hpq : ∀ ts, Cut (p ts) (q ts)) (ts : List Token) :
    Cut (junctionLevel c p ts) (junctionLevel c q ts) :=
  (hpq ts).bind fun r => .bind_left (junctionTail_cut c hpq r.2.length r.1 r.2) _

/-- All levels are cut short with their operands. -/
theorem levels_cut (closing : Bool) (hpq : ∀ ts, Cut (p ts) (q ts)) (ts : List Token) :
    Cut (levels closing p ts) (levels closing q ts) :=
  junctionLevel_cut .or (junctionLevel_cut .and (binaryLevel_cut equalityJoin?
    (binaryLevel_cut (relationJoin? closing) (binaryLevel_cut termJoin?
      (binaryLevel_cut factorJoin? hpq))))) ts

/-- A binder is cut short with its list and its body. -/
theorem binding_cut {body body' : String → Reader Expr} (hpq : ∀ ts, Cut (p ts) (q ts))
    (hbody : ∀ name ts, Cut (body name ts) (body' name ts)) (ts : List Token) :
    Cut (binding p body ts) (binding q body' ts) := by
  refine .bind_right _ fun rest => ?_
  dsimp only
  split
  · exact .refl _
  · exact .bind_right _ fun rest => .bind_right _ fun rest => (hpq rest).bind fun r =>
      .bind_right _ fun rest => .bind_left (hbody _ rest) _

/-- One more level of nesting changes nothing but what the limit cuts short. -/
theorem operand_source_cut_succ (depth : Nat) (bound : List String) (ts : List Token) :
    Cut (operand depth bound ts) (operand (depth + 1) bound ts) ∧
      Cut (source depth bound ts) (source (depth + 1) bound ts) := by
  induction depth generalizing bound ts with
  | zero => exact ⟨Or.inl (by rw [operand]), Or.inl (by rw [source])⟩
  | succ depth ih =>
      have hoperand : ∀ bound ts, Cut (operand depth bound ts) (operand (depth + 1) bound ts) :=
        fun bound ts => (ih bound ts).1
      have hbinding : ∀ ts, Cut
          (binding (source depth bound) (fun var => levels false (operand depth (var :: bound))) ts)
          (binding (source (depth + 1) bound)
            (fun var => levels false (operand (depth + 1) (var :: bound))) ts) :=
        binding_cut (fun ts => (ih bound ts).2) fun var =>
          levels_cut false (hoperand (var :: bound))
      constructor
      · rw [operand, operand]
        split
        · exact .bind_left (hoperand bound _) _
        · exact .bind_left (hoperand bound _) _
        · exact .refl _
        · exact .refl _
        · split
          · exact .bind_left (hbinding _) _
          · exact .refl _
        · split
          · exact .bind_left (hbinding _) _
          · exact .refl _
        · exact .bind_left (hbinding _) _
        · split
          · exact .bind_right _ fun _ => .bind_left (levels_cut true (hoperand bound) _) _
          · exact .refl _
        · exact .bind_left (levels_cut false (hoperand bound) _) _
        · exact .refl _
        · exact .refl _
        · exact .refl _
      · rw [source, source]
        split
        · exact .refl _
        · exact .bind_left (hbinding _) _
        · exact .refl _

/-- A higher limit changes nothing but what the lower one cuts short. -/
theorem operand_cut {depth depth' : Nat} (hle : depth ≤ depth') (bound : List String)
    (ts : List Token) : Cut (operand depth bound ts) (operand depth' bound ts) := by
  induction hle with
  | refl => exact .refl _
  | step hle ih => exact ih.trans (operand_source_cut_succ _ bound ts).1

/-- A higher limit changes nothing for expressions but what the lower one cuts short. -/
theorem expression_cut {depth depth' : Nat} (hle : depth ≤ depth') (bound : List String)
    (ts : List Token) : Cut (expression depth bound ts) (expression depth' bound ts) :=
  levels_cut false (operand_cut hle bound) ts

end DiagramFilter.Parser
