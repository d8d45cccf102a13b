import DiagramFilter.Outcome
import Mathlib.Tactic.Common

/-!
# Related results

Two computations that run side by side end in results of which one is like the other, or in errors
of which one is like the other.  `Related` says so, and `Related.bind` goes from one step to the
next.
-/

namespace DiagramFilter

/-- Two results that are related, or two errors that are. -/
inductive Related {ε ε' α β : Type} (E : ε → ε' → Prop) (S : α → β → Prop) :
    Except ε α → Except ε' β → Prop
  | ok {a : α} {b : β} (h : S a b) : Related E S (.ok a) (.ok b)
  | error {e : ε} {e' : ε'} (h : E e e') : Related E S (.error e) (.error e')

namespace Related

variable {ε ε' α α' β β' : Type} {E : ε → ε' → Prop} {S : α → α' → Prop} {T : β → β' → Prop}

/-- Steps that are related on related results go on to related results. -/
theorem bind {x : Except ε α} {x' : Except ε' α'} {f : α → Except ε β} {f' : α' → Except ε' β'}
    (h : Related E S x x') (hf : ∀ a a', S a a' → Related E T (f a) (f' a')) :
    Related E T (x >>= f) (x' >>= f') := by
  cases h with
  | ok h => exact hf _ _ h
  | error h => exact .error h

/-- Results that are put in another form. -/
theorem map {x : Except ε α} {x' : Except ε' α'} {f : α → β} {f' : α' → β'}
    (h : Related E S x x') (hf : ∀ a a', S a a' → T (f a) (f' a')) :
    Related E T (x.map f) (x'.map f') := by
  cases h with
  | ok h => exact .ok (hf _ _ h)
  | error h => exact .error h

/-- Errors that are seen as others. -/
theorem mapError {δ δ' : Type} {D : δ → δ' → Prop} {x : Except ε α} {x' : Except ε' α'}
    {f : ε → δ} {f' : ε' → δ'} (h : Related E S x x') (hf : ∀ e e', E e e' → D (f e) (f' e')) :
    Related D S (x.mapError f) (x'.mapError f') := by
  cases h with
  | ok h => exact .ok h
  | error h => exact .error (hf _ _ h)

/-- One computation on both sides. -/
theorem same (x : Except ε α) : Related Eq Eq x x := by
  cases x with
  | ok a => exact .ok rfl
  | error e => exact .error rfl

end Related

end DiagramFilter
