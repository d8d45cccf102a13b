import DiagramFilter.Expr.Printer

/-!
# Writing on a stack with an end

An expression is written by calls within calls, and `Expr.calls` says how many.  On a stack that has
room for so many calls it is written as on one without an end, and on any other stack it is not
written at all (`Expr.WrittenAs`).
-/

namespace DiagramFilter

namespace Expr

mutual

/-- The greatest number of calls within each other when an expression is written. -/
def calls : Expr → Nat
  | not e | neg e | focus _ e => e.calls + 1
  | junction _ es => callsAll es + 1 + 1
  | compare _ a b | arith _ a b => max a.calls b.calls + 1
  | quantified _ _ source body => max source.callsSource body.calls + 1
  | count source | nonEmpty source => source.callsBracketed + 1
  | number _ => 1 + 1
  | _ => 1

/-- The same number for a list. -/
def callsSource : Expr → Nat
  | comprehension _ source body | quantified _ _ source body =>
    max source.callsSource body.calls + 1
  | _ => 1

/-- The same number for a list that is written as a comprehension. -/
def callsBracketed : Expr → Nat
  | list _ | unknownList _ => 1 + 1
  | comprehension _ source body | quantified _ _ source body =>
    max source.callsSource body.calls + 1
  | _ => 1

/-- The greatest of these numbers for some operands. -/
def callsAll : List Expr → Nat
  | [] => 0
  | e :: es => max e.calls (callsAll es)

end

end Expr

/-- With room for so many calls a task has the result that it has on a stack without an end, and
with less room it has none. -/
def TakesCalls {α : Type} (calls : Nat) (task : Room → Except FormatError α) : Prop :=
  ∀ a, task none = .ok a → ∀ room,
    task (some room) = if calls ≤ room then .ok a else .error .tooDeep

namespace TakesCalls

variable {α β : Type} {m n : Nat} {task : Room → Except FormatError α}

/-- A task without calls. -/
theorem pure (a : α) : TakesCalls 0 fun _ => .ok a := by
  intro b h room
  rw [if_pos (Nat.zero_le room)]
  exact h

/-- A task that fails on every stack. -/
theorem fail (calls : Nat) (fault : FormatError) :
    TakesCalls calls fun _ => (.error fault : Except FormatError α) :=
  fun _ h => nomatch h

/-- One task after another. -/
theorem bind {next : α → Room → Except FormatError β} (h : TakesCalls m task)
    (hnext : ∀ a, TakesCalls n (next a)) :
    TakesCalls (max m n) fun room => task room >>= fun a => next a room := by
  intro b hb room
  cases ha : task none with
  | error fault =>
      simp only [ha] at hb
      cases hb
  | ok a =>
      simp only [ha] at hb
      simp only [h a ha room]
      by_cases hm : m ≤ room
      · rw [if_pos hm]
        refine (hnext a b hb room).trans ?_
        simp only [Nat.max_le, hm, true_and]
      · rw [if_neg hm, if_neg fun hle => hm (Nat.max_le.mp hle).1]
        rfl

/-- A task inside one more call. -/
theorem enter (h : TakesCalls n task) : TakesCalls (n + 1) fun room => room.enter >>= task := by
  intro a ha room
  cases room with
  | zero => rfl
  | succ room =>
      refine (h a ha room).trans ?_
      simp only [Nat.add_le_add_iff_right]

/-- The result of a task, put into a greater one. -/
theorem map (f : α → β) (h : TakesCalls n task) :
    TakesCalls n fun room => task room >>= fun a => Pure.pure (f a) := by
  have hbind := h.bind fun a => TakesCalls.pure (f a)
  rwa [Nat.max_zero] at hbind

/-- Two results, put into one. -/
theorem map₂ {γ : Type} {task' : Room → Except FormatError β} (f : α → β → γ)
    (h : TakesCalls m task) (h' : TakesCalls n task') :
    TakesCalls (max m n) fun room =>
      task room >>= fun a => task' room >>= fun b => Pure.pure (f a b) :=
  h.bind fun a => h'.map (f a)

end TakesCalls

namespace Expr

mutual

/-- Every part of an expression is written by a call inside that of the expression. -/
theorem formatOn_takes (e : Expr) : TakesCalls e.calls (formatOn · e) := by
  cases e with
  | bool value =>
      cases value
      all_goals exact (TakesCalls.pure _).enter
  | number x => exact (TakesCalls.pure _).enter.enter
  | tag name => exact (TakesCalls.pure _).enter
  | tagNumber name => exact (TakesCalls.pure _).enter
  | var name => exact (TakesCalls.pure _).enter
  | not e => exact ((formatOn_takes e).map _).enter
  | neg e => exact ((formatOn_takes e).map _).enter
  | junction c es => exact ((formatAllOn_takes es).map _).enter.enter
  | compare op a b => exact ((formatOn_takes a).map₂ _ (formatOn_takes b)).enter
  | arith op a b => exact ((formatOn_takes a).map₂ _ (formatOn_takes b)).enter
  | quantified q v source body =>
      exact ((formatSourceOn_takes source).map₂ _ (formatOn_takes body)).enter
  | focus v body => exact ((formatOn_takes body).map _).enter
  | count source => exact ((formatBracketedOn_takes source).map _).enter
  | nonEmpty source => exact ((formatBracketedOn_takes source).map _).enter
  | list source => exact (TakesCalls.fail 0 _).enter
  | unknownList word => exact (TakesCalls.fail 0 _).enter
  | comprehension v source body => exact (TakesCalls.fail 0 _).enter
  | foreign name => exact (TakesCalls.fail 0 _).enter

/-- So is every part of a list. -/
theorem formatSourceOn_takes (e : Expr) : TakesCalls e.callsSource (formatSourceOn · e) := by
  cases e with
  | list source => exact (TakesCalls.pure _).enter
  | unknownList word => exact (TakesCalls.pure _).enter
  | comprehension v source body =>
      exact ((formatSourceOn_takes source).map₂ _ (formatOn_takes body)).enter
  | quantified q v source body =>
      exact ((formatSourceOn_takes source).map₂ _ (formatOn_takes body)).enter
  | _ => exact (TakesCalls.fail 0 _).enter

/-- So is every part of a list that is written as a comprehension. -/
theorem formatBracketedOn_takes (e : Expr) :
    TakesCalls e.callsBracketed (formatBracketedOn · e) := by
  cases e with
  | list source => exact (TakesCalls.pure _).enter.enter
  | unknownList word => exact (TakesCalls.pure _).enter.enter
  | comprehension v source body =>
      exact ((formatSourceOn_takes source).map₂ _ (formatOn_takes body)).enter
  | quantified q v source body =>
      exact ((formatSourceOn_takes source).map₂ _ (formatOn_takes body)).enter
  | _ => exact (TakesCalls.fail 0 _).enter

/-- So are operands, one after the other. -/
theorem formatAllOn_takes (es : List Expr) : TakesCalls (callsAll es) (formatAllOn · es) := by
  cases es with
  | nil => exact TakesCalls.pure _
  | cons e es => exact (formatOn_takes e).map₂ _ (formatAllOn_takes es)

end

/-- A text is the written form of an expression.  On a stack with an end the expression is written
as this text if there is room for its calls, and is not written if there is less. -/
structure WrittenAs (e : Expr) (text : String) : Prop where
  unbounded : e.format = .ok text
  bounded : ∀ room, e.formatOn (some room) = if e.calls ≤ room then .ok text else .error .tooDeep

/-- **Writing on a stack with an end.**  What an expression is written as on a stack without an end
is what it is written as on the others. -/
theorem writtenAs_of_format {e : Expr} {text : String} (h : e.format = .ok text) :
    e.WrittenAs text :=
  ⟨h, formatOn_takes e text h⟩

end Expr

end DiagramFilter
