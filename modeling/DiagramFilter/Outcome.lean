/-!
# Outcomes with warnings

An outcome is a result or an error, together with the warnings given on the way to it.  Warnings
given before an error are kept.
-/

namespace DiagramFilter

/-- Two steps succeed if the first does and the second does on its result. -/
theorem bind_eq_ok {ε α β : Type} {x : Except ε α} {f : α → Except ε β} {b : β} :
    (x >>= f) = .ok b ↔ ∃ a, x = .ok a ∧ f a = .ok b := by
  cases x with
  | error e => simp [bind, Except.bind]
  | ok a => simp [bind, Except.bind]

/-- Two steps fail if the first does, or the second on the result of the first. -/
theorem bind_eq_error {ε α β : Type} {x : Except ε α} {f : α → Except ε β} {e : ε} :
    (x >>= f) = .error e ↔ x = .error e ∨ ∃ a, x = .ok a ∧ f a = .error e := by
  cases x with
  | error e' => simp [bind, Except.bind]
  | ok a => simp [bind, Except.bind]

/-- Seeing the error of a step as another makes no result. -/
theorem mapError_eq_ok {ε ε' α : Type} {x : Except ε α} {f : ε → ε'} {a : α} :
    x.mapError f = .ok a ↔ x = .ok a := by
  cases x with
  | error e => exact ⟨nofun, nofun⟩
  | ok b =>
      constructor
      · intro h
        cases h
        rfl
      · intro h
        cases h
        rfl

/-- A step whose error is seen as another fails if the step does. -/
theorem mapError_eq_error {ε ε' α : Type} {x : Except ε α} {f : ε → ε'} {e : ε'} :
    x.mapError f = .error e ↔ ∃ e', x = .error e' ∧ f e' = e := by
  cases x with
  | error e' =>
      constructor
      · intro h
        exact ⟨e', rfl, Except.error.inj h⟩
      · rintro ⟨_, h, rfl⟩
        cases h
        rfl
  | ok a =>
      constructor
      · intro h
        cases h
      · rintro ⟨_, h, -⟩
        cases h

/-- A result or an error, with the warnings before it in order. -/
structure Outcome (ε ω α : Type) where
  result : Except ε α
  warnings : List ω

namespace Outcome

variable {ε ω α β : Type}

/-- The outcome of a step that goes on with `next` after a result. -/
def andThen (o : Outcome ε ω α) (next : α → Outcome ε ω β) : Outcome ε ω β :=
  match o.result with
  | .ok a => ⟨(next a).result, o.warnings ++ (next a).warnings⟩
  | .error e => ⟨.error e, o.warnings⟩

instance : Monad (Outcome ε ω) where
  pure a := ⟨.ok a, []⟩
  bind := andThen

/-- An error without warnings. -/
def fail (e : ε) : Outcome ε ω α :=
  ⟨.error e, []⟩

/-- A result with one warning. -/
def warn (w : ω) (a : α) : Outcome ε ω α :=
  ⟨.ok a, [w]⟩

/-- A result or an error without warnings. -/
def ofExcept (x : Except ε α) : Outcome ε ω α :=
  ⟨x, []⟩

/-- The outcome with its error seen as another. -/
def mapError {ε' : Type} (f : ε → ε') (o : Outcome ε ω α) : Outcome ε' ω α :=
  ⟨o.result.mapError f, o.warnings⟩

/-- Behind a result the next step goes on, and its warnings stand behind the earlier ones. -/
theorem bind_ok {a : α} {ws : List ω} (next : α → Outcome ε ω β) :
    ((⟨.ok a, ws⟩ : Outcome ε ω α) >>= next) = ⟨(next a).result, ws ++ (next a).warnings⟩ := rfl

/-- Behind an error there is no next step. -/
theorem bind_error {e : ε} {ws : List ω} (next : α → Outcome ε ω β) :
    ((⟨.error e, ws⟩ : Outcome ε ω α) >>= next) = ⟨.error e, ws⟩ := rfl

/-- A step without warnings hands its result on. -/
theorem pure_bind (a : α) (next : α → Outcome ε ω β) : (pure a >>= next) = next a := rfl

/-- A step that fails is followed by none. -/
theorem fail_bind (e : ε) (next : α → Outcome ε ω β) :
    ((fail e : Outcome ε ω α) >>= next) = fail e := rfl

/-- The result behind a result is that of the next step. -/
theorem result_bind_of_ok {o : Outcome ε ω α} {a : α} (h : o.result = .ok a)
    (next : α → Outcome ε ω β) : (o >>= next).result = (next a).result := by
  obtain ⟨result, ws⟩ := o
  cases h
  rw [bind_ok]

/-- The result behind an error is the error. -/
theorem result_bind_of_error {o : Outcome ε ω α} {e : ε} (h : o.result = .error e)
    (next : α → Outcome ε ω β) : (o >>= next).result = .error e := by
  obtain ⟨result, ws⟩ := o
  cases h
  rw [bind_error]

/-- Going on with what is there already changes nothing. -/
theorem bind_return (o : Outcome ε ω α) : (o >>= fun a => (⟨.ok a, []⟩ : Outcome ε ω α)) = o := by
  obtain ⟨result, ws⟩ := o
  cases result with
  | ok a => simp [bind_ok]
  | error e => rw [bind_error]

/-- Steps may be grouped in any way. -/
theorem bind_bind {γ : Type} (o : Outcome ε ω α) (f : α → Outcome ε ω β)
    (g : β → Outcome ε ω γ) : (o >>= f) >>= g = o >>= fun a => f a >>= g := by
  obtain ⟨result, ws⟩ := o
  cases result with
  | error e => rfl
  | ok a =>
      rw [bind_ok, bind_ok]
      obtain ⟨result', ws'⟩ := f a
      cases result' with
      | ok b => simp [bind_ok]
      | error e => rfl

instance : LawfulMonad (Outcome ε ω) :=
  LawfulMonad.mk' _ (fun o => bind_return o) (fun a next => pure_bind a next) bind_bind

/-- A step after another one gives a result if both do. -/
theorem result_bind_eq_ok {o : Outcome ε ω α} {next : α → Outcome ε ω β} {b : β} :
    (o >>= next).result = .ok b ↔ ∃ a, o.result = .ok a ∧ (next a).result = .ok b := by
  obtain ⟨result, ws⟩ := o
  cases result with
  | ok a => simp [bind_ok]
  | error e => simp [bind_error]

/-- A step after another one fails if the first does, or it does on the result of the first. -/
theorem result_bind_eq_error {o : Outcome ε ω α} {next : α → Outcome ε ω β} {e : ε} :
    (o >>= next).result = .error e ↔
      o.result = .error e ∨ ∃ a, o.result = .ok a ∧ (next a).result = .error e := by
  obtain ⟨result, ws⟩ := o
  cases result with
  | ok a => simp [bind_ok]
  | error e' => simp [bind_error]

/-- Steps that all give results leave the warnings of all. -/
theorem mapM_of_ok {visit : α → Outcome ε ω β} {as : List α} {bs : List β}
    (h : as.map (fun a => (visit a).result) = bs.map .ok) :
    as.mapM visit = ⟨.ok bs, as.flatMap fun a => (visit a).warnings⟩ := by
  induction as generalizing bs with
  | nil =>
      obtain rfl : bs = [] := by simpa using h.symm
      rfl
  | cons a as ih =>
      obtain ⟨b, bs, rfl⟩ : ∃ b bs', bs = b :: bs' := by
        cases bs with
        | nil => simp at h
        | cons b bs => exact ⟨b, bs, rfl⟩
      rw [List.map_cons, List.map_cons, List.cons.injEq] at h
      have hvisit : visit a = ⟨.ok b, (visit a).warnings⟩ := by rw [← h.1]
      rw [List.mapM_cons, hvisit, bind_ok, ih h.2, bind_ok]
      simp [pure, List.flatMap_cons]

/-- The first of several steps that fails ends them all. -/
theorem mapM_of_error {visit : α → Outcome ε ω β} {before after : List α} {a : α} {bs : List β}
    {e : ε} (h : before.map (fun a => (visit a).result) = bs.map .ok)
    (ha : (visit a).result = .error e) :
    (before ++ a :: after).mapM visit =
      ⟨.error e, (before ++ [a]).flatMap fun a => (visit a).warnings⟩ := by
  have hvisit : visit a = ⟨.error e, (visit a).warnings⟩ := by rw [← ha]
  rw [List.mapM_append, mapM_of_ok h, bind_ok, List.mapM_cons, hvisit, bind_error, bind_error]
  simp [List.flatMap_append]

end Outcome

end DiagramFilter
