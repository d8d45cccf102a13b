import DiagramFilter.Proofs.Legacy.Steps

/-!
# Strict and permissive conversion

A strict conversion stops at the first connective that is not known; a permissive one warns about it
and goes on.  Up to there both do the same.  `Tracks` says how the outcome of a strict conversion
stands to that of a permissive one; every step keeps it (`tracks_lockstep`), because what comes
after an unknown connective can only add to the warnings of the permissive one.
-/

namespace DiagramFilter.Legacy

variable {α β : Type}

/-- How a strict conversion stands to a permissive one.  They agree without warnings, or the strict
one stopped at a connective about which the permissive one warned first. -/
inductive Tracks : Conversion α → Conversion α → Prop
  | done (a : α) : Tracks ⟨.ok a, []⟩ ⟨.ok a, []⟩
  | fault {e : LegacyError} (h : ∀ name, e ≠ .unknownConnective name) :
      Tracks ⟨.error e, []⟩ ⟨.error e, []⟩
  | unknown (name : String) (pos : Position) (result : Except LegacyError α)
      (later : List Substitution) :
      Tracks ⟨.error (.unknownConnective name), []⟩ ⟨result, ⟨name, pos.replacement⟩ :: later⟩

/-- Steps that track each other do so one after the other. -/
theorem Tracks.bind {o o' : Conversion α} {f f' : α → Conversion β} (h : Tracks o o')
    (hnext : ∀ a, Tracks (f a) (f' a)) : Tracks (o >>= f) (o' >>= f') := by
  cases h with
  | done a => exact hnext a
  | fault h => exact .fault h
  | unknown name pos result later =>
      cases result with
      | ok a => exact .unknown name pos _ _
      | error e => exact .unknown name pos _ _

/-- The faults of records have nothing to do with unknown connectives. -/
theorem Fault.ne_unknownConnective {pos : Position} {rule : Document} {e : LegacyError}
    (h : Fault pos rule e) (name : String) : e ≠ .unknownConnective name := by
  cases h <;> exact LegacyError.noConfusion

/-- Every step of a strict conversion tracks that of a permissive one. -/
theorem tracks_lockstep : Lockstep true false (fun _ _ => True) fun α => Tracks (α := α) where
  operand _ _ _ := trivial
  pure a := .done a
  bind h hnext := h.bind hnext
  fault _ h := .fault h.ne_unknownConnective
  unknown _ _ := .unknown _ _ _ _

/-- **Strict conversion is permissive conversion up to the first unknown connective.**  It gives a
text exactly if the permissive one gives this text without warnings; where it stops at an unknown
connective, the permissive one warns about that first; and any other error is the permissive one's,
with no warning before it. -/
theorem convert_strict_tracks (rule : Document) :
    (∀ text, (convert true rule).result = .ok text ↔
      (convert false rule).result = .ok text ∧ (convert false rule).warnings = []) ∧
    (∀ name, (convert true rule).result = .error (.unknownConnective name) →
      ∃ pos : Position, ∃ later,
        (convert false rule).warnings = ⟨name, pos.replacement⟩ :: later) ∧
    (∀ e, (convert true rule).result = .error e → (∀ name, e ≠ .unknownConnective name) →
      (convert false rule).result = .error e ∧ (convert false rule).warnings = []) ∧
    (convert true rule).warnings = [] := by
  have htracks : Tracks (convert true rule) (convert false rule) :=
    tracks_lockstep.boolean rule trivial
  generalize convert true rule = strict at htracks ⊢
  generalize convert false rule = permissive at htracks ⊢
  cases htracks with
  | done a => simp
  | fault h =>
      refine ⟨by simp, fun name hname => ?_, fun e he _ => ⟨he, rfl⟩, rfl⟩
      exact absurd (Except.error.inj hname) (h name)
  | unknown name pos result later =>
      refine ⟨by simp, fun name' hname => ?_, fun e he hother => ?_, rfl⟩
      · cases hname
        exact ⟨pos, later, rfl⟩
      · exact absurd (Except.error.inj he).symm (hother name)

/-- A negation of a record of which nothing is known. -/
def negatedUnknown : Document :=
  .object [("name", .string "NOT"), ("operand", .object [("name", .string "XOR")])]

/-- A strict conversion that stops at an unknown connective. -/
theorem convert_strict_tracks_negatedUnknown :
    (convert true negatedUnknown).result = .error (.unknownConnective "XOR") ∧
      ∃ pos : Position, ∃ later,
        (convert false negatedUnknown).warnings = ⟨"XOR", pos.replacement⟩ :: later := by
  have hinner : (boolean true (.object [("name", .string "XOR")])).result =
      .error (.unknownConnective "XOR") := by
    rw [boolean]
    rfl
  have hstrict : (convert true negatedUnknown).result = .error (.unknownConnective "XOR") := by
    rw [convert, boolean]
    exact Outcome.result_bind_of_error hinner _
  exact ⟨hstrict, (convert_strict_tracks negatedUnknown).2.1 "XOR" hstrict⟩

end DiagramFilter.Legacy
