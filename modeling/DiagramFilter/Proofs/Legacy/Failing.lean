import DiagramFilter.Proofs.Legacy.Steps

/-!
# How conversions fail

A conversion that fails has met a record that it could not convert: `Within` are the records that a
conversion can meet, and `convert_fails_at` says what is wrong with the one in question.  All errors
are of the class of legacy records but one: a constant that is a whole number beyond the doubles
stops the conversion in the way of numbers (`convert_oversized`).
-/

namespace DiagramFilter.Legacy

variable {strict : Bool} {root rule : Document} {pos : Position} {e : LegacyError}

/-- The records that a conversion of a record can meet, with the positions in which they stand. -/
inductive Within (root : Document) : Position → Document → Prop
  | root : Within root .boolean root
  | operand {pos pos' : Position} {rule d : Document} {name key : String}
      (h : Within root pos rule) (htakes : Takes pos rule name key pos')
      (hkey : rule.value? key = some d) : Within root pos' d

/-- A record is the reason of an error: it has a fault, or nothing is known about its connective and
the conversion is strict. -/
inductive Stops (strict : Bool) : Position → Document → LegacyError → Prop
  | fault {pos : Position} {rule : Document} {e : LegacyError} (h : Fault pos rule e) :
      Stops strict pos rule e
  | unknown {pos : Position} {rule : Document} {name : String} (hstrict : strict = true)
      (h : IsUnknown pos rule name) : Stops strict pos rule (.unknownConnective name)

/-- If a conversion fails, a record within `root` is the reason. -/
def FailsWithin (strict : Bool) (root : Document) {α : Type} (o : Conversion α) : Prop :=
  ∀ e, o.result = .error e → ∃ pos rule, Within root pos rule ∧ Stops strict pos rule e

/-- Every step of a conversion fails within the record, if it fails. -/
theorem failsWithin_lockstep (strict : Bool) (root : Document) :
    Lockstep strict strict (Within root) fun _ o _ => FailsWithin strict root o where
  operand h htakes hkey := h.operand htakes hkey
  pure a := fun e he => by cases he
  bind {_ _ o _ f _} h hnext := by
    intro e he
    cases ho : o.result with
    | ok a => exact hnext a e (by rwa [Outcome.result_bind_of_ok ho] at he)
    | error e' =>
        rw [Outcome.result_bind_of_error ho] at he
        cases he
        exact h e ho
  fault hwithin hfault := fun e he => by
    cases he
    exact ⟨_, _, hwithin, .fault hfault⟩
  unknown hwithin hunknown := fun e he => by
    unfold unknownText at he
    split at he
    · rename_i hstrict
      cases he
      exact ⟨_, _, hwithin, .unknown hstrict hunknown⟩
    · cases he

/-- A constant is a whole number beyond the largest double. -/
def IsOversized (rule : Document) : Prop :=
  IsConstant rule ∧ ∃ n, rule.field? "num" = some (.number (.int n)) ∧ Double.ofInt? n = none

/-- Only constants that are too large stop a conversion with an error of another class. -/
theorem Stops.class (h : Stops strict pos rule e) :
    e.failureClass = .legacy ∨ e = .tooLarge ∧ IsOversized rule := by
  cases h with
  | unknown hstrict h => exact .inl rfl
  | fault h =>
      cases h with
      | tooLarge h hnum hlarge => exact .inr ⟨rfl, h, _, hnum, hlarge⟩
      | _ => exact .inl rfl

/-- **A conversion gives a text or fails at a record that it meets**, which is malformed or, under
strict rules, of an unknown connective.  The error is of the class of legacy records, unless that
record is a constant that is too large.  Numbers of any length are told in errors: a bound on the
digits that a machine prints is put aside. -/
theorem convert_fails_at (strict : Bool) (root : Document) :
    (∃ text, (convert strict root).result = .ok text) ∨
      ∃ e pos rule, (convert strict root).result = .error e ∧ Within root pos rule ∧
        Stops strict pos rule e ∧
        (e.failureClass = .legacy ∨ e = .tooLarge ∧ IsOversized rule) := by
  cases hresult : (convert strict root).result with
  | ok text => exact .inl ⟨text, rfl⟩
  | error e =>
      obtain ⟨pos, rule, hwithin, hstops⟩ :=
        (failsWithin_lockstep strict root).boolean root .root e hresult
      exact .inr ⟨e, pos, rule, rfl, hwithin, hstops, hstops.class⟩

/-- A record that compares a constant beyond the doubles with a tag. -/
def oversized : Document :=
  .object [("name", .string "LESSTHAN"), ("leftOperand", .object [("name", .string "CONST"),
    ("num", .number (.int (10 ^ 309)))]), ("rightOperand", .object [("tag", .string "a")])]

/-- A conversion can fail with an error of another class. -/
theorem convert_oversized : (convert true oversized).result = .error .tooLarge ∧
    LegacyError.tooLarge.failureClass = .overflow := by
  refine ⟨?_, rfl⟩
  have hleft : (numeric true (.object [("name", .string "CONST"),
      ("num", .number (.int (10 ^ 309)))])).result = .error .tooLarge := by
    rw [numeric]
    decide +kernel
  rw [convert, boolean]
  exact Outcome.result_bind_of_error hleft _

end DiagramFilter.Legacy
