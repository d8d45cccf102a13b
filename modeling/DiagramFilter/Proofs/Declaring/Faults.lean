import DiagramFilter.Proofs.Declaring.Reading
import DiagramFilter.Proofs.Legacy.Failing

/-!
# Faults of entries

What can be wrong with an entry of declarations (`EntryFault`) and with the rule in it
(`SourceFault`), each fault with the error that tells of it.  An entry is not read if and only if it
has a fault (`readEntry_eq_error`), and it has one at most, since every part of it is looked at only
where those before are right.

The errors are of the classes of values and of rules, unless the conversion of a legacy record meets
a constant beyond the doubles (`EntryFault.class`).
-/

namespace DiagramFilter

open Outcome (result_bind_eq_error result_bind_of_ok result_bind_of_error)

variable {strict : Bool} {name : String} {initial : Option Bool} {source : Document}

/-- The classes of the faults of rules, which are texts or legacy records. -/
def IsRuleClass (c : FailureClass) : Prop :=
  c ∈ [FailureClass.form, .kind, .undefinedVariable, .legacy]

/-- A malformed legacy record is the fault of a rule. -/
theorem isRuleClass_legacy : IsRuleClass .legacy := by
  simp [IsRuleClass]

/-- The errors of rule text are faults of rules. -/
theorem ParseError.isRuleClass (error : ParseError) : IsRuleClass error.failureClass := by
  cases error <;> simp [IsRuleClass, ParseError.failureClass]

/-- An initial state is a truth value. -/
theorem Legacy.initialState?_eq_error {rule : Document} {e : LegacyError} :
    initialState? rule = .error e ↔ ∃ d, rule.value? "defaultValue" = some d ∧
      (∀ b, d ≠ .bool b) ∧ .stateNotBool d.quoted = e := by
  constructor
  · intro h
    unfold initialState? at h
    split at h
    · cases h
    · cases h
    · exact ⟨_, by assumption, by assumption, Except.error.inj h⟩
  · rintro ⟨d, h, hbool, rfl⟩
    rw [initialState?, h]
    cases d with
    | bool b => exact absurd rfl (hbool b)
    | _ => rfl

/-- What can be wrong with the rule of a filter that has a given initial state, or none. -/
inductive SourceFault (strict : Bool) (initial : Option Bool) : Document → FilterError → Prop
  | text {text : String} {error : ParseError} (h : Expr.parse text = .error error) :
      SourceFault strict initial (.string text) (.rule text error)
  /-- A record is not converted, and one that the conversion meets is the reason. -/
  | record {fields : List (String × Document)} {pos : Legacy.Position} {rule : Document}
      {error : LegacyError}
      (herror : (Legacy.convert strict (.object fields)).result = .error error)
      (hwithin : Legacy.Within (.object fields) pos rule)
      (hstops : Legacy.Stops strict pos rule error) :
      SourceFault strict initial (.object fields) (.legacy error)
  /-- The state of a record is looked at only where none is given. -/
  | state {fields : List (String × Document)} {text : String} {d : Document}
      (htext : (Legacy.convert strict (.object fields)).result = .ok text) (hnone : initial = none)
      (h : (Document.object fields).value? "defaultValue" = some d) (hbool : ∀ b, d ≠ .bool b) :
      SourceFault strict initial (.object fields) (.legacy (.stateNotBool d.quoted))
  /-- A record can be converted to a text that is nested too deep for a rule. -/
  | converted {fields : List (String × Document)} {text : String} {error : ParseError}
      (htext : (Legacy.convert strict (.object fields)).result = .ok text)
      (hstate : initial = none → ∃ own, Legacy.initialState? (.object fields) = .ok own)
      (herror : Expr.parse text = .error error) :
      SourceFault strict initial (.object fields) (.rule text error)
  | notRule {d : Document} (htext : ∀ text, d ≠ .string text)
      (hobject : ∀ fields, d ≠ .object fields) :
      SourceFault strict initial d (.notRule d.typeName)

/-- A fault of a rule is of the classes of rules, unless a record meets a constant beyond the
doubles or the rule is neither a text nor a record. -/
theorem SourceFault.class {e : FilterError} (h : SourceFault strict initial source e) :
    IsRuleClass e.failureClass ∨
      (∃ fields pos rule, source = .object fields ∧ Legacy.Within source pos rule ∧
        Legacy.IsOversized rule ∧ e.failureClass = .overflow) ∨
      (∀ text, source ≠ .string text) ∧ ∀ fields, source ≠ .object fields := by
  cases h with
  | text herror => exact Or.inl (ParseError.isRuleClass _)
  | converted htext hstate herror => exact Or.inl (ParseError.isRuleClass _)
  | state htext hnone h hbool => exact Or.inl isRuleClass_legacy
  | notRule htext hobject => exact Or.inr (Or.inr ⟨htext, hobject⟩)
  | @record fields pos rule error herror hwithin hstops =>
      rcases hstops.class with hclass | ⟨rfl, hlarge⟩
      · have hrule : IsRuleClass error.failureClass := by
          rw [hclass]
          exact isRuleClass_legacy
        exact Or.inl hrule
      · exact Or.inr (Or.inl ⟨fields, pos, rule, rfl, hwithin, hlarge, rfl⟩)

/-- Text is refused as a filter exactly if it spells no rule. -/
theorem Filter.ofText_eq_error {text : String} {given : Option String} {e : FilterError} :
    ofText text given initial = .error e ↔
      ∃ error, Expr.parse text = .error error ∧ .rule text error = e := by
  unfold ofText
  rw [bind_eq_error, mapError_eq_error]
  constructor
  · rintro (h | ⟨rule, -, h⟩)
    · exact h
    · cases h
  · exact Or.inl

/-- **What is no filter has a fault**, and what has a fault is none. -/
theorem Filter.ofDocument_eq_error {given : Option String} {e : FilterError} :
    (ofDocument strict source given initial).result = .error e ↔
      SourceFault strict initial source e := by
  constructor
  · intro h
    unfold ofDocument at h
    split at h
    · obtain ⟨error, herror, rfl⟩ := ofText_eq_error.mp h
      exact .text herror
    · rename_i fields
      rcases result_bind_eq_error.mp h with h | ⟨text, htext, h⟩
      · obtain ⟨error, herror, rfl⟩ := mapError_eq_error.mp h
        obtain ⟨pos, rule, hwithin, hstops⟩ :=
          (Legacy.failsWithin_lockstep strict _).boolean _ .root error herror
        exact .record herror hwithin hstops
      · have htext := Outcome.result_mapError_eq_ok.mp htext
        cases initial with
        | some b =>
            obtain ⟨error, herror, rfl⟩ := ofText_eq_error.mp h
            exact .converted htext nofun herror
        | none =>
            rcases result_bind_eq_error.mp h with h | ⟨own, hown, h⟩
            · obtain ⟨error, herror, rfl⟩ := mapError_eq_error.mp h
              obtain ⟨d, hstate, hbool, rfl⟩ := Legacy.initialState?_eq_error.mp herror
              exact .state htext rfl hstate hbool
            · obtain ⟨error, herror, rfl⟩ := ofText_eq_error.mp h
              exact .converted htext (fun _ => ⟨own, Outcome.result_mapError_eq_ok.mp hown⟩) herror
    · rename_i d htext hobject
      cases h
      exact .notRule htext hobject
  · intro h
    cases h with
    | text herror => exact ofText_eq_error.mpr ⟨_, herror, rfl⟩
    | record herror hwithin hstops =>
        exact result_bind_of_error (mapError_eq_error.mpr ⟨_, herror, rfl⟩) _
    | state htext hnone h hbool =>
        have herror := Legacy.initialState?_eq_error.mpr ⟨_, h, hbool, rfl⟩
        rw [hnone]
        refine (result_bind_of_ok (Outcome.result_mapError_eq_ok.mpr htext) _).trans ?_
        exact result_bind_of_error (mapError_eq_error.mpr ⟨_, herror, rfl⟩) _
    | converted htext hstate herror =>
        refine (result_bind_of_ok (Outcome.result_mapError_eq_ok.mpr htext) _).trans ?_
        cases initial with
        | some b => exact ofText_eq_error.mpr ⟨_, herror, rfl⟩
        | none =>
            obtain ⟨own, hown⟩ := hstate rfl
            refine (result_bind_of_ok (Outcome.result_mapError_eq_ok.mpr hown) _).trans ?_
            exact ofText_eq_error.mpr ⟨_, herror, rfl⟩
    | notRule htext hobject =>
        cases source with
        | string text => exact absurd rfl (htext text)
        | object fields => exact absurd rfl (hobject fields)
        | _ => rfl

namespace Declarations

variable {index : Nat} {seen : List String} {entry d : Document} {es : List Document}
  {e : DeclarationError}

/-- What can be wrong with the name of an entry. -/
inductive NameFault (index : Nat) (seen : List String) (entry : Document) : DeclarationError → Prop
  | notObject (h : ∀ fields, entry ≠ .object fields) :
      NameFault index seen entry (.entryNotObject index)
  | missing {fields : List (String × Document)} (hobject : entry = .object fields)
      (h : ∀ name, entry.field? "name" = some (.string name) → Text.isAllBlank name) :
      NameFault index seen entry (.missingName index)
  | duplicate {name : String} (h : entry.field? "name" = some (.string name))
      (hblank : ¬ Text.isAllBlank name) (hseen : seen.contains name) :
      NameFault index seen entry (.duplicateName name)

/-- The name of an entry is refused exactly for its faults. -/
theorem entryName_eq_error : entryName index seen entry = .error e ↔
    NameFault index seen entry e := by
  constructor
  · intro h
    unfold entryName at h
    split at h
    · split at h
      · rename_i name hname
        split at h
        · rename_i hblank
          cases h
          refine .missing rfl fun name' hname' => ?_
          rw [hname] at hname'
          cases hname'
          exact hblank
        · split at h
          · cases h
            exact .duplicate hname (by assumption) (by assumption)
          · cases h
      · rename_i hname
        cases h
        exact .missing rfl fun name hname' => absurd hname' (hname name)
    · cases h
      exact .notObject (by assumption)
  · intro h
    cases h with
    | notObject h =>
        cases entry with
        | object fields => exact absurd rfl (h fields)
        | _ => rfl
    | missing hobject h =>
        rw [hobject] at h ⊢
        simp only [entryName]
        split
        · rename_i name hname
          exact if_pos (h name hname)
        · rfl
    | duplicate h hblank hseen =>
        cases entry with
        | object fields => simp only [entryName, h, if_neg hblank, if_pos hseen]
        | _ => cases h

/-- What can be wrong with the rule of an entry before it is read. -/
inductive RuleFault (name : String) (entry : Document) : DeclarationError → Prop
  | notOne (h : (entry.field? "rule").isSome = (entry.field? "legacy").isSome) :
      RuleFault name entry (.notOneRule name)
  | notText {rule : Document} (hrule : entry.field? "rule" = some rule)
      (hlegacy : entry.field? "legacy" = none) (htext : ∀ text, rule ≠ .string text) :
      RuleFault name entry (.ruleNotText name)
  | notRecord {record : Document} (hrule : entry.field? "rule" = none)
      (hlegacy : entry.field? "legacy" = some record)
      (hobject : ∀ fields, record ≠ .object fields) : RuleFault name entry (.legacyNotObject name)

/-- The rule of an entry is refused exactly for its faults. -/
theorem entrySource_eq_error : entrySource name entry = .error e ↔ RuleFault name entry e := by
  constructor
  · intro h
    unfold entrySource at h
    cases hrule : entry.field? "rule" with
    | none =>
        cases hlegacy : entry.field? "legacy" with
        | none =>
            rw [hrule, hlegacy] at h
            cases h
            exact .notOne (by rw [hrule, hlegacy])
        | some record =>
            rw [hrule, hlegacy] at h
            cases record with
            | object fields => cases h
            | _ =>
                cases h
                exact .notRecord hrule hlegacy nofun
    | some rule =>
        cases hlegacy : entry.field? "legacy" with
        | none =>
            rw [hrule, hlegacy] at h
            cases rule with
            | string text => cases h
            | _ =>
                cases h
                exact .notText hrule hlegacy nofun
        | some record =>
            rw [hrule, hlegacy] at h
            obtain rfl : .notOneRule name = e := by cases rule <;> exact Except.error.inj h
            exact .notOne (by rw [hrule, hlegacy, Option.isSome_some, Option.isSome_some])
  · intro h
    unfold entrySource
    cases h with
    | notOne h =>
        cases hrule : entry.field? "rule" with
        | none =>
            rw [hrule, Option.isSome_none, eq_comm, Option.isSome_eq_false_iff,
              Option.isNone_iff_eq_none] at h
            rw [h]
        | some rule =>
            rw [hrule, Option.isSome_some, eq_comm, Option.isSome_iff_exists] at h
            obtain ⟨record, hlegacy⟩ := h
            rw [hlegacy]
            cases rule <;> rfl
    | @notText rule hrule hlegacy htext =>
        rw [hrule, hlegacy]
        cases rule with
        | string text => exact absurd rfl (htext text)
        | _ => rfl
    | @notRecord record hrule hlegacy hobject =>
        rw [hrule, hlegacy]
        cases record with
        | object fields => exact absurd rfl (hobject fields)
        | _ => rfl

/-- The initial state of an entry is refused exactly if it is there and no truth value. -/
theorem entryInitial_eq_error : entryInitial name entry = .error e ↔
    ∃ d, entry.value? "default" = some d ∧ (∀ b, d ≠ .bool b) ∧ .initialNotBool name = e := by
  constructor
  · intro h
    unfold entryInitial at h
    split at h
    · cases h
    · cases h
    · exact ⟨_, by assumption, by assumption, Except.error.inj h⟩
  · rintro ⟨d, h, hbool, rfl⟩
    rw [entryInitial, h]
    cases d with
    | bool b => exact absurd rfl (hbool b)
    | _ => rfl

/-- The parts of an entry are looked at one after the other. -/
theorem entryParts_eq_error : entryParts index seen entry = .error e ↔
    entryName index seen entry = .error e ∨ ∃ name, entryName index seen entry = .ok name ∧
      (entrySource name entry = .error e ∨ ∃ source, entrySource name entry = .ok source ∧
        entryInitial name entry = .error e) := by
  unfold entryParts
  simp only [bind_eq_error]
  simp [pure, Except.pure]

/-- What can be wrong with an entry behind others, by their number and their names. -/
inductive EntryFault (strict : Bool) (index : Nat) (seen : List String) (entry : Document) :
    DeclarationError → Prop
  | name {e : DeclarationError} (h : NameFault index seen entry e) :
      EntryFault strict index seen entry e
  | rule {name : String} {e : DeclarationError} (hname : entryName index seen entry = .ok name)
      (h : RuleFault name entry e) : EntryFault strict index seen entry e
  | initialNotBool {name : String} {source d : Document}
      (hname : entryName index seen entry = .ok name)
      (hsource : entrySource name entry = .ok source) (h : entry.value? "default" = some d)
      (hbool : ∀ b, d ≠ .bool b) : EntryFault strict index seen entry (.initialNotBool name)
  | filter {name : String} {source : Document} {initial : Option Bool} {error : FilterError}
      (hparts : entryParts index seen entry = .ok (name, source, initial))
      (h : SourceFault strict initial source error) :
      EntryFault strict index seen entry (.filter name error)

/-- **An entry that is not read has a fault**, and one that has a fault is not read. -/
theorem readEntry_eq_error : (readEntry strict index seen entry).result = .error e ↔
    EntryFault strict index seen entry e := by
  constructor
  · intro h
    rcases result_bind_eq_error.mp h with h | ⟨⟨name, source, initial⟩, hparts, h⟩
    · rcases entryParts_eq_error.mp h with h | ⟨name, hname, h | ⟨source, hsource, h⟩⟩
      · exact .name (entryName_eq_error.mp h)
      · exact .rule hname (entrySource_eq_error.mp h)
      · obtain ⟨d, hdefault, hbool, rfl⟩ := entryInitial_eq_error.mp h
        exact .initialNotBool hname hsource hdefault hbool
    · rcases result_bind_eq_error.mp h with h | ⟨f, -, h⟩
      · obtain ⟨error, herror, rfl⟩ := mapError_eq_error.mp h
        exact .filter hparts (Filter.ofDocument_eq_error.mp herror)
      · cases h
  · intro h
    -- A fault of one of the parts ends the reading before the rule is read.
    have hends : entryParts index seen entry = .error e →
        (readEntry strict index seen entry).result = .error e := by
      intro hparts
      rw [readEntry, hparts]
      rfl
    cases h with
    | name h => exact hends (entryParts_eq_error.mpr (Or.inl (entryName_eq_error.mpr h)))
    | rule hname h =>
        have hsource := entrySource_eq_error.mpr h
        exact hends (entryParts_eq_error.mpr (Or.inr ⟨_, hname, Or.inl hsource⟩))
    | @initialNotBool name source d hname hsource h hbool =>
        have hinitial : entryInitial name entry = .error (.initialNotBool name) :=
          entryInitial_eq_error.mpr ⟨d, h, hbool, rfl⟩
        exact hends (entryParts_eq_error.mpr (Or.inr ⟨_, hname, Or.inr ⟨_, hsource, hinitial⟩⟩))
    | filter hparts h => exact readEntry_of_fault hparts (Filter.ofDocument_eq_error.mpr h)

/-- An entry is refused for a wrong value, for its rule, or for a constant that is too large. -/
theorem EntryFault.class (h : EntryFault strict index seen entry e) :
    e.failureClass = .value ∨ IsRuleClass e.failureClass ∨
      ∃ record pos rule, entry.field? "legacy" = some record ∧ Legacy.Within record pos rule ∧
        Legacy.IsOversized rule ∧ e.failureClass = .overflow := by
  cases h with
  | name h =>
      cases h
      all_goals exact Or.inl rfl
  | rule hname h =>
      cases h
      all_goals exact Or.inl rfl
  | initialNotBool hname hsource h hbool => exact Or.inl rfl
  | @filter name source initial error hparts hfault =>
      obtain ⟨-, hsource, -⟩ := entryParts_eq_ok.mp hparts
      have hsort := entrySource_spec hsource
      refine Or.inr ?_
      rcases hfault.class with hclass | ⟨fields, pos, rule, rfl, hwithin, hlarge, hclass⟩ |
        ⟨htext, hobject⟩
      · exact Or.inl hclass
      · rcases hsort with ⟨text, htext, -, -⟩ | ⟨fields, -, -, hlegacy⟩
        · cases htext
        · exact Or.inr ⟨_, pos, rule, hlegacy, hwithin, hlarge, hclass⟩
      · rcases hsort with ⟨text, rfl, -, -⟩ | ⟨fields, rfl, -, -⟩
        · exact absurd rfl (htext text)
        · exact absurd rfl (hobject fields)

end Declarations

end DiagramFilter
