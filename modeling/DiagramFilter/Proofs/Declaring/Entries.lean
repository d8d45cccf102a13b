import DiagramFilter.Filter.Declarations
import Mathlib.Tactic.Common

/-!
# Entries of declarations

What a declared filter has from its entry (`Declarations.Declares`), and what the reading of an
entry knows of the entries before it: how many there are, and which names they have
(`Declarations.readEntry_congr`).
-/

namespace DiagramFilter

open Outcome (result_bind_eq_ok)

/-- Seeing an error as another one makes no result. -/
theorem Outcome.result_mapError_eq_ok {ε ε' ω α : Type} {o : Outcome ε ω α} {f : ε → ε'} {a : α} :
    (o.mapError f).result = .ok a ↔ o.result = .ok a := by
  obtain ⟨result, ws⟩ := o
  cases result <;> simp [mapError, Except.mapError]

/-- A filter of text has what is given, and the rule that the text spells. -/
theorem Filter.ofText_eq_ok {text : String} {name : Option String} {initial : Option Bool}
    {f : Filter} : ofText text name initial = .ok f ↔
      Expr.parse text = .ok f.rule ∧ f.name = name ∧ f.initial = initial ∧ f.text = text := by
  obtain ⟨name', initial', rule, text'⟩ := f
  unfold ofText
  cases Expr.parse text with
  | error e => simp [Except.mapError, bind, Except.bind]
  | ok e =>
      simp only [Except.mapError, bind, Except.bind, pure, Except.pure, Except.ok.injEq, mk.injEq]
      constructor
      · rintro ⟨rfl, rfl, rfl, rfl⟩
        exact ⟨rfl, rfl, rfl, rfl⟩
      · rintro ⟨rfl, rfl, rfl, rfl⟩
        exact ⟨rfl, rfl, rfl, rfl⟩

/-- The initial state of a record is the truth value under its key, if there is one. -/
theorem Legacy.initialState?_eq_ok {rule : Document} {initial : Option Bool} :
    initialState? rule = .ok initial ↔ rule.value? "defaultValue" = initial.map .bool := by
  unfold initialState?
  cases rule.value? "defaultValue" with
  | none => cases initial <;> simp
  | some d => cases d <;> cases initial <;> simp

/-- A filter that is made under a name has the name and the rule that its text spells.  Text has
no state but the one that is given; a record has one of its own where none is given. -/
theorem Filter.ofDocument_spec {strict : Bool} {source : Document} {name : String}
    {initial : Option Bool} {f : Filter}
    (h : (ofDocument strict source (some name) initial).result = .ok f) :
    f.name = some name ∧ Expr.parse f.text = .ok f.rule ∧ (initial.isSome → f.initial = initial) ∧
      ((source = .string f.text ∧ f.initial = initial) ∨
        (∃ fields, source = .object fields) ∧ (Legacy.convert strict source).result = .ok f.text ∧
          (initial = none → source.value? "defaultValue" = f.initial.map .bool)) := by
  unfold ofDocument at h
  split at h
  · rename_i text
    obtain ⟨hrule, hname, hinitial, rfl⟩ := ofText_eq_ok.mp h
    exact ⟨hname, hrule, fun _ => hinitial, Or.inl ⟨rfl, hinitial⟩⟩
  · rename_i fields
    obtain ⟨text, htext, h⟩ := result_bind_eq_ok.mp h
    have htext := Outcome.result_mapError_eq_ok.mp htext
    cases initial with
    | some b =>
        obtain ⟨hrule, hname, hinitial, rfl⟩ := ofText_eq_ok.mp h
        exact ⟨hname, hrule, fun _ => hinitial, Or.inr ⟨⟨_, rfl⟩, htext, nofun⟩⟩
    | none =>
        obtain ⟨own, hown, h⟩ := result_bind_eq_ok.mp h
        obtain ⟨hrule, hname, hinitial, rfl⟩ := ofText_eq_ok.mp h
        refine ⟨hname, hrule, nofun, Or.inr ⟨⟨_, rfl⟩, htext, fun _ => ?_⟩⟩
        rw [hinitial]
        exact Legacy.initialState?_eq_ok.mp (Outcome.result_mapError_eq_ok.mp hown)
  · cases h

namespace Declarations

/-- What a declared filter has from its entry. -/
structure Declares (strict : Bool) (entry : Document) (f : Filter) : Prop where
  /-- The filter has the entry's name. -/
  name : ∃ name, entry.field? "name" = some (.string name) ∧ f.name = some name
  /-- Its rule is what its text spells. -/
  rule : Expr.parse f.text = .ok f.rule
  /-- Its initial state is the one that the entry gives. -/
  given : ∀ d, entry.value? "default" = some d → ∃ b, d = .bool b ∧ f.initial = some b
  /-- Its text is the rule of the entry, which has no state of its own; or it is what the record of
  the entry is converted to, and then the truth value under `defaultValue` in the record stands in
  for a state that is not given. -/
  source : (entry.field? "rule" = some (.string f.text) ∧ entry.field? "legacy" = none ∧
      (entry.value? "default" = none → f.initial = none)) ∨
    entry.field? "rule" = none ∧ ∃ record, entry.field? "legacy" = some record ∧
      (Legacy.convert strict record).result = .ok f.text ∧
      (entry.value? "default" = none → record.value? "defaultValue" = f.initial.map .bool)

/-- The name that an entry gives, if it gives one. -/
def givenName? (entry : Document) : Option String :=
  match entry.field? "name" with
  | some (.string name) => some name
  | _ => none

/-- The names that entries give, in order. -/
def givenNames (es : List Document) : List String :=
  es.filterMap givenName?

variable {strict : Bool} {index : Nat} {seen : List String} {entry source : Document}
  {name : String} {initial : Option Bool} {f : Filter}

/-- The name of an entry stands under its key, and no entry before it has it. -/
theorem entryName_spec (h : entryName index seen entry = .ok name) :
    entry.field? "name" = some (.string name) ∧ name ∉ seen := by
  unfold entryName at h
  split at h
  · split at h
    · rename_i name' hname
      split at h
      · cases h
      · split at h
        · cases h
        · rename_i hseen
          cases h
          exact ⟨hname, by simpa using hseen⟩
    · cases h
  · cases h

/-- Of the names before an entry it only matters which there are. -/
theorem entryName_congr {seen' : List String} (hseen : ∀ x, x ∈ seen ↔ x ∈ seen') :
    entryName index seen entry = entryName index seen' entry := by
  have hcontains : ∀ x, seen.contains x = seen'.contains x := by
    intro x
    rw [Bool.eq_iff_iff]
    simpa using hseen x
  simp only [entryName, hcontains]

/-- The rule of an entry is text under one key or an object under another, and the other key is
missing. -/
theorem entrySource_spec (h : entrySource name entry = .ok source) :
    (∃ text, source = .string text ∧ entry.field? "rule" = some source ∧
      entry.field? "legacy" = none) ∨
    ∃ fields, source = .object fields ∧ entry.field? "rule" = none ∧
      entry.field? "legacy" = some source := by
  unfold entrySource at h
  split at h
  · rename_i text hlegacy hrule
    cases h
    exact Or.inl ⟨text, rfl, by assumption, by assumption⟩
  · cases h
  · cases h
    exact Or.inr ⟨_, rfl, by assumption, by assumption⟩
  · cases h
  · cases h

/-- The initial state of an entry is the truth value under its key, or none if nothing is there. -/
theorem entryInitial_spec (h : entryInitial name entry = .ok initial) :
    (entry.value? "default" = none ∧ initial = none) ∨
      ∃ b, entry.value? "default" = some (.bool b) ∧ initial = some b := by
  unfold entryInitial at h
  split at h
  · cases h
    exact Or.inl ⟨by assumption, rfl⟩
  · cases h
    exact Or.inr ⟨_, by assumption, rfl⟩
  · cases h

/-- An entry has its parts if each of them can be read. -/
theorem entryParts_eq_ok : entryParts index seen entry = .ok (name, source, initial) ↔
    entryName index seen entry = .ok name ∧ entrySource name entry = .ok source ∧
      entryInitial name entry = .ok initial := by
  unfold entryParts
  simp only [bind_eq_ok]
  constructor
  · rintro ⟨name, hname, source, hsource, initial, hinitial, h⟩
    cases h
    exact ⟨hname, hsource, hinitial⟩
  · rintro ⟨hname, hsource, hinitial⟩
    exact ⟨name, hname, source, hsource, initial, hinitial, rfl⟩

/-- The reading of an entry knows of the entries before it their number and which names they
have. -/
theorem readEntry_congr {seen' : List String} (hseen : ∀ x, x ∈ seen ↔ x ∈ seen') :
    readEntry strict index seen entry = readEntry strict index seen' entry := by
  simp only [readEntry, entryParts, entryName_congr hseen]

/-- An entry that is read has a new name, and its filter has what the entry declares. -/
theorem readEntry_spec (h : (readEntry strict index seen entry).result = .ok (name, f)) :
    givenName? entry = some name ∧ f.name = some name ∧ name ∉ seen ∧ Declares strict entry f := by
  unfold readEntry at h
  obtain ⟨⟨name', source, initial⟩, hparts, h⟩ := result_bind_eq_ok.mp h
  obtain ⟨f', hfilter, h⟩ := result_bind_eq_ok.mp h
  cases h
  obtain ⟨hname, hsource, hinitial⟩ := entryParts_eq_ok.mp hparts
  obtain ⟨hfield, hseen⟩ := entryName_spec hname
  have hgiven : givenName? entry = some name := by rw [givenName?, hfield]
  obtain ⟨hname', hrule, hstate, hsource'⟩ :=
    Filter.ofDocument_spec (Outcome.result_mapError_eq_ok.mp hfilter)
  refine ⟨hgiven, hname', hseen, ⟨⟨name, hfield, hname'⟩, hrule, ?_, ?_⟩⟩
  · intro d hd
    rcases entryInitial_spec hinitial with ⟨hnone, -⟩ | ⟨b, hb, rfl⟩
    · rw [hnone] at hd
      cases hd
    · rw [hb] at hd
      cases hd
      exact ⟨b, rfl, hstate rfl⟩
  · have hnone : entry.value? "default" = none → initial = none := by
      intro hnone
      rcases entryInitial_spec hinitial with ⟨-, rfl⟩ | ⟨b, hb, -⟩
      · rfl
      · rw [hnone] at hb
        cases hb
    rcases hsource' with ⟨rfl, hstate'⟩ | ⟨⟨fields, rfl⟩, htext, hown⟩
    · rcases entrySource_spec hsource with ⟨text, -, hfield, hlegacy⟩ | ⟨_, hcases, -, -⟩
      · exact Or.inl ⟨hfield, hlegacy, fun hdefault => hstate'.trans (hnone hdefault)⟩
      · cases hcases
    · rcases entrySource_spec hsource with ⟨text, hcases, -, -⟩ | ⟨_, -, hfield, hlegacy⟩
      · cases hcases
      · exact Or.inr ⟨hfield, _, hlegacy, htext, fun hdefault => hown (hnone hdefault)⟩

end Declarations

end DiagramFilter
