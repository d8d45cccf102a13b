import DiagramFilter.Proofs.Declaring.Faults

/-!
# How declarations fail

A document that declares no filters has a fault in its header or in one of its entries, and all
that is looked at before is right.  `HeaderFault` says what can be wrong with a header, and
`ReadFault` puts it together with the faults of entries: a document has at most one fault, and it is
read if it has none (`read_fails_at`).

All errors are of the classes of values and of rules but two: a version of a sort that cannot be
looked up is an error of the class of types, and a constant beyond the doubles in a legacy record is
an overflow (`read_leaks`).
-/

namespace DiagramFilter.Declarations

open Outcome (result_bind_eq_error result_bind_of_ok result_bind_of_error)

variable {strict : Bool} {index : Nat} {seen : List String} {entry d : Document}
  {es : List Document} {e : DeclarationError}

/-- Entries are read up to the first that is not. -/
theorem readEntries_error (h : (readEntries strict index seen es).result = .error e) :
    ∃ before entry after fs, es = before ++ entry :: after ∧
      (readEntries strict index seen before).result = .ok fs ∧
      (readEntry strict (index + before.length) ((givenNames before).reverse ++ seen)
        entry).result = .error e := by
  induction es generalizing index seen with
  | nil => cases h
  | cons first es ih =>
      rcases result_bind_eq_error.mp h with h | ⟨⟨name, f⟩, hfirst, h⟩
      · exact ⟨[], first, es, [], rfl, rfl, h⟩
      · rcases result_bind_eq_error.mp h with h | ⟨fs, -, h⟩
        · obtain ⟨before, entry, after, fs, rfl, hbefore, hentry⟩ := ih h
          -- The first entry is one more in front, and its name comes last among the names.
          refine ⟨first :: before, entry, after, f :: fs, rfl, ?_, ?_⟩
          · rw [readEntries]
            exact (result_bind_of_ok hfirst _).trans (result_bind_of_ok hbefore _)
          · rw [givenNames_cons (readEntry_spec hfirst).1, List.length_cons, List.reverse_cons,
              List.append_assoc]
            rwa [Nat.add_assoc, Nat.add_comm 1] at hentry
        · cases h

/-- What can be wrong with the version of a document. -/
inductive VersionFault (d : Document) : DeclarationError → Prop
  | missing (h : d.value? "version" = none) : VersionFault d .missingVersion
  | unhashable {version : Document} (h : d.value? "version" = some version)
      (hcompound : version.IsCompound) : VersionFault d (.unhashableVersion version.typeName)
  | unsupported {version : Document} (h : d.value? "version" = some version)
      (hcompound : ¬ version.IsCompound) (hsupported : ¬ isSupported version) :
      VersionFault d (.unsupportedVersion version.display)

/-- A version is refused exactly for its faults. -/
theorem checkVersion_eq_error : checkVersion d = .error e ↔ VersionFault d e := by
  constructor
  · intro h
    unfold checkVersion at h
    split at h
    · cases h
      exact .missing (by assumption)
    · cases h
      exact .unhashable (by assumption) (Or.inl ⟨_, rfl⟩)
    · cases h
      exact .unhashable (by assumption) (Or.inr ⟨_, rfl⟩)
    · rename_i version hlist hobject hversion
      split at h
      · cases h
      · cases h
        refine .unsupported hversion ?_ (by assumption)
        rintro (⟨items, rfl⟩ | ⟨fields, rfl⟩)
        · exact hlist items rfl
        · exact hobject fields rfl
  · intro h
    cases h with
    | missing h => rw [checkVersion, h]
    | unhashable h hcompound =>
        obtain ⟨items, rfl⟩ | ⟨fields, rfl⟩ := hcompound
        · rw [checkVersion, h]
        · rw [checkVersion, h]
    | @unsupported version h hcompound hsupported =>
        rw [checkVersion, h]
        cases version with
        | list items => exact absurd (Or.inl ⟨items, rfl⟩) hcompound
        | object fields => exact absurd (Or.inr ⟨fields, rfl⟩) hcompound
        | _ => exact if_neg hsupported

/-- What can be wrong with a document in front of its entries. -/
inductive HeaderFault (d : Document) : DeclarationError → Prop
  | notObject (h : ∀ fields, d ≠ .object fields) : HeaderFault d .notObject
  | version {fields : List (String × Document)} {e : DeclarationError}
      (hobject : d = .object fields) (h : VersionFault d e) : HeaderFault d e
  | strictNotBool {strict : Document} (hversion : checkVersion d = .ok ())
      (h : d.field? "strict_legacy" = some strict) (hbool : ∀ b, strict ≠ .bool b) :
      HeaderFault d .strictNotBool
  | filtersNotList {strict : Bool} {filters : Document} (hversion : checkVersion d = .ok ())
      (hstrict : strictness d = .ok strict) (h : d.field? "filters" = some filters)
      (hlist : ∀ entries, filters ≠ .list entries) : HeaderFault d .filtersNotList

/-- The strictness is refused exactly if it is there and no truth value. -/
theorem strictness_eq_error : strictness d = .error e ↔
    ∃ strict, d.field? "strict_legacy" = some strict ∧ (∀ b, strict ≠ .bool b) ∧
      .strictNotBool = e := by
  constructor
  · intro h
    unfold strictness at h
    split at h
    · cases h
    · cases h
    · exact ⟨_, by assumption, by assumption, Except.error.inj h⟩
  · rintro ⟨strict, h, hbool, rfl⟩
    rw [strictness, h]
    cases strict with
    | bool b => exact absurd rfl (hbool b)
    | _ => rfl

/-- The entries are refused exactly if they are there and no list. -/
theorem entries_eq_error : entries d = .error e ↔
    ∃ filters, d.field? "filters" = some filters ∧ (∀ es, filters ≠ .list es) ∧
      .filtersNotList = e := by
  constructor
  · intro h
    unfold entries at h
    split at h
    · cases h
    · cases h
    · exact ⟨_, by assumption, by assumption, Except.error.inj h⟩
  · rintro ⟨filters, h, hlist, rfl⟩
    rw [entries, h]
    cases filters with
    | list es => exact absurd rfl (hlist es)
    | _ => rfl

/-- The parts of a header are looked at one after the other. -/
theorem header_object_eq_error {fields : List (String × Document)} (hd : d = .object fields) :
    header d = .error e ↔ checkVersion d = .error e ∨ checkVersion d = .ok () ∧
      (strictness d = .error e ∨ ∃ strict, strictness d = .ok strict ∧ entries d = .error e) := by
  subst hd
  constructor
  · intro h
    rcases bind_eq_error.mp h with h | ⟨⟨⟩, hversion, h⟩
    · exact Or.inl h
    · rcases bind_eq_error.mp h with h | ⟨strict, hstrict, h⟩
      · exact Or.inr ⟨hversion, Or.inl h⟩
      · rcases bind_eq_error.mp h with h | ⟨es, -, h⟩
        · exact Or.inr ⟨hversion, Or.inr ⟨strict, hstrict, h⟩⟩
        · cases h
  · rintro (h | ⟨hversion, h | ⟨strict, hstrict, h⟩⟩)
    · exact bind_eq_error.mpr (Or.inl h)
    · exact bind_eq_error.mpr (Or.inr ⟨(), hversion, bind_eq_error.mpr (Or.inl h)⟩)
    · exact bind_eq_error.mpr (Or.inr ⟨(), hversion, bind_eq_error.mpr (Or.inr ⟨strict, hstrict,
        bind_eq_error.mpr (Or.inl h)⟩)⟩)

/-- A header is refused exactly for its faults. -/
theorem header_eq_error : header d = .error e ↔ HeaderFault d e := by
  cases d with
  | object fields =>
      rw [header_object_eq_error rfl, checkVersion_eq_error, strictness_eq_error, entries_eq_error]
      constructor
      · rintro (h | ⟨hversion, ⟨strict, h, hbool, rfl⟩ | ⟨strict, hstrict, filters, h, hlist, rfl⟩⟩)
        · exact .version rfl h
        · exact .strictNotBool hversion h hbool
        · exact .filtersNotList hversion hstrict h hlist
      · intro h
        cases h with
        | notObject h => exact absurd rfl (h fields)
        | version hobject h => exact Or.inl h
        | strictNotBool hversion h hbool => exact Or.inr ⟨hversion, Or.inl ⟨_, h, hbool, rfl⟩⟩
        | filtersNotList hversion hstrict h hlist =>
            exact Or.inr ⟨hversion, Or.inr ⟨_, hstrict, _, h, hlist, rfl⟩⟩
  | _ =>
      constructor
      · intro h
        cases h
        exact .notObject nofun
      · intro h
        cases h with
        | notObject h => rfl
        | version hobject h => cases hobject
        | strictNotBool hversion h hbool => cases h
        | filtersNotList hversion hstrict h hlist => cases h

/-- What can be wrong with a document. -/
inductive ReadFault (d : Document) : DeclarationError → Prop
  | header {e : DeclarationError} (h : HeaderFault d e) : ReadFault d e
  /-- The entries before the faulty one are read. -/
  | entry {strict : Bool} {before after : List Document} {entry : Document} {fs : List Filter}
      {e : DeclarationError}
      (hheader : Declarations.header d = .ok (strict, before ++ entry :: after))
      (hbefore : (readEntries strict 0 [] before).result = .ok fs)
      (h : EntryFault strict before.length (givenNames before) entry e) : ReadFault d e

/-- **A document that declares no filters has a fault**, and one that has a fault declares none. -/
theorem read_eq_error : (read d).result = .error e ↔ ReadFault d e := by
  have hnames : ∀ before x, x ∈ (givenNames before).reverse ++ [] ↔ x ∈ givenNames before := by
    simp
  constructor
  · intro h
    rcases result_bind_eq_error.mp h with h | ⟨⟨strict, es⟩, hheader, h⟩
    · exact .header (header_eq_error.mp h)
    · obtain ⟨before, entry, after, fs, rfl, hbefore, hentry⟩ := readEntries_error h
      rw [readEntry_congr (hnames before), Nat.zero_add] at hentry
      exact .entry hheader hbefore (readEntry_eq_error.mp hentry)
  · intro h
    cases h with
    | header h => exact result_bind_of_error (header_eq_error.mpr h) _
    | @entry strict before after entry fs _ hheader hbefore h =>
        have hentry := readEntry_eq_error.mpr h
        rw [← readEntry_congr (hnames before)] at hentry
        rw [read_of_header hheader, readEntries_append_ok hbefore, readEntries, Nat.zero_add,
          result_bind_of_error hentry]
        rfl

/-- What makes the error of a document one of neither values nor rules. -/
inductive Strays (d : Document) : FailureClass → Prop
  | version {version : Document} (h : d.value? "version" = some version)
      (hcompound : version.IsCompound) : Strays d .type
  | constant {entries : List Document} {entry record rule : Document} {pos : Legacy.Position}
      (hfilters : d.field? "filters" = some (.list entries)) (hmem : entry ∈ entries)
      (hrecord : entry.field? "legacy" = some record) (hwithin : Legacy.Within record pos rule)
      (h : Legacy.IsOversized rule) : Strays d .overflow

/-- A header is refused for a wrong value, unless its version cannot be looked up. -/
theorem HeaderFault.class (h : HeaderFault d e) :
    e.failureClass = .value ∨ Strays d e.failureClass := by
  cases h with
  | version hobject h =>
      cases h with
      | unhashable hversion hcompound => exact Or.inr (.version hversion hcompound)
      | _ => exact Or.inl rfl
  | _ => exact Or.inl rfl

/-- The entries behind a header are those that the document lists. -/
theorem field?_filters_of_header (hheader : header d = .ok (strict, es)) (hmem : entry ∈ es) :
    d.field? "filters" = some (.list es) := by
  unfold header at hheader
  split at hheader
  · obtain ⟨_, -, hheader⟩ := bind_eq_ok.mp hheader
    obtain ⟨strict', -, hheader⟩ := bind_eq_ok.mp hheader
    obtain ⟨es', hes, hheader⟩ := bind_eq_ok.mp hheader
    cases hheader
    unfold entries at hes
    split at hes
    · cases hes
      cases hmem
    · rename_i hfilters
      cases hes
      exact hfilters
    · cases hes
  · cases hheader

/-- A document is refused for a wrong value, for the rule of a filter, or as its strays say. -/
theorem ReadFault.class (h : ReadFault d e) :
    e.failureClass = .value ∨ IsRuleClass e.failureClass ∨ Strays d e.failureClass := by
  cases h with
  | header h =>
      rcases h.class with hvalue | hstrays
      · exact Or.inl hvalue
      · exact Or.inr (Or.inr hstrays)
  | @entry strict before after entry fs _ hheader hbefore hfault =>
      have hmem : entry ∈ before ++ entry :: after := by simp
      have hfilters := field?_filters_of_header hheader hmem
      rcases hfault.class with hvalue | hrule |
        ⟨record, pos, rule, hrecord, hwithin, hlarge, hclass⟩
      · exact Or.inl hvalue
      · exact Or.inr (Or.inl hrule)
      · rw [hclass]
        exact Or.inr (Or.inr (.constant hfilters hmem hrecord hwithin hlarge))

/-- **A document declares filters or has a fault**, never both and never two faults, and the error
tells of the fault.  It is of the class of values or of those of rules, unless the version is a list
or an object, or the conversion of a legacy record meets a constant that is a whole number beyond
the doubles. -/
theorem read_fails_at (d : Document) :
    ((∃ fs, (read d).result = .ok fs) ∧ ∀ e, ¬ ReadFault d e) ∨
      ∃ e, (read d).result = .error e ∧ (∀ e', ReadFault d e' ↔ e' = e) ∧
        (e.failureClass = .value ∨ IsRuleClass e.failureClass ∨ Strays d e.failureClass) := by
  simp only [← read_eq_error]
  cases hread : (read d).result with
  | ok fs => exact Or.inl ⟨⟨fs, rfl⟩, nofun⟩
  | error e =>
      refine Or.inr ⟨e, rfl, fun e' => ?_, (read_eq_error.mp hread).class⟩
      rw [Except.error.injEq, eq_comm]

/-- An entry with a name and a legacy record. -/
def legacyEntry (name : String) (record : Document) : Document :=
  .object [("name", .string name), ("legacy", record)]

/-- A version that is a list is an error of the class of types, and a constant that is too large is
an overflow. -/
theorem read_leaks :
    (read (.object [("version", .list [])])).result = .error (.unhashableVersion "list") ∧
      (DeclarationError.unhashableVersion "list").failureClass = .type ∧
      (read (declaring [legacyEntry "a" Legacy.oversized])).result =
        .error (.filter "a" (.legacy .tooLarge)) ∧
      (DeclarationError.filter "a" (.legacy .tooLarge)).failureClass = .overflow := by
  refine ⟨rfl, rfl, ?_, rfl⟩
  have hconstant : (Legacy.numeric true (.object [("name", .string "CONST"),
      ("num", .number (.int (10 ^ 309)))])).result = .error .tooLarge := by
    rw [Legacy.numeric]
    decide +kernel
  have hconvert : (Legacy.convert true Legacy.oversized).result = .error .tooLarge := by
    rw [Legacy.convert, Legacy.boolean]
    exact result_bind_of_error hconstant _
  have hsource : (Filter.ofDocument true Legacy.oversized (some "a") none).result =
      .error (.legacy .tooLarge) := by
    refine result_bind_of_error ?_ _
    rw [Outcome.mapError, hconvert]
    rfl
  have hentry : (readEntry true 0 [] (legacyEntry "a" Legacy.oversized)).result =
      .error (.filter "a" (.legacy .tooLarge)) :=
    readEntry_of_fault rfl hsource
  rw [read_of_header (header_declaring _)]
  exact result_bind_of_error hentry _

end DiagramFilter.Declarations
