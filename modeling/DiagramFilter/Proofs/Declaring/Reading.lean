import DiagramFilter.Proofs.Declaring.Entries
import Mathlib.Data.List.Forall2
import Mathlib.Data.List.Nodup

/-!
# Declarations are read entry by entry

The entries of a document are read from the first to the last, and the first fault ends the reading.
What stands behind a faulty entry does not matter, and what stands before an entry matters only by
its length and its names.

* `readEntries_append`: the entries behind others are read as if they began a row, with the names of
  the others taken.
* `readEntries_spec`: what the filters have from their entries.
* `read_folds`: both, for whole documents, with the fault of an entry whose rule is none.
-/

namespace DiagramFilter.Declarations

open Outcome (bind_ok bind_error bind_bind bind_return result_bind_eq_ok result_bind_of_ok
  result_bind_of_error)

variable {strict : Bool} {index : Nat} {seen : List String} {entry : Document}
  {es rest : List Document} {fs : List Filter}

/-- The name of the first entry is the first of the names. -/
theorem givenNames_cons {name : String} (h : givenName? entry = some name) :
    givenNames (entry :: es) = name :: givenNames es := by
  rw [givenNames, List.filterMap_cons_some h, givenNames]

/-- Entries behind others are read like any, at their place and with the names of the others
taken. -/
theorem readEntries_append (strict : Bool) (index : Nat) (seen : List String)
    (es rest : List Document) :
    readEntries strict index seen (es ++ rest) = (do
      let fs ← readEntries strict index seen es
      let more ← readEntries strict (index + es.length) ((givenNames es).reverse ++ seen) rest
      return fs ++ more) := by
  induction es generalizing index seen with
  | nil => exact (bind_return _).symm
  | cons entry es ih =>
      rw [List.cons_append, readEntries, readEntries, bind_bind]
      cases hentry : readEntry strict index seen entry with
      | mk result ws =>
          cases result with
          | error fault => rfl
          | ok r =>
              obtain ⟨name, f⟩ := r
              have hname := (readEntry_spec (congrArg Outcome.result hentry)).1
              have hseen : (givenNames (entry :: es)).reverse ++ seen =
                  (givenNames es).reverse ++ name :: seen := by
                rw [givenNames_cons hname]
                simp
              have hindex : index + (entry :: es).length = index + 1 + es.length := by
                rw [List.length_cons]
                omega
              rw [hseen, hindex]
              simp only [bind_ok, ih, bind_bind]
              rfl

/-- A fault of some entries is the fault of a row that begins with them. -/
theorem readEntries_append_error {fault : DeclarationError}
    (h : (readEntries strict index seen es).result = .error fault) (rest : List Document) :
    readEntries strict index seen (es ++ rest) = readEntries strict index seen es := by
  rw [readEntries_append]
  cases hes : readEntries strict index seen es with
  | mk result ws =>
      rw [hes] at h
      cases h
      rfl

/-- Behind entries that are read the others decide. -/
theorem readEntries_append_ok (h : (readEntries strict index seen es).result = .ok fs)
    (rest : List Document) :
    readEntries strict index seen (es ++ rest) =
      ⟨(readEntries strict (index + es.length) ((givenNames es).reverse ++ seen) rest).result.map
          (fs ++ ·),
        (readEntries strict index seen es).warnings ++
          (readEntries strict (index + es.length) ((givenNames es).reverse ++ seen)
            rest).warnings⟩ := by
  rw [readEntries_append]
  cases hes : readEntries strict index seen es with
  | mk result ws =>
      rw [hes] at h
      cases h
      rw [bind_ok]
      cases hrest : readEntries strict (index + es.length) ((givenNames es).reverse ++ seen)
        rest with
      | mk result' ws' => cases result' <;> simp [bind_ok, bind_error, Except.map, pure]

/-- Entries that are read give one filter each, with what the entry declares, and their names are
new and differ from each other. -/
theorem readEntries_spec (h : (readEntries strict index seen es).result = .ok fs) :
    List.Forall₂ (Declares strict) es fs ∧
      fs.map Filter.name = (givenNames es).map some ∧
      (givenNames es).Nodup ∧ ∀ name ∈ givenNames es, name ∉ seen := by
  induction es generalizing index seen fs with
  | nil =>
      cases h
      exact ⟨.nil, rfl, .nil, nofun⟩
  | cons entry es ih =>
      rw [readEntries] at h
      obtain ⟨⟨name, f⟩, hentry, h⟩ := result_bind_eq_ok.mp h
      obtain ⟨fs, hes, h⟩ := result_bind_eq_ok.mp h
      cases h
      obtain ⟨hgiven, hname, hnew, hdeclares⟩ := readEntry_spec hentry
      obtain ⟨hall, hnames, hnodup, hseen⟩ := ih hes
      rw [givenNames_cons hgiven]
      refine ⟨.cons hdeclares hall, ?_, ?_, ?_⟩
      · rw [List.map_cons, List.map_cons, hname, hnames]
      · exact List.nodup_cons.mpr ⟨fun hmem => hseen name hmem List.mem_cons_self, hnodup⟩
      · intro x hx
        rcases List.mem_cons.mp hx with rfl | hx
        · exact hnew
        · exact fun hmem => hseen x hx (List.mem_cons_of_mem _ hmem)

/-- What a header says: records are read strictly unless the document says otherwise, and there are
no entries unless it lists some. -/
structure Headed (d : Document) (strict : Bool) (es : List Document) : Prop where
  strict : d.field? "strict_legacy" = some (.bool strict) ∨
    d.field? "strict_legacy" = none ∧ strict = true
  entries : d.field? "filters" = some (.list es) ∨ d.field? "filters" = none ∧ es = []

/-- A header that is read says what stands in the document. -/
theorem headed_of_header {d : Document} (h : header d = .ok (strict, es)) : Headed d strict es := by
  unfold header at h
  split at h
  · obtain ⟨_, -, h⟩ := bind_eq_ok.mp h
    obtain ⟨strict', hstrict, h⟩ := bind_eq_ok.mp h
    obtain ⟨es', hes, h⟩ := bind_eq_ok.mp h
    cases h
    unfold strictness at hstrict
    unfold Declarations.entries at hes
    refine ⟨?_, ?_⟩
    · split at hstrict
      · cases hstrict
        exact Or.inr ⟨by assumption, rfl⟩
      · cases hstrict
        exact Or.inl (by assumption)
      · cases hstrict
    · split at hes
      · cases hes
        exact Or.inr ⟨by assumption, rfl⟩
      · cases hes
        exact Or.inl (by assumption)
      · cases hes
  · cases h

/-- A document with a header is read like its entries. -/
theorem read_of_header {d : Document} (h : header d = .ok (strict, es)) :
    read d = readEntries strict 0 [] es := by
  rw [read, h]
  exact bind_ok _

/-- The reading of one more entry behind some that are read, which knows only how many they are and
which names they have. -/
theorem read_append_entry {d d' : Document} {seen : List String}
    (hheader : header d = .ok (strict, es)) (hlonger : header d' = .ok (strict, es ++ [entry]))
    (hread : (read d).result = .ok fs) (hseen : ∀ x, x ∈ givenNames es ↔ x ∈ seen) :
    read d' =
      ⟨(readEntry strict es.length seen entry).result.map fun r => fs ++ [r.2],
        (read d).warnings ++ (readEntry strict es.length seen entry).warnings⟩ := by
  rw [read_of_header hheader] at hread ⊢
  have hnames : ∀ x, x ∈ (givenNames es).reverse ++ [] ↔ x ∈ seen := by simpa using hseen
  rw [read_of_header hlonger, readEntries_append_ok hread, readEntries, readEntry_congr hnames,
    Nat.zero_add]
  cases readEntry strict es.length seen entry with
  | mk result ws => cases result <;> simp [bind_ok, bind_error, Except.map, readEntries, pure]

/-- A rule that is no rule is the fault of its entry. -/
theorem readEntry_of_fault {name : String} {source : Document} {initial : Option Bool}
    {error : FilterError}
    (hparts : entryParts index seen entry = .ok (name, source, initial))
    (hfilter : (Filter.ofDocument strict source (some name) initial).result = .error error) :
    (readEntry strict index seen entry).result = .error (.filter name error) := by
  have hmapped : ((Filter.ofDocument strict source (some name) initial).mapError
      (DeclarationError.filter name)).result = .error (.filter name error) := by
    rw [Outcome.mapError, hfilter]
    rfl
  rw [readEntry, hparts]
  exact (result_bind_of_ok rfl _).trans (result_bind_of_error hmapped _)

/-- The faults of rules are told with the name of their filter. -/
theorem namesFilter_eq {error : FilterError}
    (h : error.failureClass ∈ [.form, .kind, .undefinedVariable, .legacy]) :
    DeclarationError.namesFilter error = true := by
  unfold DeclarationError.namesFilter
  generalize error.failureClass = c at h
  cases c <;> simp at h ⊢

/-- How the fault of a rule is told. -/
theorem aboutFilter_colon (name text : String) :
    DeclarationError.aboutFilter name (": " ++ text) =
      "filters.yml: filter '" ++ name ++ "': " ++ text := by
  have hfront : "filters.yml: filter '" = "filters.yml" ++ (": " ++ "filter '") := by decide
  have hback : "': " = "'" ++ ": " := by decide
  rw [hfront, hback]
  simp only [DeclarationError.aboutFilter, DeclarationError.about, DeclarationError.fileName,
    String.append_assoc]

/-- **Declarations are read from the first entry to the first fault.**  If some entries have a
fault, the same fault ends the reading of any row that begins with them.  If they are read, one more
entry adds one filter or has a fault, and its filter, its warnings and its fault depend on the
others only by their number and their names.  The entries are those that the document lists, and if
they are read they give one filter each, in order, with what they declare, and no name twice.  If
the rule of an entry is none, the fault has the class
and the position of the rule's own, and its text is that text with the name of the filter in
front. -/
theorem read_folds :
    (∀ d d' strict es rest fault, header d = .ok (strict, es) →
      header d' = .ok (strict, es ++ rest) → (read d).result = .error fault → read d' = read d) ∧
    (∀ d₁ d₁' d₂ d₂' strict es₁ es₂ entry fs₁ fs₂,
      header d₁ = .ok (strict, es₁) → header d₁' = .ok (strict, es₁ ++ [entry]) →
      header d₂ = .ok (strict, es₂) → header d₂' = .ok (strict, es₂ ++ [entry]) →
      (read d₁).result = .ok fs₁ → (read d₂).result = .ok fs₂ → es₁.length = es₂.length →
      (∀ name, name ∈ givenNames es₁ ↔ name ∈ givenNames es₂) →
      ∃ next : Reading Filter,
        read d₁' = ⟨next.result.map fun f => fs₁ ++ [f], (read d₁).warnings ++ next.warnings⟩ ∧
        read d₂' = ⟨next.result.map fun f => fs₂ ++ [f], (read d₂).warnings ++ next.warnings⟩) ∧
    (∀ d strict es fs, header d = .ok (strict, es) → (read d).result = .ok fs →
      Headed d strict es ∧ List.Forall₂ (Declares strict) es fs ∧ (fs.map Filter.name).Nodup) ∧
    ∀ d d' strict es entry rest fs name source initial error, header d = .ok (strict, es) →
      header d' = .ok (strict, es ++ entry :: rest) → (read d).result = .ok fs →
      entryParts es.length (givenNames es) entry = .ok (name, source, initial) →
      (Filter.ofDocument strict source (some name) initial).result = .error error →
      ∃ fault, (read d').result = .error fault ∧ fault.failureClass = error.failureClass ∧
        fault.parseError? = error.parseError? ∧
        (error.failureClass ∈ [.form, .kind, .undefinedVariable, .legacy] →
          fault.message = "filters.yml: filter '" ++ name ++ "': " ++ error.message ∧
          fault.reason = "filters.yml: filter '" ++ name ++ "': " ++ error.reason) := by
  refine ⟨?_, ?_, ?_, ?_⟩
  · intro d d' strict es rest fault hheader hlonger hread
    rw [read_of_header hheader] at hread ⊢
    rw [read_of_header hlonger, readEntries_append_error hread]
  · intro d₁ d₁' d₂ d₂' strict es₁ es₂ entry fs₁ fs₂ h₁ h₁' h₂ h₂' hread₁ hread₂ hlength hnames
    have hfirst := read_append_entry h₁ h₁' hread₁ fun _ => Iff.rfl
    have hsecond := read_append_entry h₂ h₂' hread₂ fun name => (hnames name).symm
    rw [← hlength] at hsecond
    refine ⟨⟨(readEntry strict es₁.length (givenNames es₁) entry).result.map Prod.snd,
      (readEntry strict es₁.length (givenNames es₁) entry).warnings⟩, ?_, ?_⟩
    · rw [hfirst]
      cases (readEntry strict es₁.length (givenNames es₁) entry).result <;> rfl
    · rw [hsecond]
      cases (readEntry strict es₁.length (givenNames es₁) entry).result <;> rfl
  · intro d strict es fs hheader hread
    rw [read_of_header hheader] at hread
    obtain ⟨hall, hnames, hnodup, -⟩ := readEntries_spec hread
    refine ⟨headed_of_header hheader, hall, ?_⟩
    rw [hnames]
    exact List.Nodup.map (fun _ _ => Option.some.inj) hnodup
  · intro d d' strict es entry rest fs name source initial error hheader hlonger hread hparts
      hfilter
    rw [read_of_header hheader] at hread
    have hnames : ∀ x, x ∈ (givenNames es).reverse ++ [] ↔ x ∈ givenNames es := by simp
    have hentry := readEntry_of_fault hparts hfilter
    rw [← readEntry_congr hnames] at hentry
    refine ⟨.filter name error, ?_, rfl, rfl, fun hclass => ?_⟩
    · rw [read_of_header hlonger, readEntries_append_ok hread, readEntries, Nat.zero_add]
      rw [result_bind_of_error hentry]
      rfl
    · have hnamed := namesFilter_eq hclass
      exact ⟨(if_pos hnamed).trans (aboutFilter_colon name error.message),
        (if_pos hnamed).trans (aboutFilter_colon name error.reason)⟩

/-- An entry with a name and rule text. -/
def ruleEntry (name text : String) : Document :=
  .object [("name", .string name), ("rule", .string text)]

/-- A document with some entries. -/
def declaring (entries : List Document) : Document :=
  .object [("version", .number (.int 1)), ("filters", .list entries)]

/-- The document has a header, and is read strictly. -/
theorem header_declaring (entries : List Document) :
    header (declaring entries) = .ok (true, entries) := rfl

/-- Behind a filter that is read, a variable that is not bound is the fault of the document,
whatever follows it, and it is told with the name of its filter.  A filter of the same name with
another rule in front makes no difference. -/
theorem read_folds_unbound :
    ∃ f g fault,
      (read (declaring [ruleEntry "a" "#a"])).result = .ok [f] ∧
      (read (declaring [ruleEntry "a" "true"])).result = .ok [g] ∧
      Declares true (ruleEntry "a" "#a") f ∧
      (read (declaring [ruleEntry "a" "#a", ruleEntry "b" "b"])).result = .error fault ∧
      fault.message =
        "filters.yml: filter 'b': Variable 'b' is undefined. Available variables: this" ∧
      read (declaring [ruleEntry "a" "#a", ruleEntry "b" "b", .null]) =
        read (declaring [ruleEntry "a" "#a", ruleEntry "b" "b"]) ∧
      ∃ next : Reading Filter,
        (read (declaring [ruleEntry "a" "#a", ruleEntry "b" "b"])).result =
          next.result.map (fun h => [f, h]) ∧
        (read (declaring [ruleEntry "a" "true", ruleEntry "b" "b"])).result =
          next.result.map fun h => [g, h] := by
  obtain ⟨hfirst, hstep, hread, hfault⟩ := read_folds
  have htag : Expr.parse "#a" = .ok (.tag "a") := by
    have htokens : Lexer.tokenize "#a" =
        .ok [⟨.hash, "#", 0⟩, ⟨.name, "a", 1⟩, ⟨.finish, "", 2⟩] := by
      decide +kernel
    rw [Expr.parse, htokens]
    rfl
  have htrue : Expr.parse "true" = .ok (.bool true) := by
    have htokens : Lexer.tokenize "true" = .ok [⟨.bool true, "true", 0⟩, ⟨.finish, "", 4⟩] := by
      decide +kernel
    rw [Expr.parse, htokens]
    rfl
  have hvar : Expr.parse "b" = .error (.undefinedVariable ⟨"b", ["this"]⟩) := by
    have htokens : Lexer.tokenize "b" = .ok [⟨.name, "b", 0⟩, ⟨.finish, "", 1⟩] := by
      decide +kernel
    rw [Expr.parse, htokens]
    rfl
  have hrow : ∀ text e, Expr.parse text = .ok e →
      (read (declaring [ruleEntry "a" text])).result = .ok [⟨some "a", none, e, text⟩] := by
    intro text e hparse
    have hentry : (readEntry true 0 [] (ruleEntry "a" text)).result =
        .ok ("a", ⟨some "a", none, e, text⟩) := by
      refine result_bind_eq_ok.mpr ⟨("a", .string text, none), by rfl, ?_⟩
      refine result_bind_eq_ok.mpr ⟨_, Outcome.result_mapError_eq_ok.mpr ?_, rfl⟩
      exact Filter.ofText_eq_ok.mpr ⟨hparse, rfl, rfl, rfl⟩
    rw [read_of_header (header_declaring _)]
    exact result_bind_eq_ok.mpr ⟨_, hentry, rfl⟩
  have ha := hrow _ _ htag
  have hg := hrow _ _ htrue
  have hof : (Filter.ofDocument true (.string "b") (some "b") none).result =
      .error (.rule "b" (.undefinedVariable ⟨"b", ["this"]⟩)) := by
    show Filter.ofText "b" (some "b") none = _
    rw [Filter.ofText, hvar]
    rfl
  obtain ⟨fault, hread', -, -, htold⟩ := hfault (declaring [ruleEntry "a" "#a"])
    (declaring [ruleEntry "a" "#a", ruleEntry "b" "b"]) true _ _ [] _ "b" (.string "b") none _
    (header_declaring _) (header_declaring _) ha (by rfl) hof
  obtain ⟨next, hnext, hnext'⟩ := hstep (declaring [ruleEntry "a" "#a"])
    (declaring [ruleEntry "a" "#a", ruleEntry "b" "b"]) (declaring [ruleEntry "a" "true"])
    (declaring [ruleEntry "a" "true", ruleEntry "b" "b"]) true _ _ (ruleEntry "b" "b") _ _
    (header_declaring _) (header_declaring _) (header_declaring _) (header_declaring _) ha hg rfl
    fun _ => Iff.rfl
  refine ⟨_, _, fault, ha, hg, ?_, hread', ?_, ?_, next, congrArg Outcome.result hnext,
    congrArg Outcome.result hnext'⟩
  · obtain ⟨-, hall, -⟩ := hread _ true _ _ (header_declaring [ruleEntry "a" "#a"]) ha
    cases hall with
    | cons hdeclares _ => exact hdeclares
  · rw [(htold (by decide)).1]
    decide +kernel
  · exact hfirst (declaring [ruleEntry "a" "#a", ruleEntry "b" "b"]) _ true _ [.null] _
      (header_declaring _) (header_declaring _) hread'

end DiagramFilter.Declarations
