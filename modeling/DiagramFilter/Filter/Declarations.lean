import DiagramFilter.Filter.Basic

/-!
# Declared filters

A declarations document lists filters with names.  It is checked from its header on, entry by
entry, and the first fault ends the reading.  A fault of a rule names its filter.
-/

namespace DiagramFilter

/-- The reasons for which a document declares no filters. -/
inductive DeclarationError where
  | notObject
  | missingVersion
  /-- The version is of a sort that cannot be looked up. -/
  | unhashableVersion (typeName : String)
  | unsupportedVersion (shown : String)
  | strictNotBool
  | filtersNotList
  | entryNotObject (index : Nat)
  | missingName (index : Nat)
  | duplicateName (name : String)
  | notOneRule (name : String)
  | ruleNotText (name : String)
  | legacyNotObject (name : String)
  | initialNotBool (name : String)
  /-- The rule of the filter of this name is none. -/
  | filter (name : String) (error : FilterError)
deriving DecidableEq

namespace DeclarationError

/-- The name of a declarations file, in front of all messages about one. -/
def fileName : String := "filters.yml"

/-- A message about the whole document. -/
def about (text : String) : String :=
  fileName ++ ": " ++ text

/-- A message about a filter. -/
def aboutFilter (name text : String) : String :=
  about ("filter '" ++ name ++ "'" ++ text)

/-- Whether a fault belongs to the rule, and so is told with the name of the filter. -/
def namesFilter (e : FilterError) : Bool :=
  match e.failureClass with
  | .form | .kind | .undefinedVariable | .legacy => true
  | .value | .type | .overflow | .memory | .recursion => false

/-- The text of such a reason. -/
def message : DeclarationError → String
  | notObject => fileName ++ " must be a YAML mapping"
  | missingVersion => about "missing required 'version' field"
  | unhashableVersion typeName => "unhashable type: '" ++ typeName ++ "'"
  | unsupportedVersion shown => about ("unsupported version " ++ shown ++ ", expected one of [1]")
  | strictNotBool => about "'strict_legacy' must be a boolean"
  | filtersNotList => about "'filters' must be a list"
  | entryNotObject index => about ("filter at index " ++ toString index ++ " must be a mapping")
  | missingName index =>
    about ("filter at index " ++ toString index ++ " missing required 'name' field")
  | duplicateName name => about ("Duplicate filter name '" ++ name ++ "'")
  | notOneRule name => aboutFilter name " must have exactly one of 'rule' or 'legacy'"
  | ruleNotText name => aboutFilter name " has a non-string 'rule'"
  | legacyNotObject name => aboutFilter name " has a 'legacy' rule that is not a mapping"
  | initialNotBool name => aboutFilter name " has a non-boolean 'default'"
  | filter name error =>
    if namesFilter error then aboutFilter name (": " ++ error.message) else error.message

/-- The fault of rule text behind such a reason. -/
def parseError? : DeclarationError → Option ParseError
  | filter _ error => error.parseError?
  | _ => none

/-- The text of such a reason without the rule and the caret. -/
def reason : DeclarationError → String
  | filter name error =>
    if namesFilter error then aboutFilter name (": " ++ error.reason) else error.reason
  | error => error.message

/-- The class of such a reason. -/
def failureClass : DeclarationError → FailureClass
  | unhashableVersion _ => .type
  | filter _ error => error.failureClass
  | _ => .value

end DeclarationError

namespace Declarations

/-- Reading declarations yields a result or an error, and warns about replaced connectives. -/
abbrev Reading := Outcome DeclarationError Substitution

/-- Whether a version is one; a truth value and a double may be one too. -/
def isSupported : Document → Bool
  | .bool value => value
  | .number value => value.same (.int 1)
  | _ => false

/-- Checks the version of a document. -/
def checkVersion (d : Document) : Except DeclarationError Unit :=
  match d.value? "version" with
  | none => .error .missingVersion
  | some version@(.list _) | some version@(.object _) =>
    .error (.unhashableVersion version.typeName)
  | some version =>
    if isSupported version then .ok () else .error (.unsupportedVersion version.display)

/-- Whether legacy records with unknown connectives are refused: so it is unless said otherwise. -/
def strictness (d : Document) : Except DeclarationError Bool :=
  match d.field? "strict_legacy" with
  | none => .ok true
  | some (.bool strict) => .ok strict
  | some _ => .error .strictNotBool

/-- The entries of a document. -/
def entries (d : Document) : Except DeclarationError (List Document) :=
  match d.field? "filters" with
  | none => .ok []
  | some (.list entries) => .ok entries
  | some _ => .error .filtersNotList

/-- The name of an entry, which no entry before it has and which is not blank. -/
def entryName (index : Nat) (seen : List String) (entry : Document) :
    Except DeclarationError String :=
  match entry with
  | .object _ =>
    match entry.field? "name" with
    | some (.string name) =>
      if Text.isAllBlank name then .error (.missingName index)
      else if seen.contains name then .error (.duplicateName name)
      else .ok name
    | _ => .error (.missingName index)
  | _ => .error (.entryNotObject index)

/-- The rule of an entry: text under one key, or a record under another. -/
def entrySource (name : String) (entry : Document) : Except DeclarationError Document :=
  match entry.field? "rule", entry.field? "legacy" with
  | some rule@(.string _), none => .ok rule
  | some _, none => .error (.ruleNotText name)
  | none, some record@(.object _) => .ok record
  | none, some _ => .error (.legacyNotObject name)
  | _, _ => .error (.notOneRule name)

/-- The initial state of an entry, if it has one. -/
def entryInitial (name : String) (entry : Document) : Except DeclarationError (Option Bool) :=
  match entry.value? "default" with
  | none => .ok none
  | some (.bool initial) => .ok (some initial)
  | some _ => .error (.initialNotBool name)

/-- The name, rule and initial state of an entry. -/
def entryParts (index : Nat) (seen : List String) (entry : Document) :
    Except DeclarationError (String × Document × Option Bool) := do
  let name ← entryName index seen entry
  let source ← entrySource name entry
  let initial ← entryInitial name entry
  return (name, source, initial)

/-- The filter of an entry, with its name. -/
def readEntry (strict : Bool) (index : Nat) (seen : List String) (entry : Document) :
    Reading (String × Filter) := do
  let (name, source, initial) ← .ofExcept (entryParts index seen entry)
  let filter ← (Filter.ofDocument strict source (some name) initial).mapError (.filter name)
  return (name, filter)

/-- The filters of entries in order, the first of which stands at `index` behind entries with the
names in `seen`. -/
def readEntries (strict : Bool) (index : Nat) (seen : List String) :
    List Document → Reading (List Filter)
  | [] => pure []
  | entry :: entries => do
    let (name, filter) ← readEntry strict index seen entry
    let filters ← readEntries strict (index + 1) (name :: seen) entries
    return filter :: filters

/-- The header of a document: whether records are read strictly, and the entries. -/
def header (d : Document) : Except DeclarationError (Bool × List Document) :=
  match d with
  | .object _ => do
    checkVersion d
    let strict ← strictness d
    let entries ← entries d
    return (strict, entries)
  | _ => .error .notObject

/-- The filters that a document declares. -/
def read (d : Document) : Reading (List Filter) := do
  let (strict, entries) ← .ofExcept (header d)
  readEntries strict 0 [] entries

end Declarations

end DiagramFilter
