import DiagramFilter.Diagram.Basic

/-!
# Tags in documents

A record's properties hold its tags as a list of objects with a name and perhaps a number.  Tags
given by hand may also be bare names, or pairs of a name and a number.
-/

namespace DiagramFilter

/-- The property that holds the tags of an element. -/
def tagsProperty : String := "de.cau.cs.kieler.klighd.semanticFilter.tags"

/-- The property that holds the rules of an element. -/
def rulesProperty : String := "de.cau.cs.kieler.klighd.semanticFilter.rules"

/-- The reasons for which documents are no tags. -/
inductive TagError where
  /-- The tags are no list but a value of this sort. -/
  | notList (typeName : String)
  /-- The entry at this place is no object with a name. -/
  | notEntry (index : Nat)
  /-- The number of a tag is none. -/
  | number (error : Document.NumberError)
  /-- A pair has too few parts. -/
  | tooFewParts (count : Nat)
  /-- A pair has too many parts. -/
  | tooManyParts
  /-- A value of this sort has no parts. -/
  | noParts (typeName : String)
deriving DecidableEq

namespace TagError

/-- The text of such a reason. -/
def message : TagError → String
  | notList typeName => "'" ++ tagsProperty ++ "' must be a list, got " ++ typeName
  | notEntry index =>
    "Tag entry at index " ++ toString index ++ " must be a mapping with a 'tag' field"
  | number error => error.message
  | tooFewParts count =>
    "not enough values to unpack (expected 2, got " ++ toString count ++ ")"
  | tooManyParts => "too many values to unpack (expected 2)"
  | noParts typeName => "cannot unpack non-iterable " ++ typeName ++ " object"

/-- The class of such a reason. -/
def failureClass : TagError → FailureClass
  | number error => error.failureClass
  | noParts _ => .type
  | _ => .value

end TagError

namespace Tag

/-- The tag of an entry in a list of tags.  Its name is the text of whatever stands there; a
missing or null number is zero. -/
def ofEntry (index : Nat) (entry : Document) : Except TagError Tag :=
  match entry.field? "tag" with
  | none => .error (.notEntry index)
  | some name =>
    match entry.value? "num" with
    | none => .ok ⟨.string name.display, 0⟩
    | some num => do
      let x ← num.toFloat.mapError .number
      return ⟨.string name.display, x⟩

/-- The tags of entries, the first of which stands at `index`. -/
def ofEntries (index : Nat) : List Document → Except TagError (List Tag)
  | [] => .ok []
  | entry :: entries => do
    let tag ← ofEntry index entry
    return tag :: (← ofEntries (index + 1) entries)

/-- The tags among the properties of an element; without the property there are none. -/
def ofProperties (properties : Document) : Except TagError (List Tag) :=
  match properties.value? tagsProperty with
  | none => .ok []
  | some (.list entries) => ofEntries 0 entries
  | some d => .error (.notList d.typeName)

/-- The tag that a bare name or a pair stands for.  The name of a pair is kept as it is.  Objects
are outside the types that are declared here, and the two keys of one make no pair. -/
def ofPair : Document → Except TagError Tag
  | .string name => .ok ⟨.string name, 0⟩
  | .list [name, num] => do
    let x ← num.toFloat.mapError .number
    return ⟨name, x⟩
  | .list parts => .error (if parts.length < 2 then .tooFewParts parts.length else .tooManyParts)
  | d => .error (.noParts d.typeName)

end Tag

end DiagramFilter
