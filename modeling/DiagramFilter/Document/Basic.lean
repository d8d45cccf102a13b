import DiagramFilter.Failure
import DiagramFilter.Number.Basic
import DiagramFilter.Number.Reading
import DiagramFilter.Text.Quoted

/-!
# Documents

Diagrams, legacy rules and filter declarations arrive as documents: nested values of a data
format, of which any place may hold any sort of value.
-/

namespace DiagramFilter

/-- A value of a document.  The keys of an object are distinct. -/
inductive Document where
  | null
  | bool (value : Bool)
  | number (value : Number)
  | string (value : String)
  | list (items : List Document)
  | object (fields : List (String × Document))

namespace Document

/-- The value of a field of an object; other documents have no fields. -/
def field? (key : String) : Document → Option Document
  | object fields => fields.lookup key
  | _ => none

/-- The value of a field of an object, unless it is missing or null. -/
def value? (key : String) (d : Document) : Option Document :=
  match d.field? key with
  | some null => none
  | v => v

/-- Fields with one more, which replaces an earlier one of the same key. -/
def setField (fields : List (String × Document)) (key : String) (d : Document) :
    List (String × Document) :=
  if fields.any (·.1 == key) then fields.map fun f => if f.1 == key then (key, d) else f
  else fields ++ [(key, d)]

/-- The name of the sort of value that a document is. -/
def typeName : Document → String
  | null => "NoneType"
  | bool _ => "bool"
  | number (.int _) => "int"
  | number (.float _) => "float"
  | string _ => "str"
  | list _ => "list"
  | object _ => "dict"

/-- A document is made of others. -/
def IsCompound (d : Document) : Prop :=
  (∃ items, d = list items) ∨ ∃ fields, d = object fields

/-- Whether a document counts as nothing: null, false, zero, or without content. -/
def isVoid : Document → Bool
  | null => true
  | bool value => !value
  | number value => value.isZero
  | string value => value.isEmpty
  | list items => items.isEmpty
  | object fields => fields.isEmpty

mutual

/-- The number of values in a document, itself included. -/
def size : Document → Nat
  | null | bool _ | number _ | string _ => 1
  | list items => 1 + sizeItems items
  | object fields => 1 + sizeFields fields

/-- The number of values in several documents. -/
def sizeItems : List Document → Nat
  | [] => 0
  | d :: ds => d.size + sizeItems ds

/-- The number of values in several fields. -/
def sizeFields : List (String × Document) → Nat
  | [] => 0
  | (_, d) :: fields => d.size + sizeFields fields

end

/-- Every document has a size. -/
theorem size_pos (d : Document) : 0 < d.size := by
  cases d <;> simp only [size] <;> omega

/-- The sizes of items add up. -/
theorem sizeItems_append (ds es : List Document) :
    sizeItems (ds ++ es) = sizeItems ds + sizeItems es := by
  induction ds with
  | nil => simp [sizeItems]
  | cons d ds ih =>
    simp only [List.cons_append, sizeItems, ih]
    omega

/-- A field is no larger than all fields. -/
theorem size_le_of_lookup {key : String} {v : Document} {fields : List (String × Document)}
    (h : fields.lookup key = some v) : v.size ≤ sizeFields fields := by
  induction fields with
  | nil => simp at h
  | cons f fields ih =>
    obtain ⟨k, d⟩ := f
    rw [List.lookup_cons] at h
    split at h
    · simp only [Option.some.injEq] at h
      subst h
      simp [sizeFields]
    · simp only [sizeFields]
      have := ih h
      omega

/-- Two fields are together no larger than all fields. -/
theorem size_add_le_of_lookup {key key' : String} {v v' : Document}
    {fields : List (String × Document)} (hne : key ≠ key') (h : fields.lookup key = some v)
    (h' : fields.lookup key' = some v') : v.size + v'.size ≤ sizeFields fields := by
  induction fields with
  | nil => simp at h
  | cons f fields ih =>
    obtain ⟨k, d⟩ := f
    rw [List.lookup_cons] at h h'
    simp only [sizeFields]
    split at h <;> split at h'
    · exact absurd ((beq_iff_eq.mp ‹_›).trans (beq_iff_eq.mp ‹_›).symm) hne
    · cases h
      have := size_le_of_lookup h'
      omega
    · cases h'
      have := size_le_of_lookup h
      omega
    · have := ih h h'
      omega

/-- A field is smaller than its object. -/
theorem size_lt_of_field? {key : String} {d v : Document} (h : d.field? key = some v) :
    v.size < d.size := by
  cases d with
  | object fields =>
    have := size_le_of_lookup h
    simp only [size]
    omega
  | _ => simp [field?] at h

/-- A field that is not null is smaller than its object. -/
theorem size_lt_of_value? {key : String} {d v : Document} (h : d.value? key = some v) :
    v.size < d.size := by
  unfold value? at h
  split at h
  · simp at h
  · exact size_lt_of_field? h

/-- A value that is there is the value of a field. -/
theorem field?_of_value? {key : String} {d v : Document} (h : d.value? key = some v) :
    d.field? key = some v := by
  unfold value? at h
  split at h
  · cases h
  · exact h

/-- Two fields that are not null are together smaller than their object. -/
theorem size_add_lt_of_value? {key key' : String} {d v v' : Document} (hne : key ≠ key')
    (h : d.value? key = some v) (h' : d.value? key' = some v') : v.size + v'.size < d.size := by
  have hv := field?_of_value? h
  have hv' := field?_of_value? h'
  cases d with
  | object fields =>
    have := size_add_le_of_lookup hne hv hv'
    simp only [size]
    omega
  | _ => cases hv

mutual

/-- A document as messages show it, with its texts quoted. -/
def quoted : Document → String
  | null => "None"
  | bool true => "True"
  | bool false => "False"
  | number value => value.text
  | string value => Text.quoted value
  | list items => "[" ++ ", ".intercalate (quotedItems items) ++ "]"
  | object fields => "\x7b" ++ ", ".intercalate (quotedFields fields) ++ "\x7d"

/-- Several documents as messages show them. -/
def quotedItems : List Document → List String
  | [] => []
  | d :: ds => d.quoted :: quotedItems ds

/-- Fields as messages show them. -/
def quotedFields : List (String × Document) → List String
  | [] => []
  | (key, d) :: fields => (Text.quoted key ++ ": " ++ d.quoted) :: quotedFields fields

end

/-- A document used as a text: a text itself, anything else as messages show it. -/
def display : Document → String
  | string value => value
  | d => d.quoted

/-- The reasons for which a document is no number. -/
inductive NumberError where
  /-- A text spells no number. -/
  | unreadable (text : String)
  /-- A value of this sort is never a number. -/
  | wrongType (typeName : String)
  /-- A whole number is beyond the largest double. -/
  | tooLarge
deriving DecidableEq

/-- The text of such a reason. -/
def NumberError.message : NumberError → String
  | unreadable text => "could not convert string to float: " ++ Text.quoted text
  | wrongType typeName =>
    "float() argument must be a string or a real number, not '" ++ typeName ++ "'"
  | tooLarge => Number.Error.tooLarge.message

/-- The class of such a reason. -/
def NumberError.failureClass : NumberError → FailureClass
  | unreadable _ => .value
  | wrongType _ => .type
  | tooLarge => .overflow

/-- A document as a double.  Truth values are one and zero, and texts are read. -/
def toFloat : Document → Except NumberError Float
  | bool value => .ok (if value then 1 else 0)
  | number value => value.toFloat.mapError fun _ => .tooLarge
  | string value =>
    match Double.read? value with
    | some x => .ok x
    | none => .error (.unreadable value)
  | d => .error (.wrongType d.typeName)

end Document

end DiagramFilter
