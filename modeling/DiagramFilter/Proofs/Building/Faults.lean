import DiagramFilter.Proofs.Building.Records

/-!
# Faults of records

What can be wrong with a record and with the tags among its properties, each fault with the error
that tells of it (`RecordFault`, `TagFault`).  A record from which no element can be made has a
fault (`elementOf_error`), and one that describes an element and has objects for its children has
none (`Describes.faultless`).

The errors are of the class of values, unless a tag is given something as its number that is a list,
an object or a whole number beyond the doubles (`RecordFault.class`).
-/

namespace DiagramFilter

/-- What is no number is a text that spells none, or a value without one, or a whole number that is
too large. -/
theorem Document.toFloat_eq_error {d : Document} {e : Document.NumberError}
    (h : d.toFloat = .error e) :
    (∃ text, d = .string text ∧ e = .unreadable text) ∨
      ((d = .null ∨ d.IsCompound) ∧ e = .wrongType d.typeName) ∨
      ∃ n, d = .number (.int n) ∧ Double.ofInt? n = none ∧ e = .tooLarge := by
  cases d with
  | null =>
      cases h
      exact Or.inr (Or.inl ⟨Or.inl rfl, rfl⟩)
  | bool value => cases h
  | number value =>
      obtain ⟨fault, hfault, htold⟩ := mapError_eq_error.mp h
      obtain ⟨n, rfl, hlarge⟩ := Number.toFloat_eq_error hfault
      exact Or.inr (Or.inr ⟨n, rfl, hlarge, htold.symm⟩)
  | string value =>
      cases hread : Double.read? value with
      | some x =>
          simp only [Document.toFloat, hread] at h
          cases h
      | none =>
          simp only [Document.toFloat, hread, Except.error.injEq] at h
          exact Or.inl ⟨value, rfl, h.symm⟩
  | list items =>
      cases h
      exact Or.inr (Or.inl ⟨Or.inr (Or.inl ⟨items, rfl⟩), rfl⟩)
  | object fields =>
      cases h
      exact Or.inr (Or.inl ⟨Or.inr (Or.inr ⟨fields, rfl⟩), rfl⟩)

/-- What can be wrong with the tags among some properties. -/
inductive TagFault (properties : Document) : TagError → Prop
  | notList {d : Document} (h : properties.value? tagsProperty = some d)
      (hlist : ∀ entries, d ≠ .list entries) : TagFault properties (.notList d.typeName)
  | notEntry {entries : List Document} {index : Nat} {entry : Document}
      (h : properties.value? tagsProperty = some (.list entries))
      (hentry : entries[index]? = some entry) (htag : entry.field? "tag" = none) :
      TagFault properties (.notEntry index)
  | number {entries : List Document} {entry num : Document} {error : Document.NumberError}
      (h : properties.value? tagsProperty = some (.list entries)) (hentry : entry ∈ entries)
      (hnum : entry.value? "num" = some num) (herror : num.toFloat = .error error) :
      TagFault properties (.number error)

/-- An entry is no tag if it has no name, or if its number is none. -/
theorem Tag.ofEntry_error {index : Nat} {entry : Document} {e : TagError}
    (h : Tag.ofEntry index entry = .error e) :
    (entry.field? "tag" = none ∧ e = .notEntry index) ∨
      ∃ num error, entry.value? "num" = some num ∧ num.toFloat = .error error ∧
        e = .number error := by
  unfold Tag.ofEntry at h
  split at h
  · rename_i htag
    cases h
    exact Or.inl ⟨htag, rfl⟩
  · split at h
    · cases h
    · rename_i num hnum
      rcases bind_eq_error.mp h with h | ⟨x, -, h⟩
      · obtain ⟨error, herror, rfl⟩ := mapError_eq_error.mp h
        exact Or.inr ⟨num, error, hnum, herror, rfl⟩
      · cases h

/-- Entries are read up to the first that is no tag. -/
theorem Tag.ofEntries_error {index : Nat} {entries : List Document} {e : TagError}
    (h : Tag.ofEntries index entries = .error e) :
    ∃ i entry, entries[i]? = some entry ∧ Tag.ofEntry (index + i) entry = .error e := by
  induction entries generalizing index with
  | nil => cases h
  | cons entry entries ih =>
      rcases bind_eq_error.mp h with h | ⟨tag, -, h⟩
      · exact ⟨0, entry, rfl, h⟩
      · rcases bind_eq_error.mp h with h | ⟨tags, -, h⟩
        · obtain ⟨i, entry', hentry, herror⟩ := ih h
          refine ⟨i + 1, entry', hentry, ?_⟩
          rwa [Nat.add_assoc, Nat.add_comm 1 i] at herror
        · cases h

/-- Properties whose tags are not read have a fault. -/
theorem Tag.ofProperties_error {properties : Document} {e : TagError}
    (h : Tag.ofProperties properties = .error e) : TagFault properties e := by
  unfold Tag.ofProperties at h
  split at h
  · cases h
  · rename_i entries htags
    obtain ⟨i, entry, hentry, herror⟩ := Tag.ofEntries_error h
    rw [Nat.zero_add] at herror
    rcases Tag.ofEntry_error herror with ⟨htag, rfl⟩ | ⟨num, error, hnum, hfloat, rfl⟩
    · exact .notEntry htags hentry htag
    · exact .number htags (List.mem_of_getElem? hentry) hnum hfloat
  · rename_i d hlist htags
    cases h
    exact .notList htags hlist

/-- Entries that are read are tags one by one. -/
theorem Tag.ofEntries_ok {index : Nat} {entries : List Document} {tags : List Tag}
    (h : Tag.ofEntries index entries = .ok tags) {i : Nat} {entry : Document}
    (hentry : entries[i]? = some entry) : ∃ tag, Tag.ofEntry (index + i) entry = .ok tag := by
  induction entries generalizing index tags i with
  | nil => cases hentry
  | cons first entries ih =>
      obtain ⟨tag, hfirst, h⟩ := bind_eq_ok.mp h
      obtain ⟨tags, hrest, -⟩ := bind_eq_ok.mp h
      cases i with
      | zero =>
          cases hentry
          exact ⟨tag, hfirst⟩
      | succ i =>
          rw [Nat.add_comm i 1, ← Nat.add_assoc]
          exact ih hrest hentry

/-- Tags that are read have no fault. -/
theorem TagFault.not_ok {properties : Document} {e : TagError} {tags : List Tag}
    (h : TagFault properties e) : Tag.ofProperties properties ≠ .ok tags := by
  intro hok
  unfold Tag.ofProperties at hok
  cases h with
  | notList h hlist =>
      rw [h] at hok
      split at hok
      · rename_i hnone
        cases hnone
      · rename_i entries hsome
        exact hlist entries (Option.some.inj hsome)
      · cases hok
  | notEntry h hentry htag =>
      rw [h] at hok
      obtain ⟨tag, hread⟩ := Tag.ofEntries_ok hok hentry
      rw [Tag.ofEntry, htag] at hread
      cases hread
  | number h hentry hnum herror =>
      rw [h] at hok
      obtain ⟨i, hi⟩ := List.getElem?_of_mem hentry
      obtain ⟨tag, hread⟩ := Tag.ofEntries_ok hok hi
      unfold Tag.ofEntry at hread
      split at hread
      · cases hread
      · rw [hnum] at hread
        obtain ⟨x, hx, -⟩ := bind_eq_ok.mp hread
        rw [herror] at hx
        cases hx

namespace Diagram

variable {record : Document} {g g' : Diagram} {number parent : Handle} {records : List Document}
  {e : BuildError}

/-- What can be wrong with a record, whose element is known by a number. -/
inductive RecordFault (record : Document) (number : Nat) : BuildError → Prop
  | unknownType (h : kindOfType? (recordType record) = none) :
      RecordFault record number (.unknownType (recordId record number) (recordType record))
  | propertiesNotObject {d : Document} (h : record.value? "properties" = some d)
      (hobject : ∀ fields, d ≠ .object fields) :
      RecordFault record number (.propertiesNotObject (recordId record number))
  | tags {properties : Document} {error : TagError}
      (h : record.value? "properties" = some properties) (herror : TagFault properties error) :
      RecordFault record number (.tags error)
  | childrenNotList (h : childRecords? record = none) :
      RecordFault record number (.childrenNotList (recordId record number))
  | childNotObject {records : List Document} {child : Document}
      (h : childRecords? record = some records) (hchild : child ∈ records)
      (hobject : ∀ fields, child ≠ .object fields) :
      RecordFault record number (.childNotObject (recordId record number))

/-- A record of which no element is made has a fault. -/
theorem elementOf_error (h : elementOf record number = .error e) : RecordFault record number e := by
  unfold elementOf at h
  dsimp only at h
  cases hkind : kindOfType? (recordType record) with
  | none =>
      rw [hkind] at h
      cases h
      exact .unknownType hkind
  | some kind =>
      rw [hkind] at h
      dsimp only at h
      split at h
      · cases h
      · rename_i fields hproperties
        rcases bind_eq_error.mp h with h | ⟨tags, -, h⟩
        · obtain ⟨error, herror, rfl⟩ := mapError_eq_error.mp h
          exact .tags hproperties (Tag.ofProperties_error herror)
        · cases h
      · rename_i d hobject hproperties
        cases h
        exact .propertiesNotObject hproperties hobject

/-- A record that describes an element and has objects for its children has no fault. -/
theorem Describes.faultless {described : Element}
    (hown : Describes record number described) (hrecords : childRecords? record = some records)
    (hobjects : ∀ child ∈ records, ∃ fields, child = .object fields) :
    ¬ RecordFault record number e := by
  intro h
  cases h with
  | unknownType h =>
      have hkind : kindOfType? (recordType record) = some described.kind := hown.kind
      rw [h] at hkind
      cases hkind
  | propertiesNotObject h hobject =>
      obtain ⟨fields, tags, rfl, -⟩ := hown.tagged _ h
      exact hobject fields rfl
  | tags h herror =>
      obtain ⟨fields, tags, rfl, hread, -⟩ := hown.tagged _ h
      exact herror.not_ok (Tag.ofProperties_eq_ok.mpr hread)
  | childrenNotList h =>
      rw [hrecords] at h
      cases h
  | childNotObject h hchild hobject =>
      rw [hrecords] at h
      cases h
      obtain ⟨fields, rfl⟩ := hobjects _ hchild
      exact hobject fields rfl

/-- The children of a record are made up to the first that cannot be. -/
theorem addChildren_error (hparent : parent < g.size)
    (h : addChildren g parent records = .error e) :
    ∃ q ∈ records.zipIdx g.size, ((∀ fields, q.1 ≠ .object fields) ∧
      e = .childNotObject (g.element parent).id) ∨ elementOf q.1 q.2 = .error e := by
  fun_induction addChildren g parent records with
  | case1 => cases h
  | case2 g fields records ih =>
      rw [List.zipIdx_cons]
      rcases bind_eq_error.mp h with h | ⟨e', -, h⟩
      · exact ⟨_, List.mem_cons_self, Or.inr h⟩
      · have hlt : parent < (g.add e').size := by
          rw [size_add]
          exact Nat.lt_succ_of_lt hparent
        have hnew : g.next < (g.add e').size := by
          rw [size_add]
          exact Nat.lt_succ_self _
        obtain ⟨q, hq, hfault⟩ := ih e' (by rwa [size_addChild]) h
        rw [element_addChild hlt hnew, element_add_of_lt hparent] at hfault
        rw [size_addChild, size_add] at hq
        exact ⟨q, List.mem_cons_of_mem _ hq, hfault⟩
  | case3 g child records hobject =>
      cases h
      exact ⟨_, List.mem_cons_self, Or.inl ⟨hobject, rfl⟩⟩

/-- Children that are made are objects. -/
theorem addChildren_objects (h : addChildren g parent records = .ok g') :
    ∀ child ∈ records, ∃ fields, child = .object fields := by
  fun_induction addChildren g parent records with
  | case1 => simp
  | case2 g fields records ih =>
      obtain ⟨e', -, h⟩ := bind_eq_ok.mp h
      intro child hchild
      rcases List.mem_cons.mp hchild with rfl | hchild
      · exact ⟨fields, rfl⟩
      · exact ih e' h child hchild
  | case3 => cases h

/-- A record gives a tag a number, be it one or not. -/
def GivesNumber (record num : Document) : Prop :=
  ∃ properties entries entry, record.value? "properties" = some properties ∧
    properties.value? tagsProperty = some (.list entries) ∧ entry ∈ entries ∧
    entry.value? "num" = some num

/-- A value that is given as a number stops building with an error of a class of its own: a list or
an object with one of the class of types, a whole number that is too large with an overflow. -/
inductive Misnumbered : Document → FailureClass → Prop
  | compound {num : Document} (h : num.IsCompound) : Misnumbered num .type
  | tooLarge {n : Int} (h : Double.ofInt? n = none) : Misnumbered (.number (.int n)) .overflow

/-- Only numbers of tags give rise to errors of other classes than that of values. -/
theorem RecordFault.class (h : RecordFault record number e) : e.failureClass = .value ∨
    ∃ num, GivesNumber record num ∧ Misnumbered num e.failureClass := by
  cases h with
  | tags hproperties herror =>
      cases herror with
      | notList hlist hnot => exact Or.inl rfl
      | notEntry hlist hentry htag => exact Or.inl rfl
      | @number entries entry num error hlist hentry hnum hfloat =>
          have hgives : GivesNumber record num :=
            ⟨_, entries, entry, hproperties, hlist, hentry, hnum⟩
          rcases Document.toFloat_eq_error hfloat with ⟨text, -, rfl⟩ | ⟨hsort, rfl⟩ |
            ⟨n, rfl, hlarge, rfl⟩
          · exact Or.inl rfl
          · rcases hsort with rfl | hcompound
            -- A number that is null counts as missing.
            · have hfield := Document.field?_of_value? hnum
              rw [Document.value?, hfield] at hnum
              cases hnum
            · exact Or.inr ⟨_, hgives, .compound hcompound⟩
          · exact Or.inr ⟨_, hgives, .tooLarge hlarge⟩
  | _ => exact Or.inl rfl

end Diagram

end DiagramFilter
