import DiagramFilter.Diagram.Build
import DiagramFilter.Outcome
import DiagramFilter.Proofs.Building.Store
import Mathlib.Data.List.Forall2

/-!
# Records and their elements

A document is read as a row of records with records below each: `recordsOf` lists them, each before
those below it.  `Describes` says what a record tells about the element that is made of it,
`Tag.AllOf` what its properties tell about tags, and `Adds` what stands where after the elements of
child records are made.
-/

namespace DiagramFilter

namespace Diagram

/-- The records of the children. -/
def childRecords (record : Document) : List Document :=
  (childRecords? record).getD []

/-- The child records are smaller than the record itself, if there are any. -/
theorem childRecords_size (record : Document) :
    Document.sizeItems (childRecords record) < record.size := by
  unfold childRecords
  cases h : childRecords? record with
  | some records => exact childRecords?_size h
  | none =>
      rw [Option.getD_none, Document.sizeItems]
      cases record <;> simp only [Document.size] <;> omega

/-- The records in a row and below it, each before those below it, and these before the next ones
of the row. -/
def recordsOf : List Document → List Document
  | [] => []
  | record :: row => record :: (recordsOf (childRecords record) ++ recordsOf row)
termination_by row => Document.sizeItems row
decreasing_by
  all_goals
    have smaller := childRecords_size record
    simp only [Document.sizeItems]
    omega

end Diagram

namespace Tag

/-- A tag as an entry in a list of tags gives it.  Its name is the text of whatever stands there,
and its number is zero where none is given. -/
structure IsOf (entry : Document) (tag : Tag) : Prop where
  name : ∃ d, entry.field? "tag" = some d ∧ tag.name = .string d.display
  unnumbered : entry.value? "num" = none → tag.num = 0
  numbered : ∀ d, entry.value? "num" = some d → d.toFloat = .ok tag.num

/-- The tags as the entries of a property give them, in order; without the property there are
none. -/
def AllOf (properties : Document) (tags : List Tag) : Prop :=
  (properties.value? tagsProperty = none ∧ tags = []) ∨
    ∃ entries, properties.value? tagsProperty = some (.list entries) ∧
      List.Forall₂ IsOf entries tags

/-- The tag that is read from an entry is the one that the entry gives. -/
theorem ofEntry_eq_ok {index : Nat} {entry : Document} {tag : Tag} :
    ofEntry index entry = .ok tag ↔ IsOf entry tag := by
  unfold ofEntry
  constructor
  · intro h
    split at h
    · cases h
    · rename_i name hname
      split at h
      · rename_i hnum
        cases h
        exact ⟨⟨name, hname, rfl⟩, fun _ => rfl, fun d hd => by rw [hnum] at hd; cases hd⟩
      · rename_i num hnum
        obtain ⟨x, hx, h⟩ := bind_eq_ok.mp h
        cases h
        refine ⟨⟨name, hname, rfl⟩, fun hnone => ?_, fun d hd => ?_⟩
        · rw [hnum] at hnone
          cases hnone
        · rw [hnum, Option.some.injEq] at hd
          subst hd
          exact mapError_eq_ok.mp hx
  · rintro ⟨⟨d, hd, hname⟩, hunnumbered, hnumbered⟩
    obtain ⟨name, num⟩ := tag
    cases hname
    rw [hd]
    cases hnum : entry.value? "num" with
    | none =>
        cases hunnumbered hnum
        rfl
    | some d => exact bind_eq_ok.mpr ⟨_, mapError_eq_ok.mpr (hnumbered d hnum), rfl⟩

/-- The tags that are read from entries are those that they give. -/
theorem ofEntries_eq_ok {index : Nat} {entries : List Document} {tags : List Tag} :
    ofEntries index entries = .ok tags ↔ List.Forall₂ IsOf entries tags := by
  induction entries generalizing index tags with
  | nil => cases tags <;> simp [ofEntries]
  | cons entry entries ih =>
      constructor
      · intro h
        obtain ⟨tag, htag, h⟩ := bind_eq_ok.mp h
        obtain ⟨tags, htags, h⟩ := bind_eq_ok.mp h
        cases h
        exact .cons (ofEntry_eq_ok.mp htag) (ih.mp htags)
      · intro h
        cases h with
        | cons htag htags =>
            exact bind_eq_ok.mpr ⟨_, ofEntry_eq_ok.mpr htag, bind_eq_ok.mpr ⟨_, ih.mpr htags, rfl⟩⟩

/-- The tags that are read from properties are those that they give. -/
theorem ofProperties_eq_ok {properties : Document} {tags : List Tag} :
    ofProperties properties = .ok tags ↔ AllOf properties tags := by
  unfold ofProperties AllOf
  cases properties.value? tagsProperty with
  | none => simp [eq_comm]
  | some d =>
      cases d with
      | list entries => simp [ofEntries_eq_ok]
      | _ => simp

end Tag

namespace Diagram

/-- What a record tells about its element, which is known by a number. -/
structure Describes (record : Document) (number : Nat) (e : Element) : Prop where
  /-- An identity that is there is used as a text. -/
  named : ∀ id, record.value? "id" = some id → e.id = id.display
  /-- An element without an identity is called by its number. -/
  anonymous : record.value? "id" = none → e.id = "<anonymous-" ++ toString number ++ ">"
  /-- The kind is the part of the type before a colon. -/
  kind : ElementKind.ofWord? (String.ofList ((recordType record).toList.takeWhile (· ≠ ':'))) =
    some e.kind
  /-- Without properties there is no tag collection. -/
  untagged : record.value? "properties" = none → e.tags = none ∧ e.properties = []
  /-- Properties are an object, and the tags are those that it gives. -/
  tagged : ∀ d, record.value? "properties" = some d → ∃ fields tags, d = .object fields ∧
    Tag.AllOf d tags ∧ e.tags = some tags ∧ e.properties = fields

/-- What a record tells about its element has nothing to do with links. -/
theorem Describes.congr {record : Document} {number : Nat} {e e' : Element}
    (h : Describes record number e) (hsame : e'.unlinked = e.unlinked) :
    Describes record number e' := by
  obtain ⟨hid, hkind, htags, hproperties⟩ : e'.id = e.id ∧ e'.kind = e.kind ∧ e'.tags = e.tags ∧
      e'.properties = e.properties := by
    simpa [Element.unlinked] using hsame
  constructor
  · rw [hid]
    exact h.named
  · rw [hid]
    exact h.anonymous
  · rw [hkind]
    exact h.kind
  · rw [htags, hproperties]
    exact h.untagged
  · rw [htags, hproperties]
    exact h.tagged

/-- The element made of a record is the one that the record describes, without links. -/
theorem elementOf_describes {record : Document} {number : Nat} {e : Element}
    (h : elementOf record number = .ok e) : Describes record number e ∧ e.unlinked = e := by
  have hnamed : ∀ id, record.value? "id" = some id → recordId record number = id.display := by
    intro id hid
    rw [recordId, hid]
  have hanonymous : record.value? "id" = none →
      recordId record number = "<anonymous-" ++ toString number ++ ">" := by
    intro hid
    rw [recordId, hid]
  unfold elementOf at h
  dsimp only at h
  cases hkind : kindOfType? (recordType record) with
  | none =>
      rw [hkind] at h
      cases h
  | some kind =>
      rw [hkind] at h
      dsimp only at h
      split at h
      · rename_i hproperties
        cases h
        exact ⟨⟨hnamed, hanonymous, hkind, fun _ => ⟨rfl, rfl⟩,
          fun d hd => by rw [hproperties] at hd; cases hd⟩, rfl⟩
      · rename_i fields hproperties
        obtain ⟨tags, htags, hreturn⟩ := bind_eq_ok.mp h
        cases hreturn
        have hread := Tag.ofProperties_eq_ok.mp (mapError_eq_ok.mp htags)
        refine ⟨⟨hnamed, hanonymous, hkind, fun hnone => ?_, fun d hd => ?_⟩, rfl⟩
        · rw [hproperties] at hnone
          cases hnone
        · rw [hproperties, Option.some.injEq] at hd
          subst hd
          exact ⟨fields, tags, rfl, hread, rfl, rfl⟩
      · cases h

/-- The elements of child records stand behind those that were there before, the parent has them
as its last children, and all else is as it was. -/
structure Adds (g : Diagram) (h : Handle) (records : List Document) (g' : Diagram) : Prop where
  size : g'.size = g.size + records.length
  parent : g'.element h = { g.element h with
    children := (g.element h).children ++ List.range' g.size records.length }
  others : ∀ k < g.size, k ≠ h → g'.element k = g.element k
  made : ∀ p ∈ records.zipIdx g.size, ∃ e, elementOf p.1 p.2 = .ok e ∧
    g'.element p.2 = { e with parent := some h }

namespace Adds

variable {g g' : Diagram} {h k : Handle} {records : List Document}

/-- The new elements are those at the next handles. -/
theorem exists_record (hadds : Adds g h records g') (hk : k ∈ List.range' g.size records.length) :
    ∃ record e, elementOf record k = .ok e ∧ g'.element k = { e with parent := some h } := by
  rw [← List.zipIdx_map_snd, List.mem_map] at hk
  obtain ⟨⟨record, k⟩, hmem, rfl⟩ := hk
  obtain ⟨e, he, hmade⟩ := hadds.made _ hmem
  exact ⟨record, e, he, hmade⟩

/-- An element that was there before has at most got children. -/
theorem childless (hadds : Adds g h records g') (hk : k < g.size) :
    (g'.element k).childless = (g.element k).childless := by
  by_cases hkh : k = h
  · rw [hkh, hadds.parent]
    rfl
  · rw [hadds.others k hk hkh]

/-- The next handles are those of the new elements and those after them. -/
theorem range'_size (hadds : Adds g h records g') {n : Nat} (hn : g'.size ≤ n) :
    List.range' g.size (n - g.size) =
      List.range' g.size records.length ++ List.range' g'.size (n - g'.size) := by
  rw [hadds.size] at hn ⊢
  have hcount : n - g.size = records.length + (n - (g.size + records.length)) := by omega
  rw [List.range'_append_1, ← hcount]

/-- No edge is wired. -/
theorem unwired (hadds : Adds g h records g')
    (hg : ∀ k, (g.element k).unwired = g.element k) (k : Handle) :
    (g'.element k).unwired = g'.element k := by
  rcases Nat.lt_or_ge k g.size with hold | hnew
  · by_cases hkh : k = h
    · rw [hkh, hadds.parent, ← hg h]
      rfl
    · rw [hadds.others k hold hkh, hg]
  · rcases Nat.lt_or_ge k g'.size with hlt | hge
    · obtain ⟨record, e, he, hmade⟩ := hadds.exists_record
        (List.mem_range'_1.mpr ⟨hnew, by rwa [← hadds.size]⟩)
      rw [hmade, ← (elementOf_describes he).2]
      rfl
    · rw [element_of_size_le hge]
      rfl

end Adds

/-- Child records that are made into elements are added below the parent. -/
theorem addChildren_adds {g g' : Diagram} {parent : Handle} {records : List Document}
    (hparent : parent < g.size) (h : addChildren g parent records = .ok g') :
    Adds g parent records g' := by
  induction records generalizing g with
  | nil =>
      cases h
      exact ⟨rfl, by simp, fun _ _ _ => rfl, by simp⟩
  | cons record records ih =>
      cases record with
      | object fields =>
          obtain ⟨e, he, hrest⟩ := bind_eq_ok.mp h
          -- One child first: it is the last element so far, and the others follow it.
          let g₁ := (g.add e).addChild parent g.size
          have hsize₁ : g₁.size = g.size + 1 := by rw [size_addChild, size_add]
          have hg₁ : ∀ k, g₁.element k = _ := fun k =>
            element_addChild (by rw [size_add]; exact Nat.lt_succ_of_lt hparent)
              (by rw [size_add]; exact Nat.lt_succ_self _)
          have hold : ∀ k < g.size, k ≠ parent → g₁.element k = g.element k := by
            intro k hk hne
            rw [hg₁, element_add_of_lt hk, if_neg hne, if_neg (Nat.ne_of_lt hk), List.append_nil]
          have hparent₁ : g₁.element parent = { g.element parent with
              children := (g.element parent).children ++ [g.size] } := by
            rw [hg₁, element_add_of_lt hparent, if_pos rfl, if_neg (Nat.ne_of_lt hparent)]
          have hchild : g₁.element g.size = { e with parent := some parent } := by
            rw [hg₁, element_add_next, if_pos rfl, if_neg (Nat.ne_of_gt hparent), List.append_nil]
          have hlt : parent < g₁.size := by
            rw [hsize₁]
            exact Nat.lt_succ_of_lt hparent
          obtain ⟨hsize, hlast, hothers, hmade⟩ := ih hlt hrest
          refine ⟨?_, ?_, fun k hk hne => ?_, fun p hp => ?_⟩
          · rw [hsize, hsize₁, List.length_cons]
            omega
          · rw [hlast, hparent₁, hsize₁, List.length_cons, List.range'_succ, List.append_assoc,
              List.singleton_append]
          · rw [hothers k (by rw [hsize₁]; exact Nat.lt_succ_of_lt hk) hne, hold k hk hne]
          · rw [List.zipIdx_cons] at hp
            rcases List.mem_cons.mp hp with rfl | hp
            · refine ⟨e, he, ?_⟩
              rw [hothers g.size (by rw [hsize₁]; exact Nat.lt_succ_self _)
                (Nat.ne_of_gt hparent), hchild]
            · exact hmade p (by rwa [hsize₁])
      | _ => cases h

end Diagram

end DiagramFilter
