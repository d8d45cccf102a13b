import DiagramFilter.Proofs.Building.Faults
import DiagramFilter.Proofs.Building.FirstPass

/-!
# How building fails

A document that is no diagram has a fault in one of its records, or two of its records have one
identity.  `BuildFault` says so: a document that is built has no fault, and the error of one that is
not built tells of one of its faults (`build_fails_at`).

The first pass takes the records in the order of the document, so what it has taken and what is
still on its stack are together all records (`Reads`).  A record without an identity is called by
its number, which is its place in the order in which the records get elements (`numberedRecords`).

All errors are of the class of values but two, which have to do with the numbers of tags
(`build_misnumbered`).
-/

namespace DiagramFilter.Diagram

variable {d record : Document} {g : Diagram} {p : Progress} {records : List Document}
  {stack taken : List (Document × Handle)} {e : BuildError}

/-- The records that have elements once some are taken, in the order in which they got them. -/
def recordsMade (d : Document) (taken : List Document) : List Document :=
  d :: taken.flatMap childRecords

/-- The records of a document with their numbers. -/
def numberedRecords (d : Document) : List (Document × Nat) :=
  (recordsMade d (recordsOf [d])).zipIdx

/-- What can be wrong with a document. -/
inductive BuildFault (d : Document) : BuildError → Prop
  | notObject (h : ∀ fields, d ≠ .object fields) : BuildFault d .notObject
  | record {record : Document} {number : Nat} {e : BuildError}
      (hmem : (record, number) ∈ numberedRecords d) (h : RecordFault record number e) :
      BuildFault d e
  /-- Two records have one identity. -/
  | duplicate {first second : Document} {number number' : Nat}
      (hfirst : (first, number) ∈ numberedRecords d)
      (hsecond : (second, number') ∈ numberedRecords d) (hne : number ≠ number')
      (hid : recordId first number = recordId second number') :
      BuildFault d (.duplicateId (recordId second number'))

/-- The records of two rows are those of the first and then those of the second. -/
theorem recordsOf_append (row row' : List Document) :
    recordsOf (row ++ row') = recordsOf row ++ recordsOf row' := by
  induction row with
  | nil => rw [List.nil_append, recordsOf, List.nil_append]
  | cons record row ih =>
      rw [List.cons_append, recordsOf, recordsOf, ih, List.cons_append, List.append_assoc]

/-- Taking one more record makes the elements of its children. -/
theorem recordsMade_append (d record : Document) (taken : List Document) :
    recordsMade d (taken ++ [record]) = recordsMade d taken ++ childRecords record := by
  simp [recordsMade]

/-- The numbers of the first records to be made do not depend on the others. -/
theorem mem_numberedRecords {before after : List Document} {q : Document × Nat}
    (h : recordsOf [d] = before ++ after) (hq : q ∈ (recordsMade d before).zipIdx) :
    q ∈ numberedRecords d := by
  rw [numberedRecords, h, recordsMade, List.flatMap_append, ← List.cons_append,
    List.zipIdx_append]
  exact List.mem_append_left _ hq

/-- A described element has the identity that its record is given. -/
theorem Describes.id_eq {e : Element} (h : Describes record number e) :
    e.id = recordId record number := by
  unfold recordId
  cases hid : record.value? "id" with
  | none => exact h.anonymous hid
  | some id => exact h.named id hid

/-- What the first pass knows of a document.  Its records are those taken so far, in the order in
which they were taken, and those on the stack and below; the ones taken have no fault. -/
structure Reads (d : Document) (p : Progress) (stack taken : List (Document × Handle)) :
    Prop where
  ready : Ready p.diagram stack
  records : recordsOf [d] = taken.map Prod.fst ++ recordsOf (stack.map Prod.fst)
  size : p.diagram.size = (recordsMade d (taken.map Prod.fst)).length
  /-- The records with elements are those taken and those on the stack. -/
  made : (taken ++ stack).Perm (recordsMade d (taken.map Prod.fst)).zipIdx
  seen : p.seen = (taken.map fun q => recordId q.1 q.2).reverse
  distinct : (taken.map fun q => recordId q.1 q.2).Nodup
  faultless : ∀ q ∈ taken, ∀ e, ¬ RecordFault q.1 q.2 e

namespace Reads

variable {k : Handle}

/-- The next record has the identity of its element. -/
theorem id_eq (hr : Reads d p ((record, k) :: stack) taken) :
    (p.diagram.element k).id = recordId record k :=
  (hr.ready.own (record, k) List.mem_cons_self).id_eq

/-- The records made so far have the numbers of the document. -/
theorem mem_numbered (hr : Reads d p stack taken) {q : Document × Handle}
    (hq : q ∈ taken ++ stack) : q ∈ numberedRecords d :=
  mem_numberedRecords hr.records (hr.made.mem_iff.mp hq)

/-- So have the children of the next record. -/
theorem child_mem_numbered (hr : Reads d p ((record, k) :: stack) taken)
    (hrecords : childRecords? record = some records) {q : Document × Handle}
    (hq : q ∈ records.zipIdx p.diagram.size) : q ∈ numberedRecords d := by
  have hsplit : recordsOf [d] = (taken.map Prod.fst ++ [record]) ++
      (recordsOf (childRecords record) ++ recordsOf (stack.map Prod.fst)) := by
    rw [hr.records, List.map_cons, recordsOf, List.append_cons]
  refine mem_numberedRecords hsplit ?_
  rw [recordsMade_append, childRecords, hrecords, Option.getD_some, List.zipIdx_append,
    Nat.zero_add, ← hr.size]
  exact List.mem_append_right _ hq

/-- No two records have one number. -/
theorem nodup (hr : Reads d p stack taken) : ((taken ++ stack).map Prod.snd).Nodup := by
  rw [(hr.made.map Prod.snd).nodup_iff, List.zipIdx_map_snd]
  exact List.nodup_range'

/-- Taking one record. -/
theorem next (hr : Reads d p ((record, k) :: stack) taken)
    (hseen : (p.diagram.element k).id ∉ p.seen) (hrecords : childRecords? record = some records)
    (hadd : addChildren p.diagram k records = .ok g)
    {edges : List (Document × Handle)} :
    Reads d ⟨g, (p.diagram.element k).id :: p.seen, edges⟩
      (records.zipIdx p.diagram.next ++ stack) (taken ++ [(record, k)]) := by
  have hadds : Adds p.diagram k records g :=
    addChildren_adds (hr.ready.bound (record, k) List.mem_cons_self) hadd
  have hchildren : childRecords record = records := by rw [childRecords, hrecords, Option.getD_some]
  constructor
  case ready => exact hr.ready.next hadds
  case records =>
    rw [hr.records, List.map_cons, recordsOf, hchildren, List.map_append, List.map_append,
      List.zipIdx_map_fst, recordsOf_append]
    simp
  case size =>
    rw [List.map_append, List.map_singleton, recordsMade_append, hchildren, List.length_append,
      ← hr.size, hadds.size]
  case made =>
    rw [List.map_append, List.map_singleton, recordsMade_append, hchildren, List.zipIdx_append,
      Nat.zero_add, ← hr.size]
    have hfront : taken ++ [(record, k)] ++ (stack ++ records.zipIdx p.diagram.next) =
        (taken ++ (record, k) :: stack) ++ records.zipIdx p.diagram.next := by simp
    refine (List.perm_append_comm.append_left _).trans ?_
    rw [hfront]
    exact hr.made.append_right _
  case seen =>
    rw [hr.seen, hr.id_eq]
    simp
  case distinct =>
    rw [hr.seen, hr.id_eq, List.mem_reverse] at hseen
    rw [List.map_append, List.map_singleton]
    refine List.nodup_append.mpr ⟨hr.distinct, List.nodup_singleton _, ?_⟩
    intro id hid id' hid' heq
    rw [heq, List.mem_singleton.mp hid'] at hid
    exact hseen hid
  case faultless =>
    intro q hq e
    rcases List.mem_append.mp hq with hq | hq
    · exact hr.faultless q hq e
    · rw [List.mem_singleton.mp hq]
      exact (hr.ready.own (record, k) List.mem_cons_self).faultless hrecords
        (addChildren_objects hadd)

end Reads

/-- **If the first pass fails, the document has a fault; if not, all records are taken.** -/
theorem takeRecords_reads (hr : Reads d p stack taken) :
    (∀ e, takeRecords p stack = .error e → BuildFault d e) ∧
      ∀ p', takeRecords p stack = .ok p' → ∃ taken, Reads d p' [] taken := by
  fun_induction takeRecords p stack generalizing taken with
  | case1 p =>
      refine ⟨fun e h => ?_, fun p' h => ?_⟩
      · cases h
      · cases h
        exact ⟨taken, hr⟩
  | case2 p record k stack _ =>
      rename_i hseen
      refine ⟨fun e h => ?_, fun p' h => by cases h⟩
      cases h
      show BuildFault d (.duplicateId (p.diagram.element k).id)
      have hbefore : (p.diagram.element k).id ∈ p.seen := by simpa using hseen
      rw [hr.seen, hr.id_eq, List.mem_reverse] at hbefore
      obtain ⟨q, hq, hsame⟩ := List.mem_map.mp hbefore
      have hnodup := hr.nodup
      rw [List.map_append] at hnodup
      have hne : q.2 ≠ k := (List.nodup_append.mp hnodup).2.2 _ (List.mem_map_of_mem hq) _
        List.mem_cons_self
      rw [hr.id_eq]
      exact .duplicate (hr.mem_numbered (List.mem_append_left _ hq)) (hr.mem_numbered (by simp))
        hne hsame
  | case3 p record k stack _ hseen =>
      rename_i hnone
      refine ⟨fun e h => ?_, fun p' h => by cases h⟩
      cases h
      show BuildFault d (.childrenNotList (p.diagram.element k).id)
      rw [hr.id_eq]
      exact .record (hr.mem_numbered (by simp)) (.childrenNotList hnone)
  | case4 p record k stack _ hseen records hrecords error =>
      rename_i herror
      refine ⟨fun e h => ?_, fun p' h => by cases h⟩
      cases h
      have hbound : k < p.diagram.size := hr.ready.bound (record, k) List.mem_cons_self
      obtain ⟨q, hq, ⟨hobject, rfl⟩ | hfault⟩ := addChildren_error hbound herror
      · rw [hr.id_eq]
        refine .record (hr.mem_numbered (by simp)) (.childNotObject hrecords ?_ hobject)
        exact (List.mem_zipIdx hq).2.2 ▸ List.getElem_mem _
      · exact .record (hr.child_mem_numbered hrecords hq) (elementOf_error hfault)
  | case5 p record k stack _ hseen records hrecords g hg edges =>
      rename_i ih
      exact ih (hr.next (by simpa using hseen) hrecords hg)

/-- The first pass begins with the outermost record. -/
theorem reads_root {described : Element} (h : elementOf d root = .ok described) :
    Reads d ⟨Diagram.add ⟨#[]⟩ described, [], []⟩ [(d, root)] [] := by
  constructor
  case ready => exact ready_root h
  case records => rfl
  case size => exact size_add
  case made => exact .refl _
  case seen => rfl
  case distinct => exact .nil
  case faultless => simp

/-- A document that is no diagram has a fault. -/
theorem build_error (h : build d = .error e) : BuildFault d e := by
  unfold build at h
  split at h
  · rcases bind_eq_error.mp h with h | ⟨described, hroot, h⟩
    · exact .record (List.mem_cons_self : (_, root) ∈ numberedRecords _) (elementOf_error h)
    · rcases bind_eq_error.mp h with h | ⟨p, -, h⟩
      · exact (takeRecords_reads (reads_root hroot)).1 e h
      · cases h
  · rename_i hobject
    cases h
    exact .notObject hobject

/-- A document that is a diagram has none. -/
theorem build_ok_faultless {built : Diagram × List DanglingEdge} (h : build d = .ok built) :
    ¬ BuildFault d e := by
  unfold build at h
  split at h
  · rename_i fields
    obtain ⟨described, hroot, h⟩ := bind_eq_ok.mp h
    obtain ⟨p, hp, -⟩ := bind_eq_ok.mp h
    obtain ⟨taken, hr⟩ := (takeRecords_reads (reads_root hroot)).2 p hp
    have htaken : taken.Perm (numberedRecords (.object fields)) := by
      have hmade := hr.made
      rw [List.append_nil] at hmade
      rwa [numberedRecords, hr.records, List.map_nil, recordsOf, List.append_nil]
    intro hfault
    cases hfault with
    | notObject hobject => exact hobject _ rfl
    | record hmem hfault => exact hr.faultless _ (htaken.mem_iff.mpr hmem) _ hfault
    | duplicate hfirst hsecond hne hid =>
        have heq := List.inj_on_of_nodup_map hr.distinct (htaken.mem_iff.mpr hfirst)
          (htaken.mem_iff.mpr hsecond) hid
        exact hne (congrArg Prod.snd heq)
  · cases h

/-- A document is refused for a wrong value, unless one of its tags is misnumbered. -/
theorem BuildFault.class (h : BuildFault d e) : e.failureClass = .value ∨
    ∃ q ∈ numberedRecords d, ∃ num, GivesNumber q.1 num ∧ Misnumbered num e.failureClass := by
  cases h with
  | notObject hobject => exact Or.inl rfl
  | duplicate hfirst hsecond hne hid => exact Or.inl rfl
  | record hmem hfault =>
      rcases hfault.class with hclass | hnumber
      · exact Or.inl hclass
      · exact Or.inr ⟨_, hmem, hnumber⟩

/-- **A document is built and has no fault, or it fails and the error tells of one.**  The error is
of the class of values, unless a record of the document gives a tag something as its number that is
a list, an object or a whole number beyond the doubles. -/
theorem build_fails_at (d : Document) :
    ((∃ g ws, build d = .ok (g, ws)) ∧ ∀ e, ¬ BuildFault d e) ∨
      ∃ e, build d = .error e ∧ BuildFault d e ∧ (e.failureClass = .value ∨
        ∃ q ∈ numberedRecords d, ∃ num, GivesNumber q.1 num ∧ Misnumbered num e.failureClass) := by
  cases hbuild : build d with
  | ok built => exact Or.inl ⟨⟨built.1, built.2, rfl⟩, fun e => build_ok_faultless hbuild⟩
  | error e => exact Or.inr ⟨e, rfl, build_error hbuild, (build_error hbuild).class⟩

/-- A document of one element, whose tag is given a number. -/
def tagNumbered (num : Document) : Document :=
  .object [("id", .string "g"), ("properties", .object [(tagsProperty, .list
    [.object [("tag", .string "a"), ("num", num)]])])]

/-- The error that is found in a failed building is its error. -/
theorem build_eq_error (h : (match build d with | .ok _ => none | .error e => some e) = some e) :
    build d = .error e := by
  cases hbuild : build d with
  | ok built =>
      rw [hbuild] at h
      cases h
  | error e' =>
      rw [hbuild] at h
      rw [Option.some.inj h]

/-- A list as the number of a tag is an error of the class of types, and a whole number that is too
large an overflow. -/
theorem build_misnumbered :
    build (tagNumbered (.list [])) = .error (.tags (.number (.wrongType "list"))) ∧
      (BuildError.tags (.number (.wrongType "list"))).failureClass = .type ∧
      build (tagNumbered (.number (.int (10 ^ 309)))) = .error (.tags (.number .tooLarge)) ∧
      (BuildError.tags (.number .tooLarge)).failureClass = .overflow := by
  refine ⟨build_eq_error ?_, rfl, build_eq_error ?_, rfl⟩
  · decide +kernel
  · decide +kernel

end DiagramFilter.Diagram
