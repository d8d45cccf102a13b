import DiagramFilter.Proofs.Building.Mirror

/-!
# The first pass mirrors the document

The first pass works through a stack of records whose elements are there already but have no
children yet (`Ready`).  `Takes` says what it leaves behind; the induction is on the pass, and what
carries it is that an element whose record is not on the stack is never changed again.
-/

namespace DiagramFilter.Diagram

/-- The elements of the records on a stack are there, each once, without children so far. -/
structure Ready (g : Diagram) (stack : List (Document × Handle)) : Prop where
  bound : ∀ p ∈ stack, p.2 < g.size
  nodup : (stack.map Prod.snd).Nodup
  childless : ∀ p ∈ stack, (g.element p.2).children = []
  own : ∀ p ∈ stack, Describes p.1 p.2 (g.element p.2)

/-- What the first pass makes of a stack: it has visited the records on the stack and all below, and
with them the elements on the stack and all new ones. -/
structure Takes (p : Progress) (stack visited : List (Document × Handle)) (p' : Progress) :
    Prop where
  mirrors : Mirrors p'.diagram stack visited
  size : p.diagram.size ≤ p'.diagram.size
  perm : (visited.map Prod.snd).Perm
    (stack.map Prod.snd ++ List.range' p.diagram.size (p'.diagram.size - p.diagram.size))
  /-- Elements whose records are not on the stack are left alone. -/
  others : ∀ h < p.diagram.size, h ∉ stack.map Prod.snd →
    p'.diagram.element h = p.diagram.element h
  /-- Elements whose records are on the stack get children at most. -/
  onStack : ∀ h < p.diagram.size,
    (p'.diagram.element h).childless = (p.diagram.element h).childless
  unwired : (∀ h, (p.diagram.element h).unwired = p.diagram.element h) →
    ∀ h, (p'.diagram.element h).unwired = p'.diagram.element h
  seen : p'.seen = (visited.map fun q => (p'.diagram.element q.2).id).reverse ++ p.seen
  nodup : p.seen.Nodup → p'.seen.Nodup
  edges : p'.edges =
    (visited.filter fun q => (p'.diagram.element q.2).kind = .edge).reverse ++ p.edges

/-- Once a record is taken, the elements of its children are ready, and the rest still is. -/
theorem Ready.next {g g' : Diagram} {record : Document} {h : Handle} {records : List Document}
    {stack : List (Document × Handle)} (hready : Ready g ((record, h) :: stack))
    (hadds : Adds g h records g') : Ready g' (records.zipIdx g.size ++ stack) := by
  obtain ⟨hnotin, hnodup⟩ := List.nodup_cons.mp hready.nodup
  have hbound : ∀ q ∈ stack, q.2 < g.size := fun q hq => hready.bound q (List.mem_cons_of_mem _ hq)
  have hold : ∀ q ∈ stack, g'.element q.2 = g.element q.2 := fun q hq =>
    hadds.others q.2 (hbound q hq) fun heq =>
      hnotin (List.mem_map.mpr ⟨q, hq, heq⟩)
  have hnew : ∀ q ∈ records.zipIdx g.size, ∃ e, elementOf q.1 q.2 = .ok e ∧ e.unlinked = e ∧
      g'.element q.2 = { e with parent := some h } := by
    intro q hq
    obtain ⟨e, he, hmade⟩ := hadds.made q hq
    exact ⟨e, he, (elementOf_describes he).2, hmade⟩
  constructor
  case bound =>
    intro q hq
    rw [hadds.size]
    rcases List.mem_append.mp hq with hq | hq
    · rw [Nat.add_comm]
      exact List.snd_lt_of_mem_zipIdx hq
    · exact Nat.lt_add_right _ (hbound q hq)
  case nodup =>
    rw [List.map_append, List.zipIdx_map_snd]
    refine (List.nodup_range').append hnodup fun k hk hstack => ?_
    obtain ⟨q, hq, rfl⟩ := List.mem_map.mp hstack
    exact Nat.not_lt.mpr (List.mem_range'_1.mp hk).1 (hbound q hq)
  case childless =>
    intro q hq
    rcases List.mem_append.mp hq with hq | hq
    · obtain ⟨e, -, hunlinked, hmade⟩ := hnew q hq
      rw [hmade, ← hunlinked]
      rfl
    · rw [hold q hq, hready.childless q (List.mem_cons_of_mem _ hq)]
  case own =>
    intro q hq
    rcases List.mem_append.mp hq with hq | hq
    · obtain ⟨e, he, -, hmade⟩ := hnew q hq
      rw [hmade]
      exact (elementOf_describes he).1.congr rfl
    · rw [hold q hq]
      exact hready.own q (List.mem_cons_of_mem _ hq)

/-- Taking one record: what the pass makes of the children's records and the rest of the stack, it
makes of the record and the rest. -/
theorem Takes.next {p p' : Progress} {record : Document} {k : Handle} {records : List Document}
    {stack visited : List (Document × Handle)} {g : Diagram} {edges : List (Document × Handle)}
    (hready : Ready p.diagram ((record, k) :: stack))
    (hseen : (p.diagram.element k).id ∉ p.seen) (hrecords : childRecords? record = some records)
    (hadds : Adds p.diagram k records g)
    (hedges : edges =
      if (p.diagram.element k).kind = .edge then (record, k) :: p.edges else p.edges)
    (ht : Takes ⟨g, (p.diagram.element k).id :: p.seen, edges⟩
      (records.zipIdx p.diagram.size ++ stack) visited p') :
    ∃ visited', Takes p ((record, k) :: stack) visited' p' := by
  have hk : k < p.diagram.size := hready.bound (record, k) List.mem_cons_self
  have hgrows : p.diagram.size ≤ g.size := by
    rw [hadds.size]
    exact Nat.le_add_right _ _
  obtain ⟨below, after, rfl, hbelow, hafter⟩ := ht.mirrors.exists_append
  have hstack : (records.zipIdx p.diagram.size ++ stack).map Prod.snd =
      List.range' p.diagram.size records.length ++ stack.map Prod.snd := by
    rw [List.map_append, List.zipIdx_map_snd]
  have hnotin : ∀ k' < p.diagram.size, k' ∉ stack.map Prod.snd →
      k' ∉ (records.zipIdx p.diagram.size ++ stack).map Prod.snd := by
    intro k' hk' hnot hmem
    rw [hstack, List.mem_append, List.mem_range'_1] at hmem
    exact hmem.elim (fun hnew => Nat.not_lt.mpr hnew.1 hk') hnot
  -- The record is done with: its element stays as it is now.
  have hown : p'.diagram.element k = { p.diagram.element k with
      children := List.range' p.diagram.size records.length } := by
    rw [ht.others k (Nat.lt_of_lt_of_le hk hgrows)
      (hnotin k hk (List.nodup_cons.mp hready.nodup).1), hadds.parent,
      hready.childless (record, k) List.mem_cons_self, List.nil_append]
  have hparent : ∀ c ∈ List.range' p.diagram.size records.length,
      (p'.diagram.element c).parent = some k := by
    intro c hc
    obtain ⟨r, ec, -, hmade⟩ := hadds.exists_record hc
    have hsame := ht.onStack c (by
      rw [hadds.size]
      exact (List.mem_range'_1.mp hc).2)
    rw [hmade] at hsame
    exact (congrArg Element.parent hsame :)
  refine ⟨(record, k) :: (below ++ after), ?_⟩
  constructor
  case mirrors =>
    refine .cons ?_ hrecords ?_ ?_ ?_ hafter
    · rw [hown]
      exact (hready.own (record, k) List.mem_cons_self).congr rfl
    · rw [hown, List.length_range']
    · rwa [hown]
    · rw [hown, ← List.zipIdx_eq_zip_range']
      exact hbelow
  case size => exact hgrows.trans ht.size
  case perm =>
    rw [List.map_cons, List.map_cons, List.cons_append, hadds.range'_size ht.size,
      ← List.append_assoc]
    refine List.Perm.cons k (ht.perm.trans (List.Perm.append_right _ ?_))
    rw [hstack]
    exact List.perm_append_comm
  case others =>
    intro k' hk' hnot
    obtain ⟨hne, hnot⟩ := not_or.mp (mt List.mem_cons.mpr hnot)
    rw [ht.others k' (Nat.lt_of_lt_of_le hk' hgrows) (hnotin k' hk' hnot),
      hadds.others k' hk' hne]
  case onStack =>
    intro k' hk'
    rw [ht.onStack k' (Nat.lt_of_lt_of_le hk' hgrows), hadds.childless hk']
  case unwired => exact fun hp => ht.unwired (hadds.unwired hp)
  case seen =>
    rw [ht.seen, List.map_cons, List.reverse_cons, List.append_assoc, hown]
    rfl
  case nodup =>
    exact fun hp => ht.nodup (List.nodup_cons.mpr ⟨hseen, hp⟩)
  case edges =>
    rw [ht.edges, List.filter_cons, hown, hedges]
    by_cases hkind : (p.diagram.element k).kind = .edge <;> simp [hkind]

/-- **The first pass makes a mirror of the records on its stack.** -/
theorem takeRecords_takes {p p' : Progress} {stack : List (Document × Handle)}
    (hready : Ready p.diagram stack) (h : takeRecords p stack = .ok p') :
    ∃ visited, Takes p stack visited p' := by
  fun_induction takeRecords p stack with
  | case1 p =>
      cases h
      refine ⟨[], .nil, Nat.le_refl _, ?_, fun _ _ _ => rfl, fun _ _ => rfl, id, ?_, id, ?_⟩
      all_goals simp
  | case2 => cases h
  | case3 => cases h
  | case4 => cases h
  | case5 p record k stack e hseen records hrecords g hg edges ih =>
      have hadds : Adds p.diagram k records g :=
        addChildren_adds (hready.bound (record, k) List.mem_cons_self) hg
      obtain ⟨visited, ht⟩ := ih (hready.next hadds) h
      exact ht.next hready (by simpa using hseen) hrecords hadds rfl

/-- The element of a document stands alone before the first pass. -/
theorem ready_root {d : Document} {e : Element} (he : elementOf d root = .ok e) :
    Ready (Diagram.add ⟨#[]⟩ e) [(d, root)] := by
  obtain ⟨hown, hunlinked⟩ := elementOf_describes he
  have hroot : (Diagram.add ⟨#[]⟩ e).element root = e := element_add_next
  constructor
  case bound => simp [size_add, root]
  case nodup => simp
  case childless =>
    simp only [List.mem_singleton, forall_eq, hroot]
    rw [← hunlinked]
    rfl
  case own =>
    simp only [List.mem_singleton, forall_eq, hroot]
    exact hown

/-- **The first pass makes the tree of the document**, without wires, and keeps the records of the
edges with them. -/
theorem takeRecords_root {d : Document} {e : Element} {p : Progress}
    (he : elementOf d root = .ok e)
    (h : takeRecords ⟨Diagram.add ⟨#[]⟩ e, [], []⟩ [(d, root)] = .ok p) :
    TreeOf d p.diagram ∧ (∀ h, (p.diagram.element h).unwired = p.diagram.element h) ∧
      p.edges.reverse =
        (pairs d p.diagram).filter fun q => (p.diagram.element q.2).kind = .edge := by
  have hunlinked : e.unlinked = e := (elementOf_describes he).2
  have hroot : (Diagram.add ⟨#[]⟩ e).element root = e := element_add_next
  have hsize : (Diagram.add ⟨#[]⟩ e).size = 1 := size_add
  obtain ⟨visited, ht⟩ := takeRecords_takes (ready_root he) h
  have hperm : (visited.map Prod.snd).Perm (List.range p.diagram.size) := by
    have hle : 1 ≤ p.diagram.size := hsize ▸ ht.size
    have hrange : List.range p.diagram.size = root :: List.range' 1 (p.diagram.size - 1) := by
      obtain ⟨n, hn⟩ := Nat.exists_eq_add_of_le' hle
      rw [hn, List.range_eq_range', List.range'_succ]
      rfl
    rw [hrange, ← hsize]
    exact ht.perm
  have horphan : (p.diagram.element root).parent = none := by
    have hsame := ht.onStack root (hsize.symm ▸ Nat.zero_lt_one)
    rw [hroot, ← hunlinked] at hsame
    exact (congrArg Element.parent hsame :)
  have hseen : p.seen = ((visited.map Prod.snd).map fun h => (p.diagram.element h).id).reverse := by
    rw [ht.seen, List.append_nil, List.map_map]
    rfl
  have hdistinct : ((visited.map Prod.snd).map fun h => (p.diagram.element h).id).Nodup := by
    rw [← List.nodup_reverse, ← hseen]
    exact ht.nodup List.nodup_nil
  obtain ⟨hvisited, htree⟩ := TreeOf.of_mirrors ht.mirrors hperm horphan hdistinct
  refine ⟨htree, ht.unwired fun k => ?_, ?_⟩
  · rcases Nat.eq_zero_or_pos k with rfl | hk
    · rw [show (0 : Handle) = root from rfl, hroot, ← hunlinked]
      rfl
    · rw [element_of_size_le (hsize.symm ▸ hk)]
      rfl
  · rw [ht.edges, List.append_nil, List.reverse_reverse, hvisited]

end DiagramFilter.Diagram
