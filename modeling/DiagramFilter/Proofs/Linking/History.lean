import DiagramFilter.Diagram.Calls
import DiagramFilter.Outcome
import DiagramFilter.Proofs.Building.Store
import DiagramFilter.Proofs.Linking.Holders

/-!
# The calls behind the links

The links of a diagram that was built by hand can be read off the calls alone.  `recorded` says how,
and `History` that a diagram holds what its calls have recorded; one call keeps this
(`History.step`), and so does a row of calls (`History.run`).

A call is taken apart once, in `runOn_make`, `runOn_addChild` and `runOn_connect`.  The third finds
that connecting in place does what `Diagram.connect` does, and nothing at all if that fails.
-/

namespace DiagramFilter

/-- The links of an element to others. -/
structure Links where
  parent : Option Handle
  children : List Handle
  source : Option Handle
  target : Option Handle
  incoming : List Handle
  outgoing : List Handle

/-- The links of an element. -/
def Element.links (e : Element) : Links :=
  ⟨e.parent, e.children, e.source, e.target, e.incoming, e.outgoing⟩

namespace Call

open Diagram (size_add element_add_next element_add_of_lt element_of_size_le size_addChild
  element_addChild connect_eq_ok)

variable {g g' : Diagram} {call : Call} {calls done : List Call} {h : Handle}

/-- The elements that a call is about. -/
def handles : Call → List Handle
  | make .. => []
  | addChild parent child => [parent, child]
  | connect edge source target => [edge, source, target]

/-- The diagram after a call. -/
def after (call : Call) (g : Diagram) : Diagram :=
  (call.runOn g).2

/-- A new element is linked to nothing. -/
theorem make_unlinked {id : String} {kind : ElementKind} {tags : Option (List GivenTag)}
    {e : Element} (h : Element.make id kind tags = .ok e) : e.unlinked = e := by
  cases tags with
  | none =>
      cases h
      rfl
  | some given =>
      obtain ⟨tags, -, h⟩ := bind_eq_ok.mp h
      cases h
      rfl

/-- A new element comes behind the others, if its tags are ones. -/
theorem runOn_make (id : String) (kind : ElementKind) (tags : Option (List GivenTag))
    (g : Diagram) : (make id kind tags).runOn g =
      match Element.make id kind tags with
      | .ok e => (.ok (some g.next), g.add e)
      | .error error => (.error (.tag error), g) := by
  unfold runOn
  simp only [perform]
  cases Element.make id kind tags with
  | ok e => rfl
  | error error => rfl

/-- A call that adds a child gives the child back. -/
theorem runOn_addChild (parent child : Handle) (g : Diagram) :
    (addChild parent child).runOn g = (.ok (some child), g.addChild parent child) := rfl

/-- Both ends of an edge may as well be set at once. -/
theorem update_ends (g : Diagram) (edge source target : Handle) :
    ((g.update edge fun e => { e with source := some source }).update edge
      fun e => { e with target := some target }) =
      g.update edge fun e => { e with source := some source, target := some target } := by
  unfold Diagram.update
  congr 1
  apply Array.ext
  · simp
  · intro i hi hi'
    by_cases h : edge = i <;> simp [Array.getElem_modify, h]

/-- Work that begins with a look at the diagram. -/
theorem run_get_bind {α : Type} (next : Diagram → Work α) (g : Diagram) :
    (ExceptT.run (get >>= next)).run g = (ExceptT.run (next g)).run g := rfl

/-- An edge is connected as a whole; what is no edge stays as it is. -/
theorem runOn_connect (edge source target : Handle) (g : Diagram) :
    (connect edge source target).runOn g =
      match g.connect edge source target with
      | .ok g' => (.ok none, g')
      | .error error => (.error (.connect error), g) := by
  rw [runOn, perform, run_get_bind, Diagram.connect]
  dsimp only
  by_cases hkind : (g.element edge).kind = .edge
  · rw [if_pos hkind, if_pos hkind, ← update_ends]
    rfl
  · rw [if_neg hkind, if_neg hkind]
    rfl

/-- A call that fails changes nothing. -/
theorem after_of_error {error : CallError} (herror : (call.runOn g).1 = .error error) :
    call.after g = g := by
  cases call with
  | make id kind tags =>
      rw [after, runOn_make] at *
      cases hmake : Element.make id kind tags with
      | ok e =>
          rw [hmake] at herror
          cases herror
      | error error => rfl
  | addChild parent child => cases herror
  | connect edge source target =>
      rw [after, runOn_connect] at *
      cases hconnect : g.connect edge source target with
      | ok g' =>
          rw [hconnect] at herror
          cases herror
      | error error => rfl

/-- The diagram after a row of calls. -/
def afterAll (g : Diagram) (calls : List Call) : Diagram :=
  calls.foldl (fun g call => call.after g) g

/-- The calls of a row are about elements that are there when the calls are made. -/
def Possible (g : Diagram) : List Call → Prop
  | [] => True
  | call :: calls => (∀ h ∈ call.handles, h < g.size) ∧ Possible (call.after g) calls

instance decidablePossible (g : Diagram) : (calls : List Call) → Decidable (Possible g calls)
  | [] => inferInstanceAs (Decidable True)
  | call :: calls =>
    have := decidablePossible (call.after g) calls
    inferInstanceAs (Decidable (_ ∧ _))

/-- The link from a parent to its child that a call asks for. -/
def childLink? : Call → Option (Handle × Handle)
  | addChild parent child => some (parent, child)
  | _ => none

/-- The link from one of its ends to an edge that a call asks for, if the edge is one. -/
def endLink? (g : Diagram) (pick : Handle × Handle → Handle) : Call → Option (Handle × Handle)
  | connect edge source target =>
    if (g.element edge).kind = .edge then some (pick (source, target), edge) else none
  | _ => none

/-- The links from parents to children, in the order of the calls. -/
def childLinks (calls : List Call) : List (Handle × Handle) :=
  calls.filterMap childLink?

/-- The links from ends to edges, in the order of the calls. -/
def endLinks (g : Diagram) (pick : Handle × Handle → Handle) (calls : List Call) :
    List (Handle × Handle) :=
  calls.filterMap (endLink? g pick)

/-- The links of an element that calls record: those to which it is a member come from the last
call, the lists have an entry for each. -/
def recorded (g : Diagram) (calls : List Call) (h : Handle) : Links where
  parent := lastHolder? (childLinks calls) h
  children := membersOf (childLinks calls) h
  source := lastHolder? (endLinks g Prod.fst calls) h
  target := lastHolder? (endLinks g Prod.snd calls) h
  incoming := membersOf (endLinks g Prod.snd calls) h
  outgoing := membersOf (endLinks g Prod.fst calls) h

/-- A diagram holds what its calls have recorded. -/
structure History (g : Diagram) (calls : List Call) : Prop where
  bound : ∀ call ∈ calls, ∀ h ∈ call.handles, h < g.size
  links : ∀ h, (g.element h).links = recorded g calls h

/-- What calls record depends on the diagram by the kinds of its elements only. -/
theorem recorded_congr
    (hkind : ∀ call ∈ calls, ∀ h ∈ call.handles, (g'.element h).kind = (g.element h).kind) :
    recorded g' calls = recorded g calls := by
  have hends : ∀ pick, endLinks g' pick calls = endLinks g pick calls := by
    intro pick
    apply List.filterMap_congr
    intro call hcall
    cases call with
    | connect edge source target =>
        have hedge := hkind _ hcall edge List.mem_cons_self
        simp only [endLink?, hedge]
    | make id kind tags => rfl
    | addChild parent child => rfl
  funext h
  simp only [recorded, hends]

/-- A call that asks for no link records nothing. -/
theorem recorded_append_of_none (hchild : call.childLink? = none)
    (hends : ∀ pick, call.endLink? g pick = none) :
    recorded g (calls ++ [call]) = recorded g calls := by
  funext h
  simp [recorded, childLinks, endLinks, hchild, hends]

/-- What one more child records. -/
theorem recorded_append_child (g : Diagram) (calls : List Call) (parent child h : Handle) :
    recorded g (calls ++ [addChild parent child]) h =
      { recorded g calls h with
        parent := if h = child then some parent else (recorded g calls h).parent
        children := (recorded g calls h).children ++ if h = parent then [child] else [] } := by
  have hchild : childLinks (calls ++ [addChild parent child]) =
      childLinks calls ++ [(parent, child)] := by
    simp [childLinks, childLink?]
  have hends : ∀ pick, endLinks g pick (calls ++ [addChild parent child]) =
      endLinks g pick calls := by
    intro pick
    simp [endLinks, endLink?]
  simp only [recorded, hchild, hends, lastHolder?_append, membersOf_append]

/-- What one more connected edge records. -/
theorem recorded_append_edge {edge source target : Handle}
    (hkind : (g.element edge).kind = .edge) (calls : List Call) (h : Handle) :
    recorded g (calls ++ [connect edge source target]) h =
      { recorded g calls h with
        source := if h = edge then some source else (recorded g calls h).source
        target := if h = edge then some target else (recorded g calls h).target
        incoming := (recorded g calls h).incoming ++ if h = target then [edge] else []
        outgoing := (recorded g calls h).outgoing ++ if h = source then [edge] else [] } := by
  have hchild : childLinks (calls ++ [connect edge source target]) = childLinks calls := by
    simp [childLinks, childLink?]
  have hends : ∀ pick, endLinks g pick (calls ++ [connect edge source target]) =
      endLinks g pick calls ++ [(pick (source, target), edge)] := by
    intro pick
    simp [endLinks, endLink?, hkind]
  simp only [recorded, hchild, hends, lastHolder?_append, membersOf_append]

namespace History

/-- Handles stay good where the diagram does not shrink. -/
theorem bound_append (hh : History g done) (hpossible : ∀ h ∈ call.handles, h < g.size)
    (hsize : g.size ≤ g'.size) : ∀ c ∈ done ++ [call], ∀ h ∈ c.handles, h < g'.size := by
  intro c hc h hmem
  rcases List.mem_append.mp hc with hc | hc
  · exact Nat.lt_of_lt_of_le (hh.bound c hc h hmem) hsize
  · rw [List.mem_singleton.mp hc] at hmem
    exact Nat.lt_of_lt_of_le (hpossible h hmem) hsize

/-- A call that changes no link and asks for none. -/
theorem quiet (hh : History g done) (hpossible : ∀ h ∈ call.handles, h < g.size)
    (hsize : g.size ≤ g'.size) (hlinks : ∀ h, (g'.element h).links = (g.element h).links)
    (hkind : ∀ h < g.size, (g'.element h).kind = (g.element h).kind)
    (hchild : call.childLink? = none) (hends : ∀ pick, call.endLink? g pick = none) :
    History g' (done ++ [call]) := by
  have hbound := hh.bound_append hpossible (Nat.le_refl _)
  refine ⟨hh.bound_append hpossible hsize, fun h => ?_⟩
  rw [recorded_congr fun c hc k hk => hkind k (hbound c hc k hk),
    recorded_append_of_none hchild hends, hlinks h, hh.links h]

/-- **One more call keeps the history**, also one that fails. -/
theorem step (hh : History g done) (hpossible : ∀ h ∈ call.handles, h < g.size) :
    History (call.after g) (done ++ [call]) := by
  cases call with
  | make id kind tags =>
      rw [after, runOn_make]
      cases hmake : Element.make id kind tags with
      | error error =>
          exact hh.quiet hpossible (Nat.le_refl _) (fun _ => rfl) (fun _ _ => rfl) rfl fun _ => rfl
      | ok e =>
          -- What was absent has as few links as the new element that takes its place.
          have helement : ∀ h, ((g.add e).element h).links = (g.element h).links := by
            intro h
            rcases Nat.lt_trichotomy h g.size with hlt | rfl | hgt
            · rw [element_add_of_lt hlt]
            · rw [element_add_next, element_of_size_le (Nat.le_refl _), ← make_unlinked hmake]
              rfl
            · rw [element_of_size_le (Nat.le_of_lt hgt),
                element_of_size_le (by rw [size_add]; exact hgt)]
          refine hh.quiet hpossible ?_ helement (fun h hlt => ?_) rfl fun _ => rfl
          · rw [size_add]
            exact Nat.le_succ _
          · rw [element_add_of_lt hlt]
  | addChild parent child =>
      have hparent : parent < g.size := hpossible parent (by simp [handles])
      have hchild : child < g.size := hpossible child (by simp [handles])
      rw [after, runOn_addChild]
      refine ⟨hh.bound_append hpossible (Nat.le_of_eq size_addChild.symm), fun h => ?_⟩
      rw [recorded_congr fun c hc k hk => ?_, recorded_append_child, ← hh.links h,
        element_addChild hparent hchild]
      · rfl
      · rw [element_addChild hparent hchild]
  | connect edge source target =>
      have hedge : edge < g.size := hpossible edge (by simp [handles])
      have hsource : source < g.size := hpossible source (by simp [handles])
      have htarget : target < g.size := hpossible target (by simp [handles])
      rw [after, runOn_connect]
      by_cases hkind : (g.element edge).kind = .edge
      · obtain ⟨g', hconnect, hsize, helement⟩ := connect_eq_ok hkind hedge hsource htarget
        rw [hconnect]
        refine ⟨hh.bound_append hpossible (Nat.le_of_eq hsize.symm), fun h => ?_⟩
        rw [recorded_congr fun c hc k hk => ?_, recorded_append_edge hkind, ← hh.links h, helement]
        · rfl
        · rw [helement]
      · rw [Diagram.connect, if_neg hkind]
        exact hh.quiet hpossible (Nat.le_refl _) (fun _ => rfl) (fun _ _ => rfl) rfl fun pick =>
          if_neg hkind

/-- **A row of calls keeps the history.** -/
theorem run (hh : History g done) (hpossible : Possible g calls) :
    History (afterAll g calls) (done ++ calls) := by
  induction calls generalizing g done with
  | nil => rwa [List.append_nil]
  | cons call calls ih =>
      have hnext := ih (hh.step hpossible.1) hpossible.2
      rwa [List.append_assoc, List.singleton_append] at hnext

/-- The history of a diagram that began without elements. -/
theorem of_possible (hpossible : Possible ⟨#[]⟩ calls) :
    History (afterAll ⟨#[]⟩ calls) calls := by
  have hempty : History ⟨#[]⟩ [] := by
    refine ⟨by simp, fun h => ?_⟩
    rw [element_of_size_le (Nat.zero_le h)]
    rfl
  exact hempty.run hpossible

end History

end Call

end DiagramFilter
