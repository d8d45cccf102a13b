import DiagramFilter.Diagram.Tags

/-!
# Diagrams from documents

A diagram document is a nested record: an object with an identity, a type, properties and
children.  Edges name their ends by identity, so a diagram is built in two passes.  The first
makes the elements: it takes a record from a stack, makes the elements of its children and puts
their records in its place.  The second wires the edges in the order in which they were taken.
-/

namespace DiagramFilter

/-- The reasons for which a document is no diagram. -/
inductive BuildError where
  | notObject
  | emptyFile (path : String)
  | unknownType (id typeName : String)
  | propertiesNotObject (id : String)
  | tags (error : TagError)
  | duplicateId (id : String)
  | childrenNotList (id : String)
  | childNotObject (id : String)
deriving DecidableEq

namespace BuildError

/-- The beginning of a message about an element. -/
private def about (id : String) : String :=
  "Element '" ++ id ++ "': "

/-- The text of such a reason. -/
def message : BuildError → String
  | notObject => "Graph data must be a mapping"
  | emptyFile path => path ++ ": graph file is empty"
  | unknownType id typeName =>
    about id ++ "unknown type '" ++ typeName ++ "', must start with one of [" ++
      ", ".intercalate (ElementKind.sortedWords.map Text.quoted) ++ "]"
  | propertiesNotObject id => about id ++ "'properties' must be a mapping"
  | tags error => error.message
  | duplicateId id => "Duplicate element id '" ++ id ++ "'"
  | childrenNotList id => about id ++ "'children' must be a list"
  | childNotObject id => about id ++ "every child must be a mapping"

/-- The class of such a reason. -/
def failureClass : BuildError → FailureClass
  | tags error => error.failureClass
  | _ => .value

end BuildError

/-- An edge stays without ends because one of its references names no element. -/
structure DanglingEdge where
  id : String
  source : Document
  target : Document

/-- The warning about such an edge. -/
def DanglingEdge.message (w : DanglingEdge) : String :=
  "Edge '" ++ w.id ++ "' references unknown element (source=" ++ w.source.quoted ++ ", target=" ++
    w.target.quoted ++ "), left unconnected"

namespace Diagram

/-- The identity of the record that is made into the element at a handle. -/
def recordId (record : Document) (h : Handle) : String :=
  match record.value? "id" with
  | some id => id.display
  | none => "<anonymous-" ++ toString h ++ ">"

/-- The type of a record, that of a node if it has none. -/
def recordType (record : Document) : String :=
  ((record.field? "type").map Document.display).getD "node"

/-- The kind that a type names by its part before the first colon. -/
def kindOfType? (typeName : String) : Option ElementKind :=
  ElementKind.ofWord? (String.ofList (typeName.toList.takeWhile (· ≠ ':')))

/-- The element of a record, not yet linked to others. -/
def elementOf (record : Document) (h : Handle) : Except BuildError Element :=
  let id := recordId record h
  let typeName := recordType record
  match kindOfType? typeName with
  | none => .error (.unknownType id typeName)
  | some kind =>
    match record.value? "properties" with
    | none => .ok { id, kind, tags := none }
    | some (.object properties) => do
      let tags ← (Tag.ofProperties (.object properties)).mapError .tags
      return { id, kind, tags := some tags, properties }
    | some _ => .error (.propertiesNotObject id)

/-- The records of the children.  Whatever counts as nothing counts as no children. -/
def childRecords? (record : Document) : Option (List Document) :=
  match record.field? "children" with
  | none => some []
  | some (.list records) => some records
  | some d => if d.isVoid then some [] else none

/-- Makes the elements of child records and links them to their parent. -/
def addChildren (g : Diagram) (parent : Handle) : List Document → Except BuildError Diagram
  | [] => .ok g
  | record@(.object _) :: records => do
    let e ← elementOf record g.next
    addChildren ((g.add e).addChild parent g.next) parent records
  | _ :: _ => .error (.childNotObject (g.element parent).id)

/-- The state of the first pass. -/
structure Progress where
  diagram : Diagram
  /-- The identities of the records taken so far. -/
  seen : List String
  /-- The records of edges taken so far, the last one first. -/
  edges : List (Document × Handle)

/-- The records of the children are smaller than the record itself. -/
theorem childRecords?_size {record : Document} {records : List Document}
    (h : childRecords? record = some records) : Document.sizeItems records < record.size := by
  have positive : 0 < record.size := by cases record <;> simp only [Document.size] <;> omega
  unfold childRecords? at h
  split at h
  · simp only [Option.some.injEq] at h
    subst h
    simpa [Document.sizeItems] using positive
  · rename_i hfield
    simp only [Option.some.injEq] at h
    subst h
    have smaller := Document.size_lt_of_field? hfield
    simp only [Document.size] at smaller
    omega
  · split at h
    · simp only [Option.some.injEq] at h
      subst h
      simpa [Document.sizeItems] using positive
    · simp at h

/-- Takes records from a stack until it is empty. -/
def takeRecords (p : Progress) (stack : List (Document × Handle)) : Except BuildError Progress :=
  match stack with
  | [] => .ok p
  | (record, h) :: stack =>
    let e := p.diagram.element h
    if p.seen.contains e.id then .error (.duplicateId e.id)
    else
      match _ : childRecords? record with
      | none => .error (.childrenNotList e.id)
      | some records =>
        match addChildren p.diagram h records with
        | .error error => .error error
        | .ok g =>
          let edges := if e.kind = .edge then (record, h) :: p.edges else p.edges
          takeRecords ⟨g, e.id :: p.seen, edges⟩ (records.zipIdx p.diagram.next ++ stack)
termination_by Document.sizeItems (stack.map Prod.fst)
decreasing_by
  have smaller := childRecords?_size ‹_›
  simp only [List.map_append, List.map_cons, List.zipIdx_map_fst, Document.sizeItems_append,
    Document.sizeItems]
  omega

/-- The element of an identity. -/
def ofId? (g : Diagram) (id : String) : Option Handle :=
  g.elements.findIdx? fun e => e.id == id

/-- The element that a reference of a record names.  Without the reference it names the empty
identity. -/
def endOf? (g : Diagram) (record : Document) (key : String) : Option Handle :=
  g.ofId? (((record.field? key).map Document.display).getD "")

/-- Wires one edge, if both its references name elements. -/
def wire (state : Diagram × List DanglingEdge) (edge : Document × Handle) :
    Diagram × List DanglingEdge :=
  let (g, warnings) := state
  let (record, h) := edge
  match g.endOf? record "sourceId", g.endOf? record "targetId" with
  | some source, some target =>
    match g.connect h source target with
    | .ok g => (g, warnings)
    | .error _ => (g, warnings)
  | _, _ =>
    let reference key := (record.field? key).getD .null
    (g, warnings ++ [⟨(g.element h).id, reference "sourceId", reference "targetId"⟩])

/-- The handle of the outermost element of a built diagram. -/
def root : Handle := 0

/-- The diagram of a document, with a warning for each edge that stays without ends. -/
def build (d : Document) : Except BuildError (Diagram × List DanglingEdge) :=
  match d with
  | .object _ => do
    let e ← elementOf d root
    let p ← takeRecords ⟨Diagram.add ⟨#[]⟩ e, [], []⟩ [(d, root)]
    return p.edges.reverse.foldl wire (p.diagram, [])
  | _ => .error .notObject

/-- The diagram of the document in a file. -/
def buildFile (path : String) (d : Document) : Except BuildError (Diagram × List DanglingEdge) :=
  match d with
  | .null => .error (.emptyFile path)
  | d => build d

end Diagram

end DiagramFilter
