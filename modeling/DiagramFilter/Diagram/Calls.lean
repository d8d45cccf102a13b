import DiagramFilter.Diagram.Tags

/-!
# Diagrams built by hand

A diagram can be built call by call: elements are made, put below others as their children, and
edges are connected to their ends.  The calls work on one diagram in place, so a call that fails
leaves behind whatever it has done until then.
-/

namespace DiagramFilter

/-- A tag given by hand: a tag as such, or what one is made of. -/
inductive GivenTag where
  | finished (tag : Tag)
  | parts (d : Document)

/-- The tag that is given. -/
def GivenTag.tag : GivenTag → Except TagError Tag
  | finished tag => .ok tag
  | parts d => Tag.ofPair d

/-- A new element, linked to nothing. -/
def Element.make (id : String) (kind : ElementKind) :
    Option (List GivenTag) → Except TagError Element
  | none => .ok { id, kind, tags := none }
  | some given => do
    let tags ← given.mapM GivenTag.tag
    return { id, kind, tags := some tags }

/-- The reasons for which a call fails. -/
inductive CallError where
  /-- A tag of a new element is none. -/
  | tag (error : TagError)
  /-- What is to be connected is no edge. -/
  | connect (error : ConnectError)
deriving DecidableEq

namespace CallError

/-- The text of such a reason. -/
def message : CallError → String
  | tag error => error.message
  | connect error => error.message

/-- The class of such a reason. -/
def failureClass : CallError → FailureClass
  | tag error => error.failureClass
  | connect _ => .value

end CallError

/-- A call by which a diagram is built. -/
inductive Call where
  /-- Makes an element. -/
  | make (id : String) (kind : ElementKind) (tags : Option (List GivenTag))
  /-- Puts an element below another one. -/
  | addChild (parent child : Handle)
  /-- Connects an edge to its ends. -/
  | connect (edge source target : Handle)

namespace Call

/-- Work on a diagram.  It ends with a result or an error, and either way it leaves a diagram
behind. -/
abbrev Work (α : Type) := ExceptT CallError (StateM Diagram) α

/-- What a call does, with the element that it gives back, if any. -/
def perform : Call → Work (Option Handle)
  | make id kind tags => do
    let e ← ofExcept ((Element.make id kind tags).mapError .tag)
    let h := (← get).next
    modify (·.add e)
    return some h
  | addChild parent child => do
    modify (·.addChild parent child)
    return some child
  | connect edge source target => do
    let e := (← get).element edge
    unless e.kind = .edge do throw (.connect ⟨e.id, e.kind⟩)
    modify (·.update edge fun e => { e with source := some source })
    modify (·.update edge fun e => { e with target := some target })
    modify (·.update source fun e => { e with outgoing := e.outgoing ++ [edge] })
    modify (·.update target fun e => { e with incoming := e.incoming ++ [edge] })
    return none

/-- The result of a call or its error, and the diagram after it. -/
def runOn (call : Call) (g : Diagram) : Except CallError (Option Handle) × Diagram :=
  (ExceptT.run call.perform).run g

end Call

end DiagramFilter
