import DiagramFilter.Document.Basic

/-!
# Diagrams

A diagram is a store of elements.  An element is known by its handle, its place in the store, and
two elements with one id stay two; all links between elements are handles.  Links are kept on
both sides: a child and its parent, an edge and its two ends.
-/

namespace DiagramFilter

/-- The kinds of elements. -/
inductive ElementKind where
  | graph | node | edge | port | label
deriving DecidableEq

namespace ElementKind

/-- All kinds of elements. -/
def all : List ElementKind := [graph, node, edge, port, label]

/-- The word for a kind. -/
def word : ElementKind → String
  | graph => "graph"
  | node => "node"
  | edge => "edge"
  | port => "port"
  | label => "label"

/-- The kind that a word names. -/
def ofWord? (word : String) : Option ElementKind :=
  all.find? fun kind => kind.word == word

/-- A document names no kind of elements. -/
structure Unknown where
  document : Document

/-- The text of such an error. -/
def Unknown.message (e : Unknown) : String :=
  e.document.quoted ++ " is not a valid ElementKind"

/-- The kind that a document names by its word, or an error. -/
def read (d : Document) : Except Unknown ElementKind :=
  match d with
  | .string word => (ofWord? word).elim (.error ⟨d⟩) .ok
  | _ => .error ⟨d⟩

/-- The words for the kinds in alphabetical order. -/
def sortedWords : List String :=
  ["edge", "graph", "label", "node", "port"]

end ElementKind

/-- A name attached to an element, with a number.  A name given by hand may be any value, but
only one that is a text can be asked for. -/
structure Tag where
  name : Document
  num : Float

/-- Whether a tag has a text as its name. -/
def Tag.isNamed (tag : Tag) (name : String) : Bool :=
  match tag.name with
  | .string own => own == name
  | _ => false

/-- The place of an element in the store of its diagram. -/
abbrev Handle := Nat

/-- An element.  One without a tag collection is no member of the lists of the rule language. -/
structure Element where
  id : String
  kind : ElementKind
  tags : Option (List Tag) := some []
  properties : List (String × Document) := []
  parent : Option Handle := none
  children : List Handle := []
  source : Option Handle := none
  target : Option Handle := none
  incoming : List Handle := []
  outgoing : List Handle := []

namespace Element

/-- An element with a tag collection, be it empty. -/
def isTaggable (e : Element) : Bool :=
  e.tags.isSome

/-- The first tag of a name. -/
def findTag? (e : Element) (name : String) : Option Tag :=
  (e.tags.getD []).find? fun tag => tag.isNamed name

/-- Whether an element has a tag of a name. -/
def hasTag (e : Element) (name : String) : Bool :=
  (e.findTag? name).isSome

/-- The element with one property set. -/
def setProperty (e : Element) (key : String) (value : Document) : Element :=
  { e with properties := Document.setField e.properties key value }

end Element

/-- What stands where no element is: a node without tags and links. -/
def Element.absent : Element :=
  { id := "", kind := .node, tags := none }

/-- A store of elements. -/
structure Diagram where
  elements : Array Element := #[]

/-- A link was asked of an element that is no edge. -/
structure ConnectError where
  id : String
  kind : ElementKind
deriving DecidableEq

/-- The text of such an error. -/
def ConnectError.message (e : ConnectError) : String :=
  "Only edges can be connected, '" ++ e.id ++ "' is a " ++ e.kind.word

namespace Diagram

/-- The number of elements. -/
def size (g : Diagram) : Nat :=
  g.elements.size

/-- The element at a handle. -/
def element (g : Diagram) (h : Handle) : Element :=
  g.elements[h]?.getD .absent

/-- The handle that the next element gets. -/
def next (g : Diagram) : Handle :=
  g.size

/-- The diagram with one more element, at the next handle. -/
def add (g : Diagram) (e : Element) : Diagram :=
  ⟨g.elements.push e⟩

/-- The diagram with one element changed. -/
def update (g : Diagram) (h : Handle) (change : Element → Element) : Diagram :=
  ⟨g.elements.modify h change⟩

/-- Appends a child to an element and points the child's parent back.  An earlier parent keeps
the child in its list. -/
def addChild (g : Diagram) (parent child : Handle) : Diagram :=
  (g.update child fun e => { e with parent := some parent }).update parent fun e =>
    { e with children := e.children ++ [child] }

/-- Sets the ends of an edge and enters it in the lists of both. -/
def connect (g : Diagram) (edge source target : Handle) : Except ConnectError Diagram :=
  let e := g.element edge
  if e.kind = .edge then
    let g := g.update edge fun e => { e with source := some source, target := some target }
    let g := g.update source fun e => { e with outgoing := e.outgoing ++ [edge] }
    .ok (g.update target fun e => { e with incoming := e.incoming ++ [edge] })
  else
    .error ⟨e.id, e.kind⟩

/-- The sources of the incoming edges, then the targets of the outgoing ones, each element where
it first appears. -/
def adjacents (g : Diagram) (h : Handle) : List Handle :=
  let e := g.element h
  ((e.incoming.map fun edge => (g.element edge).source) ++
    (e.outgoing.map fun edge => (g.element edge).target)).reduceOption.eraseDups

end Diagram

end DiagramFilter
