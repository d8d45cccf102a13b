import DiagramFilter.Diagram.Basic

/-!
# Reserved tags

A reserved tag has its value from the structure of the diagram instead of a stored tag.  Truth
values and numbers are reserved apart from each other, so one name may be reserved as either or
both.  A stored tag of the name always comes first; that rule belongs to evaluation.

The function of a reserved tag may give any document.  As a truth value it holds unless it counts
as nothing; as a number it is read as a double, which fails for what is none.
-/

namespace DiagramFilter

/-- What a reserved tag is for the elements of diagrams. -/
abbrev Reserved := Diagram → Handle → Document

/-- The reserved truth values and the reserved numbers, each under its name.  The first entry of
a name counts. -/
structure Registry where
  boolean : List (String × Reserved) := []
  numeric : List (String × Reserved) := []

namespace Registry

/-- Whether a name is reserved in either way. -/
def isReserved (r : Registry) (name : String) : Bool :=
  (r.boolean.lookup name).isSome || (r.numeric.lookup name).isSome

/-- What stands for the reserved truth value of a name for an element, if there is one. -/
def boolean? (r : Registry) (g : Diagram) (name : String) (h : Handle) : Option Document :=
  (r.boolean.lookup name).map fun f => f g h

/-- Whether the reserved truth value of a name is there and holds for an element. -/
def holds (r : Registry) (g : Diagram) (name : String) (h : Handle) : Bool :=
  ((r.boolean? g name h).map fun d => !d.isVoid).getD false

/-- The reserved number of a name for an element, if there is one. -/
def numeric? (r : Registry) (g : Diagram) (name : String) (h : Handle) :
    Option (Except Document.NumberError Float) :=
  (r.numeric.lookup name).map fun f => (f g h).toFloat

/-- The registry with additional entries, which come before those of the same names. -/
def extend (r extension : Registry) : Registry :=
  ⟨extension.boolean ++ r.boolean, extension.numeric ++ r.numeric⟩

/-- The number of children, with and without tags. -/
def childCount (g : Diagram) (h : Handle) : Nat :=
  (g.element h).children.length

/-- The number of adjacent elements, with and without tags. -/
def adjacentCount (g : Diagram) (h : Handle) : Nat :=
  (g.adjacents h).length

/-- The number of incoming edges. -/
def incomingCount (g : Diagram) (h : Handle) : Nat :=
  (g.element h).incoming.length

/-- The number of outgoing edges. -/
def outgoingCount (g : Diagram) (h : Handle) : Nat :=
  (g.element h).outgoing.length

/-- Whether an element is of a kind. -/
def isKind (kind : ElementKind) (g : Diagram) (h : Handle) : Bool :=
  (g.element h).kind = kind

/-- The reserved truth value of a test. -/
def ofTest (test : Diagram → Handle → Bool) : Reserved :=
  fun g h => .bool (test g h)

/-- The reserved number of a count. -/
def ofCount (count : Diagram → Handle → Nat) : Reserved :=
  fun g h => .number (.float (Double.ofNat (count g h)))

/-- The usual reserved tags: the kinds of elements, and the numbers of links with whether there
are any. -/
def usual : Registry where
  boolean :=
    [("isNode", ofTest (isKind .node)), ("isEdge", ofTest (isKind .edge)),
     ("isPort", ofTest (isKind .port)), ("isLabel", ofTest (isKind .label)),
     ("children", ofTest fun g h => 0 < childCount g h),
     ("adjacents", ofTest fun g h => 0 < adjacentCount g h),
     ("incoming", ofTest fun g h => 0 < incomingCount g h),
     ("outgoing", ofTest fun g h => 0 < outgoingCount g h)]
  numeric :=
    [("children", ofCount childCount), ("adjacents", ofCount adjacentCount),
     ("incoming", ofCount incomingCount), ("outgoing", ofCount outgoingCount)]

end Registry

end DiagramFilter
