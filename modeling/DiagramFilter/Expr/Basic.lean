/-!
# Expressions

The expressions of the rule language.  A rule is a boolean expression about one element of a
diagram, the *current* element; quantifiers, comprehensions and focused expressions change which
element is current inside their bodies.

Trees need not come from text.  They may have operands of the wrong kind, unbound variables, a
list where a value is expected, or a leaf that is no expression at all.
-/

namespace DiagramFilter

/-- The kind of value that an expression has. -/
inductive Kind where
  | boolean
  | numeric
  | element
deriving DecidableEq

/-- The name of a kind in messages. -/
def Kind.word : Kind → String
  | boolean => "boolean"
  | numeric => "numeric"
  | element => "element"

/-- Comparison operators. -/
inductive CompareOp where
  | eq | ne | lt | le | gt | ge
deriving DecidableEq

namespace CompareOp

/-- All comparison operators. -/
def all : List CompareOp := [eq, ne, lt, le, gt, ge]

/-- The written form of an operator. -/
def symbol : CompareOp → String
  | eq => "="
  | ne => "!="
  | lt => "<"
  | le => "<="
  | gt => ">"
  | ge => ">="

/-- Equality and inequality, which compare operands of any one kind. -/
def isEquality : CompareOp → Bool
  | eq | ne => true
  | lt | le | gt | ge => false

/-- Whether an operator accepts the order of its operands.  Operands without an order are merely
unequal. -/
def holds : CompareOp → Option Ordering → Bool
  | eq, o => o == some .eq
  | ne, o => o != some .eq
  | lt, o => o == some .lt
  | le, o => o == some .lt || o == some .eq
  | gt, o => o == some .gt
  | ge, o => o == some .gt || o == some .eq

end CompareOp

/-- Arithmetic operators. -/
inductive ArithOp where
  | add | sub | mul | div | mod
deriving DecidableEq

/-- The written form of an operator. -/
def ArithOp.symbol : ArithOp → String
  | add => "+"
  | sub => "-"
  | mul => "*"
  | div => "/"
  | mod => "%"

/-- The two connectives. -/
inductive Connective where
  | and | or
deriving DecidableEq

namespace Connective

/-- The written form of a connective. -/
def symbol : Connective → String
  | and => "&&"
  | or => "||"

/-- The truth value that decides a connective as soon as one operand has it. -/
def deciding : Connective → Bool
  | and => false
  | or => true

end Connective

/-- The two quantifiers. -/
inductive Quantifier where
  | any | all
deriving DecidableEq

namespace Quantifier

/-- The written form of a quantifier. -/
def word : Quantifier → String
  | any => "exists"
  | all => "forall"

/-- The truth value that decides a quantifier as soon as its body has it for one element. -/
def deciding : Quantifier → Bool
  | any => true
  | all => false

end Quantifier

/-- The element lists that start from the current element. -/
inductive ListSource where
  | self | parent | children | siblings | adjacents
deriving DecidableEq

namespace ListSource

/-- All element lists. -/
def all : List ListSource := [self, parent, children, siblings, adjacents]

/-- The word for a list. -/
def word : ListSource → String
  | self => "self"
  | parent => "parent"
  | children => "children"
  | siblings => "siblings"
  | adjacents => "adjacents"

end ListSource

/-- The name of the variable that is bound to the element a rule is applied to. -/
def thisName : String := "this"

/-- Expressions. -/
inductive Expr where
  /-- A truth value. -/
  | bool (value : Bool)
  /-- A number. -/
  | number (value : Float)
  /-- `#name`: the current element has the tag, or the reserved tag of that name holds. -/
  | tag (name : String)
  /-- `$name`: the number of the tag, the reserved number of that name, or zero. -/
  | tagNumber (name : String)
  /-- The element bound to a name. -/
  | var (name : String)
  /-- Negation. -/
  | not (operand : Expr)
  /-- The opposite number. -/
  | neg (operand : Expr)
  /-- A conjunction or disjunction of any number of operands. -/
  | junction (connective : Connective) (operands : List Expr)
  /-- A comparison. -/
  | compare (op : CompareOp) (left right : Expr)
  /-- An arithmetic operation. -/
  | arith (op : ArithOp) (left right : Expr)
  /-- Whether the body holds for some element, or for every element, of a list. -/
  | quantified (quantifier : Quantifier) (var : String) (source body : Expr)
  /-- `var<body>`: the body with the element bound to `var` as the current one. -/
  | focus (var : String) (body : Expr)
  /-- The length of a list. -/
  | count (source : Expr)
  /-- Whether a list has an element. -/
  | nonEmpty (source : Expr)
  /-- A list that starts from the current element. -/
  | list (source : ListSource)
  /-- A list with a word that names none. -/
  | unknownList (word : String)
  /-- `[var:source|body]`: the elements of a list for which the body holds. -/
  | comprehension (var : String) (source body : Expr)
  /-- A leaf that is no expression, known by the name of its type. -/
  | foreign (typeName : String)

namespace Expr

/-- The kind of an expression.  Lists and foreign leaves have none. -/
def kind? : Expr → Option Kind
  | bool _ | tag _ | not _ | junction .. | compare .. | quantified .. | nonEmpty _ => some .boolean
  | number _ | tagNumber _ | neg _ | arith .. | count _ => some .numeric
  | var _ => some .element
  | focus _ body => body.kind?
  | list _ | unknownList _ | comprehension .. | foreign _ => none

/-- The names of all sorts of nodes, in alphabetical order. -/
def nodeNames : List String :=
  ["And", "Arithmetic", "BoolConst", "Compare", "Comprehension", "Count", "Exists", "Forall",
   "ListRef", "Negate", "NonEmpty", "Not", "NumConst", "NumTagRef", "Or", "Scoped", "TagRef",
   "VarRef"]

/-- The name of the sort of node at the root of an expression. -/
def nodeName : Expr → String
  | bool _ => "BoolConst"
  | number _ => "NumConst"
  | tag _ => "TagRef"
  | tagNumber _ => "NumTagRef"
  | var _ => "VarRef"
  | not _ => "Not"
  | neg _ => "Negate"
  | junction .and _ => "And"
  | junction .or _ => "Or"
  | compare .. => "Compare"
  | arith .. => "Arithmetic"
  | quantified .any .. => "Exists"
  | quantified .all .. => "Forall"
  | focus .. => "Scoped"
  | count _ => "Count"
  | nonEmpty _ => "NonEmpty"
  | list _ | unknownList _ => "ListRef"
  | comprehension .. => "Comprehension"
  | foreign typeName => typeName

end Expr

end DiagramFilter
