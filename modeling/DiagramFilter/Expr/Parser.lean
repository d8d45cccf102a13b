import DiagramFilter.Expr.Lexer
import DiagramFilter.Number.Decimal

/-!
# Reading rules

A rule is read by descending through the levels of its grammar, loosest operator first:

* `||`, then `&&`, whose operands form one group however many there are;
* `=` and `!=`, then `>=`, `>`, `<=` and `<`, then `+` and `-`, then `*`, `/` and `%`, which all
  group to the left;
* `!` and `-` before an operand;
* operands: numbers, truth values, tags, counts, quantifiers, variables, focused expressions and
  rules in parentheses.

Each level is a function from the parser of its operands to a parser, so only operands and lists
refer back to whole expressions, and they do so one nesting level deeper.  The kinds of operands
and the variables in scope are checked while reading.  Two things depend on what surrounds an
expression and are parameters: the bound names, and whether a bare `>` closes a focused
expression instead of comparing.
-/

namespace DiagramFilter

/-- The number of nested constructs that a rule may have.  It stands for the stack of whatever reads
the rule, whose size is no part of the language: any fixed number would do in its place. -/
def nestingLimit : Nat := 1000

/-- The levels of binary operators, loosest first. -/
inductive Level where
  | equality | relation | term | factor
deriving DecidableEq

namespace Parser

/-- A parser: from the tokens ahead to a result and the tokens behind it. -/
abbrev Reader (α : Type) := List Token → Except ParseError (α × List Token)

/-- The next token. -/
def peek (ts : List Token) : Token :=
  ts.headD ⟨.finish, "", 0⟩

/-- An error of form at a token. -/
def formError {α : Type} (fault : FormFault) (at_ : Token) : Except ParseError α :=
  .error (.form fault (some at_.position))

/-- Passes over a token of one kind. -/
def expect (kind : TokenKind) (what : Expected) (ts : List Token) :
    Except ParseError (List Token) :=
  if (peek ts).kind = kind then .ok ts.tail
  else formError (.expected what (peek ts).shown?) (peek ts)

/-- Asks for an operand of one kind, on behalf of a token. -/
def require (role : Role) (wanted : Kind) (e : Expr) (at_ : Token) : Except ParseError Unit :=
  if e.kind? = some wanted then .ok ()
  else .error (.kind (.operand role wanted e.kind?) at_.position)

/-- Asks for a bound name. -/
def requireBound (bound : List String) (name : String) : Except ParseError Unit :=
  if name ∈ bound then .ok () else .error (.undefinedVariable ⟨name, bound.eraseDups⟩)

/-- The way in which an operator joins the operands on its two sides. -/
abbrev Join := Expr → Expr → Except ParseError Expr

/-- An arithmetic operator joins numbers. -/
def joinArith (op : ArithOp) (at_ : Token) : Join := fun left right => do
  require (.operand op.symbol) .numeric left at_
  require (.operand op.symbol) .numeric right at_
  return .arith op left right

/-- A relation joins numbers. -/
def joinRelation (op : CompareOp) (at_ : Token) : Join := fun left right => do
  require (.operand op.symbol) .numeric left at_
  require (.operand op.symbol) .numeric right at_
  return .compare op left right

/-- An equality joins operands of one kind. -/
def joinEquality (op : CompareOp) (at_ : Token) : Join := fun left right =>
  if left.kind? = right.kind? then .ok (.compare op left right)
  else .error (.kind (.comparison op.symbol left.kind? right.kind?) at_.position)

/-- The operators `*`, `/` and `%`. -/
def factorJoin? (t : Token) : Option Join :=
  match t.kind with
  | .arith .mul => some (joinArith .mul t)
  | .arith .div => some (joinArith .div t)
  | .arith .mod => some (joinArith .mod t)
  | _ => none

/-- The operators `+` and `-`. -/
def termJoin? (t : Token) : Option Join :=
  match t.kind with
  | .arith .add => some (joinArith .add t)
  | .arith .sub => some (joinArith .sub t)
  | _ => none

/-- The relations; a bare `>` is none where it closes a focused expression. -/
def relationJoin? (closing : Bool) (t : Token) : Option Join :=
  match t.kind with
  | .compare .gt => if closing then none else some (joinRelation .gt t)
  | .compare .ge => some (joinRelation .ge t)
  | .compare .le => some (joinRelation .le t)
  | .compare .lt => some (joinRelation .lt t)
  | _ => none

/-- The operators `=` and `!=`. -/
def equalityJoin? (t : Token) : Option Join :=
  match t.kind with
  | .compare .eq => some (joinEquality .eq t)
  | .compare .ne => some (joinEquality .ne t)
  | _ => none

/-- Further operators of one level and their right operands.  Every round passes over a token, so
as many rounds as there are tokens are enough. -/
def binaryTail (join? : Token → Option Join) (operand : Reader Expr) :
    (rounds : Nat) → Expr → Reader Expr
  | 0, left, ts => .ok (left, ts)
  | rounds + 1, left, ts =>
    match join? (peek ts) with
    | none => .ok (left, ts)
    | some join => do
      let (right, rest) ← operand ts.tail
      let joined ← join left right
      binaryTail join? operand rounds joined rest

/-- A level of operators that group to the left. -/
def binaryLevel (join? : Token → Option Join) (operand : Reader Expr) : Reader Expr := fun ts => do
  let (left, rest) ← operand ts
  binaryTail join? operand rest.length left rest

/-- The operands of a connective that follow another operand. -/
def junctionTail (c : Connective) (operand : Reader Expr) :
    (rounds : Nat) → (previous : Expr) → Reader (List Expr)
  | 0, _, ts => .ok ([], ts)
  | rounds + 1, previous, ts =>
    if (peek ts).kind = .junction c then do
      let (next, rest) ← operand ts.tail
      require (.operand c.symbol) .boolean previous (peek ts)
      require (.operand c.symbol) .boolean next (peek ts)
      let (more, rest) ← junctionTail c operand rounds next rest
      return (next :: more, rest)
    else
      .ok ([], ts)

/-- A level of a connective: one operand, or a group of at least two. -/
def junctionLevel (c : Connective) (operand : Reader Expr) : Reader Expr := fun ts => do
  let (first, rest) ← operand ts
  let (more, rest) ← junctionTail c operand rest.length first rest
  return (if more.isEmpty then first else .junction c (first :: more), rest)

/-- All levels of operators between two operands, above a parser of operands. -/
def levels (closing : Bool) (operand : Reader Expr) : Reader Expr :=
  junctionLevel .or <| junctionLevel .and <| binaryLevel equalityJoin? <|
    binaryLevel (relationJoin? closing) <| binaryLevel termJoin? <|
      binaryLevel factorJoin? operand

/-- The name behind a tag marker.  A keyword names a tag too. -/
def tagName (marker : Token) : Reader String := fun ts =>
  let t := peek ts
  if t.kind = .name || t.kind.isKeyword then .ok (t.text, ts.tail)
  else formError (.expectedTagName marker.text t.shown?) t

/-- `[name:list|body]`.  The list does not see the name that the body is read with. -/
def binding (source : Reader Expr) (body : String → Reader Expr) :
    Reader (String × Expr × Expr) := fun ts => do
  let rest ← expect .leftBracket (.token .leftBracket) ts
  let var := peek rest
  if var.kind.isKeyword then
    formError (.keywordAsVariable var.text) var
  else
    let rest ← expect .name .variableName rest
    let rest ← expect .colon (.token .colon) rest
    let (list, rest) ← source rest
    let pipe := peek rest
    let rest ← expect .pipe (.token .pipe) rest
    let (e, rest) ← body var.text rest
    require (.body var.text) .boolean e pipe
    let rest ← expect .rightBracket (.token .rightBracket) rest
    return ((var.text, list, e), rest)

/-- The double that a number token spells. -/
def numberValue (t : Token) : Float :=
  (Decimal.readDouble? t.text.toList).getD 0

mutual

/-- An operand with the signs before it, at most `depth` levels deep. -/
def operand : (depth : Nat) → (bound : List String) → Reader Expr
  | 0, _, _ => .error (.form .nestedTooDeeply none)
  | depth + 1, bound, ts =>
    let t := peek ts
    let rest := ts.tail
    let bracket := binding (source depth bound)
      fun var => levels false (operand depth (var :: bound))
    match t.kind with
    | .not => do
      let (e, rest) ← operand depth bound rest
      require (.operand "!") .boolean e t
      return (.not e, rest)
    | .arith .sub => do
      let (e, rest) ← operand depth bound rest
      require .unaryMinus .numeric e t
      return (.neg e, rest)
    | .number => .ok (.number (numberValue t), rest)
    | .bool value => .ok (.bool value, rest)
    | .hash =>
      if (peek rest).kind = .leftBracket then do
        let ((var, list, body), rest) ← bracket rest
        return (.nonEmpty (.comprehension var list body), rest)
      else do
        let (name, rest) ← tagName t rest
        return (.tag name, rest)
    | .dollar =>
      if (peek rest).kind = .leftBracket then do
        let ((var, list, body), rest) ← bracket rest
        return (.count (.comprehension var list body), rest)
      else do
        let (name, rest) ← tagName t rest
        return (.tagNumber name, rest)
    | .quantifier q => do
      let ((var, list, body), rest) ← bracket rest
      return (.quantified q var list body, rest)
    | .name =>
      if (peek rest).kind = .compare .lt then do
        requireBound bound t.text
        let (body, rest) ← levels true (operand depth bound) rest.tail
        if body.kind? = some .element then
          .error (.kind (.focusedElement t.text) t.position)
        else
          let rest ← expect (.compare .gt) (.closing t.text) rest
          return (.focus t.text body, rest)
      else do
        requireBound bound t.text
        return (.var t.text, rest)
    | .leftParen => do
      let (e, rest) ← levels false (operand depth bound) rest
      if (peek rest).kind = .rightParen then
        return (e, rest.tail)
      else
        formError .mismatchedParentheses t
    | .list _ => formError (.listAsValue t.text) t
    | .finish => formError .missingOperand t
    | _ => formError (.unexpected t.shown?) t

/-- A list: a word, or a comprehension at most `depth` levels deep. -/
def source : (depth : Nat) → (bound : List String) → Reader Expr
  | 0, _, _ => .error (.form .nestedTooDeeply none)
  | depth + 1, bound, ts =>
    match (peek ts).kind with
    | .list word => .ok (.list word, ts.tail)
    | .leftBracket => do
      let ((var, list, body), rest) ← binding (source depth bound)
        (fun var => levels false (operand depth (var :: bound))) ts
      return (.comprehension var list body, rest)
    | _ => formError (.expectedList (peek ts).shown?) (peek ts)

end

/-- An expression with the given names bound, in no focused expression. -/
def expression (depth : Nat) (bound : List String) : Reader Expr :=
  levels false (operand depth bound)

/-- The rule that a whole row of tokens spells. -/
def rule (ts : List Token) : Except ParseError Expr :=
  let first := peek ts
  if first.kind = .finish then
    formError .emptyRule first
  else do
    let (e, rest) ← expression nestingLimit [thisName] ts
    let next := peek rest
    if next.kind = .finish then do
      require .rule .boolean e first
      return e
    else if next.kind = .rightParen then
      formError .mismatchedParentheses next
    else
      formError (.trailing next.shown?) next

end Parser

/-- The parser's side of the operators of a level. -/
def Level.join? (closing : Bool) : Level → Token → Option Parser.Join
  | equality => Parser.equalityJoin?
  | relation => Parser.relationJoin? closing
  | term => Parser.termJoin?
  | factor => Parser.factorJoin?

/-- The rule that a text spells. -/
def Expr.parse (text : String) : Except ParseError Expr := do
  Parser.rule (← Lexer.tokenize text)

end DiagramFilter
