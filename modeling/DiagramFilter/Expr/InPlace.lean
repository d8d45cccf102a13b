import DiagramFilter.Expr.Parser

/-!
# Reading in place

The parser as work on the place of the next token, the bound names and the sign that tells whether
a bare `>` closes a focused expression.  The names and the sign are changed on the way into a
construct and put back on the way out.

A method says what it does in terms of calls of other methods.  Nothing in a method says that its
calls end: a loop goes on as long as it finds operators, and a method may call itself.  So calls are
counted by a clock (`perform`), and work that is still not over when the clock has run out is
unfinished.
-/

namespace DiagramFilter

/-- What the parser changes while it reads. -/
structure ParserState where
  /-- The place of the next token. -/
  position : Nat
  /-- The bound names, innermost first. -/
  bound : List String
  /-- Whether a bare `>` closes a focused expression. -/
  closing : Bool
deriving DecidableEq

/-- The state in which a rule begins. -/
def ParserState.start : ParserState :=
  ⟨0, [thisName], false⟩

/-- The reasons for which reading stops without a result. -/
inductive Halt where
  /-- The tokens are no rule. -/
  | refused (error : ParseError)
  /-- A token is asked for where none is. -/
  | outOfRange
  /-- The clock has run out. -/
  | unfinished
deriving DecidableEq

/-- Work of the parser.  It ends with a result or a reason to stop, and either way it leaves a state
behind. -/
abbrev ParserM (α : Type) := ExceptT Halt (StateM ParserState) α

/-- A call of a method that gives a result of some type. -/
inductive Method : Type → Type where
  /-- A level of a connective. -/
  | junction (c : Connective) : Method Expr
  /-- Further operands of a connective, behind those read before. -/
  | junctionLoop (c : Connective) (operands : List Expr) : Method Expr
  /-- A level of operators that group to the left. -/
  | binary (l : Level) : Method Expr
  /-- Further operators of a level, behind what was read before. -/
  | binaryLoop (l : Level) (left : Expr) : Method Expr
  /-- An operand with the signs before it. -/
  | unary : Method Expr
  /-- An operand. -/
  | primary : Method Expr
  /-- The name behind a tag marker. -/
  | tagName (marker : Token) : Method String
  /-- A focused expression. -/
  | focus : Method Expr
  /-- A list. -/
  | list : Method Expr
  /-- A binder in brackets. -/
  | comprehension : Method Expr
  /-- A binder between its brackets. -/
  | binding : Method (String × Expr × Expr)

namespace Method

/-- The method for an operand of a connective. -/
def operandOf : Connective → Method Expr
  | .or => junction .and
  | .and => binary .equality

/-- The method for an operand of a level. -/
def operandOn : Level → Method Expr
  | .equality => binary .relation
  | .relation => binary .term
  | .term => binary .factor
  | .factor => unary

end Method

namespace ParserM

variable {α : Type}

/-- What work comes to that begins in a state, and the state that is left behind. -/
def runFrom (work : ParserM α) (s : ParserState) : Except Halt α × ParserState :=
  (ExceptT.run work).run s

/-- Goes on with a result, or stops. -/
def accept (x : Except ParseError α) : ParserM α :=
  ofExcept (x.mapError .refused)

/-- The token at a place. -/
def tokenAt (tokens : List Token) (place : Nat) : ParserM Token :=
  match tokens[place]? with
  | some t => return t
  | none => throw .outOfRange

/-- The token some places ahead, or the last one. -/
def look (tokens : List Token) (offset : Nat) : ParserM Token := do
  tokenAt tokens (min ((← get).position + offset) (tokens.length - 1))

/-- Passes over the next token, unless it ends the text. -/
def advance (tokens : List Token) : ParserM Token := do
  let t ← tokenAt tokens (← get).position
  unless t.kind = .finish do modify fun s => { s with position := s.position + 1 }
  return t

/-- Passes over a token of one kind. -/
def expect (tokens : List Token) (kind : TokenKind) (what : Expected) : ParserM Token := do
  let t ← look tokens 0
  if t.kind = kind then advance tokens
  else accept (Parser.formError (.expected what t.shown?) t)

/-- Asks for an operand of one kind. -/
def require (role : Role) (wanted : Kind) (e : Expr) (at_ : Token) : ParserM Unit :=
  accept (Parser.require role wanted e at_)

/-- Asks for a bound name. -/
def checkBound (name : String) : ParserM Unit := do
  accept (Parser.requireBound (← get).bound name)

section Methods

variable (tokens : List Token) (call : {α : Type} → Method α → ParserM α)

/-- A level of a connective: one operand, or a group of at least two. -/
def junction (c : Connective) : ParserM Expr := do
  let first ← call (.operandOf c)
  call (.junctionLoop c [first])

/-- What a level of a connective makes of its operands.  A single one is no group. -/
def group (c : Connective) : List Expr → Expr
  | [e] => e
  | es => .junction c es

/-- Further operands of a connective.  With each of them the last two are checked. -/
def junctionLoop (c : Connective) (operands : List Expr) : ParserM Expr := do
  if (← look tokens 0).kind = .junction c then
    let op ← advance tokens
    let next ← call (.operandOf c)
    let operands := operands ++ [next]
    for e in operands.drop (operands.length - 2) do
      require (.operand c.symbol) .boolean e op
    call (.junctionLoop c operands)
  else
    return group c operands

/-- A level of operators that group to the left. -/
def binary (l : Level) : ParserM Expr := do
  let left ← call (.operandOn l)
  call (.binaryLoop l left)

/-- Further operators of a level and their right operands. -/
def binaryLoop (l : Level) (left : Expr) : ParserM Expr := do
  let t ← look tokens 0
  match l.join? (← get).closing t with
  | none => return left
  | some join =>
    let _ ← advance tokens
    let right ← call (.operandOn l)
    let joined ← accept (join left right)
    call (.binaryLoop l joined)

/-- An operand with the signs before it. -/
def unary : ParserM Expr := do
  match (← look tokens 0).kind with
  | .not =>
    let op ← advance tokens
    let e ← call .unary
    require (.operand "!") .boolean e op
    return .not e
  | .arith .sub =>
    let op ← advance tokens
    let e ← call .unary
    require .unaryMinus .numeric e op
    return .neg e
  | _ => call .primary

/-- What a marker stands before: a comprehension, or else the name of a tag. -/
def marked (marker : Token) (make : Expr → Expr) (makeTag : String → Expr) : ParserM Expr := do
  let _ ← advance tokens
  if (← look tokens 0).kind = .leftBracket then
    let source ← call .comprehension
    return make source
  else
    let name ← call (.tagName marker)
    return makeTag name

/-- A binder in brackets, and what is made of it. -/
def bracketed (make : String × Expr × Expr → Expr) : ParserM Expr := do
  let _ ← expect tokens .leftBracket (.token .leftBracket)
  let binder ← call .binding
  let _ ← expect tokens .rightBracket (.token .rightBracket)
  return make binder

/-- An expression in parentheses. -/
def parens (opening : Token) : ParserM Expr := do
  let _ ← advance tokens
  let saved := (← get).closing
  modify fun s => { s with closing := false }
  let e ← call (.junction .or)
  modify fun s => { s with closing := saved }
  if (← look tokens 0).kind = .rightParen then
    let _ ← advance tokens
    return e
  else
    accept (Parser.formError .mismatchedParentheses opening)

/-- An operand. -/
def primary : ParserM Expr := do
  let t ← look tokens 0
  match t.kind with
  | .number =>
    let _ ← advance tokens
    return .number (Parser.numberValue t)
  | .bool value =>
    let _ ← advance tokens
    return .bool value
  | .hash => marked tokens call t .nonEmpty .tag
  | .dollar => marked tokens call t .count .tagNumber
  | .quantifier q =>
    let _ ← advance tokens
    bracketed tokens call fun (var, source, body) => .quantified q var source body
  | .name =>
    if (← look tokens 1).kind = .compare .lt then
      call .focus
    else
      let _ ← advance tokens
      checkBound t.text
      return .var t.text
  | .leftParen => parens tokens call t
  | .list _ => accept (Parser.formError (.listAsValue t.text) t)
  | .finish => accept (Parser.formError .missingOperand t)
  | _ => accept (Parser.formError (.unexpected t.shown?) t)

/-- The name behind a tag marker.  A keyword names a tag too. -/
def tagName (marker : Token) : ParserM String := do
  let t ← look tokens 0
  if t.kind = .name || t.kind.isKeyword then
    let t ← advance tokens
    return t.text
  else
    accept (Parser.formError (.expectedTagName marker.text t.shown?) t)

/-- A focused expression. -/
def focus : ParserM Expr := do
  let name ← advance tokens
  checkBound name.text
  let _ ← advance tokens
  let saved := (← get).closing
  modify fun s => { s with closing := true }
  let e ← call (.junction .or)
  modify fun s => { s with closing := saved }
  if e.kind? = some .element then
    throw (.refused (.kind (.focusedElement name.text) name.position))
  let _ ← expect tokens (.compare .gt) (.closing name.text)
  return .focus name.text e

/-- A list: a word or a comprehension. -/
def list : ParserM Expr := do
  let t ← look tokens 0
  match t.kind with
  | .list word =>
    let _ ← advance tokens
    return .list word
  | .leftBracket => call .comprehension
  | _ => accept (Parser.formError (.expectedList t.shown?) t)

/-- A binder between its brackets.  The list does not see the name that the body is read with, and
the name is unbound again however the body ends. -/
def binding : ParserM (String × Expr × Expr) := do
  let t ← look tokens 0
  if t.kind.isKeyword then
    accept (Parser.formError (.keywordAsVariable t.text) t)
  else
    let var ← expect tokens .name .variableName
    let _ ← expect tokens .colon (.token .colon)
    let source ← call .list
    let pipe ← expect tokens .pipe (.token .pipe)
    let saved := (← get).closing
    modify fun s => { s with bound := var.text :: s.bound, closing := false }
    let e ←
      try call (.junction .or)
      finally modify fun s => { s with bound := s.bound.tail, closing := saved }
    require (.body var.text) .boolean e pipe
    return (var.text, source, e)

/-- What a method does, in terms of calls. -/
def method : Method α → ParserM α
  | .junction c => junction call c
  | .junctionLoop c operands => junctionLoop tokens call c operands
  | .binary l => binary call l
  | .binaryLoop l left => binaryLoop tokens call l left
  | .unary => unary tokens call
  | .primary => primary tokens call
  | .tagName marker => tagName tokens marker
  | .focus => focus tokens call
  | .list => list tokens call
  | .comprehension =>
    bracketed tokens call fun (var, source, body) => .comprehension var source body
  | .binding => binding tokens call

end Methods

/-- A call of a method, with as many calls inside of each other as a clock allows. -/
def perform (tokens : List Token) : (clock : Nat) → {α : Type} → Method α → ParserM α
  | 0, _, _ => throw .unfinished
  | clock + 1, _, m => method tokens (perform tokens clock) m

/-- The rule that a whole row of tokens spells. -/
def rule (tokens : List Token) (clock : Nat) : ParserM Expr := do
  let first ← look tokens 0
  if first.kind = .finish then
    accept (Parser.formError .emptyRule first)
  else
    let e ← perform tokens clock (.junction .or)
    let next ← look tokens 0
    if next.kind = .finish then
      require .rule .boolean e first
      return e
    else if next.kind = .rightParen then
      accept (Parser.formError .mismatchedParentheses next)
    else
      accept (Parser.formError (.trailing next.shown?) next)

end ParserM

/-- What reading a text in place comes to, with some number of calls inside of each other. -/
def Expr.parseInPlace (text : String) (clock : Nat) : Except Halt Expr :=
  match Lexer.tokenize text with
  | .error e => .error (.refused e)
  | .ok tokens => ((ParserM.rule tokens clock).runFrom .start).1

end DiagramFilter
