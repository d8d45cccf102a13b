import DiagramFilter.Expr.Basic

/-!
# Tokens

The words and signs of rule text.  Operators carry the operation that they stand for, keywords
what they mean, and the token at the end of a text its position.
-/

namespace DiagramFilter

/-- What a token is. -/
inductive TokenKind where
  | leftParen
  | rightParen
  | leftBracket
  | rightBracket
  | colon
  | pipe
  | hash
  | dollar
  | not
  | junction (connective : Connective)
  | compare (op : CompareOp)
  | arith (op : ArithOp)
  | number
  | name
  | bool (value : Bool)
  | quantifier (quantifier : Quantifier)
  | list (source : ListSource)
  | finish
deriving DecidableEq

namespace TokenKind

/-- The written form of a kind of token, or a description where it has many. -/
def label : TokenKind → String
  | leftParen => "("
  | rightParen => ")"
  | leftBracket => "["
  | rightBracket => "]"
  | colon => ":"
  | pipe => "|"
  | hash => "#"
  | dollar => "$"
  | not => "!"
  | junction c => c.symbol
  | compare op => op.symbol
  | arith op => op.symbol
  | number => "number"
  | name => "name"
  | bool true => "true"
  | bool false => "false"
  | quantifier q => q.word
  | list source => source.word
  | finish => "end of rule"

/-- The keywords, which cannot name variables. -/
def keywords : List TokenKind :=
  [bool true, bool false, quantifier .any, quantifier .all] ++ ListSource.all.map list

/-- The kinds of tokens that a word of the language can be besides a name. -/
def isKeyword : TokenKind → Bool
  | bool _ | quantifier _ | list _ => true
  | _ => false

/-- The kind of a word: a keyword, or else a name. -/
def ofWord (word : String) : TokenKind :=
  (keywords.find? fun k => k.label == word).getD name

/-- The signs that make the word right behind them a name, keywords included. -/
def isTagMarker : TokenKind → Bool
  | hash | dollar => true
  | _ => false

end TokenKind

/-- A token with its text and its offset in the rule. -/
structure Token where
  kind : TokenKind
  text : String
  position : Nat
deriving DecidableEq

namespace Token

/-- The text of a token as messages show it; the end of a rule has none. -/
def shown? (t : Token) : Option String :=
  if t.kind = .finish then none else some t.text

end Token

end DiagramFilter
