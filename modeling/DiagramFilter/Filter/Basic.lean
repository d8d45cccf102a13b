import DiagramFilter.Diagram.Tags
import DiagramFilter.Eval.Basic
import DiagramFilter.Expr.Equality
import DiagramFilter.Expr.Parser
import DiagramFilter.Legacy.Convert

/-!
# Filters

A filter is a rule with what a switch for it displays: a name and an initial state.  It is made
from rule text or from a legacy record, which brings a name and a state of its own.
-/

namespace DiagramFilter

/-- A rule with its text, a name and an initial state. -/
structure Filter where
  name : Option String
  initial : Option Bool
  rule : Expr
  text : String
deriving DecidableEq

/-- The reasons for which a document is no filter. -/
inductive FilterError where
  /-- A text is no rule. -/
  | rule (text : String) (error : ParseError)
  /-- A record is no legacy rule. -/
  | legacy (error : LegacyError)
  /-- A value of this sort is neither a text nor a record. -/
  | notRule (typeName : String)
  /-- The rules of an element are no list but a value of this sort. -/
  | rulesNotList (typeName : String)
deriving DecidableEq

/-- The class of a fault of rule text. -/
def ParseError.failureClass : ParseError → FailureClass
  | form .. => .form
  | kind .. => .kind
  | undefinedVariable _ => .undefinedVariable

namespace FilterError

/-- The text of such a reason. -/
def message : FilterError → String
  | rule text error => error.message text
  | legacy error => error.message
  | notRule typeName => "Expected rule text or a legacy rule mapping, got " ++ typeName
  | rulesNotList typeName => "'" ++ rulesProperty ++ "' must be a list, got " ++ typeName

/-- The fault of rule text behind such a reason. -/
def parseError? : FilterError → Option ParseError
  | rule _ error => some error
  | _ => none

/-- The text of such a reason without the rule and the caret. -/
def reason : FilterError → String
  | rule _ error => error.reason
  | error => error.message

/-- The class of such a reason. -/
def failureClass : FilterError → FailureClass
  | rule _ error => error.failureClass
  | legacy error => error.failureClass
  | notRule _ => .type
  | rulesNotList _ => .value

end FilterError

namespace Filter

/-- The filter of rule text. -/
def ofText (text : String) (name : Option String) (initial : Option Bool) :
    Except FilterError Filter := do
  let rule ← (Expr.parse text).mapError (.rule text)
  return ⟨name, initial, rule, text⟩

/-- The filter of a document: rule text, or a legacy record.  A record's own name and state are
used where none are given. -/
def ofDocument (strict : Bool) (source : Document) (name : Option String)
    (initial : Option Bool) : Outcome FilterError Substitution Filter :=
  match source with
  | .string text => .ofExcept (ofText text name initial)
  | .object _ => do
    let text ← (Legacy.convert strict source).mapError .legacy
    let own ← if initial.isSome then pure none
      else (Outcome.ofExcept (Legacy.initialState? source)).mapError .legacy
    .ofExcept (ofText text (name <|> Legacy.ruleName? source) (initial <|> own))
  | d => .fail (.notRule d.typeName)

/-- The filters of documents, in order. -/
def ofDocuments (strict : Bool) : List Document → Outcome FilterError Substitution (List Filter)
  | [] => pure []
  | d :: ds => do
    let filter ← ofDocument strict d none none
    let filters ← ofDocuments strict ds
    return filter :: filters

/-- The filters that an element declares among its properties. -/
def ofElement (strict : Bool) (e : Element) : Outcome FilterError Substitution (List Filter) :=
  match (Document.object e.properties).value? rulesProperty with
  | none => pure []
  | some (.list rules) => ofDocuments strict rules
  | some d => .fail (.rulesNotList d.typeName)

/-- The first elements that pass a filter, as many as the limit allows; elements behind the last
of them are not looked at. -/
def select (env : Env) (filter : Filter) (limit : Option Nat) :
    List Handle → Except EvalError (List Handle)
  | [] => .ok []
  | h :: hs =>
    if limit = some 0 then .ok []
    else do
      if ← filter.rule.holdsOn env h then
        let rest ← select env filter (limit.map (· - 1)) hs
        return h :: rest
      else
        select env filter limit hs

end Filter

end DiagramFilter
