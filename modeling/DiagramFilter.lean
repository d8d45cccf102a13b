import DiagramFilter.Diagram.Basic
import DiagramFilter.Diagram.Build
import DiagramFilter.Diagram.Calls
import DiagramFilter.Diagram.Lists
import DiagramFilter.Diagram.Tags
import DiagramFilter.Diagram.Traversal
import DiagramFilter.Diagram.Turns
import DiagramFilter.Document.Basic
import DiagramFilter.Document.Json
import DiagramFilter.Eval.Basic
import DiagramFilter.Eval.Scope
import DiagramFilter.Eval.Session
import DiagramFilter.Eval.Value
import DiagramFilter.Expr.Basic
import DiagramFilter.Expr.Equality
import DiagramFilter.Expr.Fault
import DiagramFilter.Expr.InPlace
import DiagramFilter.Expr.Lexer
import DiagramFilter.Expr.Parser
import DiagramFilter.Expr.Printer
import DiagramFilter.Expr.Token
import DiagramFilter.Failure
import DiagramFilter.Filter.Basic
import DiagramFilter.Filter.Declarations
import DiagramFilter.Legacy.Convert
import DiagramFilter.Legacy.Error
import DiagramFilter.Legacy.Pending
import DiagramFilter.Number.Basic
import DiagramFilter.Number.Copies
import DiagramFilter.Number.Decimal
import DiagramFilter.Number.Double
import DiagramFilter.Number.Reading
import DiagramFilter.Outcome
import DiagramFilter.Registry
import DiagramFilter.Text.Blank
import DiagramFilter.Text.Digit
import DiagramFilter.Text.Printable
import DiagramFilter.Text.Quoted
import DiagramFilter.Version
import DiagramFilter.Proofs.Typing.Evaluation
import DiagramFilter.Proofs.Grammar.Basic
import DiagramFilter.Proofs.Grammar.Nesting
import DiagramFilter.Proofs.Grammar.Soundness
import DiagramFilter.Proofs.Grammar.Completeness
import DiagramFilter.Proofs.Grammar.Acceptance
import DiagramFilter.Proofs.Typing.Safety
import DiagramFilter.Proofs.Number.Bits
import DiagramFilter.Proofs.Number.Numeral
import DiagramFilter.Proofs.Number.Rounding
import DiagramFilter.Proofs.Lexing.Reading
import DiagramFilter.Proofs.Number.ReadBack
import DiagramFilter.Proofs.Writing.Piece
import DiagramFilter.Proofs.Writing.WellFormed
import DiagramFilter.Proofs.Writing.Room
import DiagramFilter.Proofs.Writing.RoundTrip
import DiagramFilter.Proofs.Writing.Overflow
import DiagramFilter.Proofs.Legacy.Denotation
import DiagramFilter.Proofs.Legacy.Meaning
import DiagramFilter.Proofs.Legacy.Leaves
import DiagramFilter.Proofs.Legacy.Conversion
import DiagramFilter.Proofs.Scoping.Bindings
import DiagramFilter.Proofs.Scoping.Free
import DiagramFilter.Proofs.Scoping.InPlace
import DiagramFilter.Proofs.Scoping.Session
import DiagramFilter.Proofs.Building.Store
import DiagramFilter.Proofs.Building.Traversal
import DiagramFilter.Proofs.Building.Records
import DiagramFilter.Proofs.Building.Mirror
import DiagramFilter.Proofs.Building.FirstPass
import DiagramFilter.Proofs.Building.Wiring
import DiagramFilter.Proofs.Building.Built
import DiagramFilter.Proofs.Declaring.Entries
import DiagramFilter.Proofs.Declaring.Reading
import DiagramFilter.Proofs.Likeness.Diagrams
import DiagramFilter.Proofs.Likeness.Evaluation
import DiagramFilter.Proofs.Writing.Respelling
import DiagramFilter.Proofs.Writing.Spelling
import DiagramFilter.Proofs.Writing.Meaning
import DiagramFilter.Proofs.Lexing.LongestMatch
import DiagramFilter.Proofs.Layout.Scanning
import DiagramFilter.Proofs.Layout.Parsing
import DiagramFilter.Proofs.Embedding.Closing
import DiagramFilter.Proofs.Embedding.Enclosing
import DiagramFilter.Proofs.Embedding.Contexts
import DiagramFilter.Proofs.Laws.Negation
import DiagramFilter.Proofs.Laws.Quantifiers
import DiagramFilter.Proofs.Renaming.Alpha
import DiagramFilter.Proofs.Renaming.Binders
import DiagramFilter.Proofs.Listing.FirstPlaces
import DiagramFilter.Proofs.Listing.Relations
import DiagramFilter.Proofs.Legacy.Steps
import DiagramFilter.Proofs.Legacy.Permissive
import DiagramFilter.Proofs.Legacy.Runs
import DiagramFilter.Proofs.Legacy.Failing
import DiagramFilter.Proofs.Linking.Holders
import DiagramFilter.Proofs.Linking.History
import DiagramFilter.Proofs.Linking.Links
import DiagramFilter.Proofs.Building.References
import DiagramFilter.Proofs.Building.Faults
import DiagramFilter.Proofs.Building.Failing
import DiagramFilter.Proofs.Declaring.Faults
import DiagramFilter.Proofs.Declaring.Failing
import DiagramFilter.Proofs.Reserving.Extension
import DiagramFilter.Proofs.Lexing.Lexemes
import DiagramFilter.Proofs.Lexing.Tiling
import DiagramFilter.Proofs.Layout.Caret
import DiagramFilter.Proofs.Number.Whole
import DiagramFilter.Proofs.Reserving.Counts
import DiagramFilter.Proofs.Visiting.Trees
import DiagramFilter.Proofs.Visiting.Growth
import DiagramFilter.Proofs.Parsing.Steps
import DiagramFilter.Proofs.Parsing.Phrases
import DiagramFilter.Proofs.Parsing.Progress
import DiagramFilter.Proofs.Placing.Contexts
import DiagramFilter.Proofs.Placing.Rows
import DiagramFilter.Proofs.Placing.Scanning
import DiagramFilter.Proofs.Placing.Numbers
