import Precedence.Main
import Precedence.FileStore
import Precedence.Node.Equality
import Precedence.Node.Visitor
import Precedence.Record.Equality
import Precedence.Proofs.Parser.Passage
import Precedence.Proofs.Parser.Rules
import Precedence.Proofs.Parser.Confinement
import Precedence.Proofs.Parser.Repetition
import Precedence.Proofs.Parser.Inversion
import Precedence.Proofs.Parser.Reentry
import Precedence.Proofs.Level.Associativity
import Precedence.Proofs.Level.Diagnosis
import Precedence.Proofs.Grammar.Derivation
import Precedence.Proofs.Grammar.Scan
import Precedence.Proofs.Grammar.Longest
import Precedence.Proofs.Grammar.Nesting
import Precedence.Proofs.Arithmetic.Composition
import Precedence.Proofs.Arithmetic.LongestPrefix
import Precedence.Proofs.Arithmetic.Acceptance
import Precedence.Proofs.Arithmetic.Reading
import Precedence.Proofs.Arithmetic.NestingLimit
import Precedence.Proofs.Number.Decimal
import Precedence.Proofs.Token.Parentheses
import Precedence.Proofs.Token.Legality
import Precedence.Proofs.Token.Expression
import Precedence.Proofs.Location.Order
import Precedence.Proofs.Location.Covering
import Precedence.Proofs.Token.Placement
import Precedence.Proofs.Token.Position
import Precedence.Proofs.Token.Spacing
import Precedence.Proofs.Grammar.Building
import Precedence.Proofs.Grammar.Substitution
import Precedence.Proofs.Arithmetic.Printing
import Precedence.Proofs.Arithmetic.RoundTrip
import Precedence.Proofs.LevelTable.Checking
import Precedence.Proofs.Arithmetic.Provenance
import Precedence.Proofs.Arithmetic.Substitution
import Precedence.Proofs.Arithmetic.Usability
import Precedence.Proofs.Walk.Postorder
import Precedence.Proofs.Evaluation.Meaning
import Precedence.Proofs.Evaluation.Chain
import Precedence.Proofs.Parser.Likeness
import Precedence.Proofs.Arithmetic.IdleLevel
import Precedence.Proofs.Recording
import Precedence.Proofs.Parser.Extent
import Precedence.Proofs.Parser.Faults
import Precedence.Proofs.Arithmetic.Faults
import Precedence.Proofs.CommandLine.Reply
import Precedence.Proofs.CommandLine.Session
import Precedence.Proofs.Parser.Correspondence
import Precedence.Proofs.Arithmetic.Correspondence
import Precedence.Proofs.Arithmetic.Renaming
import Precedence.Proofs.Text.Lines
import Precedence.Proofs.CommandLine.Arguments
import Precedence.Proofs.CommandLine.Naming
import Precedence.Proofs.CommandLine.Independence
import Precedence.Proofs.Parser.Locality
import Precedence.Proofs.Parser.Laws
import Precedence.Proofs.Value.Comparison
import Precedence.Proofs.Value.Writing
import Precedence.Proofs.Value.Mixing
import Precedence.Proofs.Record.Attributes
import Precedence.Proofs.Record.Equality
import Precedence.Proofs.Record.Members
import Precedence.Proofs.LevelTable.Outcome
import Precedence.Proofs.Parser.Progress
import Precedence.Proofs.Arithmetic.Progress
import Precedence.Proofs.Level.Wiring
import Precedence.Proofs.Node.Agreement
import Precedence.Proofs.Node.Equality
import Precedence.Proofs.Node.Printing
import Precedence.Proofs.CommandLine.Refusal
import Precedence.Proofs.CommandLine.Placement
