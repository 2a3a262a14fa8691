import ResidualPolicy.Ascending
import ResidualPolicy.Double
import ResidualPolicy.Double.Shortest
import ResidualPolicy.Json.Reader
import ResidualPolicy.Value
import ResidualPolicy.Text.Alphabetic
import ResidualPolicy.Text.Numeric
import ResidualPolicy.Text.Mark
import ResidualPolicy.Text.Blank
import ResidualPolicy.Text.Debug
import ResidualPolicy.Text.CaseFolding
import ResidualPolicy.Notation.Token
import ResidualPolicy.Notation.Text
import ResidualPolicy.Notation.Reader
import ResidualPolicy.Pattern.Reader
import ResidualPolicy.Path
import ResidualPolicy.Registry
import ResidualPolicy.Policy.Negation
import ResidualPolicy.Policy.Reader
import ResidualPolicy.Evaluation
import ResidualPolicy.Engine
import ResidualPolicy.Value.Digest
import ResidualPolicy.Proofs.Ascending
import ResidualPolicy.Proofs.Value.Order
import ResidualPolicy.Proofs.Value.Navigation
import ResidualPolicy.Proofs.Value.Growth
import ResidualPolicy.Proofs.Residual.Filing
import ResidualPolicy.Proofs.Residual.Conjunction
import ResidualPolicy.Proofs.Operator.Builtin
import ResidualPolicy.Proofs.Registry
import ResidualPolicy.Proofs.Policy.Induction
import ResidualPolicy.Proofs.Evaluation
import ResidualPolicy.Proofs.Evaluation.Persistence
import ResidualPolicy.Proofs.Constraint
import ResidualPolicy.Proofs.Policy.Negation
import ResidualPolicy.Proofs.ConstraintSet
import ResidualPolicy.Proofs.Plan
import ResidualPolicy.Proofs.Compilation
import ResidualPolicy.Proofs.Compilation.Refusal
import ResidualPolicy.Proofs.Sameness
import ResidualPolicy.Proofs.Engine
import ResidualPolicy.Proofs.Policy.Reading
import ResidualPolicy.Proofs.Policy.Expression
import ResidualPolicy.Proofs.Notation.Lexeme
import ResidualPolicy.Proofs.Value.Parts
import ResidualPolicy.Proofs.Notation.RoundTrip
import ResidualPolicy.Proofs.Residual.Agreement
import ResidualPolicy.Proofs.Evaluation.Sameness
import ResidualPolicy.Proofs.Residual.Sameness
import ResidualPolicy.Proofs.Residual.Relocation
import ResidualPolicy.Proofs.Residual.Selection
import ResidualPolicy.Proofs.Normalization
import ResidualPolicy.Proofs.Value.Places
import ResidualPolicy.Proofs.Evaluation.Sufficiency
import ResidualPolicy.Proofs.Evaluation.Contents
import ResidualPolicy.Proofs.Evaluation.Paths
import ResidualPolicy.Proofs.Evaluation.Calls
import ResidualPolicy.Proofs.Evaluation.Violations
import ResidualPolicy.Proofs.Evaluation.Duality
import ResidualPolicy.Proofs.Evaluation.Decision
import ResidualPolicy.Proofs.Evaluation.DoubleNegation
import ResidualPolicy.Proofs.Compilation.Refresh
import ResidualPolicy.Proofs.Engine.Freshness
import ResidualPolicy.Proofs.Evaluation.Equality
import ResidualPolicy.Proofs.Evaluation.Relocation
import ResidualPolicy.Proofs.Evaluation.Elements
import ResidualPolicy.Proofs.Evaluation.Connectives
import ResidualPolicy.Proofs.Number.Digest
import ResidualPolicy.Proofs.Number.WholePart
import ResidualPolicy.Proofs.Value.Digest
import ResidualPolicy.Registry.Shared
import ResidualPolicy.Proofs.Registry.Shared
import ResidualPolicy.Proofs.Policy.Comparator
import ResidualPolicy.Operator.Cached
import ResidualPolicy.Proofs.Operator.Specialization
import ResidualPolicy.ConstraintSet.Flagged
import ResidualPolicy.Proofs.Policy.Containment
import ResidualPolicy.Proofs.ConstraintSet.Normal
import ResidualPolicy.Proofs.Compilation.CustomOperators
import ResidualPolicy.Proofs.Compilation.Reports
import ResidualPolicy.Proofs.Policy.Text
import ResidualPolicy.Proofs.Policy.Grammar
import ResidualPolicy.Proofs.Policy.Spelling
import ResidualPolicy.Proofs.Double.Nearest
import ResidualPolicy.Proofs.Double.Shortest
import ResidualPolicy.Proofs.Double.Reading
import ResidualPolicy.Proofs.Number.Text
import ResidualPolicy.Proofs.Policy.Legibility
import ResidualPolicy.Proofs.Evaluation.Legibility
import ResidualPolicy.Proofs.Residual.Rendering
import ResidualPolicy.Proofs.Json.Event
import ResidualPolicy.Proofs.Json.Grammar
import ResidualPolicy.Proofs.Json.Tokens
import ResidualPolicy.Proofs.Json.Library
import ResidualPolicy.Proofs.Json.RoundTrip
import ResidualPolicy.Proofs.Json.Quoted
import ResidualPolicy.Proofs.Notation.Lexing
import ResidualPolicy.Proofs.Notation.Forms
import ResidualPolicy.Proofs.Notation.Position
import ResidualPolicy.Proofs.Notation.Places
import ResidualPolicy.Proofs.Double.Overflow
import ResidualPolicy.Proofs.Number.Numeral
import ResidualPolicy.Proofs.Notation.Numeral
