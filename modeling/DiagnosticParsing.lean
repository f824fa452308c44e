import DiagnosticParsing.Grammar.Observers
import DiagnosticParsing.Session
import DiagnosticParsing.Proofs.Ensures
import DiagnosticParsing.Proofs.Everywhere
import DiagnosticParsing.Proofs.Parallel
import DiagnosticParsing.Proofs.Invariant
import DiagnosticParsing.Proofs.Execution
import DiagnosticParsing.Proofs.LogFrame
import DiagnosticParsing.Proofs.Progress
import DiagnosticParsing.Proofs.Explanation
import DiagnosticParsing.Proofs.Silence
import DiagnosticParsing.Proofs.Correspondence
import DiagnosticParsing.Proofs.Rounds
import DiagnosticParsing.Proofs.Expression.Language
import DiagnosticParsing.Proofs.Expression.Reading
import DiagnosticParsing.Proofs.Expression.Levels
import DiagnosticParsing.Proofs.Expression.RoundTrip
import DiagnosticParsing.Proofs.Correspondence.Parsers
import DiagnosticParsing.Proofs.Erasure
import DiagnosticParsing.Proofs.Supervision
import DiagnosticParsing.Proofs.Termination
import DiagnosticParsing.Proofs.RemainingInput
import DiagnosticParsing.Proofs.Approximation
import DiagnosticParsing.Proofs.Approximation.Parsers
import DiagnosticParsing.Proofs.References
import DiagnosticParsing.Proofs.FixedPoint
import DiagnosticParsing.Proofs.Labels
import DiagnosticParsing.Proofs.Reuse
import DiagnosticParsing.Proofs.MessagePositions
import DiagnosticParsing.Proofs.Safety
import DiagnosticParsing.Proofs.Soundness.Typing
import DiagnosticParsing.Proofs.Soundness.Cells
import DiagnosticParsing.Proofs.Soundness
import DiagnosticParsing.Proofs.Factoring
import DiagnosticParsing.Proofs.Congruence
import DiagnosticParsing.Proofs.Compositional
import DiagnosticParsing.Proofs.Accounts
import DiagnosticParsing.Proofs.Tracing
import DiagnosticParsing.Proofs.Chronicle
import DiagnosticParsing.Proofs.Building
import DiagnosticParsing.Proofs.Lossless
import DiagnosticParsing.Proofs.Encoding
import DiagnosticParsing.Proofs.Encoding.Agreement
import DiagnosticParsing.Proofs.Endings
import DiagnosticParsing.Proofs.ProperReplies
import DiagnosticParsing.Proofs.Expression.Splitting
import DiagnosticParsing.Proofs.Sequencing
import DiagnosticParsing.Proofs.Endings.Parsers
import DiagnosticParsing.Proofs.Rounds.Simulation
import DiagnosticParsing.Proofs.Repetition
import DiagnosticParsing.Proofs.Chains.Folding
import DiagnosticParsing.Proofs.Chains.Recursion
import DiagnosticParsing.Proofs.Chains
import DiagnosticParsing.Proofs.Separators
import DiagnosticParsing.Proofs.Counting
import DiagnosticParsing.Proofs.OrderedChoice
import DiagnosticParsing.Proofs.Sequencing.Laws
import DiagnosticParsing.Proofs.Predicates
import DiagnosticParsing.Proofs.Elements
import DiagnosticParsing.Proofs.WhiteSpace
import DiagnosticParsing.Proofs.EndOfInput
import DiagnosticParsing.Proofs.CharacterClasses
import DiagnosticParsing.Proofs.Copies
import DiagnosticParsing.Proofs.Positions
