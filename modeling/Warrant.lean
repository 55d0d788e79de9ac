import Warrant.Expression.Engine
import Warrant.Json.Equality
import Warrant.Main
import Warrant.Permission.Encode
import Warrant.Scope.Covers
import Warrant.Scope.Template
import Warrant.Transform.Group
import Warrant.Proofs.Regex.Positions
import Warrant.Proofs.Scope.Segments
import Warrant.Proofs.Json.Sameness
import Warrant.Proofs.Scope.PatternSource
import Warrant.Proofs.Condition.Merge
import Warrant.Proofs.Permission.Sameness
import Warrant.Proofs.Literal.Reading
import Warrant.Proofs.Permission.Parts
import Warrant.Proofs.Transform.Leaves
import Warrant.Proofs.Transform.Grouping
import Warrant.Proofs.Condition.Equality
import Warrant.Proofs.Condition.Operands
import Warrant.Proofs.Condition.Thorough
import Warrant.Proofs.Ability.Compaction
import Warrant.Proofs.Number.Digits
import Warrant.Proofs.Number.Shortest
import Warrant.Proofs.Number.Layout
import Warrant.Proofs.Literal.RoundTrip
import Warrant.Proofs.Scope.Reading
import Warrant.Proofs.Permission.RoundTrip
import Warrant.Proofs.Permission.Decoding
import Warrant.Proofs.Permission.Rereading
import Warrant.Proofs.Ability.Splitting
import Warrant.Proofs.Scope.Obtainable
import Warrant.Proofs.Literal.Tokens
import Warrant.Proofs.Literal.Grammar
import Warrant.Proofs.Permission.Everywhere
import Warrant.Proofs.Permission.DataRoundTrip
import Warrant.Proofs.Ability.Requests
import Warrant.Proofs.Ability.Narrowing
import Warrant.Proofs.Scope.Coverage
import Warrant.Proofs.Permission.OneLine
import Warrant.Proofs.Policy.Verdicts
import Warrant.Proofs.Condition.WellFormed
import Warrant.Proofs.Condition.Reordering
import Warrant.Proofs.Condition.NamedFields
import Warrant.Proofs.Ability.Contexts
import Warrant.Proofs.Expression.Sessions
import Warrant.Proofs.Json.StringText
import Warrant.Proofs.Scope.Stable
import Warrant.Proofs.Transform.Paths
import Warrant.Proofs.Condition.Associativity
import Warrant.Proofs.Transform.Wrapping
import Warrant.Proofs.Transform.NormalForm
import Warrant.Proofs.Transform.Restrictions
import Warrant.Proofs.Scope.Encodings
import Warrant.Proofs.Permission.Grammar
import Warrant.Proofs.Ability.Comparisons
import Warrant.Proofs.Literal.Relaxed
import Warrant.Proofs.Scope.Preorder
import Warrant.Proofs.Condition.Equivalence
import Warrant.Proofs.Condition.Comparison
import Warrant.Proofs.Scope.Placeholders
import Warrant.Proofs.Literal.InBounds
