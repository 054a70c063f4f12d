import Proviso.Derive.Implementation
import Proviso.Validator
import Proviso.Text.Quoted
import Proviso.Proofs.Binary64.Order
import Proviso.Proofs.Derive.Entries
import Proviso.Proofs.Derive.Alignment
import Proviso.Proofs.Derive.Acceptance
import Proviso.Proofs.Function.Reply
import Proviso.Proofs.Function.Bare
import Proviso.Proofs.Rule.Account
import Proviso.Proofs.Rule.Message
import Proviso.Proofs.Rule.Connectives
import Proviso.Proofs.Rule.Selector
import Proviso.Proofs.Rule.Calls
import Proviso.Proofs.Rule.Bare
import Proviso.Proofs.FirstFault
import Proviso.Proofs.Rule.Resolution
import Proviso.Proofs.Schema.Journal
import Proviso.Proofs.Schema.Lookup
import Proviso.Proofs.Schema.Closure
import Proviso.Proofs.Schema.BreadthFirst
import Proviso.Proofs.Schema.Worklist
import Proviso.Proofs.Grammar.Derivation
import Proviso.Proofs.Grammar.Finding
import Proviso.Proofs.Grammar.Nodes
import Proviso.Proofs.Expr.Grouping
import Proviso.Proofs.Clause.Starts
import Proviso.Proofs.Clause.Words
import Proviso.Proofs.Clause.Constants
import Proviso.Proofs.Clause.Operators
import Proviso.Proofs.Clause.Operands
import Proviso.Proofs.Clause.Expressions
import Proviso.Proofs.Clause.Complete
import Proviso.Proofs.Clause.Meaning
import Proviso.Proofs.Clause.Spelling
import Proviso.Proofs.Clause.Readings
import Proviso.Proofs.Clause.RoundTrip
import Proviso.Proofs.Clause.Exact
import Proviso.Proofs.Clause.Locality
import Proviso.Proofs.Clause.Viable
import Proviso.Proofs.Clause.Sought
import Proviso.Proofs.Clause.Composition
import Proviso.Proofs.Clause.Numerals
import Proviso.Proofs.Clause.Shapes
import Proviso.Proofs.Clause.Precedence
import Proviso.Proofs.Clause.Indices
import Proviso.Proofs.Clause.FailurePlace
import Proviso.Proofs.Clause.Following
import Proviso.Proofs.Clause.Expected
import Proviso.Proofs.Clause.Integers
import Proviso.Proofs.Clause.Layers
import Proviso.Proofs.Clause.Arithmetic
import Proviso.Proofs.Clause.ArithmeticExact
import Proviso.Proofs.Rule.Values
import Proviso.Proofs.Rule.Comparison
import Proviso.Proofs.Rule.Coherence
import Proviso.Proofs.Rule.Range
import Proviso.Proofs.Rule.Modular
import Proviso.Proofs.Walk.Itinerary
import Proviso.Proofs.Walk.Play
import Proviso.Proofs.Walk.Report
import Proviso.Proofs.Walk.Reachability
import Proviso.Proofs.Walk.FirstFailure
import Proviso.Proofs.Walk.History
import Proviso.Proofs.Walk.Typing
import Proviso.Proofs.Walk.FailurePath
import Proviso.Proofs.Walk.Registration
import Proviso.Proofs.Walk.Restoration
import Proviso.Proofs.Walk.AbsentField
import Proviso.Proofs.Walk.Stepwise
import Proviso.Proofs.Walk.Termination
import Proviso.Proofs.Function.Format
import Proviso.Proofs.Function.Phone
import Proviso.Proofs.Function.Mail
import Proviso.Proofs.Function.Remembered
import Proviso.Proofs.Walk.UniquePath
