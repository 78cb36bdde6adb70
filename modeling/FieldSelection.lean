import FieldSelection.Grammar
import FieldSelection.Matcher
import FieldSelection.Matching.Pattern
import FieldSelection.Matching.Widening
import FieldSelection.Node.Builder
import FieldSelection.Node.Edit
import FieldSelection.Node.Tokens
import FieldSelection.Node.Trace
import FieldSelection.Parser.Scan
import FieldSelection.Proofs.ErrorPlace
import FieldSelection.Proofs.Grammar
import FieldSelection.Proofs.Joining
import FieldSelection.Proofs.Matching.Pattern
import FieldSelection.Proofs.Renaming
import FieldSelection.Proofs.RoundTrip
import FieldSelection.Proofs.Node.Bracketing
import FieldSelection.Proofs.Node.CallOrder
import FieldSelection.Proofs.Node.Leaves
import FieldSelection.Proofs.Node.Rebuilding
import FieldSelection.Proofs.Node.Visiting
import FieldSelection.Proofs.Token.LongestMatch
import FieldSelection.Proofs.Visits
import FieldSelection.Node.Rewrite
import FieldSelection.Operation
import FieldSelection.Proofs.Building
import FieldSelection.Proofs.Matching.Widening
import FieldSelection.Proofs.Matching.Renaming
import FieldSelection.Node.Equality
import FieldSelection.Proofs.Node.Digest
import FieldSelection.Proofs.Node.Equality
import FieldSelection.Proofs.Node.Refusal
import FieldSelection.Proofs.Token.Windows
import FieldSelection.Proofs.Words
import FieldSelection.Parser.Combinators
import FieldSelection.Proofs.Parser.Combinators
import FieldSelection.Proofs.Parser.Commitment
import FieldSelection.Proofs.Records
import FieldSelection.Proofs.Text.Quoted
