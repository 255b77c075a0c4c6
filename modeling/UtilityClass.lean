import UtilityClass.Main
import UtilityClass.Session
import UtilityClass.Proofs.Ledger
import UtilityClass.Proofs.Text.Ascii
import UtilityClass.Proofs.Text.Blank
import UtilityClass.Proofs.Text.Cut
import UtilityClass.Proofs.Value.Address
import UtilityClass.Proofs.Value.Arithmetic
import UtilityClass.Proofs.Value.Blank
import UtilityClass.Proofs.Value.Escape
import UtilityClass.Proofs.Value.Reader
import UtilityClass.Proofs.Value.Recursion
import UtilityClass.Proofs.Value.Syntax
import UtilityClass.Proofs.Value.Validity
import UtilityClass.Proofs.Candidate.Body
import UtilityClass.Proofs.Candidate.BracketedValue
import UtilityClass.Proofs.Candidate.Composition
import UtilityClass.Proofs.Candidate.Declaration
import UtilityClass.Proofs.Candidate.Failures
import UtilityClass.Proofs.Candidate.Flagged
import UtilityClass.Proofs.Candidate.Modifier
import UtilityClass.Proofs.Candidate.Recovery
import UtilityClass.Proofs.Candidate.Segments
import UtilityClass.Proofs.Candidate.Splitting
import UtilityClass.Proofs.Candidate.Token
import UtilityClass.Proofs.Candidate.Trace
import UtilityClass.Proofs.Candidate.Usable
import UtilityClass.Proofs.Candidate.VariantTransparency
import UtilityClass.Proofs.Candidate.WellFormed
import UtilityClass.Proofs.Gate
import UtilityClass.Proofs.Property
import UtilityClass.Proofs.Session.Batch
import UtilityClass.Proofs.Session.Effects
import UtilityClass.Proofs.Session.History
import UtilityClass.Proofs.Session.Memo
import UtilityClass.Proofs.Session.Shared
import UtilityClass.Proofs.Environment.Precedence
import UtilityClass.Proofs.Report.Json
import UtilityClass.Proofs.Report.Results
import UtilityClass.Proofs.Text.Digit
import UtilityClass.Proofs.Value.Verbatim
import UtilityClass.Proofs.Value.Expression
import UtilityClass.Proofs.Value.Spacing
import UtilityClass.Proofs.Value.Number
import UtilityClass.Proofs.Value.Lookahead
import UtilityClass.Proofs.Value.Respacing
import UtilityClass.Proofs.Value.Calls
import UtilityClass.Proofs.Value.Ends
import UtilityClass.Proofs.Value.CanonicalTwice
import UtilityClass.Proofs.Value.Encoding
import UtilityClass.Proofs.Candidate.LastSlash
import UtilityClass.Proofs.Uri.Absolute
import UtilityClass.Proofs.Candidate.Tagging
import UtilityClass.Proofs.Text.Words
import UtilityClass.Proofs.Text.Lines
import UtilityClass.Proofs.Value.Components
import UtilityClass.Proofs.Markup
import UtilityClass.Proofs.Environment.EnvFile
import UtilityClass.Proofs.FileTree
import UtilityClass.Proofs.Environment.Search
import UtilityClass.Proofs.Value.Numeric
import UtilityClass.Proofs.Session.Stores
import UtilityClass.Proofs.CommandLine.Arguments
import UtilityClass.Proofs.CommandLine.Additions
import UtilityClass.Proofs.Report.Findings
import UtilityClass.Proofs.CommandLine.Run
