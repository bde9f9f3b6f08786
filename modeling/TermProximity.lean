import TermProximity.KeyedList.Lemmas
import TermProximity.Call.Printer
import TermProximity.DocumentIndex
import TermProximity.Evaluation
import TermProximity.Json.Forms
import TermProximity.Position
import TermProximity.Settings.Files
import TermProximity.Zone.Filter
import TermProximity.Text.Blank
import TermProximity.Text.Letter
import TermProximity.Text.Numeral
import TermProximity.Text.Escaped
import TermProximity.Proofs.ChainSearch.Least
import TermProximity.Proofs.Window.Scan
import TermProximity.Proofs.Evaluation
import TermProximity.Proofs.Call.RoundTrip
import TermProximity.Proofs.DocumentIndex.History
import TermProximity.Proofs.Evaluation.Series
import TermProximity.KeyedList.Part
import TermProximity.Proofs.Evaluation.Outcome
import TermProximity.Proofs.Evaluation.Locality
import TermProximity.Proofs.Evaluation.Growth
import TermProximity.Proofs.Evaluation.Permutation
import TermProximity.Proofs.Evaluation.Eligibility
import TermProximity.Proofs.Evaluation.Relaxation
import TermProximity.Proofs.Evaluation.Adjacency
import TermProximity.Proofs.Evaluation.Thresholds
import TermProximity.Proofs.Call.Cutting
import TermProximity.Proofs.ChainSearch.Cost
import TermProximity.Proofs.Call.Blame
import TermProximity.Proofs.Call.Spacing
import TermProximity.Proofs.SpanRecord.History
import TermProximity.Proofs.DocumentIndex.Merging
import TermProximity.Proofs.Evaluation.Widths
import TermProximity.Proofs.ChainSearch.Attempts
import TermProximity.Proofs.Resolution.Tables
import TermProximity.Proofs.Directory
import TermProximity.Json.Grammar
import TermProximity.Proofs.Json.Forms
import TermProximity.Proofs.Settings.Files
