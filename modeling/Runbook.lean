import Runbook.Main
import Runbook.Proofs.Catalog.Closing
import Runbook.Proofs.Catalog.Concatenation
import Runbook.Proofs.Catalog.Decoding
import Runbook.Proofs.Catalog.Failing
import Runbook.Proofs.Catalog.Placement
import Runbook.Proofs.Catalog.RoundTrip
import Runbook.Proofs.CommandLine.Insertion
import Runbook.Proofs.Execution.Environment
import Runbook.Proofs.Execution.Starting
import Runbook.Proofs.Execution.Wrapping
import Runbook.Proofs.Markdown.Fenced
import Runbook.Proofs.Markdown.Partition
import Runbook.Proofs.Markdown.Spans
import Runbook.Proofs.Placeholder.Soundness
import Runbook.Proofs.Project.Listing
import Runbook.Proofs.Resolution.Abort
import Runbook.Proofs.Resolution.Chain
import Runbook.Proofs.Resolution.Input
import Runbook.Proofs.Resolution.Reachability
import Runbook.Proofs.Resolution.Trail
import Runbook.Proofs.Selection.Columns
import Runbook.Proofs.Selection.Faithfulness
import Runbook.Proofs.Selection.Tolerance
import Runbook.Proofs.Session.Choosing
import Runbook.Proofs.Session.Execution
import Runbook.Proofs.Settings.Precedence
import Runbook.Proofs.Settings.WellFormed
