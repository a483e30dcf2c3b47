import Nullness.Command.Disk
import Nullness.Endpoint
import Nullness.Loading
import Nullness.Main
import Nullness.Memo
import Nullness.Report.Text
import Nullness.Proofs.Precedence
import Nullness.Proofs.DeclarationOrder
import Nullness.Proofs.Irrelevance
import Nullness.Proofs.Dependence
import Nullness.Proofs.Provenance
import Nullness.Proofs.Certainty
import Nullness.Proofs.Callers
import Nullness.Proofs.Acceptance
import Nullness.Proofs.Loaded
import Nullness.Proofs.Types
import Nullness.Proofs.EntryOrder
import Nullness.Proofs.Consistency
import Nullness.Proofs.Homonyms
import Nullness.Proofs.Creation
import Nullness.Proofs.Unqualified
import Nullness.Proofs.Documents
import Nullness.Proofs.Trailing
import Nullness.Proofs.Forms
import Nullness.Proofs.Coverage
import Nullness.Proofs.Worklist
import Nullness.Proofs.Concatenation
import Nullness.Proofs.Policy
import Nullness.Proofs.Constants
import Nullness.Proofs.Sources
import Nullness.Proofs.Targets
import Nullness.Proofs.Defaults
import Nullness.Proofs.Readback
import Nullness.Proofs.Runs
import Nullness.Proofs.Endpoints
