import JavaDeps.Main
import JavaDeps.Pages.Setup
import JavaDeps.Trial
import JavaDeps.Proofs.Analysis.Marked
import JavaDeps.Proofs.Analysis.Loops
import JavaDeps.Proofs.Analysis.Order
import JavaDeps.Proofs.Dot.Blocks
import JavaDeps.Proofs.Selection.Unreachable
import JavaDeps.Proofs.Web.Edits
import JavaDeps.Proofs.Web.Agreement
import JavaDeps.Proofs.Analysis.Locality
import JavaDeps.Proofs.Analysis.Comments
import JavaDeps.Proofs.Pages.Chosen
import JavaDeps.Proofs.Pages.Offered
import JavaDeps.Proofs.Edits.Commute
import JavaDeps.Proofs.Selection.Kept
import JavaDeps.Proofs.Web.Success
import JavaDeps.Proofs.Selection.Unknown
import JavaDeps.Proofs.Analysis.Reselected
import JavaDeps.Proofs.Edits.Added
import JavaDeps.Proofs.Dot.Visible
import JavaDeps.Proofs.Java.Cleaned
import JavaDeps.Proofs.Output.Names
import JavaDeps.Proofs.Web.Ports
import JavaDeps.Proofs.Analysis.Types
