import Deduction.Catalogue
import Deduction.Main
import Deduction.Report
import Deduction.Workbench.Run
import Deduction.Proofs.Cases
import Deduction.Proofs.Exactness
import Deduction.Proofs.OpenLeaves
import Deduction.Proofs.Recognition
import Deduction.Proofs.RoundTrip
import Deduction.Proofs.Script.Storage
import Deduction.Proofs.Script.Height
import Deduction.Proofs.Script.Reordering
import Deduction.Proofs.Script.Translation
import Deduction.Proofs.Command.Checking
import Deduction.Proofs.Command.Accounts
import Deduction.Proofs.Scope.Session
import Deduction.Proofs.Workbench.Provenance
import Deduction.Proofs.Merging
import Deduction.Proofs.Workbench.Leaks
import Deduction.Proofs.Layout
import Deduction.Proofs.ViablePrefix
import Deduction.Proofs.Parentheses
import Deduction.Proofs.Script.Validity
import Deduction.Proofs.Congruence
import Deduction.Proofs.Detours
import Deduction.Proofs.Discharging
import Deduction.Proofs.Printing
import Deduction.Proofs.Builders
import Deduction.Proofs.Encoding
import Deduction.Proofs.Script.Forms
import Deduction.Proofs.Failures
import Deduction.Proofs.Identifiers
