import FatInstall.Main
import FatInstall.Proofs.Acceptance
import FatInstall.Proofs.AllOrNothing
import FatInstall.Proofs.Arrangements
import FatInstall.Proofs.Audit
import FatInstall.Proofs.CheckedRuns
import FatInstall.Proofs.Confinement
import FatInstall.Proofs.Decisions
import FatInstall.Proofs.Destination
import FatInstall.Proofs.DryRun
import FatInstall.Proofs.Fallback
import FatInstall.Proofs.FaultMessage
import FatInstall.Proofs.Footprint
import FatInstall.Proofs.GivenBack
import FatInstall.Proofs.Inputs
import FatInstall.Proofs.Orderly
import FatInstall.Proofs.Overrides
import FatInstall.Proofs.Pasting
import FatInstall.Proofs.Privilege
import FatInstall.Proofs.Rejections
import FatInstall.Proofs.Report
import FatInstall.Proofs.Routes
import FatInstall.Proofs.SetUpOnce
import FatInstall.Proofs.Statuses
import FatInstall.Proofs.Watch
import FatInstall.Shell.Words
import FatInstall.World.Processes
import FatInstall.World.Script
