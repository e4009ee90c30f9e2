import LiveUnits.Compiler.External
import LiveUnits.Settings.Read
import LiveUnits.Workspace.Journal
import LiveUnits.Proofs.Build.Absence
import LiveUnits.Proofs.Build.Repetition
import LiveUnits.Proofs.Build.Restriction
import LiveUnits.Proofs.Build.Sources
import LiveUnits.Proofs.Loader.History
import LiveUnits.Proofs.Workspace.Safety
import LiveUnits.Proofs.Catalog.Types
import LiveUnits.Proofs.Loader.Extension
import LiveUnits.Proofs.Loader.Failure
import LiveUnits.Proofs.Workspace.Refusal
import LiveUnits.Proofs.Identity.Derivation
import LiveUnits.Proofs.Container.Variants
import LiveUnits.Proofs.Linkage.Metadata
import LiveUnits.Proofs.Loader.Available
import LiveUnits.Proofs.Container.Confinement
import LiveUnits.Proofs.Compiler.Placeholders
import LiveUnits.Proofs.Host.Reordering
import LiveUnits.Proofs.Loader.Counters
import LiveUnits.Proofs.Build.Writing
