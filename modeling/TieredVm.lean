import TieredVm.Session.Play
import TieredVm.Proofs.Canonical
import TieredVm.Proofs.Recorded
import TieredVm.Proofs.Frame.Backtrace
import TieredVm.Proofs.Frame.Callers
import TieredVm.Proofs.Frame.Captured
import TieredVm.Proofs.Frame.Layout
import TieredVm.Proofs.Frame.Lifecycle
import TieredVm.Proofs.Frame.Moves
import TieredVm.Proofs.Frame.Rejected
import TieredVm.Proofs.Frame.Scoped
import TieredVm.Proofs.Helper.Boundary
import TieredVm.Proofs.Helper.Compiled
import TieredVm.Proofs.Operator.Alike
import TieredVm.Proofs.Operator.Coercion
import TieredVm.Proofs.Operator.Comparison
import TieredVm.Proofs.Operator.Counterparts
import TieredVm.Proofs.Operator.HandOff
import TieredVm.Proofs.Operator.Storage
import TieredVm.Proofs.Reference.Frames
import TieredVm.Proofs.Reference.Interned
import TieredVm.Proofs.Reference.Ledger
import TieredVm.Proofs.Reference.Reentry
import TieredVm.Proofs.Reference.Termination
import TieredVm.Proofs.Value.Codec
