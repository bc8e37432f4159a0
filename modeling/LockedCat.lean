import LockedCat.Main
import LockedCat.Memory
import LockedCat.Proofs.Commands
import LockedCat.Proofs.Protocol
import LockedCat.Script
import LockedCat.Proofs.Verdict
import LockedCat.Proofs.Delivery
import LockedCat.Proofs.Export.Moves
import LockedCat.Proofs.Export.Locks
import LockedCat.Proofs.Export.Snapshot
import LockedCat.Proofs.Export.Holdings
import LockedCat.Proofs.Agreement
import LockedCat.Proofs.Export.Paths
import LockedCat.Proofs.Export.Doubles
import LockedCat.Proofs.Export.ProperTrees
import LockedCat.Proofs.Ports
import LockedCat.Proofs.BarePaths
import LockedCat.Proofs.LocatorText
import LockedCat.Proofs.Reports
import LockedCat.Proofs.MemoryCopies
import LockedCat.Proofs.Shell
import LockedCat.Proofs.Export.Confinement
import LockedCat.Proofs.Queries
import LockedCat.Proofs.Export.Options
import LockedCat.Proofs.Export.Diagnostics
import LockedCat.Proofs.Export.Destinations
import LockedCat.Proofs.Export.ReadOnly
import LockedCat.Proofs.Export.Serving
import LockedCat.Proofs.Export.Repetition
import LockedCat.Proofs.Export.Overrides
import LockedCat.Proofs.Pace
import LockedCat.Proofs.Reads
import LockedCat.Proofs.Modes
import LockedCat.Proofs.Export.Roots
import LockedCat.Proofs.Memory.Accounts
import LockedCat.Proofs.Memory.Moves
import LockedCat.Proofs.Memory.OpenFiles
import LockedCat.Proofs.Memory.Ended
