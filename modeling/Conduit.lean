import Conduit.Config
import Conduit.Proofs.Call.Couple.Pages
import Conduit.Proofs.Call.Discipline
import Conduit.Proofs.Call.Halfway
import Conduit.Proofs.Call.Outstanding
import Conduit.Proofs.Call.Panics
import Conduit.Proofs.Call.Pinged
import Conduit.Proofs.Call.Refusals
import Conduit.Proofs.Call.Shared.EndToEnd
import Conduit.Proofs.Call.Tags
import Conduit.Proofs.Call.Lives
import Conduit.Proofs.Delay.Transients
import Conduit.Proofs.Slots.Confinement
import Conduit.Proofs.Slots.Fifo
import Conduit.Proofs.Stream.Checked.Queue
import Conduit.Proofs.Stream.Framing
import Conduit.Proofs.Stream.Messages
import Conduit.Proofs.Stream.Reassembly
import Conduit.Proofs.Stream.Retrying
import Conduit.Script.Drill
import Conduit.Script.Run
import Conduit.Proofs.Stream.Available
import Conduit.Proofs.Call.Convention
import Conduit.Proofs.Call.Simple
import Conduit.Proofs.Stream.Bounded
import Conduit.Proofs.Stream.Posting
import Conduit.Proofs.Kernel.Delivery
import Conduit.Proofs.Kernel.Naming
import Conduit.Proofs.Memory.Windows
import Conduit.Proofs.Sizes
import Conduit.Proofs.Call.ProcessNumbers
import Conduit.Proofs.Call.LineInput
import Conduit.Proofs.Replenish.Runs
