import Nerfnet.Library.Backoff
import Nerfnet.Library.Interruptions
import Nerfnet.Library.Machine
import Nerfnet.Library.Polling
import Nerfnet.Library.Search
import Nerfnet.Library.Segments
import Nerfnet.Library.SelfDelimiting
import Nerfnet.Library.StopAndWait
import Nerfnet.Library.Transfer
import Nerfnet.Link
import Nerfnet.Run
import Nerfnet.TunnelThread
import Nerfnet.ThreadedLink
import Nerfnet.IrqLine
import Nerfnet.Theorems.Codec
import Nerfnet.Theorems.Bijection
import Nerfnet.Theorems.Transmit
import Nerfnet.Theorems.Fragments
import Nerfnet.Theorems.Queue
import Nerfnet.Theorems.Reassembly
import Nerfnet.Theorems.Memory
import Nerfnet.Theorems.Rejection
import Nerfnet.Theorems.InOrder
import Nerfnet.Theorems.Resets
import Nerfnet.Theorems.Fairness
import Nerfnet.Theorems.ControlState
import Nerfnet.Theorems.Grants
import Nerfnet.Theorems.Backoff
import Nerfnet.Theorems.Schedule
import Nerfnet.Theorems.Disconnect
import Nerfnet.Theorems.Advertisement
import Nerfnet.Theorems.Separation
import Nerfnet.Theorems.Survival
import Nerfnet.Theorems.Losses
import Nerfnet.Theorems.Service
import Nerfnet.Theorems.Projection
import Nerfnet.Theorems.Recovery
import Nerfnet.Theorems.Driver
import Nerfnet.Theorems.IrqLine
import Nerfnet.Theorems.Progress
import Nerfnet.Theorems.Refinement
import Nerfnet.Theorems.Adequacy
import Nerfnet.Theorems.ResetCost
import Nerfnet.Theorems.Statistics
import Nerfnet.Theorems.Shutdown
