import Nerfnet.Link

/-! # The counters

What the roles of `nerfnet/net/primary_radio_interface.cc` and `nerfnet/net/secondary_radio_interface.cc`
count of their frames. Only the STAT lines read the counters, so they stand beside a run of `Link`. The
source counts with `uint64_t`; here the counters are natural numbers, which do not wrap around. -/

namespace Nerfnet

/-- A counter for each type that has an enumerator other than `Invalid`. -/
structure FrameCounts where
  pending : Nat := 0
  grant : Nat := 0
  data : Nat := 0
  ack : Nat := 0
  reset : Nat := 0
  deriving DecidableEq

namespace FrameCounts

def of (counts : FrameCounts) : FrameType → Nat
  | .pending => counts.pending
  | .grant => counts.grant
  | .data => counts.data
  | .ack => counts.ack
  | .reset => counts.reset
  | .invalid | .other _ => 0

/-- The `switch` with a case for each of these types. -/
def record (counts : FrameCounts) : FrameType → FrameCounts
  | .pending => { counts with pending := counts.pending + 1 }
  | .grant => { counts with grant := counts.grant + 1 }
  | .data => { counts with data := counts.data + 1 }
  | .ack => { counts with ack := counts.ack + 1 }
  | .reset => { counts with reset := counts.reset + 1 }
  | .invalid | .other _ => counts

end FrameCounts

/-! ### The coordinator -/

/-- `tx_pending_count_` and its like. A type that the coordinator has no counter for stays at 0. -/
structure CoordinatorStats where
  tx : FrameCounts := {}
  rx : FrameCounts := {}
  txSendFailCount : Nat := 0
  txSendFail : FrameCounts := {}
  rxTimeoutCount : Nat := 0
  deriving DecidableEq

namespace CoordinatorStats

/-- What `ChooseCoordinatorTxFrame` counts, in the branch that chooses the frame. -/
def recordTx (stats : CoordinatorStats) (type : FrameType) : CoordinatorStats :=
  match type with
  | .pending | .grant | .data => { stats with tx := stats.tx.record type }
  | _ => stats

/-- What `ApplyPeerResponse` counts, in the branch that accepts the frame. -/
def recordRx (stats : CoordinatorStats) (type : FrameType) : CoordinatorStats :=
  match type with
  | .ack | .pending | .data => { stats with rx := stats.rx.record type }
  | _ => stats

def recordSendFailure (stats : CoordinatorStats) (type : FrameType) : CoordinatorStats :=
  { stats with txSendFail := stats.txSendFail.record type }

/-- `PerformExchange` up to the end of `Send`. -/
def send (stats : CoordinatorStats) (coord : PrimaryRadioInterface) (reads : List Bytes) (radioOk : Bool) : CoordinatorStats :=
  match (coord.chooseCoordinatorTxFrame reads).2 with
  | none => stats
  | some tx =>
    let stats := stats.recordTx tx.type
    match encodeMacFrame tx with
    | none => stats
    | some request =>
      if RadioInterface.send request radioOk ≠ .success then
        recordSendFailure { stats with txSendFailCount := stats.txSendFailCount + 1 } tx.type
      else stats

/-- The rest of `PerformExchange`, with a response. -/
def receive (stats : CoordinatorStats) (coord : PrimaryRadioInterface) (response : Bytes) : CoordinatorStats :=
  match decodeMacFrame response with
  | none => stats
  | some rx => if (coord.applyPeerResponse rx).2 then stats.recordRx rx.type else stats

/-- `ConnectionReset` counts nothing. -/
def after (stats : CoordinatorStats) (s : Link) : Event → CoordinatorStats
  | .exchange _ (.send reads _ radioOk) => stats.send s.coord.setPollInterval reads radioOk
  | .exchange _ .receive =>
    match s.toCoord with
    | [] => stats
    | reply :: _ => stats.receive s.coord reply.packet
  | .exchange _ .timeout => { stats with rxTimeoutCount := stats.rxTimeoutCount + 1 }
  | _ => stats

end CoordinatorStats

/-! ### The peer -/

/-- `rx_pending_count_` and its like. -/
structure PeerStats where
  rx : FrameCounts := {}
  tx : FrameCounts := {}
  txSendFailCount : Nat := 0
  txSendFail : FrameCounts := {}
  deriving DecidableEq

namespace PeerStats

def recordRx (stats : PeerStats) (type : FrameType) : PeerStats := { stats with rx := stats.rx.record type }

/-- There is no case for a Grant. -/
def recordTx (stats : PeerStats) (type : FrameType) : PeerStats :=
  match type with
  | .grant => stats
  | type => { stats with tx := stats.tx.record type }

def recordSendFailure (stats : PeerStats) (type : FrameType) : PeerStats :=
  { stats with txSendFail := stats.txSendFail.record type }

/-- `++tx_send_fail_count_` and `RecordSendFailure` after a `Send` that fails. -/
def sendFails (stats : PeerStats) (type : FrameType) : PeerStats :=
  recordSendFailure { stats with txSendFailCount := stats.txSendFailCount + 1 } type

/-- `HandleReset`, which counts the answer only if `Send` reports success. -/
def handleReset (stats : PeerStats) (radioOk : Bool) : PeerStats :=
  match encodeMacFrame resetFrame with
  | none => stats
  | some response =>
    if RadioInterface.send response radioOk ≠ .success then stats.sendFails resetFrame.type
    else stats.recordTx resetFrame.type

/-- The rest of a pass of `Run`, which counts the answer in any case. -/
def reply (stats : PeerStats) (tx : MacFrame) (radioOk : Bool) : PeerStats :=
  match encodeMacFrame tx with
  | none => stats
  | some response =>
    let stats := if RadioInterface.send response radioOk ≠ .success then stats.sendFails tx.type else stats
    stats.recordTx tx.type

/-- One pass of the loop of `Run`. -/
def handle (stats : PeerStats) (peer : SecondaryRadioInterface) (request : Bytes) (reads : List Bytes) (radioOk : Bool) :
    PeerStats :=
  match decodeMacFrame request with
  | none => stats
  | some rx =>
    let stats := stats.recordRx rx.type
    if rx.type = .reset then stats.handleReset radioOk
    else
      match peer.applyCoordinatorRequest rx with
      | (_, false) => stats
      | (peer, true) =>
        match (peer.choosePeerResponse reads).2 with
        | none => stats
        | some tx => stats.reply tx radioOk

def after (stats : PeerStats) (s : Link) (radioOk : Bool) : Event → PeerStats
  | .exchange _ (.handle reads _) =>
    match s.toPeer with
    | [] => stats
    | request :: _ => stats.handle s.peer request.packet reads radioOk
  | _ => stats

end PeerStats

/-! ### The link with its counters -/

/-- `refusedReplies` and `refusedRequests` are ghost: the replies that end an exchange with a protocol
    failure, and the requests that the peer does not answer. -/
structure CountedLink where
  link : Link
  coord : CoordinatorStats := {}
  peer : PeerStats := {}
  refusedReplies : Nat := 0
  refusedRequests : Nat := 0

namespace CountedLink

/-- The oldest reply ends its exchange with a protocol failure. -/
def refusesReply (s : Link) : Event → Bool
  | .exchange _ .receive =>
    match s.phase, s.toCoord with
    | .exchange tx, reply :: _ => (s.coord.completeExchange tx (some reply.packet)).2 ≠ .success
    | _, _ => false
  | _ => false

/-- The oldest request is not answered. -/
def refusesRequest (s : Link) : Event → Bool
  | .exchange _ (.handle reads _) =>
    match s.toPeer with
    | [] => false
    | request :: _ => (s.peer.handleRequest request.packet reads).2.isNone
  | _ => false

/-- A step of the link, with what the peer's `Send` reports: only the counters depend on it. -/
def step (s : CountedLink) (e : Event × Bool) : Option CountedLink :=
  (s.link.step e.1).map fun link =>
    { link
      coord := s.coord.after s.link e.1
      peer := s.peer.after s.link e.2 e.1
      refusedReplies := s.refusedReplies + if refusesReply s.link e.1 then 1 else 0
      refusedRequests := s.refusedRequests + if refusesRequest s.link e.1 then 1 else 0 }

end CountedLink

end Nerfnet
