import Nerfnet.Library.Machine
import Nerfnet.PrimaryRadioInterface
import Nerfnet.SecondaryRadioInterface

/-! # The link

Coordinator and peer joined by the radio: one FIFO in each direction, in which a packet is lost when it
is sent or arrives some time later. The coordinator's thread stands at the top of its loop or waits
for a reply; the peer handles the requests in order; `TunnelThread` reads packets on both sides at any
time.

`sessionStep` is what happens within a session, without what `Run` does between two exchanges;
`step` adds the loop of `Run`, its failure handling and `ConnectionReset`. -/

namespace Nerfnet

/-- A packet on its way. `call` is ghost: it numbers the last `ConnectionReset` call that the sender of
    the packet knew of when it composed it (for the peer: whose Reset it had handled). -/
structure InFlight where
  packet : Bytes
  call : Nat
  deriving DecidableEq

inductive Phase where
  | top
  | exchange (tx : MacFrame)
  | reset
  deriving DecidableEq

/-- `coordPushed` and `peerPushed` list the packets that `TunnelThread` has pushed, `resetCalls` counts
    the Resets sent, and `peerCall` is the call whose Reset the peer handled last: all four are ghost. -/
structure Link where
  coord : PrimaryRadioInterface
  peer : SecondaryRadioInterface
  phase : Phase := .top
  toPeer : List InFlight := []
  toCoord : List InFlight := []
  coordPushed : List Bytes := []
  peerPushed : List Bytes := []
  resetCalls : Nat := 0
  peerCall : Nat := 0
  deriving DecidableEq

inductive ExchangeEvent where
  | coordReads (reads : List Bytes)
  | peerReads (reads : List Bytes)
  | send (reads : List Bytes) (lost radioOk : Bool)
  | receive
  | timeout
  | handle (reads : List Bytes) (lost : Bool)
  deriving DecidableEq

inductive Event where
  | exchange (nowUs : Nat) (e : ExchangeEvent)
  | resetSend (nowUs laterUs flushed : Nat) (lost radioOk : Bool)
  | resetReceive (nowUs flushed : Nat)
  | resetTimeout (nowUs : Nat)
  deriving DecidableEq

namespace Link

/-! ### Exchanges -/

/-- `PerformExchange` up to the end of `Send`. Whether the request gets through and what `Send` reports
    are independent of each other. -/
def send (s : Link) (reads : List Bytes) (lost radioOk : Bool) : Option (Link × Option ExchangeResult) :=
  if s.phase ≠ .top then none
  else
    let coordPushed := s.coordPushed ++ reads.filter isValidIpPacket
    match s.coord.prepareRequest reads with
    | (coord, none) => some ({ s with coord, coordPushed }, some .protocolFailure)
    | (coord, some (tx, request)) =>
      let result := RadioInterface.send request radioOk
      let toPeer := if lost ∨ result = .malformed then s.toPeer else s.toPeer ++ [⟨request, s.resetCalls⟩]
      if result ≠ .success then some ({ s with coord, coordPushed, toPeer }, some .sendFailure)
      else some ({ s with coord, coordPushed, toPeer, phase := .exchange tx }, none)

/-- The rest of `PerformExchange`, with the oldest packet that arrives, whatever request it answers. -/
def receive (s : Link) : Option (Link × Option ExchangeResult) :=
  match s.phase, s.toCoord with
  | .exchange tx, reply :: toCoord =>
    let completed := s.coord.completeExchange tx (some reply.packet)
    some ({ s with coord := completed.1, toCoord, phase := .top }, some completed.2)
  | _, _ => none

def timeout (s : Link) : Option (Link × Option ExchangeResult) :=
  match s.phase with
  | .exchange tx =>
    let completed := s.coord.completeExchange tx none
    some ({ s with coord := completed.1, phase := .top }, some completed.2)
  | _ => none

def isReset (packet : Bytes) : Bool :=
  match decodeMacFrame packet with
  | none => false
  | some frame => frame.type == .reset

/-- One pass of the peer's loop. -/
def handle (s : Link) (reads : List Bytes) (lost : Bool) : Option (Link × Option ExchangeResult) :=
  match s.toPeer with
  | [] => none
  | request :: toPeer =>
    let handled := s.peer.handleRequest request.packet reads
    let peerCall := if isReset request.packet then request.call else s.peerCall
    let toCoord :=
      match handled.2 with
      | none => s.toCoord
      | some reply => if lost then s.toCoord else s.toCoord ++ [⟨reply, peerCall⟩]
    let peerPushed := s.peerPushed ++ reads.filter isValidIpPacket
    some ({ s with peer := handled.1, toPeer, toCoord, peerPushed, peerCall }, none)

/-- The result is that of the `PerformExchange` that the step ends, if it ends one. -/
def exchangeStep (s : Link) (e : ExchangeEvent) : Option (Link × Option ExchangeResult) :=
  match e with
  | .coordReads reads =>
    some ({ s with
      coord := { s.coord with tx := s.coord.tx.tunnelThread reads }
      coordPushed := s.coordPushed ++ reads.filter isValidIpPacket }, none)
  | .peerReads reads =>
    some ({ s with
      peer := { s.peer with tx := s.peer.tx.tunnelThread reads }
      peerPushed := s.peerPushed ++ reads.filter isValidIpPacket }, none)
  | .send reads lost radioOk => s.send reads lost radioOk
  | .receive => s.receive
  | .timeout => s.timeout
  | .handle reads lost => s.handle reads lost

def sessionStep (s : Link) (e : ExchangeEvent) : Option Link := (s.exchangeStep e).map (·.1)

/-! ### The loop of the coordinator -/

/-- An exchange starts only when the loop of `Run` gets to it. -/
def enter (s : Link) (nowUs : Nat) (e : ExchangeEvent) : Option Link :=
  match e with
  | .send _ _ _ =>
    if s.coord.loopAction nowUs = .exchange then some { s with coord := s.coord.setPollInterval } else none
  | _ => some s

def settle (s : Link) (nowUs : Nat) (result : Option ExchangeResult) : Link :=
  match result with
  | none => s
  | some result => { s with coord := s.coord.afterExchange result nowUs }

/-- `ConnectionReset` up to the end of `Send`. `flush_rx` takes the packets that have arrived, the
    `flushed` oldest ones. -/
def resetSend (s : Link) (nowUs laterUs flushed : Nat) (lost radioOk : Bool) : Option Link :=
  if s.phase ≠ .top ∨ s.coord.loopAction nowUs ≠ .reset then none
  else
    let coord := s.coord.setPollInterval.beginConnectionReset
    let toCoord := s.toCoord.drop flushed
    match encodeMacFrame resetFrame with
    | none => some { s with coord := coord.resetFailed laterUs, toCoord }
    | some request =>
      let result := RadioInterface.send request radioOk
      let resetCalls := s.resetCalls + 1
      let toPeer := if lost ∨ result = .malformed then s.toPeer else s.toPeer ++ [⟨request, resetCalls⟩]
      if result ≠ .success then some { s with coord := coord.resetFailed laterUs, toCoord, toPeer, resetCalls }
      else some { s with coord, toCoord, toPeer, resetCalls, phase := .reset }

/-- The rest of `ConnectionReset`, with the oldest packet that arrives. -/
def resetReceive (s : Link) (nowUs flushed : Nat) : Option Link :=
  match s.phase, s.toCoord with
  | .reset, reply :: toCoord =>
    if PrimaryRadioInterface.confirmsReset reply.packet then
      some { s with coord := s.coord.resetSucceeded, toCoord := toCoord.drop flushed, phase := .top }
    else some { s with coord := s.coord.resetFailed nowUs, toCoord, phase := .top }
  | _, _ => none

def resetTimeout (s : Link) (nowUs : Nat) : Option Link :=
  match s.phase with
  | .reset => some { s with coord := s.coord.resetFailed nowUs, phase := .top }
  | _ => none

def step (s : Link) (e : Event) : Option Link :=
  match e with
  | .exchange nowUs e =>
    (s.enter nowUs e).bind fun s => (s.exchangeStep e).map fun t => t.1.settle nowUs t.2
  | .resetSend nowUs laterUs flushed lost radioOk => s.resetSend nowUs laterUs flushed lost radioOk
  | .resetReceive nowUs flushed => s.resetReceive nowUs flushed
  | .resetTimeout nowUs => s.resetTimeout nowUs

/-! ### Where runs start, and which runs -/

/-- The coordinator in its constructor state, and a peer. -/
def initial (pollIntervalUs : Nat) (peer : SecondaryRadioInterface) : Link :=
  { coord := { currentPollIntervalUs := pollIntervalUs }, peer }

/-- Just after a successful reset, with nothing on its way. -/
def afterReset (coord : PrimaryRadioInterface) (peer : SecondaryRadioInterface) : Link :=
  { coord := coord.beginConnectionReset.resetSucceeded, peer := peer.handleReset.1 }

/-- The coordinator sends only when nothing is on its way: each reply is read in its own exchange or
    lost. -/
def OwnExchange (s : Link) (e : Event) : Prop :=
  match e with
  | .exchange _ (.send _ _ _) | .resetSend _ _ _ _ _ => s.toPeer = [] ∧ s.toCoord = []
  | _ => True

instance (s : Link) (e : Event) : Decidable (OwnExchange s e) := by
  unfold OwnExchange
  split <;> infer_instance

/-- The event makes a `ConnectionReset` call return true. -/
def completesReset (s : Link) (e : Event) : Bool :=
  match e, s.phase, s.toCoord with
  | .resetReceive _ _, .reset, reply :: _ => PrimaryRadioInterface.confirmsReset reply.packet
  | _, _, _ => false

end Link

end Nerfnet
