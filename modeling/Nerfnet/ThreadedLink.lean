import Nerfnet.Link
import Nerfnet.Threads

/-! # The link, call by call

Coordinator and peer of `Threads` joined by the radio, in any interleaving of their calls and of what
`TunnelThread` reads: `write` puts a packet on its way or loses it, `read` takes the oldest one, and
`flush_rx` the ones that have arrived. -/

namespace Nerfnet

/-- `coordPushed` and `peerPushed` are ghost, as in `Link`. -/
structure ThreadedLink where
  coord : CoordinatorThread
  peer : PeerThread
  toPeer : List Bytes := []
  toCoord : List Bytes := []
  coordPushed : List Bytes := []
  peerPushed : List Bytes := []
  deriving DecidableEq

/-- A step of one of the two loops or of its `TunnelThread`; `lost` is for `write`, `flushed` for
    `flush_rx`. -/
inductive ThreadedEvent where
  | coord (e : ThreadEvent) (lost : Bool) (flushed : Nat)
  | peer (e : ThreadEvent) (lost : Bool) (flushed : Nat)
  deriving DecidableEq

/-- What a call makes of the packets that are on their way from its caller and to it. -/
def DriverCall.onAir (sent arriving : List Bytes) (lost : Bool) (flushed : Nat) : DriverCall → Option (List Bytes × List Bytes)
  | .write packet _ => some (if lost then sent else sent ++ [packet], arriving)
  | .read packet => if arriving.head? = some packet then some (sent, arriving.tail) else none
  | .flushRx => some (sent, arriving.drop flushed)
  | _ => some (sent, arriving)

namespace ThreadEvent

def onAir (sent arriving : List Bytes) (lost : Bool) (flushed : Nat) : ThreadEvent → Option (List Bytes × List Bytes)
  | .call driverCall => driverCall.onAir sent arriving lost flushed
  | .compose _ | .tunnelThread _ => some (sent, arriving)

/-- What `TunnelThread` pushes. -/
def pushed : ThreadEvent → List Bytes
  | .call _ => []
  | .compose reads | .tunnelThread reads => reads.filter isValidIpPacket

end ThreadEvent

namespace ThreadedLink

/-- The first flag of two says whether the coordinator has an `irq_line_`, the other one whether the peer
    has. -/
def step (irq irq' : Bool) (s : ThreadedLink) : ThreadedEvent → Option ThreadedLink
  | .coord e lost flushed =>
    (s.coord.step irq e).bind fun coord => (e.onAir s.toPeer s.toCoord lost flushed).map fun air =>
      { s with coord, toPeer := air.1, toCoord := air.2, coordPushed := s.coordPushed ++ e.pushed }
  | .peer e lost flushed =>
    (s.peer.step irq' e).bind fun peer => (e.onAir s.toCoord s.toPeer lost flushed).map fun air =>
      { s with peer, toCoord := air.1, toPeer := air.2, peerPushed := s.peerPushed ++ e.pushed }

/-- The coordinator in its constructor state, and a peer that has not begun to wait. -/
def initial (pollIntervalUs : Nat) (peer : SecondaryRadioInterface) : ThreadedLink :=
  { coord := { radio := { currentPollIntervalUs := pollIntervalUs } }, peer := { radio := peer } }

end ThreadedLink

end Nerfnet
