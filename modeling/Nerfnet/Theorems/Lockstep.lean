import Nerfnet.Theorems.InOrder

/-! # Exchanges without losses

Where nothing is lost, a session goes around three kinds of states: nothing is on its way (`AtRest`),
one request is (`Requested`), or one reply is (`Replied`). Here is what each of the three steps does to
the queues, to the fragments that are accepted but not acknowledged, and to the coordinator's state. -/

namespace Nerfnet

/-! ### What a frame does that is taken at once -/

/-- What is left of a queue once the receiver's acknowledgement has arrived. -/
def Link.confirmed (queue : List Bytes) (ahead : Bool) : List Bytes :=
  if ahead then Transfer.dropFragment kMaxPayloadSize queue else queue

section
variable {a a' b : RadioInterface} {ab ba : List MacFrame} {frame : MacFrame} {ok : Bool}

/-- A frame with the present acknowledgement of `b` retires the fragment of `a` that `b` has accepted. -/
theorem Pair.absorb_ack (h : Pair a b ab (frame :: ba)) (hc : Absorbs a a' frame ok) (hack : frame.ack = b.rx.ackSeq) :
    a'.tx.readBuffer = Link.confirmed a.tx.readBuffer (ahead a.tx b.rx) ∧ ahead a'.tx b.rx = false := by
  have htx : a'.tx = if ahead a.tx b.rx then a.tx.committed else a.tx := by
    rw [hc.tx, hack]
    exact h.forth.commit_ackSeq
  rw [htx, Link.confirmed]
  split
  · exact ⟨rfl, rfl⟩
  · rename_i hnot
    exact ⟨rfl, Bool.eq_false_iff.mpr hnot⟩

/-- A frame with the fragment that `b` has in flight leaves it accepted. -/
theorem Pair.absorb_data (h : Pair a b ab (frame :: ba)) (hc : Absorbs a a' frame ok)
    (hcurrent : frame.type = .data → b.tx.txInFlight = true ∧ frame.seq = b.tx.txInflightSeq) :
    ahead b.tx a'.rx = (decide (frame.type = .data) || ahead b.tx a.rx) := by
  have hrx := hc.rx
  by_cases hdata : frame.type = .data
  · rw [if_pos hdata] at hrx
    obtain ⟨hf, hseq⟩ := hcurrent hdata
    have hahead := h.back.consume_current hdata hf hseq
    rw [← hrx] at hahead
    simpa [hdata] using hahead
  · rw [if_neg hdata, Prod.mk.injEq] at hrx
    simp [hdata, hrx.1]

end

/-! ### The three kinds of states -/

namespace Link
variable {s t : Link} {result : Option ExchangeResult} {reads : List Bytes} {tx rx : MacFrame}

/-- The receiver has accepted the fragment in flight: from the coordinator, and from the peer. -/
def coordAhead (s : Link) : Bool := ahead s.coord.tx s.peer.rx
def peerAhead (s : Link) : Bool := ahead s.peer.tx s.coord.rx

/-- Without requests on their way there is nothing to handle, and without replies nothing to read. -/
theorem Session.handle_eq_none {replies : List MacFrame} {lost : Bool} (h : s.Session [] replies) :
    s.handle reads lost = none := by
  have htoPeer := h.toPeer
  generalize hpackets : s.toPeer = packets at htoPeer
  cases htoPeer
  simp only [handle, hpackets]

theorem Session.receive_eq_none {requests : List MacFrame} (h : s.Session requests []) : s.receive = none := by
  have htoCoord := h.toCoord
  generalize hpackets : s.toCoord = packets at htoCoord
  cases htoCoord
  cases hphase : s.phase <;> simp only [receive, hphase, hpackets]

structure AtRest (s : Link) : Prop where
  session : s.Session [] []
  phase : s.phase = .top

structure Requested (s : Link) (tx : MacFrame) : Prop where
  session : s.Session [tx] []
  phase : s.phase = .exchange tx
  ack : tx.ack = s.coord.rx.ackSeq
  arg : tx.type = .grant → tx.arg = kDefaultBurstGrant
  current : tx.type = .data → s.coord.tx.txInFlight = true ∧ tx.seq = s.coord.tx.txInflightSeq

structure Replied (s : Link) (tx rx : MacFrame) : Prop where
  session : s.Session [] [rx]
  phase : s.phase = .exchange tx
  ack : rx.ack = s.peer.rx.ackSeq
  current : rx.type = .data → s.peer.tx.txInFlight = true ∧ rx.seq = s.peer.tx.txInflightSeq
  behind : s.peerAhead = false
  pending : rx.type = .pending → rx.pending ≠ 0

theorem AtRest.send (h : s.AtRest) (hstate : s.coord.state ≠ .resetSync) (hstep : s.send reads false true = some (t, result)) :
    ∃ tx, t.Requested tx ∧ tx.type = s.coord.nextFrameType ∧
      t.coord.tx.readBuffer = s.coord.tx.readBuffer ++ reads.filter isValidIpPacket ∧ t.coordAhead = s.coordAhead ∧
      t.peer = s.peer ∧ t.peerAhead = s.peerAhead := by
  obtain ⟨r, wasData, tx, request, hcompose, htype, harg, rfl, rfl, ht⟩ := h.session.send_spec hstate hstep
  have hahead := ((h.session.pair.tunnelThread reads).forth.compose hcompose).2.2
  refine ⟨tx, ⟨ht, rfl, ?_, harg, hcompose.current⟩, htype, hcompose.readBuffer, hahead, rfl, ?_⟩
  · rw [hcompose.ack, ← hcompose.rx]
  · simp only [peerAhead, hcompose.rx]
    rfl

/-- The peer retires its fragment if the request acknowledges it, and then looks whether it has data. -/
theorem Requested.handle (h : s.Requested tx) (hstep : s.handle reads false = some (t, result)) :
    ∃ rx, t.Replied tx rx ∧
      rx.type = (if confirmed s.peer.tx.readBuffer s.peerAhead = [] then .ack else if tx.type = .grant then .data else .pending) ∧
      rx.pending = (if confirmed s.peer.tx.readBuffer s.peerAhead = [] then 0 else 1) ∧
      t.peer.tx.readBuffer = confirmed s.peer.tx.readBuffer s.peerAhead ++ reads.filter isValidIpPacket ∧
      t.coord = s.coord ∧ t.coordAhead = (decide (tx.type = .data) || s.coordAhead) := by
  obtain ⟨request, toPeer, frame, requests, r, r', b, g, rx, reply, -, hframe, habsorb, hcompose, htype, hpending, -, rfl, rfl, ht⟩ :=
    h.session.handle_spec hstep
  obtain ⟨rfl, rfl⟩ := List.cons.inj hframe
  have hpair := (h.session.pair.symm.absorb habsorb).2
  obtain ⟨hqueue, hbehind⟩ := h.session.pair.symm.absorb_ack habsorb h.ack
  have hqueue : r.tx.readBuffer = confirmed s.peer.tx.readBuffer s.peerAhead := hqueue
  have hcoord : ahead s.coord.tx r.rx = (decide (tx.type = .data) || s.coordAhead) :=
    h.session.pair.symm.absorb_data habsorb h.current
  have hbehind' : ahead r'.tx s.coord.rx = false := ((hpair.tunnelThread reads).forth.compose hcompose).2.2.trans hbehind
  have htype' : rx.type = (if confirmed s.peer.tx.readBuffer s.peerAhead = [] then .ack
      else if tx.type = .grant then .data else .pending) := by
    rw [htype, ← hqueue]
    exact SecondaryRadioInterface.granted_nextReplyType hpair.forth.wf fun hgrant => by rw [h.arg hgrant]; decide
  have hpending' : rx.pending = (if confirmed s.peer.tx.readBuffer s.peerAhead = [] then 0 else 1) := by
    rw [hpending, ← hqueue]
    simp only [hpair.forth.wf.localHasData, ite_not, ne_eq]
  refine ⟨rx, ⟨ht, h.phase, ?_, hcompose.current, hbehind', fun hp => ?_⟩, htype', hpending', ?_, rfl, ?_⟩
  · rw [hcompose.ack, ← hcompose.rx]
  · have hne : confirmed s.peer.tx.readBuffer s.peerAhead ≠ [] := fun hq => by
      rw [htype', if_pos hq] at hp
      cases hp
    rw [hpending', if_neg hne]
    decide
  · dsimp only
    rw [hcompose.readBuffer, ← hqueue]
    rfl
  · simp only [coordAhead, hcompose.rx]
    exact hcoord

/-- The coordinator retires its fragment if the reply acknowledges it. -/
theorem Replied.receive (h : s.Replied tx rx) (hstep : s.receive = some (t, result)) :
    t.AtRest ∧ result = some .success ∧ t.coord.state = PrimaryRadioInterface.replyState rx ∧
      t.coord.tx.readBuffer = confirmed s.coord.tx.readBuffer s.coordAhead ∧ t.coordAhead = false ∧
      t.peer = s.peer ∧ t.peerAhead = decide (rx.type = .data) := by
  obtain ⟨tx', reply, toCoord, frame, replies, r, -, -, hframe, -, habsorb, rfl, rfl, ht⟩ := h.session.receive_spec hstep
  obtain ⟨rfl, rfl⟩ := List.cons.inj hframe
  obtain ⟨hqueue, hbehind⟩ := h.session.pair.absorb_ack habsorb h.ack
  refine ⟨⟨ht, rfl⟩, rfl, rfl, hqueue, hbehind, rfl, ?_⟩
  have hpeerBehind : ahead s.peer.tx s.coord.rx = false := h.behind
  have hpeer := h.session.pair.absorb_data habsorb h.current
  rwa [hpeerBehind, Bool.or_false] at hpeer

end Link
end Nerfnet
