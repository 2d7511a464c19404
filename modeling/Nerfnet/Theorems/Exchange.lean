import Nerfnet.Theorems.Control
import Nerfnet.Theorems.Session

/-! # Exchanges within a session

While both parties are in a session, every frame on its way is one that its receiver accepts
(`Link.Live`), so no exchange ends in a protocol failure, and every event of an exchange moves the
packets of both directions as `Transfer` says (`Link.Moved`). -/

namespace Nerfnet

theorem send_of_encode {frame : MacFrame} {packet : Bytes} (h : encodeMacFrame frame = some packet) (radioOk : Bool) :
    RadioInterface.send packet radioOk = if radioOk then .success else .transmitError := by
  rw [RadioInterface.send, encodeMacFrame_length h, if_neg (lt_irrefl _)]

theorem PrimaryRadioInterface.nextFrameType_isRequest (s : PrimaryRadioInterface) : s.nextFrameType.isRequest = true := by
  unfold nextFrameType
  split_ifs <;> rfl

theorem SecondaryRadioInterface.nextReplyType_isReply (s : SecondaryRadioInterface) : s.nextReplyType.isReply = true := by
  unfold nextReplyType
  split_ifs <;> rfl

/-! ### One pass of the peer -/

/-- An accepted request is answered. -/
theorem SecondaryRadioInterface.handleRequest_accepted {s s' : SecondaryRadioInterface} {packet : Bytes} {request : MacFrame}
    (reads : List Bytes) (hdecode : decodeMacFrame packet = some request) (htype : request.type.isRequest = true)
    (haccept : s.applyCoordinatorRequest request = (s', true)) (hwf : s'.tx.Wf) :
    ∃ r grantBudget grantedToSend tx reply, s.handleRequest packet reads =
        ({ s' with toRadioInterface := r, grantBudget, grantedToSend }, some reply) ∧
      Composes (s'.tunnelThread reads) r tx ∧ tx.type = s'.nextReplyType ∧
      tx.pending = (if s'.tx.localHasData then 1 else 0) ∧
      encodeMacFrame tx = some reply ∧ decodeMacFrame reply = some tx := by
  obtain ⟨r, grantBudget, grantedToSend, tx, hchoose, hcompose, hreply, hpending⟩ := choosePeerResponse_spec reads hwf
  obtain ⟨reply, hencode, hreply'⟩ := exists_encode hcompose.wellFormed
  have hnot : request.type ≠ .reset := fun h => by rw [h] at htype; cases htype
  refine ⟨r, grantBudget, grantedToSend, tx, reply, ?_, hcompose, hreply, hpending, hencode, hreply'⟩
  simp only [handleRequest, hdecode]
  rw [if_neg hnot, haccept]
  simp only [hchoose, hencode]

/-! ### One exchange of the coordinator -/

namespace PrimaryRadioInterface
variable {s : PrimaryRadioInterface}

theorem prepareRequest_spec (reads : List Bytes) (hwf : s.tx.Wf) (hstate : s.state ≠ .resetSync) :
    ∃ r wasData tx request, s.prepareRequest reads =
        ({ s with toRadioInterface := r, lastTxWasData := wasData }, some (tx, request)) ∧
      Composes (s.tunnelThread reads) r tx ∧ tx.type = s.nextFrameType ∧ (tx.type = .grant → tx.arg = kDefaultBurstGrant) ∧
      encodeMacFrame tx = some request ∧ decodeMacFrame request = some tx := by
  obtain ⟨r, wasData, tx, hchoose, hcompose, htype, harg⟩ := chooseCoordinatorTxFrame_spec reads hwf hstate
  obtain ⟨request, hencode, hdecode⟩ := exists_encode hcompose.wellFormed
  exact ⟨r, wasData, tx, request, by simp only [prepareRequest, hchoose, hencode, Option.map_some], hcompose, htype, harg,
    hencode, hdecode⟩

/-- What the exchange makes of `consecutive_local_data_frames_` when its reply is accepted. -/
def nextConsecutive (s : PrimaryRadioInterface) (tx rx : MacFrame) : UInt8 :=
  if tx.type = .data ∧ rx.type ≠ .data then .ofNat (min (s.consecutiveLocalDataFrames.toNat + 1) 255)
  else if tx.type ≠ .data ∨ rx.type = .data then 0
  else s.consecutiveLocalDataFrames

theorem completeExchange_accepted {r : RadioInterface} {tx rx : MacFrame} {packet : Bytes}
    (hdecode : decodeMacFrame packet = some rx) (happly : s.applyPeerResponse rx =
      ({ s with toRadioInterface := r, peerHasPending := rx.pending != 0, state := replyState rx }, true)) :
    s.completeExchange tx (some packet) =
      ({ s with
          toRadioInterface := r
          peerHasPending := rx.pending != 0
          state := replyState rx
          consecutiveLocalDataFrames := s.nextConsecutive tx rx }, .success) := by
  simp only [completeExchange, hdecode, happly, if_true, nextConsecutive]

end PrimaryRadioInterface

/-! ### The link -/

def ExchangeEvent.isSend : ExchangeEvent → Bool
  | .send _ _ _ => true
  | _ => false

/-- What `TunnelThread` reads in the event, at the coordinator and at the peer. -/
def ExchangeEvent.coordTunnel : ExchangeEvent → List Bytes
  | .coordReads reads | .send reads _ _ => reads
  | _ => []

def ExchangeEvent.peerTunnel : ExchangeEvent → List Bytes
  | .peerReads reads | .handle reads _ => reads
  | _ => []

namespace Link
variable {s t : Link} {result : Option ExchangeResult} {reads : List Bytes} {lost radioOk : Bool} {e : ExchangeEvent}

/-- The packets of the direction from the coordinator to the peer, and of the other one. -/
def coordView (s : Link) : Transfer.State UInt8 := view s.coordPushed s.coord.tx s.peer.rx
def peerView (s : Link) : Transfer.State UInt8 := view s.peerPushed s.peer.tx s.coord.rx

structure Moved (s t : Link) : Prop where
  coord : Moves s.coordView t.coordView
  peer : Moves s.peerView t.peerView

/-- No packet of the queues is empty, as `TunnelThread` sees to. -/
structure NonemptyPackets (s : Link) : Prop where
  coord : ∀ packet ∈ s.coord.tx.readBuffer, packet ≠ []
  peer : ∀ packet ∈ s.peer.tx.readBuffer, packet ≠ []

/-- `frames` are what the packets on their way decode to. -/
def Decodes (packets : List InFlight) (frames : List MacFrame) : Prop :=
  List.Forall₂ (fun packet frame => decodeMacFrame packet.packet = some frame) packets frames

structure Session (s : Link) (requests replies : List MacFrame) : Prop where
  toPeer : Decodes s.toPeer requests
  toCoord : Decodes s.toCoord replies
  pair : Pair s.coord.toRadioInterface s.peer.toRadioInterface requests replies
  isRequest : ∀ frame ∈ requests, frame.type.isRequest = true
  isReply : ∀ frame ∈ replies, frame.type.isReply = true

/-- Coordinator and peer are in one session, and so is everything on its way. -/
def Live (s : Link) : Prop := ∃ requests replies, s.Session requests replies

theorem Decodes.snoc {packets : List InFlight} {frames : List MacFrame} (h : Decodes packets frames) {packet : InFlight}
    {frame : MacFrame} (hdecode : decodeMacFrame packet.packet = some frame) :
    Decodes (packets ++ [packet]) (frames ++ [frame]) :=
  List.rel_append h (.cons hdecode .nil)

theorem live_afterReset (coord : PrimaryRadioInterface) (peer : SecondaryRadioInterface) : (afterReset coord peer).Live :=
  ⟨[], [], .nil, .nil, Pair.start _ _, nofun, nofun⟩

/-! ### What an event does, whatever is on its way -/

/-- `PerformExchange` up to the end of `Send`: it fails, or the request waits for its reply. -/
theorem send_cases (hstep : s.send reads lost radioOk = some (t, result)) :
    s.phase = .top ∧ ∃ sent phase, (∀ request ∈ sent, request.call = s.resetCalls) ∧
      t = { s with
        coord := (s.coord.prepareRequest reads).1
        coordPushed := s.coordPushed ++ reads.filter isValidIpPacket
        toPeer := s.toPeer ++ sent
        phase } ∧
      ((phase = .top ∧ (result = some .protocolFailure ∨ result = some .sendFailure)) ∨
        ∃ tx, phase = .exchange tx ∧ result = none) := by
  unfold send at hstep
  split at hstep
  · cases hstep
  · rename_i htop
    have htop : s.phase = .top := not_not.mp htop
    refine ⟨htop, ?_⟩
    split at hstep
    · rename_i hprepare
      cases hstep
      exact ⟨[], .top, by simp, by simp [hprepare, htop], Or.inl ⟨rfl, Or.inl rfl⟩⟩
    · rename_i coord tx request hprepare
      let sent : List InFlight := if lost ∨ RadioInterface.send request radioOk = .malformed then [] else [⟨request, s.resetCalls⟩]
      have hsent : ∀ r ∈ sent, r.call = s.resetCalls := fun r hr => by
        simp only [sent] at hr
        split at hr
        · cases hr
        · rw [List.mem_singleton.mp hr]
      have htoPeer : (if lost ∨ RadioInterface.send request radioOk = .malformed then s.toPeer
          else s.toPeer ++ [⟨request, s.resetCalls⟩]) = s.toPeer ++ sent := by
        simp only [sent]
        split <;> simp
      dsimp only at hstep
      rw [htoPeer] at hstep
      split at hstep <;> cases hstep
      · exact ⟨sent, .top, hsent, by simp [hprepare, htop], Or.inl ⟨rfl, Or.inr rfl⟩⟩
      · exact ⟨sent, .exchange tx, hsent, by simp [hprepare], Or.inr ⟨tx, rfl, rfl⟩⟩

theorem receive_cases (hstep : s.receive = some (t, result)) :
    ∃ tx reply toCoord, s.phase = .exchange tx ∧ s.toCoord = reply :: toCoord ∧
      t = { s with coord := (s.coord.completeExchange tx (some reply.packet)).1, toCoord, phase := .top } ∧
      result = some (s.coord.completeExchange tx (some reply.packet)).2 := by
  unfold receive at hstep
  split at hstep
  · rename_i tx reply toCoord hphase hcoord
    cases hstep
    exact ⟨tx, reply, toCoord, hphase, hcoord, rfl, rfl⟩
  · cases hstep

theorem timeout_cases (hstep : s.timeout = some (t, result)) :
    ∃ tx, s.phase = .exchange tx ∧ t = { s with phase := .top } ∧ result = some .timeoutFailure := by
  unfold timeout at hstep
  split at hstep
  · rename_i tx hphase
    cases hstep
    exact ⟨tx, hphase, rfl, rfl⟩
  · cases hstep

/-- The peer handles its oldest request, and its reply, if there is one, is sent or lost. -/
theorem handle_cases (hstep : s.handle reads lost = some (t, result)) :
    ∃ request toPeer peerCall, s.toPeer = request :: toPeer ∧
      peerCall = (if isReset request.packet then request.call else s.peerCall) ∧
      t = { s with
        peer := (s.peer.handleRequest request.packet reads).1
        toPeer
        toCoord := s.toCoord ++
          if lost then [] else ((s.peer.handleRequest request.packet reads).2.map (⟨·, peerCall⟩)).toList
        peerPushed := s.peerPushed ++ reads.filter isValidIpPacket
        peerCall } ∧
      result = none := by
  unfold handle at hstep
  split at hstep
  · cases hstep
  · rename_i request toPeer hpeer
    cases hstep
    refine ⟨request, toPeer, _, hpeer, rfl, ?_, rfl⟩
    cases (s.peer.handleRequest request.packet reads).2 <;> cases lost <;> simp

/-- What `PerformExchange` does up to the end of `Send`, for a synchronised coordinator. -/
theorem send_spec (hwf : s.coord.tx.Wf) (hstate : s.coord.state ≠ .resetSync)
    (hstep : s.send reads lost radioOk = some (t, result)) :
    s.phase = .top ∧ ∃ r wasData tx request, Composes (s.coord.tunnelThread reads) r tx ∧ tx.type = s.coord.nextFrameType ∧
      (tx.type = .grant → tx.arg = kDefaultBurstGrant) ∧ decodeMacFrame request = some tx ∧
      t = { s with
        coord := { s.coord with toRadioInterface := r, lastTxWasData := wasData }
        coordPushed := s.coordPushed ++ reads.filter isValidIpPacket
        toPeer := if lost then s.toPeer else s.toPeer ++ [⟨request, s.resetCalls⟩]
        phase := if radioOk then .exchange tx else .top } ∧
      result = if radioOk then none else some .sendFailure := by
  obtain ⟨r, wasData, tx, request, hprepare, hcompose, htype, harg, hencode, hdecode⟩ :=
    PrimaryRadioInterface.prepareRequest_spec reads hwf hstate
  by_cases hphase : s.phase = .top
  · refine ⟨hphase, r, wasData, tx, request, hcompose, htype, harg, hdecode, ?_⟩
    rw [send, if_neg (not_not.mpr hphase)] at hstep
    simp only [hprepare, send_of_encode hencode] at hstep
    cases radioOk <;> cases lost <;> simp at hstep <;> obtain ⟨rfl, rfl⟩ := hstep <;> simp [hphase]
  · rw [send, if_pos hphase] at hstep
    cases hstep

theorem Live.wf (h : s.Live) : s.coord.tx.Wf ∧ s.peer.tx.Wf := by
  obtain ⟨requests, replies, hs⟩ := h
  exact ⟨hs.pair.forth.wf, hs.pair.back.wf⟩

/-- A frame that is sent joins the session. -/
theorem Session.send_spec {requests replies : List MacFrame} (h : s.Session requests replies)
    (hstate : s.coord.state ≠ .resetSync) (hstep : s.send reads lost radioOk = some (t, result)) :
    ∃ r wasData tx request, Composes (s.coord.tunnelThread reads) r tx ∧ tx.type = s.coord.nextFrameType ∧
      (tx.type = .grant → tx.arg = kDefaultBurstGrant) ∧
      t = { s with
        coord := { s.coord with toRadioInterface := r, lastTxWasData := wasData }
        coordPushed := s.coordPushed ++ reads.filter isValidIpPacket
        toPeer := if lost then s.toPeer else s.toPeer ++ [⟨request, s.resetCalls⟩]
        phase := if radioOk then .exchange tx else .top } ∧
      result = (if radioOk then none else some .sendFailure) ∧
      t.Session (if lost then requests else requests ++ [tx]) replies := by
  obtain ⟨-, r, wasData, tx, request, hcompose, htype, harg, hdecode, rfl, rfl⟩ := Link.send_spec h.pair.forth.wf hstate hstep
  obtain ⟨hlost, hsent⟩ := (h.pair.tunnelThread reads).compose hcompose
  refine ⟨r, wasData, tx, request, hcompose, htype, harg, rfl, rfl, ?_⟩
  cases lost with
  | true => exact ⟨h.toPeer, h.toCoord, hlost, h.isRequest, h.isReply⟩
  | false =>
    refine ⟨h.toPeer.snoc hdecode, h.toCoord, hsent, fun f hf => ?_, h.isReply⟩
    rcases List.mem_append.mp hf with hf | hf
    · exact h.isRequest f hf
    · rw [List.mem_singleton.mp hf, htype]
      exact s.coord.nextFrameType_isRequest

/-- What `PerformExchange` does with a reply within a session. -/
theorem Session.receive_spec {requests replies : List MacFrame} (h : s.Session requests replies)
    (hstep : s.receive = some (t, result)) :
    ∃ tx reply toCoord rx replies' r, s.phase = .exchange tx ∧ s.toCoord = reply :: toCoord ∧ replies = rx :: replies' ∧
      rx.type.isReply = true ∧ Absorbs s.coord.toRadioInterface r rx true ∧
      t = { s with
        coord := { s.coord with
          toRadioInterface := r
          peerHasPending := rx.pending != 0
          state := PrimaryRadioInterface.replyState rx
          consecutiveLocalDataFrames := s.coord.nextConsecutive tx rx }
        toCoord
        phase := .top } ∧
      result = some .success ∧ t.Session requests replies' := by
  obtain ⟨tx, reply, toCoord, hphase, hcoord, rfl, rfl⟩ := receive_cases hstep
  have htoCoord := h.toCoord
  rw [hcoord] at htoCoord
  obtain - | ⟨hdecode, hrest⟩ := htoCoord
  rename_i rx replies'
  obtain ⟨r, ok, habsorb, hcase⟩ := s.coord.applyPeerResponse_spec rx
  obtain ⟨rfl, hpair⟩ := h.pair.absorb habsorb
  have hreply := h.isReply rx List.mem_cons_self
  rcases hcase with ⟨-, -, happly⟩ | ⟨hbad, -⟩
  · rw [PrimaryRadioInterface.completeExchange_accepted hdecode happly]
    exact ⟨tx, reply, toCoord, rx, replies', r, hphase, hcoord, rfl, hreply, habsorb, rfl, rfl,
      h.toPeer, hrest, hpair, h.isRequest, fun f hf => h.isReply f (List.mem_cons_of_mem _ hf)⟩
  · simp [hreply] at hbad

/-- What a pass of the peer's loop does within a session. -/
theorem Session.handle_spec {requests replies : List MacFrame} (h : s.Session requests replies)
    (hstep : s.handle reads lost = some (t, result)) :
    ∃ request toPeer frame requests' r r' grantBudget grantedToSend tx reply,
      s.toPeer = request :: toPeer ∧ requests = frame :: requests' ∧ Absorbs s.peer.toRadioInterface r frame true ∧
      Composes (r.tunnelThread reads) r' tx ∧ tx.type = (SecondaryRadioInterface.granted r frame).nextReplyType ∧
      tx.pending = (if r.tx.localHasData then 1 else 0) ∧ decodeMacFrame reply = some tx ∧
      t = { s with
        peer := { toRadioInterface := r', grantBudget, grantedToSend }
        toPeer
        toCoord := if lost then s.toCoord else s.toCoord ++ [⟨reply, s.peerCall⟩]
        peerPushed := s.peerPushed ++ reads.filter isValidIpPacket } ∧
      result = none ∧ t.Session requests' (if lost then replies else replies ++ [tx]) := by
  obtain ⟨request, toPeer, peerCall, hpeer, rfl, rfl, rfl⟩ := handle_cases hstep
  have htoPeer := h.toPeer
  rw [hpeer] at htoPeer
  obtain - | ⟨hdecode, hrest⟩ := htoPeer
  rename_i frame requests'
  obtain ⟨r, ok, habsorb, hcase⟩ := s.peer.applyCoordinatorRequest_spec frame
  obtain ⟨rfl, hpair⟩ := h.pair.symm.absorb habsorb
  have hrequest := h.isRequest frame List.mem_cons_self
  rcases hcase with ⟨-, -, haccept⟩ | ⟨hbad, -⟩
  · obtain ⟨r', grantBudget, grantedToSend, tx, reply, hhandle, hcompose, htype, hpending, -, hreply⟩ :=
      SecondaryRadioInterface.handleRequest_accepted reads hdecode hrequest haccept hpair.forth.wf
    obtain ⟨hlost, hsent⟩ := (hpair.tunnelThread reads).compose hcompose
    have hnot : isReset request.packet = false := by
      simp only [isReset, hdecode]
      cases ht : frame.type <;> simp_all [FrameType.isRequest]
    have hrequests : ∀ f ∈ requests', f.type.isRequest = true := fun f hf => h.isRequest f (List.mem_cons_of_mem _ hf)
    rw [hhandle, hnot]
    refine ⟨request, toPeer, frame, requests', r, r', grantBudget, grantedToSend, tx, reply, hpeer, rfl, habsorb,
      hcompose, htype, hpending, hreply, by cases lost <;> simp, rfl, ?_⟩
    cases lost with
    | true => exact ⟨hrest, by simpa using h.toCoord, hlost.symm, hrequests, h.isReply⟩
    | false =>
      refine ⟨hrest, h.toCoord.snoc hreply, hsent.symm, hrequests, fun f hf => ?_⟩
      rcases List.mem_append.mp hf with hf | hf
      · exact h.isReply f hf
      · rw [List.mem_singleton.mp hf, htype]
        exact (SecondaryRadioInterface.granted r frame).nextReplyType_isReply
  · simp [hrequest] at hbad

theorem Session.coordReads {requests replies : List MacFrame} (h : s.Session requests replies) (reads : List Bytes) :
    Session { s with
      coord := { s.coord with tx := s.coord.tx.tunnelThread reads }
      coordPushed := s.coordPushed ++ reads.filter isValidIpPacket } requests replies :=
  ⟨h.toPeer, h.toCoord, h.pair.tunnelThread reads, h.isRequest, h.isReply⟩

theorem Session.peerReads {requests replies : List MacFrame} (h : s.Session requests replies) (reads : List Bytes) :
    Session { s with
      peer := { s.peer with tx := s.peer.tx.tunnelThread reads }
      peerPushed := s.peerPushed ++ reads.filter isValidIpPacket } requests replies :=
  ⟨h.toPeer, h.toCoord, (h.pair.symm.tunnelThread reads).symm, h.isRequest, h.isReply⟩

/-- Within a session no exchange ends in a protocol failure, and every event keeps the session and
    moves its packets. -/
theorem Live.exchangeStep (h : s.Live) (hstate : e.isSend = true → s.coord.state ≠ .resetSync)
    (hstep : s.exchangeStep e = some (t, result)) :
    t.Live ∧ result ≠ some .protocolFailure ∧ (s.NonemptyPackets → s.Moved t) := by
  obtain ⟨requests, replies, hs⟩ := h
  cases e with
  | coordReads reads =>
    cases hstep
    exact ⟨⟨requests, replies, hs.coordReads reads⟩, by simp, fun _ => ⟨moves_tunnelThread .., .refl⟩⟩
  | peerReads reads =>
    cases hstep
    exact ⟨⟨requests, replies, hs.peerReads reads⟩, by simp, fun _ => ⟨.refl, moves_tunnelThread ..⟩⟩
  | send reads lost radioOk =>
    obtain ⟨r, wasData, tx, request, hcompose, -, -, rfl, rfl, ht⟩ := hs.send_spec (hstate rfl) hstep
    obtain ⟨htx, hrx⟩ := (hs.pair.tunnelThread reads).compose_view (s.coordPushed ++ reads.filter isValidIpPacket) s.peerPushed
      hcompose
    refine ⟨⟨_, _, ht⟩, by cases radioOk <;> simp, fun _ => ⟨?_, ?_⟩⟩
    · simp only [coordView, htx]
      exact moves_tunnelThread ..
    · simp only [peerView, hrx]
      rfl
  | receive =>
    obtain ⟨tx, reply, toCoord, rx, replies', r, -, -, rfl, -, habsorb, rfl, rfl, ht⟩ := hs.receive_spec hstep
    refine ⟨⟨requests, replies', ht⟩, by simp, fun hne => ?_⟩
    obtain ⟨hforth, hback⟩ := hs.pair.absorb_moves s.coordPushed s.peerPushed habsorb hne.peer
    exact ⟨hforth, hback⟩
  | timeout =>
    obtain ⟨tx, -, rfl, rfl⟩ := timeout_cases hstep
    exact ⟨⟨requests, replies, hs.toPeer, hs.toCoord, hs.pair, hs.isRequest, hs.isReply⟩, by simp, fun _ => ⟨.refl, .refl⟩⟩
  | handle reads lost =>
    obtain ⟨request, toPeer, frame, requests', r, r', b, g, tx, reply, -, rfl, habsorb, hcompose, -, -, -, rfl, rfl, ht⟩ :=
      hs.handle_spec hstep
    refine ⟨⟨requests', _, ht⟩, by simp, fun hne => ?_⟩
    have hpair := (hs.pair.symm.absorb habsorb).2.tunnelThread reads
    obtain ⟨hforth, hback⟩ := hs.pair.symm.absorb_moves s.peerPushed s.coordPushed habsorb hne.coord
    obtain ⟨hforth', hback'⟩ := hpair.compose_view (s.peerPushed ++ reads.filter isValidIpPacket) s.coordPushed
      hcompose
    refine ⟨?_, ?_⟩
    · simp only [coordView, hback']
      exact hback
    · simp only [peerView, hforth']
      exact hforth.trans (moves_tunnelThread ..)

/-- How an event moves the coordinator's thread: it sends a request and waits, or an exchange ends. -/
inductive PhaseChange (e : ExchangeEvent) : Phase → Option ExchangeResult → Phase → Prop
  | stay (phase : Phase) : PhaseChange e phase none phase
  | sent (tx : MacFrame) : e.isSend = true → PhaseChange e .top none (.exchange tx)
  | failed (result : ExchangeResult) : e.isSend = true → PhaseChange e .top (some result) .top
  | ended (tx : MacFrame) (result : ExchangeResult) : PhaseChange e (.exchange tx) (some result) .top

/-- What holds of an event whatever is on its way. The ghost lists grow by what `TunnelThread` reads. -/
structure EventFrame (s : Link) (e : ExchangeEvent) (t : Link) (result : Option ExchangeResult) : Prop where
  keeps : PrimaryRadioInterface.KeepsRun s.coord t.coord
  phase : PhaseChange e s.phase result t.phase
  coordPushed : t.coordPushed = s.coordPushed ++ e.coordTunnel.filter isValidIpPacket
  peerPushed : t.peerPushed = s.peerPushed ++ e.peerTunnel.filter isValidIpPacket

theorem exchangeStep_frame (hstep : s.exchangeStep e = some (t, result)) : s.EventFrame e t result := by
  have hnil : ∀ packets : List Bytes, packets = packets ++ ([] : List Bytes).filter isValidIpPacket := by simp
  cases e with
  | coordReads reads =>
    cases hstep
    exact ⟨⟨rfl, rfl, rfl, rfl, id⟩, .stay _, rfl, hnil _⟩
  | peerReads reads =>
    cases hstep
    exact ⟨.refl _, .stay _, hnil _, rfl⟩
  | send reads lost radioOk =>
    obtain ⟨htop, sent, phase, -, rfl, hcase⟩ := send_cases hstep
    refine ⟨s.coord.prepareRequest_keeps reads, ?_, rfl, hnil _⟩
    rw [htop]
    rcases hcase with ⟨rfl, rfl | rfl⟩ | ⟨tx, rfl, rfl⟩
    · exact .failed _ rfl
    · exact .failed _ rfl
    · exact .sent _ rfl
  | receive =>
    obtain ⟨tx, reply, toCoord, hphase, -, rfl, rfl⟩ := receive_cases hstep
    exact ⟨s.coord.completeExchange_keeps _ _, hphase ▸ .ended _ _, hnil _, hnil _⟩
  | timeout =>
    obtain ⟨tx, hphase, rfl, rfl⟩ := timeout_cases hstep
    exact ⟨.refl _, hphase ▸ .ended _ _, hnil _, hnil _⟩
  | handle reads lost =>
    obtain ⟨request, toPeer, peerCall, -, -, rfl, rfl⟩ := handle_cases hstep
    exact ⟨.refl _, .stay _, hnil _, rfl⟩

theorem PhaseChange.ne_reset {phase phase' : Phase} (h : PhaseChange e phase result phase') (hphase : phase ≠ .reset) :
    phase' ≠ .reset := by
  cases h with
  | stay => exact hphase
  | sent | failed | ended => simp

/-- An accepted reply without pending data leaves the coordinator idle, and only such a reply does. -/
theorem Session.exchangeStep_idle {requests replies : List MacFrame} (h : s.Session requests replies)
    (hstate : e.isSend = true → s.coord.state ≠ .resetSync) (hstep : s.exchangeStep e = some (t, result))
    (hs : s.coord.state = .idle → s.coord.peerHasPending = false) : t.coord.state = .idle → t.coord.peerHasPending = false := by
  cases e with
  | coordReads reads | peerReads reads =>
    cases hstep
    exact hs
  | send reads lost radioOk =>
    obtain ⟨r, wasData, tx, request, -, -, -, rfl, -, -⟩ := h.send_spec (hstate rfl) hstep
    exact hs
  | receive =>
    obtain ⟨tx, reply, toCoord, rx, replies', r, -, -, -, -, -, rfl, -, -⟩ := h.receive_spec hstep
    exact fun hidle => PrimaryRadioInterface.pending_of_replyState_idle hidle
  | timeout =>
    obtain ⟨tx, -, rfl, -⟩ := timeout_cases hstep
    exact hs
  | handle reads lost =>
    obtain ⟨request, toPeer, frame, requests', r, r', b, g, tx, reply, -, -, -, -, -, -, -, rfl, -, -⟩ := h.handle_spec hstep
    exact hs

theorem Moved.refl (s : Link) : s.Moved s := ⟨.refl, .refl⟩

theorem Moved.trans {u : Link} (h₁ : s.Moved t) (h₂ : t.Moved u) : s.Moved u :=
  ⟨h₁.coord.trans h₂.coord, h₁.peer.trans h₂.peer⟩

theorem Moved.nonemptyPackets (h : s.Moved t) (hs : s.NonemptyPackets) : t.NonemptyPackets := by
  have hmoves : ∀ {v w : Transfer.State UInt8}, Moves v w → (∀ p ∈ v.queue, p ≠ []) → ∀ p ∈ w.queue, p ≠ [] :=
    fun hvw hv => by
      induction hvw with
      | refl => exact hv
      | tail _ hstep ih => exact hstep.queue_nonempty rfl ih
  exact ⟨hmoves h.coord hs.coord, hmoves h.peer hs.peer⟩

end Link
end Nerfnet
