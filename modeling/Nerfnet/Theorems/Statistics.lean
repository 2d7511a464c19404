import Nerfnet.Statistics
import Nerfnet.Theorems.Refinement

/-! # What the STAT lines say about each other

In every run of the link the counters of both roles balance: each frame that the coordinator has counted
as sent has been answered, refused or given up, or is being exchanged; and apart from Resets nobody counts
a frame as received that the other side has not counted as sent. Of the Resets the coordinator does not
count those that it sends, and the peer counts one that it fails to send as failed only. -/

namespace Nerfnet

/-! ### Counting frames -/

theorem FrameType.of_isReply {type : FrameType} (h : type.isReply = true) : type = .ack ∨ type = .pending ∨ type = .data := by
  cases type <;> simp [isReply] at h ⊢

theorem FrameType.of_isRequest {type : FrameType} (h : type.isRequest = true) :
    type = .data ∨ type = .grant ∨ type = .pending ∨ type = .ack := by
  cases type <;> simp [isRequest] at h ⊢

namespace FrameCounts

theorem of_record (counts : FrameCounts) {type : FrameType} (type' : FrameType) (htype : type.isRequest = true ∨ type = .reset) :
    (counts.record type).of type' = counts.of type' + if type = type' then 1 else 0 := by
  rcases htype with htype | rfl
  · rcases FrameType.of_isRequest htype with rfl | rfl | rfl | rfl <;> cases type' <;> simp [record, of]
  · cases type' <;> simp [record, of]

end FrameCounts

theorem FrameType.isRequest_of_isReply {type : FrameType} (h : type.isReply = true) : type.isRequest = true := by
  rcases of_isReply h with rfl | rfl | rfl <;> rfl

/-- How many of the packets hold a frame of this type. -/
def airborne (packets : List InFlight) (type : FrameType) : ℕ :=
  packets.countP fun p => (decodeMacFrame p.packet).any (·.type = type)

section
variable {packets : List InFlight} {p : InFlight} {frame : MacFrame} {type : FrameType}

theorem airborne_cons (h : decodeMacFrame p.packet = some frame) :
    airborne (p :: packets) type = airborne packets type + if frame.type = type then 1 else 0 := by
  simp [airborne, List.countP_cons, h]

theorem airborne_le_cons (p : InFlight) (packets : List InFlight) (type : FrameType) :
    airborne packets type ≤ airborne (p :: packets) type := by
  rw [airborne, airborne, List.countP_cons]
  exact Nat.le_add_right _ _

theorem airborne_append (packets : List InFlight) (type : FrameType) (lost : Bool) (h : decodeMacFrame p.packet = some frame) :
    airborne (if lost then packets else packets ++ [p]) type ≤ airborne packets type + if frame.type = type then 1 else 0 := by
  cases lost with
  | true => exact Nat.le_add_right _ _
  | false => simp [airborne, List.countP_append, h]

theorem airborne_drop (n : ℕ) (packets : List InFlight) (type : FrameType) : airborne (packets.drop n) type ≤ airborne packets type :=
  (List.drop_sublist n packets).countP_le

end

/-! ### One event of each role -/

namespace CoordinatorStats
variable {stats : CoordinatorStats} {coord : PrimaryRadioInterface} {reads : List Bytes}

/-- A frame is counted, and then perhaps the failure to send it. -/
theorem send_eq {u : PrimaryRadioInterface} {tx : MacFrame} {request : Bytes}
    (hchoose : coord.chooseCoordinatorTxFrame reads = (u, some tx)) (hencode : encodeMacFrame tx = some request) (radioOk : Bool) :
    stats.send coord reads radioOk = if radioOk then stats.recordTx tx.type
      else { stats.recordTx tx.type with
        txSendFailCount := (stats.recordTx tx.type).txSendFailCount + 1
        txSendFail := (stats.recordTx tx.type).txSendFail.record tx.type } := by
  cases radioOk <;> simp [send, hchoose, hencode, send_of_encode hencode, recordSendFailure]

/-- A reply that succeeds is counted, and no other one. -/
theorem receive_cases (stats : CoordinatorStats) (coord : PrimaryRadioInterface) (tx : MacFrame) (response : Bytes) :
    (∃ rx, decodeMacFrame response = some rx ∧ rx.type.isReply = true ∧ (coord.completeExchange tx (some response)).2 = .success ∧
      stats.receive coord response = { stats with rx := stats.rx.record rx.type }) ∨
    (coord.completeExchange tx (some response)).2 ≠ .success ∧ stats.receive coord response = stats := by
  cases hdecode : decodeMacFrame response with
  | none => exact Or.inr ⟨by simp [PrimaryRadioInterface.completeExchange, hdecode], by simp [receive, hdecode]⟩
  | some rx =>
    rcases coord.applyPeerResponse_spec rx with ⟨r, ok, -, ⟨-, hreply, happly⟩ | ⟨-, happly⟩⟩
    · refine Or.inl ⟨rx, rfl, hreply, by simp [PrimaryRadioInterface.completeExchange, hdecode, happly], ?_⟩
      have hrecord : stats.recordRx rx.type = { stats with rx := stats.rx.record rx.type } := by
        rcases FrameType.of_isReply hreply with htype | htype | htype <;> rw [htype] <;> rfl
      simp [receive, hdecode, happly, hrecord]
    · exact Or.inr ⟨by simp [PrimaryRadioInterface.completeExchange, hdecode, happly], by simp [receive, hdecode, happly]⟩

end CoordinatorStats

namespace PeerStats
variable (stats : PeerStats) {peer : SecondaryRadioInterface} {request : Bytes} (reads : List Bytes) (radioOk : Bool)

/-- A request that is not answered is still counted, an answered one with its answer. -/
theorem handle_cases {rx : MacFrame} (hwf : peer.tx.Wf) (hdecode : decodeMacFrame request = some rx) (hreset : rx.type ≠ .reset) :
    ((peer.handleRequest request reads).2 = none ∧ stats.handle peer request reads radioOk = stats.recordRx rx.type) ∨
    ∃ tx response, tx.type.isReply = true ∧ decodeMacFrame response = some tx ∧
      (peer.handleRequest request reads).2 = some response ∧
      stats.handle peer request reads radioOk =
        (if radioOk then stats.recordRx rx.type else (stats.recordRx rx.type).sendFails tx.type).recordTx tx.type := by
  rcases peer.applyCoordinatorRequest_spec rx with ⟨r, ok, habsorb, ⟨-, htype, happly⟩ | ⟨-, happly⟩⟩
  · right
    have hwf' : (SecondaryRadioInterface.granted r rx).tx.Wf := habsorb.wf hwf
    obtain ⟨r', b, g, tx, hchoose, hcompose, hreply, -⟩ := SecondaryRadioInterface.choosePeerResponse_spec reads hwf'
    obtain ⟨response, hencode, hdecode'⟩ := exists_encode hcompose.wellFormed
    refine ⟨tx, response, hreply ▸ SecondaryRadioInterface.nextReplyType_isReply _, hdecode', ?_, ?_⟩
    · simp [SecondaryRadioInterface.handleRequest, hdecode, hreset, happly, hchoose, hencode]
    · cases radioOk <;> simp [handle, hdecode, hreset, happly, hchoose, reply, hencode, send_of_encode hencode]
  · left
    exact ⟨by simp [SecondaryRadioInterface.handleRequest, hdecode, hreset, happly], by simp [handle, hdecode, hreset, happly]⟩

/-- A Reset is answered, and its answer counted, or the failure to send it. -/
theorem handle_reset {rx : MacFrame} (hdecode : decodeMacFrame request = some rx) (hreset : rx.type = .reset) :
    ∃ response, decodeMacFrame response = some resetFrame ∧ (peer.handleRequest request reads).2 = some response ∧
      stats.handle peer request reads radioOk =
        if radioOk then (stats.recordRx .reset).recordTx .reset else (stats.recordRx .reset).sendFails .reset := by
  obtain ⟨response, hencode, hdecode'⟩ := exists_encode_resetFrame
  have htype : resetFrame.type = .reset := rfl
  refine ⟨response, hdecode', ?_, ?_⟩
  · simp [SecondaryRadioInterface.handleRequest, hdecode, hreset, SecondaryRadioInterface.handleReset, hencode]
  · cases radioOk <;> simp [handle, hdecode, hreset, handleReset, hencode, send_of_encode hencode, htype]

end PeerStats

/-! ### What balances -/

/-- Where the coordinator waits for a reply it has counted a frame that nothing else has been counted for. -/
def Phase.waiting : Phase → ℕ
  | .exchange _ => 1
  | _ => 0

structure CoordinatorStats.Balanced (stats : CoordinatorStats) (phase : Phase) (refused : ℕ) : Prop where
  exchanges : stats.tx.pending + stats.tx.grant + stats.tx.data = stats.rx.ack + stats.rx.pending + stats.rx.data +
    stats.rxTimeoutCount + stats.txSendFailCount + refused + phase.waiting
  failures : stats.txSendFailCount = stats.txSendFail.pending + stats.txSendFail.grant + stats.txSendFail.data
  failed_le : ∀ type, stats.txSendFail.of type ≤ stats.tx.of type
  unsent : stats.tx.ack = 0 ∧ stats.tx.reset = 0

structure PeerStats.Balanced (stats : PeerStats) (refused : ℕ) : Prop where
  requests : stats.rx.pending + stats.rx.grant + stats.rx.data + stats.rx.ack =
    stats.tx.pending + stats.tx.data + stats.tx.ack + refused
  resets : stats.rx.reset = stats.tx.reset + stats.txSendFail.reset
  failures : stats.txSendFailCount = stats.txSendFail.pending + stats.txSendFail.data + stats.txSendFail.ack + stats.txSendFail.reset
  failed_le : ∀ type, type ≠ .reset → stats.txSendFail.of type ≤ stats.tx.of type

/-- Both roles balance; and what one side has counted as received, and what is on its way there, the other
    side has counted as sent. The coordinator does not count the Resets that it sends, but the link does. -/
structure CountedLink.Balanced (s : CountedLink) : Prop where
  coord : s.coord.Balanced s.link.phase s.refusedReplies
  peer : s.peer.Balanced s.refusedRequests
  toPeer : ∀ type, type ≠ .reset → s.peer.rx.of type + airborne s.link.toPeer type ≤ s.coord.tx.of type
  resets : s.peer.rx.reset + airborne s.link.toPeer .reset ≤ s.link.resetCalls
  toCoord : ∀ type, type ≠ .reset → s.coord.rx.of type + airborne s.link.toCoord type ≤ s.peer.tx.of type

/-! ### What one event keeps -/

namespace CoordinatorStats
variable {stats : CoordinatorStats} {phase : Phase} {refused : ℕ} {type : FrameType}

/-- The types of the frames that the coordinator sends in an exchange. -/
def counted : FrameType → Bool
  | .pending | .grant | .data => true
  | _ => false

theorem of_counted (h : counted type = true) : type = .pending ∨ type = .grant ∨ type = .data := by
  cases type <;> simp [counted] at h ⊢

theorem recordTx_eq (htype : counted type = true) : stats.recordTx type = { stats with tx := stats.tx.record type } := by
  rcases of_counted htype with rfl | rfl | rfl <;> rfl

theorem isRequest_of_counted (htype : counted type = true) : type.isRequest = true := by
  rcases of_counted htype with rfl | rfl | rfl <;> rfl

theorem Balanced.send (h : stats.Balanced phase refused) (hphase : phase.waiting = 0) (htype : counted type = true) (tx : MacFrame) :
    (stats.recordTx type).Balanced (.exchange tx) refused := by
  obtain ⟨hexchanges, hfailures, hle, hunsent⟩ := h
  have hmono : ∀ type', stats.tx.of type' ≤ (stats.tx.record type).of type' := fun type' => by
    rw [FrameCounts.of_record _ _ (Or.inl (isRequest_of_counted htype))]
    exact Nat.le_add_right _ _
  rw [recordTx_eq htype]
  refine ⟨?_, hfailures, fun type' => (hle type').trans (hmono type'), ?_⟩
  · rcases of_counted htype with rfl | rfl | rfl <;> simp only [FrameCounts.record, Phase.waiting] <;> omega
  · rcases of_counted htype with rfl | rfl | rfl <;> exact hunsent

theorem Balanced.failSend (h : stats.Balanced phase refused) (hphase : phase.waiting = 0) (htype : counted type = true) :
    Balanced { stats.recordTx type with
      txSendFailCount := (stats.recordTx type).txSendFailCount + 1
      txSendFail := (stats.recordTx type).txSendFail.record type } .top refused := by
  have hle := h.failed_le
  obtain ⟨hexchanges, hfailures, -, hunsent⟩ := h.send hphase htype {}
  rw [recordTx_eq htype] at hexchanges hfailures hunsent ⊢
  refine ⟨?_, ?_, fun type' => ?_, hunsent⟩
  · simp only [Phase.waiting] at hexchanges ⊢
    omega
  · rcases of_counted htype with rfl | rfl | rfl <;> simp only [FrameCounts.record] at hfailures ⊢ <;> omega
  · simp only [FrameCounts.of_record _ _ (Or.inl (isRequest_of_counted htype))]
    exact Nat.add_le_add_right (hle type') _

theorem Balanced.receive (h : stats.Balanced phase refused) (hphase : phase.waiting = 1) (htype : type.isReply = true) :
    Balanced { stats with rx := stats.rx.record type } .top refused := by
  obtain ⟨hexchanges, hfailures, hle, hunsent⟩ := h
  refine ⟨?_, hfailures, hle, hunsent⟩
  rcases FrameType.of_isReply htype with rfl | rfl | rfl <;> simp only [FrameCounts.record, Phase.waiting] <;> omega

theorem Balanced.refuse (h : stats.Balanced phase refused) (hphase : phase.waiting = 1) : stats.Balanced .top (refused + 1) := by
  obtain ⟨hexchanges, hfailures, hle, hunsent⟩ := h
  refine ⟨?_, hfailures, hle, hunsent⟩
  simp only [Phase.waiting]
  omega

theorem Balanced.otherPhase (h : stats.Balanced phase refused) {phase' : Phase} (hphase : phase'.waiting = phase.waiting) :
    stats.Balanced phase' refused := by
  obtain ⟨hexchanges, hfailures, hle, hunsent⟩ := h
  exact ⟨hphase ▸ hexchanges, hfailures, hle, hunsent⟩

theorem Balanced.timeout (h : stats.Balanced phase refused) (hphase : phase.waiting = 1) :
    Balanced { stats with rxTimeoutCount := stats.rxTimeoutCount + 1 } .top refused := by
  obtain ⟨hexchanges, hfailures, hle, hunsent⟩ := h
  refine ⟨?_, hfailures, hle, hunsent⟩
  simp only [Phase.waiting]
  omega

end CoordinatorStats

namespace PeerStats
variable {stats : PeerStats} {refused : ℕ} {type type' : FrameType}

theorem recordTx_eq (htype : type.isReply = true ∨ type = .reset) : stats.recordTx type = { stats with tx := stats.tx.record type } := by
  rcases htype with htype | rfl
  · rcases FrameType.of_isReply htype with rfl | rfl | rfl <;> rfl
  · rfl

/-- A request and its answer. -/
theorem Balanced.answer (h : stats.Balanced refused) (hrx : type.isRequest = true) (htx : type'.isReply = true) :
    ((stats.recordRx type).recordTx type').Balanced refused := by
  obtain ⟨hrequests, hresets, hfailures, hle⟩ := h
  rw [recordTx_eq (Or.inl htx)]
  refine ⟨?_, ?_, hfailures, fun type'' hne => ?_⟩
  · rcases FrameType.of_isRequest hrx with rfl | rfl | rfl | rfl <;>
      rcases FrameType.of_isReply htx with rfl | rfl | rfl <;> simp only [recordRx, FrameCounts.record] <;> omega
  · rcases FrameType.of_isRequest hrx with rfl | rfl | rfl | rfl <;>
      rcases FrameType.of_isReply htx with rfl | rfl | rfl <;> exact hresets
  · simp only [recordRx, FrameCounts.of_record _ _ (Or.inl (FrameType.isRequest_of_isReply htx))]
    exact (hle type'' hne).trans (Nat.le_add_right _ _)

/-- The failure to send an answer that has been counted. -/
theorem Balanced.failSend (h : (stats.recordTx type).Balanced refused)
    (hle : ∀ type', type' ≠ .reset → stats.txSendFail.of type' ≤ stats.tx.of type') (htype : type.isReply = true) :
    ((stats.sendFails type).recordTx type).Balanced refused := by
  obtain ⟨hrequests, hresets, hfailures, -⟩ := h
  rw [recordTx_eq (Or.inl htype)] at hrequests hresets hfailures ⊢
  refine ⟨hrequests, ?_, ?_, fun type' hne => ?_⟩
  · rcases FrameType.of_isReply htype with rfl | rfl | rfl <;> exact hresets
  · rcases FrameType.of_isReply htype with rfl | rfl | rfl <;>
      simp only [sendFails, recordSendFailure, FrameCounts.record] at hfailures ⊢ <;> omega
  · simp only [sendFails, recordSendFailure, FrameCounts.of_record _ _ (Or.inl (FrameType.isRequest_of_isReply htype))]
    exact Nat.add_le_add_right (hle type' hne) _

theorem Balanced.refuse (h : stats.Balanced refused) (hrx : type.isRequest = true) : (stats.recordRx type).Balanced (refused + 1) := by
  obtain ⟨hrequests, hresets, hfailures, hle⟩ := h
  refine ⟨?_, ?_, hfailures, hle⟩ <;> rcases FrameType.of_isRequest hrx with rfl | rfl | rfl | rfl <;>
    simp only [recordRx, FrameCounts.record] <;> omega

theorem Balanced.reset (h : stats.Balanced refused) (radioOk : Bool) :
    Balanced (if radioOk then (stats.recordRx .reset).recordTx .reset else (stats.recordRx .reset).sendFails .reset) refused := by
  obtain ⟨hrequests, hresets, hfailures, hle⟩ := h
  cases radioOk with
  | true =>
    refine ⟨hrequests, ?_, hfailures, fun type hne => ?_⟩
    · simp only [if_true, recordRx, recordTx, FrameCounts.record]
      omega
    · simp only [if_true, recordRx, recordTx, FrameCounts.of_record _ _ (Or.inr rfl)]
      exact (hle type hne).trans (Nat.le_add_right _ _)
  | false =>
    refine ⟨hrequests, ?_, ?_, fun type hne => ?_⟩
    · simp only [Bool.false_eq_true, if_false, recordRx, sendFails, recordSendFailure, FrameCounts.record]
      omega
    · simp only [Bool.false_eq_true, if_false, recordRx, sendFails, recordSendFailure, FrameCounts.record]
      omega
    · simp only [Bool.false_eq_true, if_false, recordRx, sendFails, recordSendFailure, FrameCounts.of_record _ _ (Or.inr rfl)]
      rw [if_neg (Ne.symm hne)]
      exact hle type hne

end PeerStats

/-! ### Runs -/

/-- Every packet on its way to the peer is a request or a Reset. -/
def Link.Requesting (s : Link) : Prop :=
  ∀ p ∈ s.toPeer, ∃ tx, decodeMacFrame p.packet = some tx ∧ (tx.type.isRequest = true ∨ tx.type = .reset)

namespace CountedLink
variable {s t : CountedLink} {e : Event} {replyOk : Bool}

structure Kept (s : CountedLink) : Prop where
  sound : s.link.Sound
  requesting : s.link.Requesting
  balanced : s.Balanced

theorem Kept.send {nowUs : ℕ} {reads : List Bytes} {lost radioOk : Bool} (h : s.Kept)
    (hstep : s.step (.exchange nowUs (.send reads lost radioOk), replyOk) = some t) : t.Kept := by
  obtain ⟨link, hlink, rfl⟩ := Option.map_eq_some_iff.mp hstep
  have hsound := h.sound.step hlink
  obtain ⟨hphase, hexchanges⟩ := Link.exchanges_of_send hlink
  have hwf : s.link.coord.setPollInterval.tx.Wf := by
    rw [PrimaryRadioInterface.setPollInterval_toRadioInterface]
    exact h.sound.coord
  obtain ⟨r, wasData, tx, hchoose, hcompose, htype, -⟩ := PrimaryRadioInterface.chooseCoordinatorTxFrame_spec reads hwf
    (s.link.coord.setPollInterval_keeps.state (h.sound.ready.state hexchanges.2))
  obtain ⟨request, hencode, hdecode⟩ := exists_encode hcompose.wellFormed
  have hprepare : s.link.coord.setPollInterval.prepareRequest reads =
      ({ s.link.coord.setPollInterval with toRadioInterface := r, lastTxWasData := wasData }, some (tx, request)) := by
    simp only [PrimaryRadioInterface.prepareRequest, hchoose, hencode, Option.map_some]
  rw [Link.step_send hphase hexchanges hprepare nowUs lost radioOk] at hlink
  cases hlink
  have hcounted : CoordinatorStats.counted tx.type = true := by
    rw [htype]
    unfold PrimaryRadioInterface.nextFrameType
    split_ifs <;> rfl
  have hrequest := CoordinatorStats.isRequest_of_counted hcounted
  have hstats : s.coord.after s.link (.exchange nowUs (.send reads lost radioOk)) = if radioOk then s.coord.recordTx tx.type
      else { s.coord.recordTx tx.type with
        txSendFailCount := (s.coord.recordTx tx.type).txSendFailCount + 1
        txSendFail := (s.coord.recordTx tx.type).txSendFail.record tx.type } := CoordinatorStats.send_eq hchoose hencode radioOk
  have htx : (s.coord.after s.link (.exchange nowUs (.send reads lost radioOk))).tx = s.coord.tx.record tx.type := by
    rw [hstats, CoordinatorStats.recordTx_eq hcounted]
    cases radioOk <;> rfl
  have hrx : (s.coord.after s.link (.exchange nowUs (.send reads lost radioOk))).rx = s.coord.rx := by
    rw [hstats, CoordinatorStats.recordTx_eq hcounted]
    cases radioOk <;> rfl
  have hwaiting : s.link.phase.waiting = 0 := by simp only [hphase, Phase.waiting]
  obtain ⟨hcoord, hpeer, htoPeer, hresets, htoCoord⟩ := h.balanced
  refine ⟨hsound, fun p hp => ?_, ?_, hpeer, fun type hne => ?_, ?_, fun type hne => ?_⟩
  · simp only at hp
    split at hp
    · exact h.requesting p hp
    · rcases List.mem_append.mp hp with hp | hp
      · exact h.requesting p hp
      · rw [List.mem_singleton.mp hp]
        exact ⟨tx, hdecode, Or.inl hrequest⟩
  · simp only [hstats]
    cases radioOk with
    | true => exact hcoord.send hwaiting hcounted tx
    | false => exact hcoord.failSend hwaiting hcounted
  · have happend := airborne_append s.link.toPeer type (p := ⟨request, s.link.resetCalls⟩) lost hdecode
    have hle := htoPeer type hne
    simp only [htx, FrameCounts.of_record _ _ (Or.inl hrequest)]
    exact (Nat.add_le_add_left happend _).trans (Nat.add_assoc _ _ _ ▸ Nat.add_le_add_right hle _)
  · have happend := airborne_append s.link.toPeer .reset (p := ⟨request, s.link.resetCalls⟩) lost hdecode
    have hnot : tx.type ≠ .reset := fun htype => by
      rw [htype] at hrequest
      cases hrequest
    rw [if_neg hnot] at happend
    exact (Nat.add_le_add_left happend _).trans hresets
  · simp only [hrx]
    exact htoCoord type hne

theorem Kept.receive {nowUs : ℕ} (h : s.Kept) (hstep : s.step (.exchange nowUs .receive, replyOk) = some t) : t.Kept := by
  obtain ⟨link, hlink, rfl⟩ := Option.map_eq_some_iff.mp hstep
  have hsound := h.sound.step hlink
  obtain ⟨s', u, result, henter, hexchange, rfl⟩ := Link.step_exchange hlink
  cases henter
  obtain ⟨tx, reply, toCoord, hphase, hqueue, rfl, rfl⟩ := Link.receive_cases hexchange
  have hstats : s.coord.after s.link (.exchange nowUs .receive) = s.coord.receive s.link.coord reply.packet := by
    simp only [CoordinatorStats.after, hqueue]
  have hrefuses : refusesReply s.link (.exchange nowUs .receive) =
      decide ((s.link.coord.completeExchange tx (some reply.packet)).2 ≠ .success) := by
    simp only [refusesReply, hphase, hqueue]
  have hwaiting : s.link.phase.waiting = 1 := by simp only [hphase, Phase.waiting]
  obtain ⟨hcoord, hpeer, htoPeer, hresets, htoCoord⟩ := h.balanced
  rw [hqueue] at htoCoord
  rcases s.coord.receive_cases s.link.coord tx reply.packet with ⟨rx, hdecode, htype, hsuccess, heq⟩ | ⟨hfails, heq⟩
  · refine ⟨hsound, h.requesting, ?_, hpeer, ?_, hresets, fun type hne => ?_⟩
    · simp only [hstats, heq, hrefuses, hsuccess]
      exact hcoord.receive hwaiting htype
    · simp only [hstats, heq]
      exact htoPeer
    · have hle := htoCoord type hne
      rw [airborne_cons hdecode] at hle
      simp only [hstats, heq, FrameCounts.of_record _ _ (Or.inl (FrameType.isRequest_of_isReply htype))]
      rwa [Nat.add_right_comm, Nat.add_assoc]
  · refine ⟨hsound, h.requesting, ?_, hpeer, ?_, hresets, fun type hne => ?_⟩
    · rw [decide_eq_true hfails] at hrefuses
      simp only [hstats, heq, hrefuses]
      exact hcoord.refuse hwaiting
    · simp only [hstats, heq]
      exact htoPeer
    · simp only [hstats, heq]
      exact (Nat.add_le_add_left (airborne_le_cons reply toCoord type) _).trans (htoCoord type hne)

theorem Kept.timeout {nowUs : ℕ} (h : s.Kept) (hstep : s.step (.exchange nowUs .timeout, replyOk) = some t) : t.Kept := by
  obtain ⟨link, hlink, rfl⟩ := Option.map_eq_some_iff.mp hstep
  have hsound := h.sound.step hlink
  obtain ⟨s', u, result, henter, hexchange, rfl⟩ := Link.step_exchange hlink
  cases henter
  obtain ⟨tx, hphase, rfl, rfl⟩ := Link.timeout_cases hexchange
  have hwaiting : s.link.phase.waiting = 1 := by simp only [hphase, Phase.waiting]
  obtain ⟨hcoord, hpeer, htoPeer, hresets, htoCoord⟩ := h.balanced
  exact ⟨hsound, h.requesting, hcoord.timeout hwaiting, hpeer, htoPeer, hresets, htoCoord⟩

/-- A request that has been counted is not on its way any more. -/
theorem Balanced.take {request : InFlight} {requests : List InFlight} {rx : MacFrame} (h : s.Balanced)
    (hqueue : s.link.toPeer = request :: requests) (hdecode : decodeMacFrame request.packet = some rx) :
    (∀ type, type ≠ .reset →
        s.peer.rx.of type + (if rx.type = type then 1 else 0) + airborne requests type ≤ s.coord.tx.of type) ∧
      s.peer.rx.reset + (if rx.type = .reset then 1 else 0) + airborne requests .reset ≤ s.link.resetCalls := by
  have htoPeer := h.toPeer
  have hresets := h.resets
  rw [hqueue] at htoPeer hresets
  refine ⟨fun type hne => ?_, ?_⟩
  · have hle := htoPeer type hne
    rw [airborne_cons hdecode] at hle
    omega
  · rw [airborne_cons hdecode] at hresets
    omega

/-- What the peer counts of a request and of its answer. -/
theorem Balanced.answered {request : InFlight} {rx : MacFrame} {u : SecondaryRadioInterface}
    {answer : Option Bytes} {reads : List Bytes} (h : s.Balanced) (hwf : s.link.peer.tx.Wf)
    (hdecode : decodeMacFrame request.packet = some rx) (htype : rx.type.isRequest = true ∨ rx.type = .reset)
    (hhandle : s.link.peer.handleRequest request.packet reads = (u, answer)) (replyOk lost : Bool) (call : ℕ) :
    (s.peer.handle s.link.peer request.packet reads replyOk).Balanced (s.refusedRequests + if answer.isNone then 1 else 0) ∧
      (s.peer.handle s.link.peer request.packet reads replyOk).rx = s.peer.rx.record rx.type ∧
      ∀ type, type ≠ .reset → s.coord.rx.of type +
        airborne (if lost then s.link.toCoord else s.link.toCoord ++ answer.toList.map (⟨·, call⟩)) type ≤
          (s.peer.handle s.link.peer request.packet reads replyOk).tx.of type := by
  have hanswer := congrArg Prod.snd hhandle
  have htoCoord := h.toCoord
  by_cases hreset : rx.type = .reset
  · obtain ⟨response, hdecode', hresponse, hcounts⟩ := s.peer.handle_reset reads replyOk hdecode hreset
    obtain rfl : answer = some response := hanswer.symm.trans hresponse
    rw [hcounts, hreset]
    refine ⟨h.peer.reset replyOk, by cases replyOk <;> rfl, fun type hne => ?_⟩
    have happend : airborne (if lost then s.link.toCoord else s.link.toCoord ++ [⟨response, call⟩]) type ≤
        airborne s.link.toCoord type + if resetFrame.type = type then 1 else 0 := airborne_append _ _ lost hdecode'
    have hother : ¬ resetFrame.type = type := fun heq => hne heq.symm
    rw [if_neg hother] at happend
    refine ((Nat.add_le_add_left happend _).trans (htoCoord type hne)).trans ?_
    cases replyOk with
    | true => exact (FrameCounts.of_record s.peer.tx type (Or.inr rfl)) ▸ Nat.le_add_right _ _
    | false => exact Nat.le_refl _
  · rcases s.peer.handle_cases reads replyOk hwf hdecode hreset with
      ⟨hnone, hcounts⟩ | ⟨tx, response, htx, hdecode', hresponse, hcounts⟩
    · obtain rfl : answer = none := hanswer.symm.trans hnone
      rw [hcounts]
      refine ⟨h.peer.refuse (htype.resolve_right hreset), rfl, fun type hne => ?_⟩
      have hnothing : (if lost then s.link.toCoord else s.link.toCoord ++ (none : Option Bytes).toList.map (⟨·, call⟩)) =
          s.link.toCoord := by
        cases lost <;> simp
      rw [hnothing]
      exact htoCoord type hne
    · obtain rfl : answer = some response := hanswer.symm.trans hresponse
      have hrequest := htype.resolve_right hreset
      have hbalanced := h.peer.answer hrequest htx
      rw [hcounts]
      refine ⟨?_, ?_, fun type hne => ?_⟩
      · cases replyOk with
        | true => exact hbalanced
        | false => exact hbalanced.failSend h.peer.failed_le htx
      · rw [PeerStats.recordTx_eq (Or.inl htx)]
        cases replyOk <;> rfl
      · have happend : airborne (if lost then s.link.toCoord else s.link.toCoord ++ [⟨response, call⟩]) type ≤
            airborne s.link.toCoord type + if tx.type = type then 1 else 0 := airborne_append _ _ lost hdecode'
        have hcounted := FrameCounts.of_record s.peer.tx type
          (Or.inl (FrameType.isRequest_of_isReply htx))
        have hle := htoCoord type hne
        rw [PeerStats.recordTx_eq (Or.inl htx)]
        cases replyOk <;>
          exact hcounted ▸ (Nat.add_le_add_left happend _).trans (Nat.add_assoc _ _ _ ▸ Nat.add_le_add_right hle _)

theorem Kept.handle {nowUs : ℕ} {reads : List Bytes} {lost : Bool} (h : s.Kept)
    (hstep : s.step (.exchange nowUs (.handle reads lost), replyOk) = some t) : t.Kept := by
  obtain ⟨link, hlink, rfl⟩ := Option.map_eq_some_iff.mp hstep
  have hsound := h.sound.step hlink
  cases hqueue : s.link.toPeer with
  | nil => simp [Link.step, Link.enter, Link.exchangeStep, Link.handle, hqueue] at hlink
  | cons request requests =>
    have hrequesting := h.requesting
    rw [Link.Requesting, hqueue] at hrequesting
    obtain ⟨⟨rx, hdecode, htype⟩, hrequests⟩ := List.forall_mem_cons.mp hrequesting
    rcases hhandle : s.link.peer.handleRequest request.packet reads with ⟨u, answer⟩
    obtain ⟨call, heq⟩ := Link.step_handleRequest hqueue hhandle nowUs lost
    rw [heq] at hlink
    cases hlink
    have hstats : s.peer.after s.link replyOk (.exchange nowUs (.handle reads lost)) =
        s.peer.handle s.link.peer request.packet reads replyOk := by simp only [PeerStats.after, hqueue]
    have hrefuses : refusesRequest s.link (.exchange nowUs (.handle reads lost)) = answer.isNone := by
      simp only [refusesRequest, hqueue, hhandle]
    obtain ⟨hpeer, hrx, htoCoord⟩ := h.balanced.answered h.sound.peer hdecode htype hhandle replyOk lost call
    obtain ⟨htoPeer, hresets⟩ := h.balanced.take hqueue hdecode
    refine ⟨hsound, hrequests, h.balanced.coord, ?_, fun type hne => ?_, ?_, fun type hne => ?_⟩
    · simp only [hstats, hrefuses]
      exact hpeer
    · simp only [hstats, hrx, FrameCounts.of_record _ _ htype]
      exact htoPeer type hne
    · have hreset : (s.peer.rx.record rx.type).reset = s.peer.rx.reset + if rx.type = .reset then 1 else 0 :=
        FrameCounts.of_record _ .reset htype
      simp only [hstats, hrx, hreset]
      exact hresets
    · simp only [hstats]
      exact htoCoord type hne

theorem Kept.resetSend {nowUs laterUs flushed : ℕ} {lost radioOk : Bool} (h : s.Kept)
    (hstep : s.step (.resetSend nowUs laterUs flushed lost radioOk, replyOk) = some t) : t.Kept := by
  obtain ⟨link, hlink, rfl⟩ := Option.map_eq_some_iff.mp hstep
  have hsound := h.sound.step hlink
  obtain ⟨hphase, -, request, hdecode, rfl⟩ := Link.resetSend_spec hlink
  obtain ⟨hcoord, hpeer, htoPeer, hresets, htoCoord⟩ := h.balanced
  have happend (type : FrameType) := airborne_append s.link.toPeer type (p := ⟨request, s.link.resetCalls + 1⟩) lost hdecode
  refine ⟨hsound, fun p hp => ?_, hcoord.otherPhase ?_, hpeer, fun type hne => ?_, ?_, fun type hne => ?_⟩
  · simp only at hp
    split at hp
    · exact h.requesting p hp
    · rcases List.mem_append.mp hp with hp | hp
      · exact h.requesting p hp
      · rw [List.mem_singleton.mp hp]
        exact ⟨resetFrame, hdecode, Or.inr rfl⟩
  · cases radioOk <;> simp only [hphase, Phase.waiting, Bool.false_eq_true, if_false, if_true]
  · have hother : ¬ resetFrame.type = type := fun heq => hne heq.symm
    have hle := happend type
    rw [if_neg hother] at hle
    exact (Nat.add_le_add_left hle _).trans (htoPeer type hne)
  · have hle := happend .reset
    have hreset : resetFrame.type = .reset := rfl
    rw [if_pos hreset] at hle
    exact (Nat.add_le_add_left hle _).trans (Nat.add_le_add_right hresets 1)
  · exact (Nat.add_le_add_left (airborne_drop flushed s.link.toCoord type) _).trans (htoCoord type hne)

theorem Kept.resetReceive {nowUs flushed : ℕ} (h : s.Kept)
    (hstep : s.step (.resetReceive nowUs flushed, replyOk) = some t) : t.Kept := by
  obtain ⟨link, hlink, rfl⟩ := Option.map_eq_some_iff.mp hstep
  have hsound := h.sound.step hlink
  obtain ⟨hphase, reply, toCoord, hqueue, rfl⟩ := Link.resetReceive_spec hlink
  obtain ⟨hcoord, hpeer, htoPeer, hresets, htoCoord⟩ := h.balanced
  have hwaiting : Phase.top.waiting = s.link.phase.waiting := by simp only [hphase, Phase.waiting]
  have htaken (type : FrameType) : airborne toCoord type ≤ airborne s.link.toCoord type := by
    rw [hqueue]
    exact airborne_le_cons reply toCoord type
  split at hsound <;> rename_i hconfirms <;> simp only [hconfirms, if_true] at hsound ⊢
  · exact ⟨hsound, h.requesting, hcoord.otherPhase hwaiting, hpeer, htoPeer, hresets, fun type hne =>
      (Nat.add_le_add_left ((airborne_drop flushed toCoord type).trans (htaken type)) _).trans (htoCoord type hne)⟩
  · exact ⟨hsound, h.requesting, hcoord.otherPhase hwaiting, hpeer, htoPeer, hresets, fun type hne =>
      (Nat.add_le_add_left (htaken type) _).trans (htoCoord type hne)⟩

theorem Kept.step (h : s.Kept) (hstep : s.step (e, replyOk) = some t) : t.Kept := by
  cases e with
  | exchange nowUs x =>
    cases x with
    | coordReads reads =>
      obtain ⟨link, hlink, rfl⟩ := Option.map_eq_some_iff.mp hstep
      have hsound := h.sound.step hlink
      cases hlink
      exact ⟨hsound, h.requesting, h.balanced.coord, h.balanced.peer, h.balanced.toPeer, h.balanced.resets, h.balanced.toCoord⟩
    | peerReads reads =>
      obtain ⟨link, hlink, rfl⟩ := Option.map_eq_some_iff.mp hstep
      have hsound := h.sound.step hlink
      cases hlink
      exact ⟨hsound, h.requesting, h.balanced.coord, h.balanced.peer, h.balanced.toPeer, h.balanced.resets, h.balanced.toCoord⟩
    | send reads lost radioOk => exact h.send hstep
    | receive => exact h.receive hstep
    | timeout => exact h.timeout hstep
    | handle reads lost => exact h.handle hstep
  | resetSend nowUs laterUs flushed lost radioOk => exact h.resetSend hstep
  | resetReceive nowUs flushed => exact h.resetReceive hstep
  | resetTimeout nowUs =>
    obtain ⟨link, hlink, rfl⟩ := Option.map_eq_some_iff.mp hstep
    have hsound := h.sound.step hlink
    obtain ⟨hphase, rfl⟩ := Link.resetTimeout_spec hlink
    have hwaiting : Phase.top.waiting = s.link.phase.waiting := by simp only [hphase, Phase.waiting]
    exact ⟨hsound, h.requesting, h.balanced.coord.otherPhase hwaiting, h.balanced.peer, h.balanced.toPeer, h.balanced.resets,
      h.balanced.toCoord⟩

end CountedLink

end Nerfnet
