import Nerfnet.Link
import Nerfnet.Theorems.Receive
import Nerfnet.Theorems.Transmit

/-! # What the two roles send and take

Every frame that either role sends carries the acknowledgement of what it received last, and either no
payload or the fragment in flight (`Composes`). Every frame it takes is first used as an
acknowledgement, then as data (`Absorbs`). The rest of `ChooseCoordinatorTxFrame`,
`ApplyPeerResponse`, `ApplyCoordinatorRequest` and `ChoosePeerResponse` decides on the type of the
next frame. -/

namespace Nerfnet

structure Composes (r r' : RadioInterface) (frame : MacFrame) : Prop where
  rx : r'.rx = r.rx
  ack : frame.ack = r.rx.ackSeq
  tx : (frame.type ≠ .data ∧ frame.payload = [] ∧ r'.tx = r.tx) ∨ (frame.type = .data ∧ Offers r.tx r'.tx frame)

structure Absorbs (r r' : RadioInterface) (frame : MacFrame) (ok : Bool) : Prop where
  tx : r'.tx = r.tx.commitAckLocked frame.ack
  rx : (r'.rx, ok) = if frame.type = .data then r.rx.consumeDataFrameLocked frame else (r.rx, true)

/-- Only a DATA frame fails to be absorbed, and only for its sequence number. -/
theorem Absorbs.ok_eq_false_iff {r r' : RadioInterface} {frame : MacFrame} {ok : Bool} (h : Absorbs r r' frame ok) :
    ok = false ↔ frame.type = .data ∧ r.rx.Rejects frame.seq := by
  have hok : ok = (if frame.type = .data then r.rx.consumeDataFrameLocked frame else (r.rx, true)).2 := congrArg Prod.snd h.rx
  constructor
  · rintro rfl
    split at hok
    · exact RxState.rejects_of_false hok.symm
    · cases hok
  · intro hrejects
    rw [hok, if_pos hrejects.1, RxState.consumeDataFrameLocked_of_rejects hrejects.1 hrejects.2]

theorem resetFrame_wellFormed : resetFrame.WellFormed := MacFrame.wellFormed_of_nil (by simp [resetFrame]) rfl

theorem exists_encode_resetFrame : ∃ packet, encodeMacFrame resetFrame = some packet ∧ decodeMacFrame packet = some resetFrame :=
  exists_encode resetFrame_wellFormed

theorem Composes.wellFormed {r r' : RadioInterface} {frame : MacFrame} (h : Composes r r' frame) : frame.WellFormed := by
  rcases h.tx with ⟨htype, hnil, -⟩ | ⟨htype, hoffers⟩
  · exact MacFrame.wellFormed_of_nil htype hnil
  · exact hoffers.wellFormed htype

theorem Composes.wf {r r' : RadioInterface} {frame : MacFrame} (h : Composes r r' frame) (hwf : r.tx.Wf) : r'.tx.Wf := by
  rcases h.tx with ⟨-, -, htx⟩ | ⟨-, hoffers⟩
  · rw [htx]
    exact hwf
  · exact hoffers.wf

theorem Composes.current {r r' : RadioInterface} {frame : MacFrame} (h : Composes r r' frame) (htype : frame.type = .data) :
    r'.tx.txInFlight = true ∧ frame.seq = r'.tx.txInflightSeq := by
  rcases h.tx with ⟨hnot, -⟩ | ⟨-, hoffers⟩
  · exact absurd htype hnot
  · exact ⟨hoffers.inFlight, hoffers.seq⟩

theorem Composes.readBuffer {r r' : RadioInterface} {frame : MacFrame} (h : Composes r r' frame) :
    r'.tx.readBuffer = r.tx.readBuffer := by
  rcases h.tx with ⟨-, -, htx⟩ | ⟨-, hoffers⟩
  · rw [htx]
  · exact hoffers.readBuffer

theorem Absorbs.wf {r r' : RadioInterface} {frame : MacFrame} {ok : Bool} (h : Absorbs r r' frame ok) (hwf : r.tx.Wf) :
    r'.tx.Wf := by
  rw [h.tx]
  exact hwf.commitAckLocked _

/-- `r` with what `TunnelThread` read in the meantime. -/
def RadioInterface.tunnelThread (r : RadioInterface) (reads : List Bytes) : RadioInterface :=
  { r with tx := r.tx.tunnelThread reads }

/-- The types that the coordinator accepts as a reply. -/
def FrameType.isReply : FrameType → Bool
  | .ack | .pending | .data => true
  | _ => false

/-- The types that the peer accepts as a request, besides Reset. -/
def FrameType.isRequest : FrameType → Bool
  | .data | .grant | .pending | .ack => true
  | _ => false

/-! ### The coordinator -/

namespace PrimaryRadioInterface
variable {s : PrimaryRadioInterface}

/-- The type of the frame that a synchronised coordinator sends. -/
def nextFrameType (s : PrimaryRadioInterface) : FrameType :=
  if s.state = .idle then
    if s.tx.localHasData then
      if s.peerHasPending ∧ kFairDataBurstLimit ≤ s.consecutiveLocalDataFrames then .grant else .data
    else .pending
  else .grant

/-- A synchronised coordinator always finds a frame to send, and changes nothing else than the fragment
    in flight and `last_tx_was_data_`. -/
theorem chooseCoordinatorTxFrame_spec (reads : List Bytes) (hwf : s.tx.Wf) (hstate : s.state ≠ .resetSync) :
    ∃ r wasData tx, s.chooseCoordinatorTxFrame reads =
        ({ s with toRadioInterface := r, lastTxWasData := wasData }, some tx) ∧
      Composes (s.tunnelThread reads) r tx ∧ tx.type = s.nextFrameType ∧
      (tx.type = .grant → tx.arg = kDefaultBurstGrant) := by
  have hgrant : ∀ tx : MacFrame, tx.type = .grant → tx.payload = [] → tx.ack = s.rx.ackSeq →
      Composes (s.tunnelThread reads) (s.tunnelThread reads) tx := fun tx ht hp ha =>
    ⟨rfl, ha, Or.inl ⟨by simp [ht], hp, rfl⟩⟩
  cases hst : s.state with
  | resetSync => exact absurd hst hstate
  | issueGrant | activeRx =>
    exact ⟨s.tunnelThread reads, false, _, by simp only [chooseCoordinatorTxFrame, hst]; rfl, hgrant _ rfl rfl rfl,
      by simp [nextFrameType, hst], fun _ => rfl⟩
  | idle =>
    cases hd : s.tx.localHasData with
    | false =>
      exact ⟨s.tunnelThread reads, false, _, by simp only [chooseCoordinatorTxFrame, hst, hd]; rfl,
        ⟨rfl, rfl, Or.inl ⟨by simp, rfl, rfl⟩⟩, by simp [nextFrameType, hst, hd], by simp⟩
    | true =>
      by_cases hfair : s.peerHasPending = true ∧ kFairDataBurstLimit ≤ s.consecutiveLocalDataFrames
      · exact ⟨s.tunnelThread reads, false, _, by simp only [chooseCoordinatorTxFrame, hst, hd, hfair]; rfl,
          hgrant _ rfl rfl rfl, by simp [nextFrameType, hst, hd, hfair], fun _ => rfl⟩
      · obtain ⟨tx, frame, hbuild, htype, hack, hoffers⟩ := buildNextDataFrameLocked_spec (r := s.tunnelThread reads)
          (hwf.tunnelThread reads) (hwf.localHasData_tunnelThread hd reads)
        refine ⟨{ s.tunnelThread reads with tx }, true, { frame with pending := 1 }, ?_,
          ⟨rfl, hack, Or.inr ⟨htype, hoffers.withPending 1⟩⟩, ?_, ?_⟩
        · simp only [chooseCoordinatorTxFrame, hst, hd, if_true]
          rw [if_neg hfair]
          simp only [RadioInterface.tunnelThread] at hbuild ⊢
          rw [hbuild]
        · simp only [htype, nextFrameType, hst, hd, if_true]
          rw [if_neg hfair]
        · simp [htype]

/-- The state that an accepted reply puts the coordinator in. -/
def replyState (rx : MacFrame) : CoordinatorState :=
  match rx.type with
  | .pending => .issueGrant
  | .data => if rx.pending != 0 then .activeRx else .idle
  | _ => if rx.pending != 0 then .issueGrant else .idle

/-- `peer_has_pending_` after a reply that is rejected: the assignment comes between the check of the data
    and the check of the type. -/
def rejectedPending (s : PrimaryRadioInterface) (rx : MacFrame) : Bool :=
  if rx.type = .data then s.peerHasPending else rx.pending != 0

/-- A reply is accepted if its data is consumed and it is an ACK, a PENDING or a DATA frame. A rejected
    one leaves the state. -/
theorem applyPeerResponse_spec (s : PrimaryRadioInterface) (rx : MacFrame) :
    ∃ r ok, Absorbs s.toRadioInterface r rx ok ∧
      ((ok = true ∧ rx.type.isReply = true ∧ s.applyPeerResponse rx =
          ({ s with toRadioInterface := r, peerHasPending := rx.pending != 0, state := replyState rx }, true)) ∨
        ((ok = false ∨ rx.type.isReply = false) ∧ s.applyPeerResponse rx =
          ({ s with toRadioInterface := r, peerHasPending := s.rejectedPending rx }, false))) := by
  let consumed := if rx.type = .data then s.rx.consumeDataFrameLocked rx else (s.rx, true)
  refine ⟨⟨s.tx.commitAckLocked rx.ack, consumed.1⟩, consumed.2, ⟨rfl, rfl⟩, ?_⟩
  cases htype : rx.type with
  | data =>
    cases hok : consumed.2 with
    | true =>
      simp only [consumed, htype, if_true] at hok
      exact Or.inl ⟨rfl, rfl, by simp [applyPeerResponse, hok, htype, replyState, consumed]⟩
    | false =>
      simp only [consumed, htype, if_true] at hok
      exact Or.inr ⟨Or.inl rfl, by simp [applyPeerResponse, hok, htype, rejectedPending, consumed]⟩
  | ack | pending =>
    exact Or.inl ⟨by simp [consumed, htype], rfl, by simp [applyPeerResponse, htype, replyState, consumed]⟩
  | reset | grant | invalid | other =>
    exact Or.inr ⟨Or.inr rfl, by simp [applyPeerResponse, htype, rejectedPending, consumed]⟩

end PrimaryRadioInterface

/-! ### The peer -/

namespace SecondaryRadioInterface
variable {s : SecondaryRadioInterface}

/-- The peer once it has accepted a request: only a Grant with credits lets it send. -/
def granted (r : RadioInterface) (request : MacFrame) : SecondaryRadioInterface where
  toRadioInterface := r
  grantBudget := if request.type = .grant then request.arg else 0
  grantedToSend := decide (request.type = .grant ∧ 0 < request.arg)

/-- A request is accepted if its data is consumed and it is neither a Reset nor of an unknown type. -/
theorem applyCoordinatorRequest_spec (s : SecondaryRadioInterface) (request : MacFrame) :
    ∃ r ok, Absorbs s.toRadioInterface r request ok ∧
      ((ok = true ∧ request.type.isRequest = true ∧ s.applyCoordinatorRequest request = (granted r request, true)) ∨
        ((ok = false ∨ request.type.isRequest = false) ∧ s.applyCoordinatorRequest request =
          ({ s with toRadioInterface := r }, false))) := by
  let consumed := if request.type = .data then s.rx.consumeDataFrameLocked request else (s.rx, true)
  refine ⟨⟨s.tx.commitAckLocked request.ack, consumed.1⟩, consumed.2, ⟨rfl, rfl⟩, ?_⟩
  cases htype : request.type with
  | data =>
    cases hok : consumed.2 with
    | false =>
      refine Or.inr ⟨Or.inl rfl, ?_⟩
      simp only [consumed, htype] at hok ⊢
      simp only [if_true] at hok
      simp [applyCoordinatorRequest, htype, hok]
    | true =>
      refine Or.inl ⟨rfl, rfl, ?_⟩
      simp only [consumed, htype] at hok ⊢
      simp only [if_true] at hok
      simp [applyCoordinatorRequest, granted, htype, hok]
  | grant | pending | ack => exact Or.inl ⟨by simp [consumed, htype], rfl, by simp [applyCoordinatorRequest, granted, htype, consumed]⟩
  | reset | invalid | other => exact Or.inr ⟨Or.inr rfl, by simp [applyCoordinatorRequest, htype, consumed]⟩

/-- The type of the reply that the peer composes. -/
def nextReplyType (s : SecondaryRadioInterface) : FrameType :=
  if s.grantedToSend ∧ 0 < s.grantBudget ∧ s.tx.localHasData then .data
  else if s.tx.localHasData then .pending
  else .ack

/-- The reply to a request with credits: DATA to a Grant, a PENDING to anything else, and an ACK if the
    peer has nothing to send. -/
theorem granted_nextReplyType {r : RadioInterface} {request : MacFrame} (hwf : r.tx.Wf)
    (harg : request.type = .grant → 0 < request.arg) :
    (granted r request).nextReplyType =
      if r.tx.readBuffer = [] then .ack else if request.type = .grant then .data else .pending := by
  have hdata : r.tx.localHasData = true ↔ r.tx.readBuffer ≠ [] := hwf.localHasData
  by_cases hq : r.tx.readBuffer = []
  · have hno : r.tx.localHasData = false := Bool.eq_false_iff.mpr (mt hdata.mp (not_not.mpr hq))
    simp [nextReplyType, granted, hno, hq]
  · have hyes := hdata.mpr hq
    by_cases hgrant : request.type = .grant
    · simp [nextReplyType, granted, hyes, hq, hgrant, harg hgrant]
    · simp [nextReplyType, granted, hyes, hq, hgrant]

/-- The peer always finds a reply, and the reply advertises its data. -/
theorem choosePeerResponse_spec (reads : List Bytes) (hwf : s.tx.Wf) :
    ∃ r grantBudget grantedToSend tx, s.choosePeerResponse reads =
        ({ s with toRadioInterface := r, grantBudget, grantedToSend }, some tx) ∧
      Composes (s.tunnelThread reads) r tx ∧ tx.type = s.nextReplyType ∧
      tx.pending = if s.tx.localHasData then 1 else 0 := by
  by_cases hgrant : s.grantedToSend = true ∧ 0 < s.grantBudget ∧ s.tx.localHasData = true
  · obtain ⟨tx, frame, hbuild, htype, hack, hoffers⟩ := buildNextDataFrameLocked_spec (r := s.tunnelThread reads)
      (hwf.tunnelThread reads) (hwf.localHasData_tunnelThread hgrant.2.2 reads)
    refine ⟨{ s.tunnelThread reads with tx }, s.grantBudget - 1,
      if s.grantBudget - 1 = 0 then false else s.grantedToSend, { frame with pending := 1 }, ?_,
      ⟨rfl, hack, Or.inr ⟨htype, hoffers.withPending 1⟩⟩, ?_, ?_⟩
    · simp only [RadioInterface.tunnelThread] at hbuild ⊢
      simp only [choosePeerResponse]
      rw [if_pos hgrant, hbuild]
    · simp only [htype, nextReplyType]
      rw [if_pos hgrant]
    · simp [hgrant]
  · cases hd : s.tx.localHasData with
    | true =>
      refine ⟨s.tunnelThread reads, s.grantBudget, s.grantedToSend, { ack := s.rx.ackSeq, pending := 1, type := .pending },
        ?_, ⟨rfl, rfl, Or.inl ⟨by simp, rfl, rfl⟩⟩, ?_, rfl⟩
      · simp only [choosePeerResponse]
        rw [if_neg hgrant, hd]
        rfl
      · simp only [nextReplyType]
        rw [if_neg hgrant, hd]
        rfl
    | false =>
      refine ⟨s.tunnelThread reads, s.grantBudget, s.grantedToSend, { ack := s.rx.ackSeq, type := .ack },
        ?_, ⟨rfl, rfl, Or.inl ⟨by simp, rfl, rfl⟩⟩, ?_, rfl⟩
      · simp only [choosePeerResponse]
        rw [if_neg hgrant, hd]
        rfl
      · simp only [nextReplyType]
        rw [if_neg hgrant, hd]
        rfl

end SecondaryRadioInterface

end Nerfnet
