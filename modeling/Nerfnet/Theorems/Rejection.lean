import Nerfnet.Theorems.Roles

/-! # What a rejected frame leaves behind

Both roles take a frame apart in the same order: the acknowledgement, the data, the type. So a frame
that is rejected has been used as an acknowledgement like any other frame, and apart from the RX
assembly and the coordinator's view of the peer's queue nothing else has changed. -/

namespace Nerfnet

/-- The RX fields after a frame whose data is not consumed are those of a new assembly. -/
theorem Absorbs.rx_cases {r r' : RadioInterface} {frame : MacFrame} {ok : Bool} (h : Absorbs r r' frame ok)
    (hbad : ok = false ∨ frame.type ≠ .data) : r'.rx = r.rx ∨ r'.rx = r.rx.resetRxAssemblyLocked := by
  have hrx := h.rx
  split at hrx
  · rename_i htype
    obtain rfl := hbad.resolve_right (not_not.mpr htype)
    rw [RxState.consumeDataFrameLocked_of_rejects htype (h.ok_eq_false_iff.mp rfl).2] at hrx
    exact Or.inr (Prod.mk.inj hrx).1
  · exact Or.inl (Prod.mk.inj hrx).1

namespace PrimaryRadioInterface

/-- A rejected reply changes `peer_has_pending_` only if it is no DATA frame, and no other control field. -/
theorem applyPeerResponse_rejected {s t : PrimaryRadioInterface} {rx : MacFrame} (h : s.applyPeerResponse rx = (t, false)) :
    t = { s with tx := s.tx.commitAckLocked rx.ack, rx := t.rx, peerHasPending := s.rejectedPending rx } ∧
      (t.rx = s.rx ∨ t.rx = s.rx.resetRxAssemblyLocked) := by
  rcases s.applyPeerResponse_spec rx with ⟨r, ok, habsorb, ⟨-, -, happly⟩ | ⟨hbad, happly⟩⟩
  · cases (Prod.mk.inj (happly.symm.trans h)).2
  · obtain rfl := (Prod.mk.inj (happly.symm.trans h)).1
    refine ⟨?_, habsorb.rx_cases (hbad.imp_right fun hreply hdata => ?_)⟩
    · simp only [← habsorb.tx]
    · simp [hdata, FrameType.isReply] at hreply

end PrimaryRadioInterface

namespace SecondaryRadioInterface

/-- A rejected request changes neither the credits nor whether the peer may send. -/
theorem applyCoordinatorRequest_rejected {s t : SecondaryRadioInterface} {rx : MacFrame}
    (h : s.applyCoordinatorRequest rx = (t, false)) :
    t = { s with tx := s.tx.commitAckLocked rx.ack, rx := t.rx } ∧ (t.rx = s.rx ∨ t.rx = s.rx.resetRxAssemblyLocked) := by
  rcases s.applyCoordinatorRequest_spec rx with ⟨r, ok, habsorb, ⟨-, -, haccept⟩ | ⟨hbad, hreject⟩⟩
  · cases (Prod.mk.inj (haccept.symm.trans h)).2
  · obtain rfl := (Prod.mk.inj (hreject.symm.trans h)).1
    refine ⟨?_, habsorb.rx_cases (hbad.imp_right fun hrequest hdata => ?_)⟩
    · simp only [← habsorb.tx]
    · simp [hdata, FrameType.isRequest] at hrequest

end SecondaryRadioInterface

/-- A rejected frame acts on the TX fields as an accepted frame with its acknowledgement does, so it
    retires nothing but an acknowledged fragment. It has no effect on the state of the coordinator or
    the credits of the peer, and on `peer_has_pending_` only if it is rejected for its type. -/
theorem rejected_frame_effect :
    (∀ (s t : PrimaryRadioInterface) (rx : MacFrame), s.applyPeerResponse rx = (t, false) →
      t.state = s.state ∧ t.tx = s.tx.commitAckLocked rx.ack ∧ (¬s.tx.Retires rx.ack → t.tx = s.tx) ∧
      (rx.type = .data → t.peerHasPending = s.peerHasPending) ∧
      (rx.type ≠ .data → t.peerHasPending = (rx.pending != 0)) ∧ (t.rx = s.rx ∨ t.rx = s.rx.resetRxAssemblyLocked)) ∧
    ∀ (s t : SecondaryRadioInterface) (rx : MacFrame), s.applyCoordinatorRequest rx = (t, false) →
      t.grantedToSend = s.grantedToSend ∧ t.grantBudget = s.grantBudget ∧ t.tx = s.tx.commitAckLocked rx.ack ∧
      (¬s.tx.Retires rx.ack → t.tx = s.tx) ∧ (t.rx = s.rx ∨ t.rx = s.rx.resetRxAssemblyLocked) := by
  constructor
  · intro s t rx h
    obtain ⟨ht, hrx⟩ := PrimaryRadioInterface.applyPeerResponse_rejected h
    have htx : t.tx = s.tx.commitAckLocked rx.ack := by rw [ht]
    have hpending : t.peerHasPending = s.rejectedPending rx := by rw [ht]
    refine ⟨by rw [ht], htx, fun hnot => htx.trans (TxState.commitAckLocked_of_not_retires hnot), fun hdata => ?_,
      fun hdata => ?_, hrx⟩
    · rw [hpending, PrimaryRadioInterface.rejectedPending, if_pos hdata]
    · rw [hpending, PrimaryRadioInterface.rejectedPending, if_neg hdata]
  · intro s t rx h
    obtain ⟨ht, hrx⟩ := SecondaryRadioInterface.applyCoordinatorRequest_rejected h
    have htx : t.tx = s.tx.commitAckLocked rx.ack := by rw [ht]
    exact ⟨by rw [ht], by rw [ht], htx, fun hnot => htx.trans (TxState.commitAckLocked_of_not_retires hnot), hrx⟩

/-- TX fields with a packet of one byte in flight. -/
def oneInFlight : TxState where
  readBuffer := [[0]]
  txInFlight := true
  txInflightSeq := 1
  txInflightBytesLeft := 1
  txInflightPayload := [0]

/-- On either side a frame that is rejected retires the fragment that it acknowledges, and an unexpected
    Grant sets `peer_has_pending_`. -/
theorem rejected_frame_retires :
    (¬∀ (s t : PrimaryRadioInterface) (rx : MacFrame), s.applyPeerResponse rx = (t, false) → t.tx = s.tx) ∧
    (¬∀ (s t : PrimaryRadioInterface) (rx : MacFrame), s.applyPeerResponse rx = (t, false) →
      t.peerHasPending = s.peerHasPending) ∧
    ¬∀ (s t : SecondaryRadioInterface) (rx : MacFrame), s.applyCoordinatorRequest rx = (t, false) → t.tx = s.tx := by
  refine ⟨fun h => ?_, fun h => ?_, fun h => ?_⟩
  · have hdata := h { currentPollIntervalUs := 0, tx := oneInFlight } _ { type := .data, ack := 1 } rfl
    exact absurd hdata (by decide)
  · have hgrant := h { currentPollIntervalUs := 0 } _ { type := .grant, pending := 1 } rfl
    exact absurd hgrant (by decide)
  · have hdata := h { tx := oneInFlight } _ { type := .data, ack := 1 } rfl
    exact absurd hdata (by decide)

end Nerfnet
