import Nerfnet.Theorems.Passes

/-! # Frames survive the codec

In every run of either role, whatever arrives, the role finds a frame to send, and the other side
decodes exactly this frame: the branches of the loops for a missing frame, a payload that does not fit
and a packet that `Send` refuses are never taken. -/

namespace Nerfnet

/-- The frame fits a packet, `Send` takes it, and decoding gives the frame back. -/
def Survives (tx : MacFrame) : Prop :=
  ∃ packet, encodeMacFrame tx = some packet ∧ packet.length = kMaxPacketSize ∧
    (∀ radioOk, RadioInterface.send packet radioOk ≠ .malformed) ∧ decodeMacFrame packet = some tx

theorem MacFrame.WellFormed.survives {tx : MacFrame} (h : tx.WellFormed) : Survives tx := by
  obtain ⟨packet, hencode, hdecode⟩ := exists_encode h
  refine ⟨packet, hencode, encodeMacFrame_length hencode, fun radioOk => ?_, hdecode⟩
  rw [send_of_encode hencode]
  cases radioOk <;> simp

/-- Every frame that a role sends survives the codec, the Reset frames included. -/
theorem sent_frames_survive :
    (∀ pollIntervalUs ps s, PrimaryRadioInterface.Runs (fun _ => True) { currentPollIntervalUs := pollIntervalUs } ps s →
      ∀ before reads, ∃ t tx,
        (PrimaryRadioInterface.setPollInterval { s with tx := s.tx.tunnelThread before }).chooseCoordinatorTxFrame reads =
          (t, some tx) ∧ Survives tx) ∧
    (∀ ps s, SecondaryRadioInterface.Runs {} ps s → ∀ before rx peer,
      SecondaryRadioInterface.applyCoordinatorRequest { s with tx := s.tx.tunnelThread before } rx = (peer, true) →
      ∀ between reads, ∃ t tx,
        SecondaryRadioInterface.choosePeerResponse { peer with tx := peer.tx.tunnelThread between } reads = (t, some tx) ∧
          Survives tx) ∧
    Survives resetFrame := by
  refine ⟨?_, ?_, resetFrame_wellFormed.survives⟩
  · intro pollIntervalUs ps s hrun before reads
    have hwf : (PrimaryRadioInterface.setPollInterval { s with tx := s.tx.tunnelThread before }).tx.Wf := by
      rw [PrimaryRadioInterface.setPollInterval_toRadioInterface]
      exact (hrun.wf TxState.wf_init).tunnelThread before
    obtain ⟨r, wasData, tx, hchoose, hcompose⟩ := PrimaryRadioInterface.chooseCoordinatorTxFrame_composes reads hwf
    exact ⟨_, tx, hchoose, hcompose.wellFormed.survives⟩
  · intro ps s hrun before rx peer happly between reads
    have hwf : peer.tx.Wf := by
      rcases SecondaryRadioInterface.applyCoordinatorRequest_spec { s with tx := s.tx.tunnelThread before } rx with
        ⟨r, ok, habsorb, ⟨-, -, haccept⟩ | ⟨-, hreject⟩⟩
      · obtain rfl := (Prod.mk.inj (haccept.symm.trans happly)).1
        exact habsorb.wf ((hrun.wf TxState.wf_init).tunnelThread before)
      · cases (Prod.mk.inj (hreject.symm.trans happly)).2
    obtain ⟨r, b, g, tx, hchoose, hcompose, -⟩ := SecondaryRadioInterface.choosePeerResponse_spec
      (s := { peer with tx := peer.tx.tunnelThread between }) reads (hwf.tunnelThread between)
    exact ⟨_, tx, hchoose, hcompose.wellFormed.survives⟩

end Nerfnet
