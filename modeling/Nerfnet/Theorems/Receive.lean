import Nerfnet.Library.Transfer
import Nerfnet.RadioInterface

/-! # The receiving side

`ConsumeDataFrameLocked` on a DATA frame that is accepted, and what it makes of the frame buffer and
the tunnel. -/

namespace Nerfnet

/-- A packet that passes the check is not empty. -/
theorem ne_nil_of_valid {packet : Bytes} (h : isValidIpPacket packet = true) : packet ≠ [] := by
  rintro rfl
  cases h

/-- An IPv4 packet with a header of 20 bytes. -/
def ipv4Packet (tag : UInt8) (body : Bytes) : Bytes :=
  [0x45, tag, .ofNat ((20 + body.length) / 256), .ofNat (20 + body.length)] ++ List.replicate 16 0 ++ body

namespace RxState

theorem writeTunnel_eq (rx : RxState) :
    rx.writeTunnel = { rx with frameBuffer := [], tunnel := rx.tunnel ++ [rx.frameBuffer].filter isValidIpPacket } := by
  unfold writeTunnel
  cases hv : isValidIpPacket rx.frameBuffer <;> simp [hv]

@[simp] theorem acceptDataFrame_lastRxSeq (rx : RxState) (frame : MacFrame) :
    (rx.acceptDataFrame frame).lastRxSeq = some frame.seq := by
  unfold acceptDataFrame
  dsimp only
  split_ifs
  · rfl
  · rw [writeTunnel_eq]
  · rfl

/-- A frame with the first fragment of `front` is joined to the buffer, and the packet is written if it
    is the last fragment. -/
theorem acceptDataFrame_arrive (rx : RxState) {frame : MacFrame} {front : Bytes} (hne : front ≠ [])
    (hpayload : frame.payload = front.take kMaxPayloadSize)
    (harg : frame.arg.toNat ≤ kMaxPayloadSize ↔ front.length ≤ kMaxPayloadSize) :
    ((rx.acceptDataFrame frame).frameBuffer, (rx.acceptDataFrame frame).tunnel) =
      Transfer.arrive kMaxPayloadSize isValidIpPacket front rx.frameBuffer rx.tunnel := by
  have hempty : frame.payload.isEmpty = false := by
    rw [hpayload]
    cases front with
    | nil => exact absurd rfl hne
    | cons x xs => rfl
  unfold acceptDataFrame Transfer.arrive
  simp only [hempty, Bool.false_eq_true, if_false, harg]
  split
  · rename_i hle
    rw [writeTunnel_eq, hpayload, List.take_of_length_le hle]
  · rw [hpayload]

/-! ### The cases of ConsumeDataFrameLocked -/

/-- A DATA frame with this sequence number is rejected. -/
def Rejects (rx : RxState) (seq : UInt8) : Prop :=
  seq = 0 ∨ ∃ last ∈ rx.lastRxSeq, seq ≠ last ∧ seq ≠ nextSeq last

instance (rx : RxState) (seq : UInt8) : Decidable (rx.Rejects seq) := inferInstanceAs (Decidable (_ ∨ _))

/-- A DATA frame that is neither rejected nor a repetition of the last one. -/
def Accepts (rx : RxState) (frame : MacFrame) : Prop :=
  frame.type = .data ∧ ¬ rx.Rejects frame.seq ∧ rx.lastRxSeq ≠ some frame.seq

instance (rx : RxState) (frame : MacFrame) : Decidable (rx.Accepts frame) := inferInstanceAs (Decidable (_ ∧ _))

variable {rx : RxState} {frame : MacFrame}

theorem consumeDataFrameLocked_of_not_data (htype : frame.type ≠ .data) : rx.consumeDataFrameLocked frame = (rx, true) := by
  rw [consumeDataFrameLocked, if_pos htype]

theorem consumeDataFrameLocked_of_rejects (htype : frame.type = .data) (h : rx.Rejects frame.seq) :
    rx.consumeDataFrameLocked frame = (rx.resetRxAssemblyLocked, false) := by
  simp only [consumeDataFrameLocked, htype, ne_eq, not_true_eq_false, if_false]
  rcases h with hzero | ⟨last, hlast, hne, hnext⟩
  · rw [if_pos hzero]
  · obtain hlast : rx.lastRxSeq = some last := hlast
    by_cases hzero : frame.seq = 0
    · rw [if_pos hzero]
    · simp only [if_neg hzero, hlast, if_neg hne, if_pos hnext]

theorem consumeDataFrameLocked_of_repeats (hseq : frame.seq ≠ 0) (h : rx.lastRxSeq = some frame.seq) :
    rx.consumeDataFrameLocked frame = (rx, true) := by
  by_cases htype : frame.type = .data
  · simp [consumeDataFrameLocked, htype, hseq, h]
  · exact consumeDataFrameLocked_of_not_data htype

theorem consumeDataFrameLocked_of_accepts (h : rx.Accepts frame) :
    rx.consumeDataFrameLocked frame = (rx.acceptDataFrame frame, true) := by
  obtain ⟨htype, hnot, hne⟩ := h
  have hzero : frame.seq ≠ 0 := fun hzero => hnot (Or.inl hzero)
  simp only [consumeDataFrameLocked, htype, ne_eq, not_true_eq_false, if_false, if_neg hzero]
  cases hlast : rx.lastRxSeq with
  | none => rfl
  | some last =>
    have hrep : frame.seq ≠ last := fun heq => hne (by rw [hlast, heq])
    have hnext : frame.seq = nextSeq last := by
      by_contra hnext
      exact hnot (Or.inr ⟨last, hlast, hrep, hnext⟩)
    dsimp only
    rw [if_neg hrep, if_neg (not_not.mpr hnext)]

/-- It accepts the frame, rejects it, or changes nothing. -/
theorem consumeDataFrameLocked_cases (rx : RxState) (frame : MacFrame) :
    (rx.Accepts frame ∧ rx.consumeDataFrameLocked frame = (rx.acceptDataFrame frame, true)) ∨
    ((frame.type = .data ∧ rx.Rejects frame.seq) ∧ rx.consumeDataFrameLocked frame = (rx.resetRxAssemblyLocked, false)) ∨
    ((¬ rx.Accepts frame ∧ ¬(frame.type = .data ∧ rx.Rejects frame.seq)) ∧ rx.consumeDataFrameLocked frame = (rx, true)) := by
  by_cases haccepts : rx.Accepts frame
  · exact Or.inl ⟨haccepts, consumeDataFrameLocked_of_accepts haccepts⟩
  · by_cases hrejects : frame.type = .data ∧ rx.Rejects frame.seq
    · exact Or.inr (Or.inl ⟨hrejects, consumeDataFrameLocked_of_rejects hrejects.1 hrejects.2⟩)
    · refine Or.inr (Or.inr ⟨⟨haccepts, hrejects⟩, ?_⟩)
      by_cases htype : frame.type = .data
      · have hnot : ¬ rx.Rejects frame.seq := fun h => hrejects ⟨htype, h⟩
        have hrep : rx.lastRxSeq = some frame.seq := by
          by_contra hne
          exact haccepts ⟨htype, hnot, hne⟩
        exact consumeDataFrameLocked_of_repeats (fun hzero => hnot (Or.inl hzero)) hrep
      · exact consumeDataFrameLocked_of_not_data htype

/-- Only an unexpected sequence number makes it fail. -/
theorem rejects_of_false (h : (rx.consumeDataFrameLocked frame).2 = false) : frame.type = .data ∧ rx.Rejects frame.seq := by
  rcases rx.consumeDataFrameLocked_cases frame with ⟨-, hconsume⟩ | ⟨hrejects, -⟩ | ⟨-, hconsume⟩
  · rw [hconsume] at h
    cases h
  · exact hrejects
  · rw [hconsume] at h
    cases h

end RxState
end Nerfnet
