import Nerfnet.MacFrame

/-! What the encoder writes, the decoder reads back, if the payload has the length that the decoder
    computes. -/

namespace Nerfnet

@[simp] theorem FrameType.ofByte_toByte (type : FrameType) : ofByte type.toByte = type := by
  cases type with
  | other byte => simp [toByte, ofByte, byte.property]
  | _ => rfl

@[simp] theorem FrameType.toByte_ofByte (byte : UInt8) : (ofByte byte).toByte = byte := by
  unfold ofByte
  split
  · rfl
  · rename_i hle
    have hle : byte.toNat ≤ 5 := by simpa [UInt8.lt_iff_toNat_lt] using hle
    split_ifs with h1 h2 h3 h4 h5
    · exact h1.symm
    · exact h2.symm
    · exact h3.symm
    · exact h4.symm
    · exact h5.symm
    · have hne : byte.toNat ≠ 1 ∧ byte.toNat ≠ 2 ∧ byte.toNat ≠ 3 ∧ byte.toNat ≠ 4 ∧ byte.toNat ≠ 5 := by
        refine ⟨?_, ?_, ?_, ?_, ?_⟩ <;> intro h <;> simp_all [← UInt8.toNat_inj]
      have hzero : byte.toNat = 0 := by omega
      exact (UInt8.toNat_inj.mp hzero).symm

/-- A frame whose payload has the length that the decoder computes from its type and `arg`. -/
def MacFrame.WellFormed (frame : MacFrame) : Prop :=
  frame.payload.length = if frame.type = .data then min frame.arg.toNat kMaxPayloadSize else 0

theorem MacFrame.WellFormed.length_le {frame : MacFrame} (h : frame.WellFormed) :
    frame.payload.length ≤ kMaxPayloadSize := by
  unfold WellFormed at h
  split at h <;> omega

theorem MacFrame.wellFormed_of_nil {frame : MacFrame} (htype : frame.type ≠ .data) (hnil : frame.payload = []) :
    frame.WellFormed := by
  simp [WellFormed, htype, hnil]

/-- Only a payload that does not fit fails to encode. -/
theorem encodeMacFrame_eq_none {frame : MacFrame} :
    encodeMacFrame frame = none ↔ kMaxPayloadSize < frame.payload.length := by
  simp [encodeMacFrame]

theorem encodeMacFrame_length {frame : MacFrame} {packet : Bytes} (h : encodeMacFrame frame = some packet) :
    packet.length = kMaxPacketSize := by
  unfold encodeMacFrame at h
  split at h
  · cases h
  · cases h
    simp only [kMaxPayloadSize, kMaxPacketSize, kHeaderSize] at *
    simp
    omega

/-- The decoder need not look at an `arg` of 0. -/
theorem decodedSize_eq (type : FrameType) (arg : UInt8) :
    (if type = .data ∧ 0 < arg then min arg.toNat kMaxPayloadSize else 0) =
      if type = .data then min arg.toNat kMaxPayloadSize else 0 := by
  by_cases harg : 0 < arg
  · simp only [harg, and_true]
  · have hzero : arg.toNat = 0 := by simpa [UInt8.lt_iff_toNat_lt] using harg
    simp [harg, hzero]

/-- What the encoder writes, the decoder reads back. -/
theorem decode_of_encode {frame : MacFrame} (hwf : frame.WellFormed) {packet : Bytes}
    (h : encodeMacFrame frame = some packet) : decodeMacFrame packet = some frame := by
  have hlen := encodeMacFrame_length h
  have hle := hwf.length_le
  obtain ⟨type, seq, ack, pending, arg, payload⟩ := frame
  simp only [encodeMacFrame, not_lt.mpr hle, ite_false, Option.some.injEq] at h
  subst h
  have hsize : (if type = .data ∧ 0 < arg then min arg.toNat kMaxPayloadSize else 0) = payload.length :=
    (decodedSize_eq type arg).trans hwf.symm
  simp only [List.cons_append, List.nil_append] at hlen ⊢
  simp only [decodeMacFrame, FrameType.ofByte_toByte]
  rw [if_neg (not_not.mpr hlen)]
  simp [hsize]

theorem exists_encode {frame : MacFrame} (hwf : frame.WellFormed) :
    ∃ packet, encodeMacFrame frame = some packet ∧ decodeMacFrame packet = some frame := by
  cases h : encodeMacFrame frame with
  | none => exact absurd (encodeMacFrame_eq_none.mp h) (not_lt.mpr hwf.length_le)
  | some packet => exact ⟨packet, rfl, decode_of_encode hwf h⟩

end Nerfnet
