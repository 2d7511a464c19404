import Mathlib.Logic.Equiv.Defs
import Nerfnet.Theorems.Codec

/-! # The codec as a bijection

The payload length is not transmitted, so `EncodeMacFrame` and `DecodeMacFrame` are inverse to each
other on the frames whose payload has the length that the decoder computes and on the packets that
are zero after it. -/

namespace Nerfnet

/-- The payload length that the decoder computes. -/
def payloadSize (type : FrameType) (arg : UInt8) : Nat := if type = .data then min arg.toNat kMaxPayloadSize else 0

theorem payloadSize_le (type : FrameType) (arg : UInt8) : payloadSize type arg ≤ kMaxPayloadSize := by
  unfold payloadSize
  split <;> omega

/-- All bytes after the header and the decoded payload are 0. -/
def Canonical (packet : Bytes) : Prop :=
  ∃ frame, decodeMacFrame packet = some frame ∧ ∀ byte ∈ packet.drop (kHeaderSize + frame.payload.length), byte = 0

theorem exists_fields {packet : Bytes} (h : packet.length = kMaxPacketSize) :
    ∃ type seq ack pending arg rest, packet = type :: seq :: ack :: pending :: arg :: rest ∧ rest.length = kMaxPayloadSize := by
  rcases packet with - | ⟨type, - | ⟨seq, - | ⟨ack, - | ⟨pending, - | ⟨arg, rest⟩⟩⟩⟩⟩
  -- Fewer than five bytes.
  iterate 5 · simp [kMaxPacketSize] at h
  refine ⟨type, seq, ack, pending, arg, rest, rfl, ?_⟩
  simp only [List.length_cons, kMaxPacketSize] at h
  simp only [kMaxPayloadSize, kMaxPacketSize, kHeaderSize]
  omega

/-- The frame that the header and the rest of a packet decode to. -/
def fieldsFrame (type seq ack pending arg : UInt8) (rest : Bytes) : MacFrame where
  type := .ofByte type
  seq
  ack
  pending
  arg
  payload := rest.take (payloadSize (.ofByte type) arg)

theorem decode_fields {type seq ack pending arg : UInt8} {rest : Bytes} (h : rest.length = kMaxPayloadSize) :
    decodeMacFrame (type :: seq :: ack :: pending :: arg :: rest) = some (fieldsFrame type seq ack pending arg rest) := by
  have hlen : (type :: seq :: ack :: pending :: arg :: rest).length = kMaxPacketSize := by
    simp only [List.length_cons, h]
    rfl
  simp only [decodeMacFrame]
  rw [if_neg (not_not.mpr hlen), decodedSize_eq]
  rfl

/-- Only a packet of the wrong size fails to decode. -/
theorem decodeMacFrame_eq_none {packet : Bytes} : decodeMacFrame packet = none ↔ packet.length ≠ kMaxPacketSize := by
  constructor
  · intro hnone hlen
    obtain ⟨type, seq, ack, pending, arg, rest, rfl, hrest⟩ := exists_fields hlen
    rw [decode_fields hrest] at hnone
    cases hnone
  · intro hlen
    unfold decodeMacFrame
    split
    · exact if_pos hlen
    · rfl

theorem length_of_decode {packet : Bytes} {frame : MacFrame} (h : decodeMacFrame packet = some frame) :
    packet.length = kMaxPacketSize := by
  by_contra hlen
  rw [decodeMacFrame_eq_none.mpr hlen] at h
  cases h

/-- What decodes to `frame`, byte by byte. -/
theorem fields_of_decode {packet : Bytes} {frame : MacFrame} (h : decodeMacFrame packet = some frame) :
    ∃ type seq ack pending arg rest, packet = type :: seq :: ack :: pending :: arg :: rest ∧
      rest.length = kMaxPayloadSize ∧ frame = fieldsFrame type seq ack pending arg rest := by
  obtain ⟨type, seq, ack, pending, arg, rest, rfl, hrest⟩ := exists_fields (length_of_decode h)
  rw [decode_fields hrest] at h
  exact ⟨type, seq, ack, pending, arg, rest, rfl, hrest, (Option.some.inj h).symm⟩

theorem length_fieldsFrame {type seq ack pending arg : UInt8} {rest : Bytes} (h : rest.length = kMaxPayloadSize) :
    (fieldsFrame type seq ack pending arg rest).payload.length = payloadSize (.ofByte type) arg := by
  have := payloadSize_le (.ofByte type) arg
  simp only [fieldsFrame, List.length_take, h]
  omega

/-- Whatever is decoded is well-formed. -/
theorem wellFormed_of_decode {packet : Bytes} {frame : MacFrame} (h : decodeMacFrame packet = some frame) : frame.WellFormed := by
  obtain ⟨type, seq, ack, pending, arg, rest, -, hrest, rfl⟩ := fields_of_decode h
  exact length_fieldsFrame hrest

/-- Decoding reads only the header and the payload. -/
theorem decode_of_take {packet packet' : Bytes} {frame : MacFrame} (h : decodeMacFrame packet = some frame)
    (hlen : packet'.length = kMaxPacketSize)
    (htake : packet'.take (kHeaderSize + frame.payload.length) = packet.take (kHeaderSize + frame.payload.length)) :
    decodeMacFrame packet' = some frame := by
  obtain ⟨type, seq, ack, pending, arg, rest, rfl, hrest, rfl⟩ := fields_of_decode h
  obtain ⟨type', seq', ack', pending', arg', rest', rfl, hrest'⟩ := exists_fields hlen
  rw [length_fieldsFrame hrest, Nat.add_comm] at htake
  simp only [kHeaderSize, List.take_succ_cons, List.cons.injEq] at htake
  obtain ⟨rfl, rfl, rfl, rfl, rfl, hpayload⟩ := htake
  rw [decode_fields hrest', fieldsFrame, hpayload]
  rfl

/-- Encoding a decoded frame keeps its header and payload and clears the rest of the packet. -/
theorem encode_of_decode {packet : Bytes} {frame : MacFrame} (h : decodeMacFrame packet = some frame) :
    encodeMacFrame frame = some (packet.take (kHeaderSize + frame.payload.length) ++
      List.replicate (kMaxPayloadSize - frame.payload.length) 0) := by
  have hle := (wellFormed_of_decode h).length_le
  obtain ⟨type, seq, ack, pending, arg, rest, rfl, hrest, rfl⟩ := fields_of_decode h
  rw [encodeMacFrame, if_neg (not_lt.mpr hle), length_fieldsFrame hrest, Nat.add_comm kHeaderSize]
  simp [fieldsFrame, kHeaderSize]

theorem canonical_of_encode {frame : MacFrame} (hwf : frame.WellFormed) {packet : Bytes}
    (h : encodeMacFrame frame = some packet) : Canonical packet := by
  refine ⟨frame, decode_of_encode hwf h, fun byte hbyte => ?_⟩
  rw [encodeMacFrame, if_neg (not_lt.mpr hwf.length_le)] at h
  cases h
  rw [List.drop_left' (by simp only [List.length_append, List.length_cons, List.length_nil, kHeaderSize])] at hbyte
  exact List.eq_of_mem_replicate hbyte

/-- A canonical packet is what its frame encodes to. -/
theorem Canonical.encode {packet : Bytes} {frame : MacFrame} (h : Canonical packet) (hdecode : decodeMacFrame packet = some frame) :
    encodeMacFrame frame = some packet := by
  obtain ⟨frame', hdecode', hzero⟩ := h
  obtain rfl := Option.some.inj (hdecode.symm.trans hdecode')
  have hrest : packet.drop (kHeaderSize + frame.payload.length) = List.replicate (kMaxPayloadSize - frame.payload.length) 0 := by
    refine List.eq_replicate_iff.mpr ⟨?_, hzero⟩
    rw [List.length_drop, length_of_decode hdecode]
    simp only [kMaxPayloadSize]
    omega
  rw [encode_of_decode hdecode, ← hrest, List.take_append_drop]

/-- The codec on the frames and the packets that it does not change. -/
def codec : {frame : MacFrame // frame.WellFormed} ≃ {packet : Bytes // Canonical packet} where
  toFun frame := ⟨(encodeMacFrame frame.val).get (by
      obtain ⟨packet, hencode, -⟩ := exists_encode frame.property
      exact Option.isSome_iff_exists.mpr ⟨packet, hencode⟩),
    canonical_of_encode frame.property (Option.some_get _).symm⟩
  invFun packet := ⟨(decodeMacFrame packet.val).get (by
      obtain ⟨frame, hdecode, -⟩ := packet.property
      exact Option.isSome_iff_exists.mpr ⟨frame, hdecode⟩),
    wellFormed_of_decode (Option.some_get _).symm⟩
  left_inv frame := Subtype.ext (Option.get_of_eq_some _ (decode_of_encode frame.property (Option.some_get _).symm))
  right_inv packet := Subtype.ext (Option.get_of_eq_some _ (packet.property.encode (Option.some_get _).symm))

/-- `EncodeMacFrame` is a bijection from the well-formed frames onto the canonical packets, with
    `DecodeMacFrame` as its inverse; outside of them it forgets exactly the padding. -/
theorem encode_decode :
    (∃ e : {frame : MacFrame // frame.WellFormed} ≃ {packet : Bytes // Canonical packet},
      (∀ frame, encodeMacFrame frame.val = some (e frame).val) ∧ ∀ packet, decodeMacFrame packet.val = some (e.symm packet).val) ∧
    (∀ frame : MacFrame, frame.payload.length ≤ kMaxPayloadSize →
      ((encodeMacFrame frame).bind decodeMacFrame = some frame ↔ frame.WellFormed)) ∧
    (∀ packet : Bytes, packet.length = kMaxPacketSize → ∃ frame packet', decodeMacFrame packet = some frame ∧
      encodeMacFrame frame = some packet' ∧ decodeMacFrame packet' = some frame ∧ Canonical packet' ∧
      packet'.take (kHeaderSize + frame.payload.length) = packet.take (kHeaderSize + frame.payload.length) ∧
      ∀ other, Canonical other →
        other.take (kHeaderSize + frame.payload.length) = packet.take (kHeaderSize + frame.payload.length) → other = packet') ∧
    (∀ frame : MacFrame, encodeMacFrame frame = none ↔ kMaxPayloadSize < frame.payload.length) ∧
    (∀ packet : Bytes, decodeMacFrame packet = none ↔ packet.length ≠ kMaxPacketSize) := by
  refine ⟨⟨codec, fun frame => (Option.some_get _).symm, fun packet => (Option.some_get _).symm⟩, ?_, ?_,
    fun _ => encodeMacFrame_eq_none, fun _ => decodeMacFrame_eq_none⟩
  · intro frame hle
    constructor
    · intro hsame
      obtain ⟨packet, -, hdecode⟩ := Option.bind_eq_some_iff.mp hsame
      exact wellFormed_of_decode hdecode
    · intro hwf
      obtain ⟨packet, hencode, hdecode⟩ := exists_encode hwf
      rw [hencode]
      exact hdecode
  · intro packet hlen
    obtain ⟨frame, hdecode⟩ := Option.ne_none_iff_exists'.mp (mt decodeMacFrame_eq_none.mp (not_not.mpr hlen))
    have hwf := wellFormed_of_decode hdecode
    obtain ⟨packet', hencode, hdecode'⟩ := exists_encode hwf
    refine ⟨frame, packet', hdecode, hencode, hdecode', canonical_of_encode hwf hencode, ?_, ?_⟩
    · have hpacket' := Option.some.inj ((encode_of_decode hdecode).symm.trans hencode)
      have hsize : (packet.take (kHeaderSize + frame.payload.length)).length = kHeaderSize + frame.payload.length := by
        have := hwf.length_le
        rw [List.length_take, hlen]
        simp only [kMaxPayloadSize] at this
        simp only [kMaxPacketSize, kHeaderSize] at this ⊢
        omega
      rw [← hpacket', List.take_left' hsize]
    · intro other hother hagree
      obtain ⟨frame', hframe', -⟩ := id hother
      have := hother.encode (decode_of_take hdecode (length_of_decode hframe') hagree)
      exact Option.some.inj (this.symm.trans hencode)

end Nerfnet
