import Mathlib.Data.List.Basic
import Mathlib.Data.UInt

/-! # The MAC frame and its codec

The frame of `nerfnet/net/radio_interface.h` and its 32-byte packet (`EncodeMacFrame`,
`DecodeMacFrame`). Bytes are `UInt8`, a packet is a list of bytes. -/

namespace Nerfnet

abbrev Bytes := List UInt8

def kMaxPacketSize : Nat := 32
def kHeaderSize : Nat := 5
def kMaxPayloadSize : Nat := kMaxPacketSize - kHeaderSize

def kNoSeq : UInt8 := 0
def kMaxSeq : UInt8 := 31

/-- `FrameType` is a `uint8_t` enumeration that `DecodeMacFrame` fills by a `static_cast` of the type
    byte, so it also has the values that no enumerator names. -/
inductive FrameType where
  | invalid
  | pending
  | grant
  | data
  | ack
  | reset
  | other (byte : {b : UInt8 // 5 < b})
  deriving DecidableEq

namespace FrameType

def toByte : FrameType → UInt8
  | invalid => 0
  | pending => 1
  | grant => 2
  | data => 3
  | ack => 4
  | reset => 5
  | other byte => byte.val

def ofByte (byte : UInt8) : FrameType :=
  if h : 5 < byte then .other ⟨byte, h⟩
  else if byte = 1 then .pending
  else if byte = 2 then .grant
  else if byte = 3 then .data
  else if byte = 4 then .ack
  else if byte = 5 then .reset
  else .invalid

end FrameType

/-- `RadioInterface::MacFrame`, with its default values. -/
structure MacFrame where
  type : FrameType := .invalid
  seq : UInt8 := 0
  ack : UInt8 := 0
  pending : UInt8 := 0
  arg : UInt8 := 0
  payload : Bytes := []
  deriving DecidableEq

/-- `EncodeMacFrame`: the header, the payload, and zeros up to the packet size. `none` is the
    `false` of a payload that does not fit. -/
def encodeMacFrame (frame : MacFrame) : Option Bytes :=
  if kMaxPayloadSize < frame.payload.length then none
  else some ([frame.type.toByte, frame.seq, frame.ack, frame.pending, frame.arg] ++ frame.payload ++
    List.replicate (kMaxPayloadSize - frame.payload.length) 0)

/-- `DecodeMacFrame`. The payload length is not transmitted: it is the `arg` of a DATA frame, at most
    `kMaxPayloadSize`. -/
def decodeMacFrame (packet : Bytes) : Option MacFrame :=
  match packet with
  | type :: seq :: ack :: pending :: arg :: rest =>
    if packet.length ≠ kMaxPacketSize then none
    else
      let payloadSize := if FrameType.ofByte type = .data ∧ 0 < arg then min arg.toNat kMaxPayloadSize else 0
      some { type := .ofByte type, seq, ack, pending, arg, payload := rest.take payloadSize }
  | _ => none

end Nerfnet
