import Nerfnet.MacFrame

/-! # RadioInterface

The state that coordinator and peer share and the functions of `nerfnet/net/radio_interface.cc` on it.
A function named `…Locked` runs under `read_buffer_mutex_`. The TX fields and the RX fields are two
records: `CommitAckLocked` touches the TX fields only, `ConsumeDataFrameLocked` the RX fields only. -/

namespace Nerfnet

/-- `read_buffer_` and the fields under "TX state". -/
structure TxState where
  readBuffer : List Bytes := []
  nextTxSeq : UInt8 := 1
  txInFlight : Bool := false
  txInflightSeq : UInt8 := 0
  txInflightBytesLeft : UInt8 := 0
  txInflightPayload : Bytes := []
  deriving DecidableEq

/-- `frame_buffer_` and the field under "RX ACK state". `tunnel` lists what `WriteTunnel` handed to
    `write(tunnel_fd_)`, the first packet first. -/
structure RxState where
  frameBuffer : Bytes := []
  lastRxSeq : Option UInt8 := none
  tunnel : List Bytes := []
  deriving DecidableEq

structure RadioInterface where
  tx : TxState := {}
  rx : RxState := {}
  deriving DecidableEq

inductive RequestResult where
  | success
  | timeout
  | malformed
  | transmitError
  deriving DecidableEq

/-! ### IP packets -/

def byteAt (packet : Bytes) (i : Nat) : UInt8 := packet.getD i 0

/-- The 16-bit field at `i`, in network order. -/
def wordAt (packet : Bytes) (i : Nat) : UInt16 :=
  (byteAt packet i).toUInt16 <<< 8 ||| (byteAt packet (i + 1)).toUInt16

def isValidIpPacket (packet : Bytes) : Bool :=
  if packet.isEmpty then false
  else
    let version := byteAt packet 0 >>> 4
    if version = 4 then
      if packet.length < 20 then false
      else
        let ihl := (byteAt packet 0 &&& 0x0F).toNat * 4
        if ihl < 20 ∨ packet.length < ihl then false
        else
          let totalLen := (wordAt packet 2).toNat
          if totalLen < ihl then false else packet.length == totalLen
    else if version = 6 then
      if packet.length < 40 then false
      else
        let payloadLen := (wordAt packet 4).toNat
        packet.length == 40 + payloadLen
    else false

/-! ### Sequence numbers -/

def nextSeq (seq : UInt8) : UInt8 := if seq = 0 ∨ kMaxSeq ≤ seq then 1 else seq + 1

/-! ### The TX fields -/

namespace TxState

/-- `tx_in_flight_ || !read_buffer_.empty()`, as the choosing functions test it. -/
def localHasData (tx : TxState) : Bool := tx.txInFlight || !tx.readBuffer.isEmpty

/-- Passes of the loop of `TunnelThread`, one for each byte string of `reads` that it reads from the
    tunnel: what is no whole IP packet is dropped, the rest is queued. Its waiting while the queue is
    long only delays the next read. -/
def tunnelThread (tx : TxState) (reads : List Bytes) : TxState :=
  { tx with readBuffer := tx.readBuffer ++ reads.filter isValidIpPacket }

def pendingHintLocked (tx : TxState) : UInt8 := .ofNat (min tx.readBuffer.length 255)

def advanceTxSeq (tx : TxState) : TxState :=
  let next := tx.nextTxSeq + 1
  { tx with nextTxSeq := if next = 0 ∨ kMaxSeq < next then 1 else next }

/-- The part of `ConnectionReset` and `HandleReset` under the lock that concerns the TX fields. -/
def resetLocked (tx : TxState) : TxState :=
  { tx with
    nextTxSeq := 1
    txInFlight := false
    txInflightSeq := 0
    txInflightBytesLeft := 0
    txInflightPayload := [] }

def commitAckLocked (tx : TxState) (ackSeq : UInt8) : TxState :=
  if !tx.txInFlight then tx
  else if ackSeq ≠ tx.txInflightSeq then tx
  else
    let readBuffer :=
      match tx.readBuffer with
      | [] => []
      | frame :: rest =>
        let consumed := min frame.length tx.txInflightPayload.length
        if (frame.drop consumed).isEmpty then rest else frame.drop consumed :: rest
    advanceTxSeq { tx with
      readBuffer
      txInFlight := false
      txInflightSeq := 0
      txInflightBytesLeft := 0
      txInflightPayload := [] }

end TxState

def getTransferSize (frame : Bytes) : Nat := min frame.length kMaxPayloadSize

/-! ### The RX fields -/

namespace RxState

def resetRxAssemblyLocked (rx : RxState) : RxState := { rx with frameBuffer := [], lastRxSeq := none }

/-- `WriteTunnel`: a failing `write` is only logged, so the packet counts as handed over either way. -/
def writeTunnel (rx : RxState) : RxState :=
  if !isValidIpPacket rx.frameBuffer then { rx with frameBuffer := [] }
  else { rx with tunnel := rx.tunnel ++ [rx.frameBuffer], frameBuffer := [] }

/-- The end of `ConsumeDataFrameLocked`, for a frame with the expected sequence number. -/
def acceptDataFrame (rx : RxState) (frame : MacFrame) : RxState :=
  let rx := { rx with lastRxSeq := some frame.seq }
  if frame.payload.isEmpty then rx
  else
    let rx := { rx with frameBuffer := rx.frameBuffer ++ frame.payload }
    if frame.arg.toNat ≤ kMaxPayloadSize then rx.writeTunnel else rx

def consumeDataFrameLocked (rx : RxState) (frame : MacFrame) : RxState × Bool :=
  if frame.type ≠ .data then (rx, true)
  else if frame.seq = 0 then (rx.resetRxAssemblyLocked, false)
  else
    match rx.lastRxSeq with
    | some last =>
      if frame.seq = last then (rx, true)
      else if frame.seq ≠ nextSeq last then (rx.resetRxAssemblyLocked, false)
      else (rx.acceptDataFrame frame, true)
    | none => (rx.acceptDataFrame frame, true)

/-- `last_rx_seq_.value_or(kNoSeq)`, the acknowledgement that every frame carries. -/
def ackSeq (rx : RxState) : UInt8 := rx.lastRxSeq.getD kNoSeq

end RxState

namespace RadioInterface

/-- The part of `ConnectionReset` and of `HandleReset` under the lock. -/
def resetLocked (r : RadioInterface) : RadioInterface :=
  { r with tx := r.tx.resetLocked, rx := r.rx.resetRxAssemblyLocked }

def buildNextDataFrameLocked (r : RadioInterface) : RadioInterface × Option MacFrame :=
  let frame : MacFrame := { type := .data, ack := r.rx.ackSeq, pending := r.tx.pendingHintLocked }
  if r.tx.txInFlight then
    (r, some { frame with
      seq := r.tx.txInflightSeq
      arg := r.tx.txInflightBytesLeft
      payload := r.tx.txInflightPayload })
  else
    match r.tx.readBuffer with
    | [] => (r, none)
    | current :: _ =>
      let tx := { r.tx with
        txInFlight := true
        txInflightSeq := r.tx.nextTxSeq
        txInflightBytesLeft := .ofNat (min current.length 255)
        txInflightPayload := current.take (getTransferSize current) }
      ({ r with tx }, some { frame with
        seq := tx.txInflightSeq
        arg := tx.txInflightBytesLeft
        payload := tx.txInflightPayload })

/-- `Send`, where `radioOk` says whether `radio_.write` and `radio_.txStandBy` report success. -/
def send (request : Bytes) (radioOk : Bool) : RequestResult :=
  if kMaxPacketSize < request.length then .malformed else if radioOk then .success else .transmitError

end RadioInterface

/-- The Reset frame of `ConnectionReset` and `HandleReset`. -/
def resetFrame : MacFrame := { type := .reset, seq := 0, ack := 0, pending := 0, arg := 0 }

end Nerfnet
