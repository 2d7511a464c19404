import Nerfnet.Library.Transfer
import Nerfnet.RadioInterface
import Nerfnet.Theorems.Codec

/-! # The fragment in flight

What the TX fields keep in every run of either role (`TxState.Wf`), and what the functions on them do:
`BuildNextDataFrameLocked` offers the first fragment of the packet at the front (`Offers`), and
`CommitAckLocked` drops it from the queue when its acknowledgement comes. -/

namespace Nerfnet

/-! ### Sequence numbers -/

/-- The sequence number of fragment `n` of a session: 0 stands for no fragment, then 1 to 31 repeat. -/
def seqLabel (n : ℕ) : UInt8 := if n = 0 then kNoSeq else .ofNat ((n - 1) % 31 + 1)

theorem toNat_seqLabel_succ (n : ℕ) : (seqLabel (n + 1)).toNat = n % 31 + 1 := by
  simp only [seqLabel, Nat.add_one_ne_zero, if_false, Nat.add_sub_cancel, UInt8.toNat_ofNat']
  omega

theorem seqLabel_succ_ne_zero (n : ℕ) : seqLabel (n + 1) ≠ 0 := fun h => by
  have := congrArg UInt8.toNat h
  rw [toNat_seqLabel_succ] at this
  simp at this

theorem seqLabel_succ_ne (n : ℕ) : seqLabel (n + 1) ≠ seqLabel n := by
  cases n with
  | zero => exact seqLabel_succ_ne_zero 0
  | succ n =>
    intro h
    have := congrArg UInt8.toNat h
    rw [toNat_seqLabel_succ, toNat_seqLabel_succ] at this
    omega

theorem toNat_nextSeq (seq : UInt8) :
    (nextSeq seq).toNat = if seq.toNat = 0 ∨ 31 ≤ seq.toNat then 1 else seq.toNat + 1 := by
  have hzero : seq = 0 ↔ seq.toNat = 0 := by rw [← UInt8.toNat_inj]; simp
  have hmax : kMaxSeq ≤ seq ↔ 31 ≤ seq.toNat := by rw [UInt8.le_iff_toNat_le]; simp [kMaxSeq]
  unfold nextSeq
  simp only [hzero, hmax]
  split
  · rfl
  · rename_i h
    rw [UInt8.toNat_add]
    simp only [UInt8.toNat_one]
    omega

theorem nextSeq_seqLabel (n : ℕ) : nextSeq (seqLabel n) = seqLabel (n + 1) := by
  apply UInt8.toNat_inj.mp
  rw [toNat_nextSeq, toNat_seqLabel_succ]
  cases n with
  | zero => simp [seqLabel, kNoSeq]
  | succ n =>
    rw [toNat_seqLabel_succ]
    split <;> omega

/-! ### The TX fields -/

namespace TxState

@[simp] theorem tunnelThread_readBuffer (tx : TxState) (reads : List Bytes) :
    (tx.tunnelThread reads).readBuffer = tx.readBuffer ++ reads.filter isValidIpPacket := rfl

/-- What the TX fields keep: a fragment in flight is the first one of the packet at the front. -/
structure Wf (tx : TxState) : Prop where
  next : 1 ≤ tx.nextTxSeq.toNat ∧ tx.nextTxSeq.toNat ≤ 31
  inFlight : tx.txInFlight = true → tx.txInflightSeq = tx.nextTxSeq ∧ ∃ current rest,
    tx.readBuffer = current :: rest ∧ tx.txInflightBytesLeft = .ofNat (min current.length 255) ∧
      tx.txInflightPayload = current.take kMaxPayloadSize
  idle : tx.txInFlight = false → tx.txInflightSeq = 0 ∧ tx.txInflightBytesLeft = 0 ∧ tx.txInflightPayload = []

theorem wf_init : Wf {} := ⟨by decide, nofun, fun _ => ⟨rfl, rfl, rfl⟩⟩

theorem wf_resetLocked (tx : TxState) : tx.resetLocked.Wf :=
  ⟨by simp [resetLocked], nofun, fun _ => ⟨rfl, rfl, rfl⟩⟩

theorem Wf.tunnelThread {tx : TxState} (h : tx.Wf) (reads : List Bytes) : (tx.tunnelThread reads).Wf where
  next := h.next
  inFlight hf := by
    obtain ⟨hseq, current, rest, hq, hleft, hpayload⟩ := h.inFlight hf
    exact ⟨hseq, current, rest ++ reads.filter isValidIpPacket, by simp [hq], hleft, hpayload⟩
  idle := h.idle

theorem Wf.seq_ne_zero {tx : TxState} (h : tx.Wf) (hf : tx.txInFlight = true) : tx.txInflightSeq ≠ 0 := by
  rw [(h.inFlight hf).1]
  intro h0
  have := h.next.1
  rw [h0] at this
  simp at this

theorem Wf.localHasData {tx : TxState} (h : tx.Wf) : tx.localHasData = true ↔ tx.readBuffer ≠ [] := by
  unfold TxState.localHasData
  cases hf : tx.txInFlight with
  | false => cases tx.readBuffer <;> simp
  | true =>
    obtain ⟨-, current, rest, hq, -⟩ := h.inFlight hf
    simp [hq]

/-- What `TunnelThread` reads leaves local data as it is. -/
theorem Wf.localHasData_tunnelThread {tx : TxState} (h : tx.Wf) (hdata : tx.localHasData = true) (reads : List Bytes) :
    (tx.tunnelThread reads).localHasData = true := by
  have hne := h.localHasData.mp hdata
  exact (h.tunnelThread reads).localHasData.mpr (by simp [hne])

/-- The fragment in flight is the first one of the packet at the front, and `tx_inflight_bytes_left_` is
    at most a payload's size exactly if it is the last one. -/
theorem Wf.fragment {tx : TxState} (h : tx.Wf) (hf : tx.txInFlight = true) :
    ∃ current rest, tx.readBuffer = current :: rest ∧ tx.txInflightPayload = current.take kMaxPayloadSize ∧
      (tx.txInflightBytesLeft.toNat ≤ kMaxPayloadSize ↔ current.length ≤ kMaxPayloadSize) := by
  obtain ⟨-, current, rest, hq, hleft, hpayload⟩ := h.inFlight hf
  refine ⟨current, rest, hq, hpayload, ?_⟩
  rw [hleft, UInt8.toNat_ofNat']
  simp only [kMaxPayloadSize, kMaxPacketSize, kHeaderSize]
  omega

theorem advanceTxSeq_nextTxSeq (tx : TxState) (h : 1 ≤ tx.nextTxSeq.toNat ∧ tx.nextTxSeq.toNat ≤ 31) :
    tx.advanceTxSeq.nextTxSeq = nextSeq tx.nextTxSeq := by
  apply UInt8.toNat_inj.mp
  have hsum : (tx.nextTxSeq + 1).toNat = tx.nextTxSeq.toNat + 1 := by
    rw [UInt8.toNat_add]
    simp only [UInt8.toNat_one]
    omega
  have hzero : tx.nextTxSeq + 1 = 0 ↔ False := by
    rw [← UInt8.toNat_inj, hsum]
    simp
  have hmax : kMaxSeq < tx.nextTxSeq + 1 ↔ 31 < tx.nextTxSeq.toNat + 1 := by
    rw [UInt8.lt_iff_toNat_lt, hsum]
    simp [kMaxSeq]
  rw [toNat_nextSeq]
  simp only [advanceTxSeq, hzero, hmax, false_or]
  split <;> split
  · rfl
  · omega
  · omega
  · exact hsum

/-- The TX fields after the acknowledgement of the fragment in flight. -/
def committed (tx : TxState) : TxState where
  readBuffer := Transfer.dropFragment kMaxPayloadSize tx.readBuffer
  nextTxSeq := nextSeq tx.nextTxSeq

theorem commitAckLocked_of_inFlight {tx : TxState} (h : tx.Wf) (hf : tx.txInFlight = true) :
    tx.commitAckLocked tx.txInflightSeq = tx.committed := by
  obtain ⟨-, current, rest, hq, -, hpayload⟩ := h.inFlight hf
  have hconsumed : min current.length (current.take kMaxPayloadSize).length = min current.length kMaxPayloadSize := by
    rw [List.length_take]
    omega
  have hbuffer : (if (current.drop (min current.length kMaxPayloadSize)).isEmpty then rest
      else current.drop (min current.length kMaxPayloadSize) :: rest) = Transfer.dropFragment kMaxPayloadSize tx.readBuffer := by
    simp only [hq, Transfer.dropFragment]
    by_cases hle : current.length ≤ kMaxPayloadSize
    · simp [hle]
    · rw [Nat.min_eq_right (by omega)]
      simp [hle]
  have hnext := advanceTxSeq_nextTxSeq { tx with
    readBuffer := Transfer.dropFragment kMaxPayloadSize tx.readBuffer, txInFlight := false, txInflightSeq := 0,
    txInflightBytesLeft := 0, txInflightPayload := [] } h.next
  simp only [advanceTxSeq] at hnext
  simp only [commitAckLocked, hf, Bool.not_true, Bool.false_eq_true, if_false, ne_eq, not_true_eq_false, hpayload]
  simp only [hq, hconsumed, hbuffer] at hnext ⊢
  simp only [advanceTxSeq, committed, hnext]
  rw [← hq]

theorem commitAckLocked_of_ne {tx : TxState} {ackSeq : UInt8} (h : tx.txInFlight = true → ackSeq ≠ tx.txInflightSeq) :
    tx.commitAckLocked ackSeq = tx := by
  cases hf : tx.txInFlight with
  | false => simp [commitAckLocked, hf]
  | true => simp [commitAckLocked, hf, h hf]

/-- The acknowledgement retires the fragment in flight. -/
def Retires (tx : TxState) (ackSeq : UInt8) : Prop := tx.txInFlight = true ∧ ackSeq = tx.txInflightSeq

theorem commitAckLocked_of_not_retires {tx : TxState} {ackSeq : UInt8} (h : ¬tx.Retires ackSeq) :
    tx.commitAckLocked ackSeq = tx :=
  commitAckLocked_of_ne fun hf hseq => h ⟨hf, hseq⟩

theorem wf_committed {tx : TxState} : tx.committed.Wf where
  next := by
    simp only [committed, toNat_nextSeq]
    split <;> omega
  inFlight h := by cases h
  idle _ := ⟨rfl, rfl, rfl⟩

theorem Wf.commitAckLocked {tx : TxState} (h : tx.Wf) (ackSeq : UInt8) : (tx.commitAckLocked ackSeq).Wf := by
  by_cases hretires : tx.Retires ackSeq
  · rw [hretires.2, commitAckLocked_of_inFlight h hretires.1]
    exact wf_committed
  · rwa [commitAckLocked_of_not_retires hretires]

end TxState

/-! ### Offering the fragment -/

/-- A DATA frame with the fragment in flight in `tx'`: the one that was in flight in `tx`, or else the
    first one of its queue. -/
structure Offers (tx tx' : TxState) (frame : MacFrame) : Prop where
  inFlight : tx'.txInFlight = true
  readBuffer : tx'.readBuffer = tx.readBuffer
  next : tx'.nextTxSeq = tx.nextTxSeq
  same : tx.txInFlight = true → tx' = tx
  wf : tx'.Wf
  seq : frame.seq = tx'.txInflightSeq
  arg : frame.arg = tx'.txInflightBytesLeft
  payload : frame.payload = tx'.txInflightPayload

/-- The roles overwrite the `pending` of the frame that they are offered. -/
theorem Offers.withPending {tx tx' : TxState} {frame : MacFrame} (h : Offers tx tx' frame) (pending : UInt8) :
    Offers tx tx' { frame with pending } :=
  ⟨h.inFlight, h.readBuffer, h.next, h.same, h.wf, h.seq, h.arg, h.payload⟩

/-- The DATA frame for the fragment in flight in `tx`. -/
def offeredFrame (r : RadioInterface) (tx : TxState) : MacFrame where
  type := .data
  seq := tx.txInflightSeq
  ack := r.rx.ackSeq
  pending := r.tx.pendingHintLocked
  arg := tx.txInflightBytesLeft
  payload := tx.txInflightPayload

theorem buildNextDataFrameLocked_spec {r : RadioInterface} (hwf : r.tx.Wf) (hdata : r.tx.localHasData = true) :
    ∃ tx frame, r.buildNextDataFrameLocked = ({ r with tx }, some frame) ∧ frame.type = .data ∧
      frame.ack = r.rx.ackSeq ∧ Offers r.tx tx frame := by
  cases hf : r.tx.txInFlight with
  | true =>
    refine ⟨r.tx, offeredFrame r r.tx, ?_, rfl, rfl, hf, rfl, rfl, fun _ => rfl, hwf, rfl, rfl, rfl⟩
    simp [RadioInterface.buildNextDataFrameLocked, offeredFrame, hf]
  | false =>
    cases hq : r.tx.readBuffer with
    | nil => exact absurd hq (hwf.localHasData.mp hdata)
    | cons current rest =>
      let tx : TxState := { r.tx with
        txInFlight := true
        txInflightSeq := r.tx.nextTxSeq
        txInflightBytesLeft := .ofNat (min current.length 255)
        txInflightPayload := current.take (getTransferSize current) }
      have hpayload : tx.txInflightPayload = current.take kMaxPayloadSize := by
        simp only [tx, getTransferSize, List.take_eq_take_iff]
        omega
      refine ⟨tx, offeredFrame r tx, ?_, rfl, rfl, rfl, rfl, rfl, ?_, ?_, rfl, rfl, rfl⟩
      · simp [RadioInterface.buildNextDataFrameLocked, offeredFrame, hf, hq, tx]
      · exact fun h => by rw [hf] at h; cases h
      · exact ⟨hwf.next, fun _ => ⟨rfl, current, rest, hq, rfl, hpayload⟩, fun h => by cases h⟩

/-- The `arg` of an offered frame says how long its payload is. -/
theorem Offers.wellFormed {tx tx' : TxState} {frame : MacFrame} (h : Offers tx tx' frame) (htype : frame.type = .data) :
    frame.WellFormed := by
  obtain ⟨-, current, rest, -, hleft, hpayload⟩ := h.wf.inFlight h.inFlight
  rw [MacFrame.WellFormed, if_pos htype, h.payload, h.arg, hleft, hpayload, List.length_take, UInt8.toNat_ofNat']
  simp only [kMaxPayloadSize, kMaxPacketSize, kHeaderSize]
  omega

/-- An offered frame carries the first fragment of the packet at the front, and its `arg` is at most a
    payload's size exactly if this is the last one. -/
theorem Offers.fragment {tx tx' : TxState} {frame : MacFrame} (h : Offers tx tx' frame) :
    ∃ current rest, tx.readBuffer = current :: rest ∧ frame.payload = current.take kMaxPayloadSize ∧
      (frame.arg.toNat ≤ kMaxPayloadSize ↔ current.length ≤ kMaxPayloadSize) := by
  obtain ⟨current, rest, hq, hpayload, harg⟩ := h.wf.fragment h.inFlight
  exact ⟨current, rest, h.readBuffer ▸ hq, h.payload.trans hpayload, h.arg ▸ harg⟩

end Nerfnet
