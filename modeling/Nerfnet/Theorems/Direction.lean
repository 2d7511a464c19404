import Nerfnet.Library.StopAndWait
import Nerfnet.Theorems.Receive
import Nerfnet.Theorems.Roles

/-! # One direction of the link

The TX fields of a sender and the RX fields of a receiver, the frames on their way from the one to the
other (`forth`) and back (`back`): within a session they are a stop-and-wait link whose numbers are
sent modulo 31 (`Numbered`). The number of a DATA frame is known from its sequence number because the
ring leaves only two candidates at a time. -/

namespace Nerfnet

/-- The receiver has accepted the fragment that the sender has in flight. -/
def ahead (tx : TxState) (rx : RxState) : Bool := tx.txInFlight && rx.lastRxSeq == some tx.txInflightSeq

/-- The DATA frame carries fragment `n`; the fragment that is not acknowledged is the one in flight. -/
structure Carries (tx : TxState) (acked n : ℕ) (frame : MacFrame) : Prop where
  seq : frame.seq = seqLabel n
  fragment : n = acked + 1 → frame.arg = tx.txInflightBytesLeft ∧ frame.payload = tx.txInflightPayload

def dataFrames (frames : List MacFrame) : List MacFrame := frames.filter (·.type = .data)

structure Numbered (tx : TxState) (rx : RxState) (forth back : List MacFrame) (acked accepted : ℕ) (data acks : List ℕ) :
    Prop where
  ring : StopAndWait (tx.txInFlight = true) acked accepted data acks
  wf : tx.Wf
  next : tx.nextTxSeq = seqLabel (acked + 1)
  last : rx.lastRxSeq = if accepted = 0 then none else some (seqLabel accepted)
  data : List.Forall₂ (Carries tx acked) data (dataFrames forth)
  acks : back.map (·.ack) = acks.map seqLabel

def Direction (tx : TxState) (rx : RxState) (forth back : List MacFrame) : Prop :=
  ∃ acked accepted data acks, Numbered tx rx forth back acked accepted data acks

/-- The numbered fragment after the last one is accepted. -/
theorem accepts_of_seqLabel {rx : RxState} {frame : MacFrame} {n : ℕ} (htype : frame.type = .data)
    (hseq : frame.seq = seqLabel (n + 1)) (hlast : rx.lastRxSeq = if n = 0 then none else some (seqLabel n)) :
    rx.Accepts frame := by
  have hmem : ∀ last ∈ rx.lastRxSeq, last = seqLabel n := by
    intro last hmem
    rw [hlast] at hmem
    split at hmem
    · cases hmem
    · exact (Option.some.inj hmem).symm
  rw [RxState.Accepts, hseq]
  refine ⟨htype, ?_, fun hrep => seqLabel_succ_ne n (hmem _ hrep)⟩
  rintro (hzero | ⟨last, hrx, -, hnext⟩)
  · exact seqLabel_succ_ne_zero n hzero
  · rw [hmem last hrx, nextSeq_seqLabel] at hnext
    exact hnext rfl

section Numbered
variable {tx tx' : TxState} {rx : RxState} {forth back : List MacFrame} {frame : MacFrame} {acked accepted n : ℕ}
  {data acks : List ℕ}

theorem Numbered.ackSeq (h : Numbered tx rx forth back acked accepted data acks) : rx.ackSeq = seqLabel accepted := by
  rw [RxState.ackSeq, h.last]
  split
  · rename_i h0
    simp [h0, seqLabel]
  · rfl

theorem Numbered.inflightSeq (h : Numbered tx rx forth back acked accepted data acks) (hf : tx.txInFlight = true) :
    tx.txInflightSeq = seqLabel (acked + 1) := (h.wf.inFlight hf).1.trans h.next

theorem Numbered.ahead_iff (h : Numbered tx rx forth back acked accepted data acks) :
    ahead tx rx = true ↔ accepted = acked + 1 := by
  simp only [ahead, Bool.and_eq_true, beq_iff_eq]
  constructor
  · rintro ⟨hf, hlast⟩
    rw [h.last, h.inflightSeq hf] at hlast
    have hlo := h.ring.lower
    have hhi := h.ring.upper
    by_contra hne
    have heq : accepted = acked := by omega
    subst heq
    split at hlast
    · cases hlast
    · exact seqLabel_succ_ne accepted (Option.some.inj hlast).symm
  · intro heq
    have hf := h.ring.ahead heq
    refine ⟨hf, ?_⟩
    rw [h.last, h.inflightSeq hf, heq]
    simp

theorem Carries.congr {acked' : ℕ} (h : Carries tx acked n frame)
    (htx : n = acked' + 1 → n = acked + 1 ∧ tx'.txInflightBytesLeft = tx.txInflightBytesLeft ∧
      tx'.txInflightPayload = tx.txInflightPayload) : Carries tx' acked' n frame where
  seq := h.seq
  fragment hn := by
    obtain ⟨hn', hleft, hpayload⟩ := htx hn
    rw [hleft, hpayload]
    exact h.fragment hn'

/-- The numbers of the frames on their way stay as they are while the sender's side changes. -/
theorem forall₂_carries_congr {acked' : ℕ} {frames : List MacFrame} (h : List.Forall₂ (Carries tx acked) data frames)
    (htx : ∀ n ∈ data, n = acked' + 1 → n = acked + 1 ∧ tx'.txInflightBytesLeft = tx.txInflightBytesLeft ∧
      tx'.txInflightPayload = tx.txInflightPayload) : List.Forall₂ (Carries tx' acked') data frames :=
  ((List.forall₂_and_left (p := fun n => n ∈ data) _ _).mpr ⟨fun _ hn => hn, h⟩).imp
    fun n _ hc => hc.2.congr (htx n hc.1)

end Numbered

namespace Direction
variable {tx : TxState} {rx : RxState} {forth back : List MacFrame} {frame : MacFrame}

theorem start (tx : TxState) (rx : RxState) : Direction tx.resetLocked rx.resetRxAssemblyLocked [] [] :=
  ⟨0, 0, [], [], {
    ring := StopAndWait.start.congr False.elim
    wf := TxState.wf_resetLocked tx
    next := rfl
    last := rfl
    data := .nil
    acks := rfl }⟩

theorem wf (h : Direction tx rx forth back) : tx.Wf := by
  obtain ⟨acked, accepted, data, acks, hn⟩ := h
  exact hn.wf

theorem tunnelThread (h : Direction tx rx forth back) (reads : List Bytes) : Direction (tx.tunnelThread reads) rx forth back := by
  obtain ⟨acked, accepted, data, acks, hn⟩ := h
  exact ⟨acked, accepted, data, acks, hn.ring, hn.wf.tunnelThread reads, hn.next, hn.last,
    forall₂_carries_congr hn.data fun _ _ hd => ⟨hd, rfl, rfl⟩, hn.acks⟩

/-- The sender sends a frame, which may be lost. -/
theorem compose {r r' : RadioInterface} (h : Direction r.tx rx forth back) (hc : Composes r r' frame) :
    Direction r'.tx rx forth back ∧ Direction r'.tx rx (forth ++ [frame]) back ∧ ahead r'.tx rx = ahead r.tx rx := by
  obtain ⟨acked, accepted, data, acks, hn⟩ := h
  rcases hc.tx with ⟨htype, -, htx⟩ | ⟨htype, hoffers⟩
  · have hframes : dataFrames (forth ++ [frame]) = dataFrames forth := by simp [dataFrames, List.filter_append, htype]
    rw [htx]
    exact ⟨⟨acked, accepted, data, acks, hn⟩, ⟨acked, accepted, data, acks, hn.ring, hn.wf, hn.next, hn.last,
      hframes ▸ hn.data, hn.acks⟩, rfl⟩
  · have hframes : dataFrames (forth ++ [frame]) = dataFrames forth ++ [frame] := by
      simp [dataFrames, List.filter_append, htype]
    have hring := hn.ring.congr fun _ => hoffers.inFlight
    have hnext : r'.tx.nextTxSeq = seqLabel (acked + 1) := hoffers.next.trans hn.next
    -- A fragment on its way that is not acknowledged was in flight before, so it is not built anew.
    have hdata : List.Forall₂ (Carries r'.tx acked) data (dataFrames forth) :=
      forall₂_carries_congr hn.data fun n hmem hd => by
        rw [hoffers.same (hn.ring.data_armed n hmem hd)]
        exact ⟨hd, rfl, rfl⟩
    have hframe : Carries r'.tx acked (acked + 1) frame :=
      ⟨hoffers.seq.trans ((hoffers.wf.inFlight hoffers.inFlight).1.trans hnext), fun _ => ⟨hoffers.arg, hoffers.payload⟩⟩
    have hn' : Numbered r'.tx rx forth back acked accepted data acks :=
      ⟨hring, hoffers.wf, hnext, hn.last, hdata, hn.acks⟩
    exact ⟨⟨acked, accepted, data, acks, hn'⟩,
      ⟨acked, accepted, data ++ [acked + 1], acks, hring.send hoffers.inFlight, hoffers.wf, hnext, hn.last,
        hframes ▸ List.rel_append hdata (.cons hframe .nil), hn.acks⟩,
      Bool.eq_iff_iff.mpr (hn'.ahead_iff.trans hn.ahead_iff.symm)⟩

/-- The receiver sends a frame back. -/
theorem acknowledge (h : Direction tx rx forth back) (hack : frame.ack = rx.ackSeq) :
    Direction tx rx forth (back ++ [frame]) := by
  obtain ⟨acked, accepted, data, acks, hn⟩ := h
  refine ⟨acked, accepted, data, acks ++ [accepted], hn.ring.acknowledge, hn.wf, hn.next, hn.last, hn.data, ?_⟩
  rw [List.map_append, List.map_append, hn.acks]
  simp [hack, hn.ackSeq]

/-- The sender takes the oldest frame on its way back: it is for an earlier fragment, or for the one in
    flight, which the receiver has then accepted. -/
theorem commit (h : Direction tx rx forth (frame :: back)) :
    Direction (tx.commitAckLocked frame.ack) rx forth back ∧
      (tx.commitAckLocked frame.ack = tx ∨
        (ahead tx rx = true ∧ tx.commitAckLocked frame.ack = tx.committed)) := by
  obtain ⟨acked, accepted, data, acks, hn⟩ := h
  obtain - | ⟨n, acks⟩ := acks
  · exact absurd hn.acks (by simp)
  obtain ⟨hack, hrest⟩ : frame.ack = seqLabel n ∧ back.map (·.ack) = acks.map seqLabel := List.cons.inj hn.acks
  rcases hn.ring.acks_head with rfl | ⟨rfl, haccepted, hf⟩
  · have hsame : tx.commitAckLocked frame.ack = tx := TxState.commitAckLocked_of_ne fun hf => by
      rw [hack, hn.inflightSeq hf]
      exact (seqLabel_succ_ne _).symm
    rw [hsame]
    exact ⟨⟨_, accepted, data, acks, hn.ring.skipAck, hn.wf, hn.next, hn.last, hn.data, hrest⟩, Or.inl rfl⟩
  · have hcommit : tx.commitAckLocked frame.ack = tx.committed := by
      rw [hack, ← hn.inflightSeq hf]
      exact TxState.commitAckLocked_of_inFlight hn.wf hf
    rw [hcommit]
    refine ⟨⟨acked + 1, accepted, data, acks, hn.ring.commit.congr False.elim, TxState.wf_committed, ?_, hn.last, ?_, hrest⟩,
      Or.inr ⟨hn.ahead_iff.mpr haccepted, rfl⟩⟩
    · rw [TxState.committed, hn.next, nextSeq_seqLabel]
    · exact forall₂_carries_congr hn.data fun n hmem hd => by
        have := hn.ring.data_upper n hmem
        omega

/-- A frame without data leaves the ring at the receiver. -/
theorem skip (h : Direction tx rx (frame :: forth) back) (htype : frame.type ≠ .data) : Direction tx rx forth back := by
  obtain ⟨acked, accepted, data, acks, hn⟩ := h
  have hframes : dataFrames (frame :: forth) = dataFrames forth := by simp [dataFrames, htype]
  exact ⟨acked, accepted, data, acks, hn.ring, hn.wf, hn.next, hn.last, hframes ▸ hn.data, hn.acks⟩

/-- The receiver takes the oldest DATA frame on its way and never rejects it: it repeats the last
    fragment, or it is the fragment in flight, which has not been accepted yet. -/
theorem consume (h : Direction tx rx (frame :: forth) back) (htype : frame.type = .data) :
    ∃ rx', rx.consumeDataFrameLocked frame = (rx', true) ∧ Direction tx rx' forth back ∧ rx'.lastRxSeq = some frame.seq ∧
      (rx' = rx ∨ (ahead tx rx = false ∧ ahead tx rx' = true ∧ rx' = rx.acceptDataFrame frame ∧
        frame.arg = tx.txInflightBytesLeft ∧ frame.payload = tx.txInflightPayload)) := by
  obtain ⟨acked, accepted, data, acks, hn⟩ := h
  have hframes : dataFrames (frame :: forth) = frame :: dataFrames forth := by simp [dataFrames, htype]
  have hdata := hn.data
  rw [hframes] at hdata
  obtain - | ⟨hcarries, hrest⟩ := hdata
  rename_i n data
  have hpos := hn.ring.data_pos n List.mem_cons_self
  have hseq : frame.seq ≠ 0 := by
    obtain ⟨m, rfl⟩ := Nat.exists_eq_succ_of_ne_zero (Nat.one_le_iff_ne_zero.mp hpos)
    rw [hcarries.seq]
    exact seqLabel_succ_ne_zero m
  rcases hn.ring.data_head with rfl | ⟨rfl, rfl, hf⟩
  · -- A repetition.
    have hlast : rx.lastRxSeq = some frame.seq := by
      rw [hn.last, if_neg (by omega), hcarries.seq]
    exact ⟨rx, RxState.consumeDataFrameLocked_of_repeats hseq hlast,
      ⟨acked, n, data, acks, hn.ring.skip, hn.wf, hn.next, hn.last, hrest, hn.acks⟩, hlast, Or.inl rfl⟩
  · have haccepts := accepts_of_seqLabel htype hcarries.seq hn.last
    refine ⟨rx.acceptDataFrame frame, RxState.consumeDataFrameLocked_of_accepts haccepts, ?_,
      RxState.acceptDataFrame_lastRxSeq rx frame, Or.inr ⟨?_, ?_, rfl, hcarries.fragment rfl⟩⟩
    · refine ⟨accepted, accepted + 1, data, acks, hn.ring.accept, hn.wf, hn.next, ?_, hrest, hn.acks⟩
      rw [RxState.acceptDataFrame_lastRxSeq, hcarries.seq]
      simp
    · have := mt hn.ahead_iff.mp (Nat.succ_ne_self accepted).symm
      simpa using this
    · simp only [ahead, hf, RxState.acceptDataFrame_lastRxSeq, hcarries.seq, hn.inflightSeq hf, Bool.true_and, beq_self_eq_true]

/-- The receiver's present acknowledgement retires the fragment in flight if it has been accepted. -/
theorem commit_ackSeq (h : Direction tx rx forth back) :
    tx.commitAckLocked rx.ackSeq = if ahead tx rx then tx.committed else tx := by
  obtain ⟨acked, accepted, data, acks, hn⟩ := h
  by_cases hahead : ahead tx rx = true
  · have haccepted := hn.ahead_iff.mp hahead
    have hf := hn.ring.ahead haccepted
    rw [if_pos hahead, hn.ackSeq, haccepted, ← hn.inflightSeq hf]
    exact TxState.commitAckLocked_of_inFlight hn.wf hf
  · have hlower := hn.ring.lower
    have hupper := hn.ring.upper
    have haccepted : accepted = acked := by
      have := mt hn.ahead_iff.mpr hahead
      omega
    rw [if_neg hahead, hn.ackSeq, haccepted]
    exact TxState.commitAckLocked_of_ne fun hf => by
      rw [hn.inflightSeq hf]
      exact (seqLabel_succ_ne _).symm

/-- Consuming the fragment in flight leaves it accepted, whether it is new or repeated. -/
theorem consume_current (h : Direction tx rx (frame :: forth) back) (htype : frame.type = .data)
    (hf : tx.txInFlight = true) (hseq : frame.seq = tx.txInflightSeq) :
    ahead tx (rx.consumeDataFrameLocked frame).1 = true := by
  obtain ⟨rx', heq, -, hlast, -⟩ := h.consume htype
  simp [heq, ahead, hf, hlast, hseq]

end Direction

end Nerfnet
