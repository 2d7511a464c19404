import Nerfnet.Library.Machine
import Nerfnet.Theorems.Locked
import Nerfnet.Theorems.Receive
import Nerfnet.TunnelThread

/-! # The transmit queue

Whatever `TunnelThread` and a role do to the queue and in whatever order, no byte is lost or repeated:
what acknowledgements have retired and what is still queued is what has been pushed. -/

namespace Nerfnet

namespace ThreadedRadio
variable {s t : ThreadedRadio} {packet : Option Bytes} {e : LockEvent}

/-! ### The steps of the two threads -/

/-- `TunnelThread` may push another packet without looking at the length of the queue again. -/
def Ready (s : ThreadedRadio) : Prop := s.phase = .reading ∨ (s.phase = .test ∧ s.running = true)

def push (s : ThreadedRadio) (packet : Bytes) : ThreadedRadio :=
  { s with tx := { s.tx with readBuffer := s.tx.readBuffer ++ [packet] }, phase := .sizing }

/-- `TunnelThread` pushes a packet, or it moves on; then it is ready only if it was or if the queue is
    short. -/
theorem tunnelThreadStep_cases (h : s.tunnelThreadStep packet = some t) :
    (∃ p, packet = some p ∧ s.phase = .reading ∧ isValidIpPacket p = true ∧ t = s.push p) ∨
    (¬(s.phase = .reading ∧ packet.any isValidIpPacket = true) ∧ t = { s with phase := t.phase } ∧
      (t.Ready → s.Ready ∨ s.tx.readBuffer.length ≤ kMaxBufferedFrames)) := by
  unfold tunnelThreadStep at h
  cases hphase : s.phase with
  | test =>
    simp only [hphase] at h
    obtain rfl := Option.some.inj h
    refine Or.inr ⟨by simp, rfl, fun hready => Or.inl (Or.inr ⟨hphase, ?_⟩)⟩
    cases hrunning : s.running with
    | true => rfl
    | false => simp [Ready, hrunning] at hready
  | reading =>
    simp only [hphase] at h
    have hready : s.Ready := Or.inl hphase
    cases packet with
    | none =>
      obtain rfl := Option.some.inj h
      exact Or.inr ⟨by simp, rfl, fun _ => Or.inl hready⟩
    | some p =>
      cases hvalid : isValidIpPacket p with
      | true =>
        simp only [hvalid, Bool.not_true, Bool.false_eq_true, if_false] at h
        exact Or.inl ⟨p, rfl, rfl, hvalid, (Option.some.inj h).symm⟩
      | false =>
        simp only [hvalid, Bool.not_false, if_true] at h
        obtain rfl := Option.some.inj h
        exact Or.inr ⟨by simp [hvalid], rfl, fun _ => Or.inl hready⟩
  | sizing =>
    simp only [hphase] at h
    obtain rfl := Option.some.inj h
    refine Or.inr ⟨by simp, rfl, fun hready => Or.inr ?_⟩
    by_contra hlong
    simp [Ready, getReadBufferSize, not_le.mp hlong] at hready
  | full =>
    simp only [hphase] at h
    obtain rfl := Option.some.inj h
    refine Or.inr ⟨by simp, rfl, fun hready => ?_⟩
    cases hrunning : s.running <;> simp [Ready, hrunning] at hready
  | ended =>
    simp only [hphase] at h
    cases h

/-- Every step leaves the fields under the lock as they are or is a step under the lock. -/
theorem step_lockStep (h : s.step e = some t) :
    t.toRadioInterface = s.toRadioInterface ∨ LockStep s.toRadioInterface t.toRadioInterface := by
  cases e with
  | tunnelThread packet =>
    rcases tunnelThreadStep_cases h with ⟨p, -, -, hvalid, rfl⟩ | ⟨-, heq, -⟩
    · exact Or.inr (.push _ p hvalid)
    · exact Or.inl (congrArg (·.toRadioInterface) heq)
  | stop =>
    obtain rfl := Option.some.inj h
    exact Or.inl rfl
  | buildNextDataFrame =>
    obtain rfl := Option.some.inj h
    exact Or.inr (.build _)
  | commitAck ackSeq =>
    obtain rfl := Option.some.inj h
    exact Or.inr (.commitAck _ ackSeq)
  | consumeDataFrame frame =>
    obtain rfl := Option.some.inj h
    exact Or.inr (.consume _ frame)
  | reset =>
    obtain rfl := Option.some.inj h
    exact Or.inr (.reset _)

/-- Every step of a role under the lock is one of the events. -/
theorem exists_event {r : RadioInterface} (h : LockStep s.toRadioInterface r) :
    (∃ p, isValidIpPacket p = true ∧ r = (s.push p).toRadioInterface) ∨ ∃ e, s.step e = some { s with toRadioInterface := r } := by
  cases h with
  | push p hvalid => exact Or.inl ⟨p, hvalid, rfl⟩
  | build => exact Or.inr ⟨.buildNextDataFrame, rfl⟩
  | commitAck ackSeq => exact Or.inr ⟨.commitAck ackSeq, rfl⟩
  | consume frame => exact Or.inr ⟨.consumeDataFrame frame, rfl⟩
  | reset => exact Or.inr ⟨.reset, rfl⟩

end ThreadedRadio

/-! ### The history of the queue -/

/-- With the packets pushed, the payloads that acknowledgements have retired, and the DATA frames built
    since the latest such acknowledgement or reset. -/
structure QueueHistory extends ThreadedRadio where
  pushed : List Bytes := []
  committed : List Bytes := []
  built : List MacFrame := []

instance (tx : TxState) (ackSeq : UInt8) : Decidable (tx.Retires ackSeq) := inferInstanceAs (Decidable (_ ∧ _))

namespace QueueHistory

def pushedIn (s : QueueHistory) : LockEvent → List Bytes
  | .tunnelThread packet => if s.phase = .reading then packet.toList.filter isValidIpPacket else []
  | _ => []

def committedIn (s : QueueHistory) : LockEvent → List Bytes
  | .commitAck ackSeq => if s.tx.Retires ackSeq then [s.tx.txInflightPayload] else []
  | _ => []

def builtAfter (s : QueueHistory) : LockEvent → List MacFrame
  | .buildNextDataFrame => s.built ++ s.buildNextDataFrameLocked.2.toList
  | .commitAck ackSeq => if s.tx.Retires ackSeq then [] else s.built
  | .reset => []
  | _ => s.built

def step (s : QueueHistory) (e : LockEvent) : Option QueueHistory :=
  (s.toThreadedRadio.step e).map fun t =>
    { toThreadedRadio := t, pushed := s.pushed ++ s.pushedIn e, committed := s.committed ++ s.committedIn e, built := s.builtAfter e }

/-- The frame carries the fragment in flight. -/
structure InFlight (tx : TxState) (frame : MacFrame) : Prop where
  inFlight : tx.txInFlight = true
  type : frame.type = .data
  seq : frame.seq = tx.txInflightSeq
  arg : frame.arg = tx.txInflightBytesLeft
  payload : frame.payload = tx.txInflightPayload

/-- What every step of the two threads keeps. -/
structure Accounted (s : QueueHistory) : Prop where
  wf : s.tx.Wf
  nonempty : ∀ packet ∈ s.tx.readBuffer, packet ≠ []
  bound : s.tx.readBuffer.length ≤ kMaxBufferedFrames + 1
  ready : s.Ready → s.tx.readBuffer.length ≤ kMaxBufferedFrames
  conserved : s.committed.flatten ++ s.tx.readBuffer.flatten = s.pushed.flatten
  built : ∀ frame ∈ s.built, InFlight s.tx frame

theorem accounted_initial : Accounted {} where
  wf := TxState.wf_init
  nonempty := by simp
  bound := by simp
  ready := by simp
  conserved := rfl
  built := by simp

variable {s t : QueueHistory} {u : ThreadedRadio}

/-- A step that leaves the TX fields as they are. -/
theorem Accounted.sameTx (h : s.Accounted) (htx : u.tx = s.tx)
    (hready : u.Ready → s.Ready ∨ s.tx.readBuffer.length ≤ kMaxBufferedFrames) :
    Accounted { s with toThreadedRadio := u } := by
  refine ⟨htx ▸ h.wf, htx ▸ h.nonempty, htx ▸ h.bound, fun hu => ?_, htx ▸ h.conserved, htx ▸ h.built⟩
  rw [htx]
  exact (hready hu).elim h.ready id

theorem Accounted.push (h : s.Accounted) (hready : s.Ready) {packet : Bytes} (hvalid : isValidIpPacket packet = true) :
    Accounted { s with toThreadedRadio := s.toThreadedRadio.push packet, pushed := s.pushed ++ [packet] } where
  wf := by
    have hstep : LockStep s.toRadioInterface (s.toThreadedRadio.push packet).toRadioInterface := .push _ packet hvalid
    exact hstep.wf h.wf
  nonempty := by
    intro p hp
    rcases List.mem_append.mp hp with hp | hp
    · exact h.nonempty p hp
    · exact List.mem_singleton.mp hp ▸ ne_nil_of_valid hvalid
  bound := by
    have := h.ready hready
    simpa [ThreadedRadio.push] using this
  ready hu := by simp [ThreadedRadio.push, ThreadedRadio.Ready] at hu
  conserved := by
    simp only [ThreadedRadio.push, List.flatten_append, ← h.conserved, List.append_assoc]
  built frame hframe := by
    obtain ⟨hflight, htype, hseq, harg, hpayload⟩ := h.built frame hframe
    exact ⟨hflight, htype, hseq, harg, hpayload⟩

/-- Building offers the fragment in flight again, or puts one in flight when no frame has been built. -/
theorem Accounted.build (h : s.Accounted) :
    Accounted { s with
      toRadioInterface := s.buildNextDataFrameLocked.1
      built := s.built ++ s.buildNextDataFrameLocked.2.toList } := by
  cases hdata : s.tx.localHasData with
  | true =>
    obtain ⟨tx, frame, hbuild, htype, -, hoffers⟩ := buildNextDataFrameLocked_spec h.wf hdata
    rw [hbuild]
    have hqueue := hoffers.readBuffer
    refine ⟨hoffers.wf, hqueue ▸ h.nonempty, hqueue ▸ h.bound, fun hu => hqueue ▸ h.ready hu, hqueue ▸ h.conserved, ?_⟩
    intro frame' hframe'
    rcases List.mem_append.mp hframe' with hframe' | hframe'
    · have hbuilt := h.built frame' hframe'
      rwa [← hoffers.same hbuilt.inFlight] at hbuilt
    · obtain rfl : frame' = frame := by simpa using hframe'
      exact ⟨hoffers.inFlight, htype, hoffers.seq, hoffers.arg, hoffers.payload⟩
  | false =>
    obtain ⟨hidle, hempty⟩ : s.tx.txInFlight = false ∧ s.tx.readBuffer = [] := by
      simpa [TxState.localHasData] using hdata
    have hbuild : s.buildNextDataFrameLocked = (s.toRadioInterface, none) := by
      simp [RadioInterface.buildNextDataFrameLocked, hidle, hempty]
    rw [hbuild, Option.toList_none, List.append_nil]
    exact h

theorem Accounted.commitAck (h : s.Accounted) (ackSeq : UInt8) :
    Accounted { s with
      tx := s.tx.commitAckLocked ackSeq
      committed := s.committed ++ if s.tx.Retires ackSeq then [s.tx.txInflightPayload] else []
      built := if s.tx.Retires ackSeq then [] else s.built } := by
  by_cases hretires : s.tx.Retires ackSeq
  · obtain ⟨hflight, rfl⟩ := hretires
    obtain ⟨-, front, rest, hqueue, -, hpayload⟩ := h.wf.inFlight hflight
    have hretires : s.tx.Retires s.tx.txInflightSeq := ⟨hflight, rfl⟩
    have hcommit := TxState.commitAckLocked_of_inFlight h.wf hflight
    have hlength := Transfer.length_dropFragment_le kMaxPayloadSize s.tx.readBuffer
    rw [hcommit, if_pos hretires, if_pos hretires]
    refine ⟨TxState.wf_committed, Transfer.dropFragment_nonempty h.nonempty, hlength.trans h.bound,
      fun hu => hlength.trans (h.ready hu), ?_, by simp⟩
    have hdrop : s.tx.txInflightPayload ++ s.tx.committed.readBuffer.flatten = s.tx.readBuffer.flatten := by
      rw [hpayload, TxState.committed, hqueue, Transfer.flatten_dropFragment]
    simp only [List.flatten_append, List.flatten_singleton, List.append_assoc, hdrop, h.conserved]
  · rw [TxState.commitAckLocked_of_not_retires hretires, if_neg hretires, if_neg hretires, List.append_nil]
    exact h

theorem Accounted.reset (h : s.Accounted) :
    Accounted { s with toRadioInterface := s.toRadioInterface.resetLocked, built := [] } :=
  ⟨TxState.wf_resetLocked s.tx, h.nonempty, h.bound, h.ready, h.conserved, by simp⟩

theorem Accounted.step {e : LockEvent} (h : s.Accounted) (hstep : s.step e = some t) : t.Accounted := by
  obtain ⟨u, hu, rfl⟩ := Option.map_eq_some_iff.mp hstep
  cases e with
  | tunnelThread packet =>
    simp only [pushedIn, committedIn, builtAfter, List.append_nil]
    rcases ThreadedRadio.tunnelThreadStep_cases hu with ⟨p, rfl, hreading, hvalid, rfl⟩ | ⟨hnot, hmoved, hready⟩
    · have hp : (some p).toList.filter isValidIpPacket = [p] := by simp [hvalid]
      rw [if_pos hreading, hp]
      exact h.push (Or.inl hreading) hvalid
    · have hnone : (if s.phase = .reading then packet.toList.filter isValidIpPacket else []) = [] := by
        split
        · rename_i hreading
          cases packet with
          | none => rfl
          | some p => simpa [hreading] using hnot
        · rfl
      rw [hnone, List.append_nil]
      exact h.sameTx (congrArg (·.tx) hmoved) hready
  | stop =>
    obtain rfl := Option.some.inj hu
    simp only [pushedIn, committedIn, builtAfter, List.append_nil]
    exact h.sameTx rfl fun hready => Or.inl (hready.imp_right fun htest => absurd htest.2 (by simp))
  | buildNextDataFrame =>
    obtain rfl := Option.some.inj hu
    simp only [pushedIn, committedIn, builtAfter, List.append_nil]
    exact h.build
  | commitAck ackSeq =>
    obtain rfl := Option.some.inj hu
    simp only [pushedIn, committedIn, builtAfter, List.append_nil]
    exact h.commitAck ackSeq
  | consumeDataFrame frame =>
    obtain rfl := Option.some.inj hu
    simp only [pushedIn, committedIn, builtAfter, List.append_nil]
    exact h.sameTx rfl Or.inl
  | reset =>
    obtain rfl := Option.some.inj hu
    simp only [pushedIn, committedIn, builtAfter, List.append_nil]
    exact h.reset

/-- Runs of the two threads in any order. -/
def Runs (s : QueueHistory) (es : List LockEvent) (t : QueueHistory) : Prop := Machine.Run step (fun _ _ => True) s es t

/-- In every run from the start the queue is short, holds no empty packet and agrees with the fragment in
    flight; with what has been retired it makes up what has been pushed, and the DATA frames of a fragment
    are alike until it is retired or a reset comes. -/
theorem transmit_queue {es : List LockEvent} (h : Runs {} es s) :
    (∀ packet ∈ s.tx.readBuffer, packet ≠ []) ∧
    s.tx.readBuffer.length ≤ 1025 ∧
    (1 ≤ s.tx.nextTxSeq.toNat ∧ s.tx.nextTxSeq.toNat ≤ 31) ∧
    (s.tx.txInFlight = true → ∃ front rest, s.tx.readBuffer = front :: rest ∧ s.tx.txInflightSeq = s.tx.nextTxSeq ∧
      s.tx.txInflightPayload = front.take (min 27 front.length) ∧ s.tx.txInflightBytesLeft.toNat = min 255 front.length) ∧
    (s.tx.txInFlight = false → s.tx.txInflightSeq = 0 ∧ s.tx.txInflightBytesLeft = 0 ∧ s.tx.txInflightPayload = []) ∧
    s.committed.flatten ++ s.tx.readBuffer.flatten = s.pushed.flatten ∧
    ∀ frame ∈ s.built, ∀ frame' ∈ s.built, frame.seq = frame'.seq ∧ frame.arg = frame'.arg ∧ frame.payload = frame'.payload := by
  have hs : s.Accounted := Machine.Run.invariant (fun _ _ _ hs _ hstep => hs.step hstep) h accounted_initial
  refine ⟨hs.nonempty, hs.bound, hs.wf.next, fun hflight => ?_, hs.wf.idle, hs.conserved, fun frame hframe frame' hframe' => ?_⟩
  · obtain ⟨hseq, front, rest, hqueue, hleft, hpayload⟩ := hs.wf.inFlight hflight
    refine ⟨front, rest, hqueue, hseq, ?_, ?_⟩
    · rw [hpayload, List.take_eq_take_iff]
      simp only [kMaxPayloadSize, kMaxPacketSize, kHeaderSize]
      omega
    · rw [hleft, UInt8.toNat_ofNat']
      omega
  · have hbuilt := hs.built frame hframe
    have hbuilt' := hs.built frame' hframe'
    exact ⟨hbuilt.seq.trans hbuilt'.seq.symm, hbuilt.arg.trans hbuilt'.arg.symm, hbuilt.payload.trans hbuilt'.payload.symm⟩

/-- A packet of 28 bytes is pushed, its first fragment is built twice with another push in between, and the
    second acknowledgement retires it. -/
def twoPushes : List LockEvent :=
  [.tunnelThread none, .tunnelThread (some (ipv4Packet 7 (.replicate 8 0))), .buildNextDataFrame, .tunnelThread none,
    .tunnelThread none, .tunnelThread (some (ipv4Packet 8 [])), .buildNextDataFrame, .commitAck 9, .commitAck 1, .stop,
    .buildNextDataFrame]

theorem transmit_queue_two_pushes :
    ∃ s, Runs {} twoPushes s ∧ s.built.length = 1 ∧ s.tx.nextTxSeq = 2 ∧ s.committed.flatten.length = 27 ∧
      s.committed.flatten ++ s.tx.readBuffer.flatten = s.pushed.flatten := by
  have hexec : (Machine.exec step (fun _ _ => True) {} twoPushes).map
      (fun s => (s.built.length, s.tx.nextTxSeq, s.committed.flatten.length)) = some (1, 2, 27) := by decide +kernel
  obtain ⟨s, hs, hstate⟩ := Option.map_eq_some_iff.mp hexec
  obtain ⟨hbuilt, hnext, hcommitted⟩ : s.built.length = 1 ∧ s.tx.nextTxSeq = 2 ∧ s.committed.flatten.length = 27 := by
    simpa using hstate
  exact ⟨s, .of_exec hs, hbuilt, hnext, hcommitted, (transmit_queue (.of_exec hs)).2.2.2.2.2.1⟩

end QueueHistory

end Nerfnet
