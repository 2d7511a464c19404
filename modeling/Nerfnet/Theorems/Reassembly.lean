import Nerfnet.Library.Segments
import Nerfnet.Theorems.Bijection
import Nerfnet.Theorems.Receive

/-! # Reassembly of an arbitrary stream

`ConsumeDataFrameLocked` collects the payloads of a stream of frames into segments, whoever sent the
frames. Which frames make up a segment depends only on which ones it accepts and rejects. -/

namespace Nerfnet

/-- What a receiver meets: a frame for `ConsumeDataFrameLocked`, or a reset. -/
inductive RxEvent where
  | frame (frame : MacFrame)
  | reset

namespace RxEvent

def seq : RxEvent → UInt8
  | frame f => f.seq
  | reset => 0

def payload : RxEvent → Bytes
  | frame f => f.payload
  | reset => []

end RxEvent

/-- The `arg` that announces a last fragment. -/
def MacFrame.Terminal (frame : MacFrame) : Prop := 1 ≤ frame.arg.toNat ∧ frame.arg.toNat ≤ kMaxPayloadSize

instance (frame : MacFrame) : Decidable frame.Terminal := inferInstanceAs (Decidable (_ ∧ _))

namespace RxState

def handle (rx : RxState) : RxEvent → RxState
  | .frame frame => (rx.consumeDataFrameLocked frame).1
  | .reset => rx.resetRxAssemblyLocked

def after (rx : RxState) (events : List RxEvent) : RxState := events.foldl handle rx

@[simp] theorem after_nil (rx : RxState) : rx.after [] = rx := rfl

@[simp] theorem after_singleton (rx : RxState) (event : RxEvent) : rx.after [event] = rx.handle event := rfl

theorem after_append (rx : RxState) (events events' : List RxEvent) :
    rx.after (events ++ events') = (rx.after events).after events' :=
  List.foldl_append

/-- The frame is the last one accepted and its payload the end of the buffer. -/
def join (rx : RxState) (frame : MacFrame) : RxState :=
  { rx with lastRxSeq := some frame.seq, frameBuffer := rx.frameBuffer ++ frame.payload }

/-- What an event does to the buffer. -/
def role (rx : RxState) : RxEvent → Segments.Role
  | .reset => .abort
  | .frame frame =>
    if rx.Accepts frame then if frame.Terminal then .close else .extend
    else if frame.type = .data ∧ rx.Rejects frame.seq then .abort
    else .skip

/-! ### One frame -/

variable {rx : RxState} {frame : MacFrame}

/-- A decoded DATA frame has a payload exactly if its `arg` is not 0. -/
theorem payload_isEmpty_iff (htype : frame.type = .data) (hwf : frame.WellFormed) :
    frame.payload.isEmpty = true ↔ frame.arg.toNat = 0 := by
  have hlen : frame.payload.length = min frame.arg.toNat kMaxPayloadSize := by rw [hwf, if_pos htype]
  have hsize : 0 < kMaxPayloadSize := by decide
  rw [List.isEmpty_iff, ← List.length_eq_zero_iff, hlen]
  omega

/-- `WriteTunnel` is invoked at the terminal frames only. -/
theorem acceptDataFrame_of_wellFormed (htype : frame.type = .data) (hwf : frame.WellFormed) :
    rx.acceptDataFrame frame = if frame.Terminal then (rx.join frame).writeTunnel else rx.join frame := by
  simp only [acceptDataFrame, payload_isEmpty_iff htype hwf]
  by_cases harg : frame.arg.toNat = 0
  · have hnil : frame.payload = [] := List.isEmpty_iff.mp ((payload_isEmpty_iff htype hwf).mpr harg)
    have hterminal : ¬ frame.Terminal := fun h => absurd h.1 (by omega)
    rw [if_pos harg, if_neg hterminal, join, hnil, List.append_nil]
  · have hterminal : frame.Terminal ↔ frame.arg.toNat ≤ kMaxPayloadSize := ⟨fun h => h.2, fun h => ⟨by omega, h⟩⟩
    simp only [if_neg harg, hterminal]
    rfl

/-! ### One event -/

variable {event : RxEvent}

theorem joins_iff : (rx.role event).Joins ↔ ∃ frame, event = .frame frame ∧ rx.Accepts frame := by
  cases event with
  | reset => simp [role, Segments.Role.Joins]
  | frame frame =>
    simp only [role, RxEvent.frame.injEq, exists_eq_left', Segments.Role.Joins]
    split_ifs <;> simp_all

/-- What an event of each role does to the receiver. -/
theorem handle_role (rx : RxState) (hwf : ∀ frame, event = .frame frame → frame.WellFormed) :
    (rx.role event = .skip → rx.handle event = rx) ∧
    (rx.role event = .extend → ∃ frame, event = .frame frame ∧ rx.handle event = rx.join frame) ∧
    (rx.role event = .close → ∃ frame, event = .frame frame ∧ rx.handle event = (rx.join frame).writeTunnel) ∧
    (rx.role event = .abort → rx.handle event = rx.resetRxAssemblyLocked) := by
  cases event with
  | reset => simp [role, handle]
  | frame frame =>
    rcases rx.consumeDataFrameLocked_cases frame with ⟨haccepts, hconsume⟩ | ⟨hrejects, hconsume⟩ | ⟨⟨hnot, hnot'⟩, hconsume⟩
    · rw [handle, hconsume, acceptDataFrame_of_wellFormed haccepts.1 (hwf frame rfl)]
      simp only [role, if_pos haccepts]
      split <;> simp
    · have hnot : ¬ rx.Accepts frame := fun haccepts => haccepts.2.1 hrejects.2
      simp only [role, handle, hconsume, if_neg hnot, if_pos hrejects]
      simp
    · simp only [role, handle, hconsume, if_neg hnot, if_neg hnot']
      simp

/-- 0 is never the last accepted sequence number. -/
theorem handle_lastRxSeq (hzero : rx.lastRxSeq ≠ some 0) : (rx.handle event).lastRxSeq ≠ some 0 := by
  cases event with
  | reset => simp [handle, resetRxAssemblyLocked]
  | frame frame =>
    rcases rx.consumeDataFrameLocked_cases frame with ⟨haccepts, hconsume⟩ | ⟨-, hconsume⟩ | ⟨-, hconsume⟩
    · have hseq : frame.seq ≠ 0 := fun h => haccepts.2.1 (Or.inl h)
      simpa [handle, hconsume] using hseq
    · simp [handle, hconsume, resetRxAssemblyLocked]
    · rwa [handle, hconsume]

/-! ### A stream -/

section Stream
variable {tunnel : List Bytes} {events : List RxEvent} {i : ℕ}

theorem wellFormed_of_decoded (hdecoded : ∀ frame, .frame frame ∈ events → ∃ packet, decodeMacFrame packet = some frame) :
    ∀ frame, .frame frame ∈ events → frame.WellFormed := by
  intro frame hframe
  obtain ⟨packet, hdecode⟩ := hdecoded frame hframe
  exact wellFormed_of_decode hdecode

/-- The receiver before event `i` of a stream that it meets freshly reset. -/
def before (tunnel : List Bytes) (events : List RxEvent) (i : ℕ) : RxState := after { tunnel } (events.take i)

def roleAt (tunnel : List Bytes) (events : List RxEvent) (i : ℕ) : Segments.Role :=
  events[i]?.elim .skip (before tunnel events i).role

def seqAt (events : List RxEvent) (i : ℕ) : UInt8 := events[i]?.elim 0 RxEvent.seq

def payloadAt (events : List RxEvent) (i : ℕ) : Bytes := events[i]?.elim [] RxEvent.payload

theorem before_succ {event : RxEvent} (h : events[i]? = some event) :
    before tunnel events (i + 1) = (before tunnel events i).handle event := by
  rw [before, before, List.take_add_one, h, Option.toList_some, after_append, after_singleton]

theorem before_succ_of_none (h : events[i]? = none) : before tunnel events (i + 1) = before tunnel events i := by
  rw [before, before, List.take_add_one, h, Option.toList_none, List.append_nil]

theorem before_lastRxSeq (tunnel : List Bytes) (events : List RxEvent) (i : ℕ) :
    (before tunnel events i).lastRxSeq ≠ some 0 := by
  induction i with
  | zero => simp [before, after]
  | succ i ih =>
    cases hevent : events[i]? with
    | none => rwa [before_succ_of_none hevent]
    | some event =>
      rw [before_succ hevent]
      exact handle_lastRxSeq ih

/-- What happens at position `i`, if its frame has been decoded. -/
theorem before_succ_role (hwf : ∀ frame, .frame frame ∈ events → frame.WellFormed) (i : ℕ) :
    (roleAt tunnel events i = .skip → before tunnel events (i + 1) = before tunnel events i) ∧
    (roleAt tunnel events i = .extend → ∃ frame, events[i]? = some (.frame frame) ∧
      before tunnel events (i + 1) = (before tunnel events i).join frame) ∧
    (roleAt tunnel events i = .close → ∃ frame, events[i]? = some (.frame frame) ∧
      before tunnel events (i + 1) = ((before tunnel events i).join frame).writeTunnel) ∧
    (roleAt tunnel events i = .abort → before tunnel events (i + 1) = (before tunnel events i).resetRxAssemblyLocked) := by
  cases hevent : events[i]? with
  | none => simp [roleAt, hevent, before_succ_of_none hevent]
  | some event =>
    have hwf' : ∀ frame, event = .frame frame → frame.WellFormed := by
      rintro frame rfl
      exact hwf frame (List.mem_of_getElem? hevent)
    simpa [roleAt, hevent, before_succ hevent] using handle_role (before tunnel events i) hwf'

theorem buffers (tunnel : List Bytes) (hwf : ∀ frame, .frame frame ∈ events → frame.WellFormed) :
    Segments.Buffers (roleAt tunnel events) (payloadAt events) fun i => (before tunnel events i).frameBuffer where
  start := rfl
  skip i h := by rw [(before_succ_role hwf i).1 h]
  extend i h := by
    obtain ⟨frame, hevent, hnext⟩ := (before_succ_role hwf i).2.1 h
    simp [hnext, join, payloadAt, hevent, RxEvent.payload]
  ends i h := by
    rcases h with h | h
    · obtain ⟨frame, -, hnext⟩ := (before_succ_role hwf i).2.2.1 h
      rw [hnext, writeTunnel_eq]
    · rw [(before_succ_role hwf i).2.2.2 h]
      rfl

/-- An item that joins has the sequence number after the last one. -/
theorem next_of_joins (h : (roleAt tunnel events i).Joins) :
    ∀ last ∈ (before tunnel events i).lastRxSeq, seqAt events i = nextSeq last := by
  intro last hlast
  cases hevent : events[i]? with
  | none => simp [roleAt, hevent, Segments.Role.Joins] at h
  | some event =>
    simp only [roleAt, hevent, Option.elim_some] at h
    obtain ⟨frame, rfl, -, hnot, hne⟩ := joins_iff.mp h
    simp only [seqAt, hevent, Option.elim_some, RxEvent.seq]
    by_contra hnext
    exact hnot (Or.inr ⟨last, hlast, fun heq => hne (heq ▸ hlast), hnext⟩)

theorem links (tunnel : List Bytes) (hwf : ∀ frame, .frame frame ∈ events → frame.WellFormed) :
    Segments.Links (roleAt tunnel events) (seqAt events) (fun seq seq' => seq' = nextSeq seq)
      fun i => (before tunnel events i).lastRxSeq where
  skip i h := by rw [(before_succ_role hwf i).1 h]
  joins i h := by
    refine ⟨?_, next_of_joins h⟩
    rcases h with h | h
    · obtain ⟨frame, hevent, hnext⟩ := (before_succ_role hwf i).2.1 h
      simp [hnext, join, seqAt, hevent, RxEvent.seq]
    · obtain ⟨frame, hevent, hnext⟩ := (before_succ_role hwf i).2.2.1 h
      simp [hnext, writeTunnel_eq, join, seqAt, hevent, RxEvent.seq]

end Stream

/-- What `ConsumeDataFrameLocked` does with a decoded frame. -/
structure Consumed (rx : RxState) (frame : MacFrame) : Prop where
  other : frame.type ≠ .data → rx.consumeDataFrameLocked frame = (rx, true)
  rejected : frame.type = .data → ((rx.consumeDataFrameLocked frame).2 = false ↔ rx.Rejects frame.seq)
  forgets : frame.type = .data → rx.Rejects frame.seq → (rx.consumeDataFrameLocked frame).1 = rx.resetRxAssemblyLocked
  repeated : rx.lastRxSeq = some frame.seq → rx.consumeDataFrameLocked frame = (rx, true)
  joined : rx.Accepts frame → ¬ frame.Terminal → rx.consumeDataFrameLocked frame = (rx.join frame, true)
  written : rx.Accepts frame → frame.Terminal → rx.consumeDataFrameLocked frame = ((rx.join frame).writeTunnel, true)

theorem consumed (hwf : frame.WellFormed) (hzero : rx.lastRxSeq ≠ some 0) : rx.Consumed frame where
  other htype := consumeDataFrameLocked_of_not_data htype
  rejected htype := ⟨fun hfalse => (rejects_of_false hfalse).2, fun hrejects => by
    rw [consumeDataFrameLocked_of_rejects htype hrejects]⟩
  forgets htype hrejects := by rw [consumeDataFrameLocked_of_rejects htype hrejects]
  repeated hrep := consumeDataFrameLocked_of_repeats (fun hseq => hzero (hseq ▸ hrep)) hrep
  joined haccepts hterminal := by
    rw [consumeDataFrameLocked_of_accepts haccepts, acceptDataFrame_of_wellFormed haccepts.1 hwf, if_neg hterminal]
  written haccepts hterminal := by
    rw [consumeDataFrameLocked_of_accepts haccepts, acceptDataFrame_of_wellFormed haccepts.1 hwf, if_pos hterminal]

end RxState

open RxState in
/-- Frames and resets in any order: each frame is consumed by the rules above, the buffer that
    `WriteTunnel` examines consists of the payloads accepted since the latest end, with consecutive
    sequence numbers, and no frame is part of two such buffers. -/
theorem stream_reassembled (tunnel : List Bytes) (events : List RxEvent)
    (hdecoded : ∀ frame, .frame frame ∈ events → ∃ packet, decodeMacFrame packet = some frame) :
    (∀ i frame, events[i]? = some (.frame frame) →
      (before tunnel events i).Consumed frame ∧
      (roleAt tunnel events i = .close ↔ (before tunnel events i).Accepts frame ∧ frame.Terminal) ∧
      (roleAt tunnel events i = .close →
        let buffer := (Segments.segment (roleAt tunnel events) i).flatMap (payloadAt events)
        ((before tunnel events i).join frame).frameBuffer = buffer ∧
        ((Segments.segment (roleAt tunnel events) i).map (seqAt events)).IsChain (fun seq seq' => seq' = nextSeq seq) ∧
        (before tunnel events (i + 1)).frameBuffer = [] ∧
        (before tunnel events (i + 1)).tunnel =
          (before tunnel events i).tunnel ++ if isValidIpPacket buffer then [buffer] else [])) ∧
    ∀ i j, roleAt tunnel events i = .close → roleAt tunnel events j = .close → i ≠ j →
      (Segments.segment (roleAt tunnel events) i).Disjoint (Segments.segment (roleAt tunnel events) j) := by
  have hwf := wellFormed_of_decoded hdecoded
  refine ⟨fun i frame hevent => ⟨consumed (hwf frame (List.mem_of_getElem? hevent)) (before_lastRxSeq tunnel events i), ?_, ?_⟩,
    fun i j hi hj hne => Segments.segment_disjoint hi hj hne⟩
  · simp only [roleAt, hevent, Option.elim_some, role]
    split_ifs <;> simp_all
  · intro hclose buffer
    have hbuffer : ((before tunnel events i).join frame).frameBuffer = buffer := by
      have hheld := (buffers tunnel hwf).eq_gathered i
      simp [buffer, Segments.segment, join, hheld, payloadAt, hevent, RxEvent.payload]
    obtain ⟨frame', hevent', hnext⟩ := (before_succ_role hwf i).2.2.1 hclose
    obtain rfl : frame = frame' := by simpa [hevent] using hevent'
    refine ⟨hbuffer, (links tunnel hwf).segment_isChain (Or.inr hclose), ?_, ?_⟩
    · rw [hnext, writeTunnel_eq]
    · rw [hnext, writeTunnel_eq, hbuffer]
      cases hvalid : isValidIpPacket buffer <;> simp [hvalid, join]

/-- The fragments of a packet of 28 bytes. -/
def firstFragment : MacFrame := { type := .data, seq := 1, arg := 28, payload := (ipv4Packet 7 (.replicate 8 0)).take 27 }
def lastFragment : MacFrame := { type := .data, seq := 2, arg := 1, payload := (ipv4Packet 7 (.replicate 8 0)).drop 27 }

/-- The first fragment is repeated, then the last one comes. -/
def repeatedFragment : List RxEvent := [.frame firstFragment, .frame firstFragment, .frame lastFragment]

theorem stream_reassembled_repetition :
    Segments.segment (RxState.roleAt [] repeatedFragment) 2 = [0, 2] ∧
      (RxState.before [] repeatedFragment 3).tunnel = [ipv4Packet 7 (.replicate 8 0)] := by
  have hdecoded : ∀ frame, .frame frame ∈ repeatedFragment → ∃ packet, decodeMacFrame packet = some frame := by
    have hwf : firstFragment.WellFormed ∧ lastFragment.WellFormed := by
      unfold MacFrame.WellFormed
      decide
    obtain ⟨first, -, hfirst⟩ := exists_encode hwf.1
    obtain ⟨last, -, hlast⟩ := exists_encode hwf.2
    intro frame hframe
    simp only [repeatedFragment, List.mem_cons, RxEvent.frame.injEq, List.not_mem_nil, or_false] at hframe
    rcases hframe with rfl | rfl | rfl
    · exact ⟨first, hfirst⟩
    · exact ⟨first, hfirst⟩
    · exact ⟨last, hlast⟩
  have hclose : RxState.roleAt [] repeatedFragment 2 = .close := by decide +kernel
  have hwritten := ((stream_reassembled [] repeatedFragment hdecoded).1 2 lastFragment rfl).2.2 hclose
  refine ⟨by decide +kernel, ?_⟩
  rw [hwritten.2.2.2]
  decide +kernel

end Nerfnet
