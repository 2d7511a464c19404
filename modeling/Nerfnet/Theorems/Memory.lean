import Nerfnet.Theorems.Passes
import Nerfnet.Theorems.Reassembly

/-! # The size of the reassembly buffer

Nothing limits `frame_buffer_`. On either role it holds 27 bytes for each fragment accepted since the
latest end of a segment, as long as no fragment is announced as the last one. The last one is inserted
too, before `WriteTunnel` examines the buffer and clears it. -/

namespace Nerfnet
open RxState Segments

/-! ### The size after a stream -/

/-- A fragment that more fragments of its packet follow. -/
def RxEvent.unfinished : RxEvent → Bool
  | frame f => decide (kMaxPayloadSize < f.arg.toNat)
  | reset => false

/-- The unfinished fragments accepted since the latest terminal frame, rejection or reset. -/
def openFragments (events : List RxEvent) : ℕ :=
  (gathered (roleAt [] events) events.length).countP fun i => events[i]?.any RxEvent.unfinished

theorem length_flatMap_countP {α β : Type} {l : List α} {item : α → List β} {q : α → Bool} {c : ℕ}
    (h : ∀ x ∈ l, (item x).length = if q x then c else 0) : (l.flatMap item).length = c * l.countP q := by
  induction l with
  | nil => simp
  | cons x l ih =>
    have hx := h x List.mem_cons_self
    rw [List.flatMap_cons, List.length_append, hx, ih fun y hy => h y (List.mem_cons_of_mem _ hy), List.countP_cons]
    split
    · rw [Nat.mul_add, Nat.mul_one, Nat.add_comm]
    · simp

/-- A frame that joined and ended nothing is a whole fragment or empty. -/
theorem payloadAt_length {events : List RxEvent} (hwf : ∀ frame, .frame frame ∈ events → frame.WellFormed) {i : ℕ}
    (hi : roleAt [] events i = .extend) :
    (payloadAt events i).length = if events[i]?.any RxEvent.unfinished then kMaxPayloadSize else 0 := by
  obtain ⟨frame, hevent, -⟩ := (before_succ_role hwf i).2.1 hi
  have hrole : (before [] events i).role (.frame frame) = .extend := by simpa [roleAt, hevent] using hi
  obtain ⟨_, heq, haccepts⟩ := joins_iff.mp (Or.inl hrole)
  obtain rfl := RxEvent.frame.inj heq
  have hterminal : ¬ frame.Terminal := fun hterminal => by
    rw [role, if_pos haccepts, if_pos hterminal] at hrole
    cases hrole
  have hlen : frame.payload.length = min frame.arg.toNat kMaxPayloadSize := by
    rw [hwf frame (List.mem_of_getElem? hevent), if_pos haccepts.1]
  simp only [payloadAt, hevent, Option.elim_some, RxEvent.payload, hlen, Option.any_some, RxEvent.unfinished, decide_eq_true_eq]
  unfold MacFrame.Terminal at hterminal
  split <;> omega

theorem frameBuffer_length {events : List RxEvent}
    (hdecoded : ∀ frame, .frame frame ∈ events → ∃ packet, decodeMacFrame packet = some frame) :
    (after {} events).frameBuffer.length = kMaxPayloadSize * openFragments events := by
  have hwf := wellFormed_of_decoded hdecoded
  have hheld := (buffers [] hwf).eq_gathered events.length
  simp only [before, List.take_length] at hheld
  rw [hheld]
  refine length_flatMap_countP fun i hi => payloadAt_length hwf ?_
  obtain ⟨hlt, hjoins, hopen⟩ := mem_gathered.mp hi
  exact hjoins.resolve_right fun hclose => hopen i hlt le_rfl (Or.inl hclose)

/-! ### The sizes during a stream -/

theorem fragments_fit_iff {n : ℕ} : kMaxPayloadSize * n ≤ 65575 ↔ n ≤ 2428 := by
  simp only [kMaxPayloadSize, kMaxPacketSize, kHeaderSize]
  omega

namespace RxState
variable {rx : RxState} {frame : MacFrame} {event : RxEvent} {events : List RxEvent} {content : Bytes} {i : ℕ}

/-- What `frame_buffer_` contains in turn from the `insert` on. -/
def acceptContents (rx : RxState) (frame : MacFrame) : List Bytes :=
  if frame.payload.isEmpty then []
  else
    let frameBuffer := rx.frameBuffer ++ frame.payload
    -- `WriteTunnel` clears the buffer, whether it has written it or not.
    if frame.arg.toNat ≤ kMaxPayloadSize then [frameBuffer, []] else [frameBuffer]

/-- What `frame_buffer_` contains in turn while `ConsumeDataFrameLocked` handles a frame. -/
def consumeContents (rx : RxState) (frame : MacFrame) : List Bytes :=
  if frame.type ≠ .data then []
  else if frame.seq = 0 then [[]]
  else
    match rx.lastRxSeq with
    | some last =>
      if frame.seq = last then []
      else if frame.seq ≠ nextSeq last then [[]]
      else rx.acceptContents frame
    | none => rx.acceptContents frame

def contents (rx : RxState) : RxEvent → List Bytes
  | .frame frame => rx.consumeContents frame
  | .reset => [[]]

def allContents (rx : RxState) : List RxEvent → List Bytes
  | [] => []
  | event :: events => rx.contents event ++ allContents (rx.handle event) events

theorem acceptContents_getLast (rx : RxState) (frame : MacFrame) :
    (rx.acceptContents frame).getLast?.getD rx.frameBuffer = (rx.acceptDataFrame frame).frameBuffer := by
  unfold acceptContents acceptDataFrame
  dsimp only
  split_ifs
  · rfl
  · rw [writeTunnel_eq]
    rfl
  · rfl

/-- The last of the contents is what the event leaves. -/
theorem contents_getLast (rx : RxState) (event : RxEvent) :
    (rx.contents event).getLast?.getD rx.frameBuffer = (rx.handle event).frameBuffer := by
  cases event with
  | reset => rfl
  | frame frame =>
    simp only [contents, consumeContents, handle, consumeDataFrameLocked]
    split_ifs
    · rfl
    · rfl
    · cases hlast : rx.lastRxSeq with
      | none => exact rx.acceptContents_getLast frame
      | some last =>
        dsimp only
        split_ifs
        · rfl
        · rfl
        · exact rx.acceptContents_getLast frame

/-- Only an accepted frame with a payload puts anything into the buffer. -/
theorem mem_contents (h : content ∈ rx.contents event) :
    content = [] ∨ ∃ frame, event = .frame frame ∧ rx.Accepts frame ∧ content = rx.frameBuffer ++ frame.payload := by
  cases event with
  | reset => exact Or.inl (List.mem_singleton.mp h)
  | frame frame =>
    have haccept : rx.Accepts frame → content ∈ rx.acceptContents frame →
        content = [] ∨ ∃ f, RxEvent.frame frame = .frame f ∧ rx.Accepts f ∧ content = rx.frameBuffer ++ f.payload := by
      intro haccepts hmem
      simp only [acceptContents] at hmem
      split_ifs at hmem
      · cases hmem
      · rcases List.mem_cons.mp hmem with rfl | hmem
        · exact Or.inr ⟨frame, rfl, haccepts, rfl⟩
        · exact Or.inl (List.mem_singleton.mp hmem)
      · exact Or.inr ⟨frame, rfl, haccepts, List.mem_singleton.mp hmem⟩
    simp only [contents, consumeContents] at h
    split_ifs at h with htype hzero
    · cases h
    · exact Or.inl (List.mem_singleton.mp h)
    · have htype := not_not.mp htype
      cases hlast : rx.lastRxSeq with
      | none =>
        rw [hlast] at h
        exact haccept ⟨htype, by simp [Rejects, hzero, hlast], by simp [hlast]⟩ h
      | some last =>
        rw [hlast] at h
        dsimp only at h
        split_ifs at h with hrepeats hnext
        · cases h
        · exact Or.inl (List.mem_singleton.mp h)
        · refine haccept ⟨htype, ?_, by simpa [hlast] using Ne.symm hrepeats⟩ h
          rintro (hseq | ⟨last', hlast', -, hne⟩)
          · exact hzero hseq
          · obtain rfl := Option.some.inj (hlast.symm.trans hlast')
            exact hne (not_not.mp hnext)

theorem consumeContents_of_accepts (h : rx.Accepts frame) : rx.consumeContents frame = rx.acceptContents frame := by
  obtain ⟨htype, hnot, hne⟩ := h
  have hzero : frame.seq ≠ 0 := fun hzero => hnot (Or.inl hzero)
  simp only [consumeContents, htype, ne_eq, not_true_eq_false, if_false, if_neg hzero]
  cases hlast : rx.lastRxSeq with
  | none => rfl
  | some last =>
    have hrep : frame.seq ≠ last := fun heq => hne (by rw [hlast, heq])
    have hnext : frame.seq = nextSeq last := by
      by_contra hnext
      exact hnot (Or.inr ⟨last, hlast, hrep, hnext⟩)
    dsimp only
    rw [if_neg hrep, if_neg (not_not.mpr hnext)]

/-- `WriteTunnel` examines the buffer with the terminal frame in it. -/
theorem contents_of_terminal (h : rx.Accepts frame) (hwf : frame.WellFormed) (hterminal : frame.Terminal) :
    rx.contents (.frame frame) = [rx.frameBuffer ++ frame.payload, []] := by
  have hpayload : ¬ frame.payload.isEmpty = true := fun hempty => by
    have harg := (payload_isEmpty_iff h.1 hwf).mp hempty
    exact absurd hterminal.1 (by omega)
  rw [contents, consumeContents_of_accepts h, acceptContents, if_neg hpayload, if_pos hterminal.2]

theorem mem_allContents : content ∈ rx.allContents events ↔
    ∃ i event, events[i]? = some event ∧ content ∈ (rx.after (events.take i)).contents event := by
  induction events generalizing rx with
  | nil => simp [allContents]
  | cons event events ih =>
    rw [allContents, List.mem_append, ih]
    constructor
    · rintro (h | ⟨i, e, he, h⟩)
      · exact ⟨0, event, rfl, h⟩
      · exact ⟨i + 1, e, he, h⟩
    · rintro ⟨_ | i, e, he, h⟩
      · obtain rfl := Option.some.inj he
        exact Or.inl h
      · exact Or.inr ⟨i, e, he, h⟩

/-- What the buffer contains between two events has been put into it by one of them. -/
theorem before_mem_allContents (events : List RxEvent) (i : ℕ) :
    (before [] events i).frameBuffer = [] ∨ (before [] events i).frameBuffer ∈ allContents {} events := by
  induction i with
  | zero => exact Or.inl rfl
  | succ i ih =>
    cases hevent : events[i]? with
    | none => rwa [before_succ_of_none hevent]
    | some event =>
      have hlast := (before [] events i).contents_getLast event
      rw [before_succ hevent, ← hlast]
      cases hcontents : ((before [] events i).contents event).getLast? with
      | none => exact ih
      | some content => exact Or.inr (mem_allContents.mpr ⟨i, event, hevent, List.mem_of_getLast? hcontents⟩)

/-- The sizes of the buffer over a stream: between two events, when `WriteTunnel` examines it, and how
    long all of them fit into the largest IP packet. -/
structure Sizes (events : List RxEvent) : Prop where
  between : ∀ i, (before [] events i).frameBuffer.length = kMaxPayloadSize * openFragments (events.take i)
  examined : ∀ i frame, events[i]? = some (.frame frame) → (before [] events i).Accepts frame → frame.Terminal →
    ∃ frameBuffer, (before [] events i).contents (.frame frame) = [frameBuffer, []] ∧
      frameBuffer.length = kMaxPayloadSize * openFragments (events.take i) + frame.arg.toNat
  fits_iff : (∀ content ∈ allContents {} events, content.length ≤ 65575) ↔
    (∀ i, openFragments (events.take i) ≤ 2428) ∧
      ∀ i frame, events[i]? = some (.frame frame) → (before [] events i).Accepts frame → frame.Terminal →
        openFragments (events.take i) = 2428 → frame.arg.toNat ≤ 19

section Decoded
variable (hdecoded : ∀ frame, .frame frame ∈ events → ∃ packet, decodeMacFrame packet = some frame)
include hdecoded

theorem length_before (i : ℕ) : (before [] events i).frameBuffer.length = kMaxPayloadSize * openFragments (events.take i) :=
  frameBuffer_length fun frame hframe => hdecoded frame (List.mem_of_mem_take hframe)

theorem length_examined (hevent : events[i]? = some (.frame frame)) (haccepts : (before [] events i).Accepts frame)
    (hterminal : frame.Terminal) : ((before [] events i).frameBuffer ++ frame.payload).length =
      kMaxPayloadSize * openFragments (events.take i) + frame.arg.toNat := by
  have hwf := wellFormed_of_decoded hdecoded frame (List.mem_of_getElem? hevent)
  rw [List.length_append, length_before hdecoded, hwf, if_pos haccepts.1, Nat.min_eq_left hterminal.2]

/-- An accepted frame that is not terminal stays in the buffer. -/
theorem before_succ_of_unfinished (hevent : events[i]? = some (.frame frame)) (haccepts : (before [] events i).Accepts frame)
    (hterminal : ¬ frame.Terminal) :
    (before [] events (i + 1)).frameBuffer = (before [] events i).frameBuffer ++ frame.payload := by
  have hwf := wellFormed_of_decoded hdecoded frame (List.mem_of_getElem? hevent)
  rw [before_succ hevent, handle, consumeDataFrameLocked_of_accepts haccepts, acceptDataFrame_of_wellFormed haccepts.1 hwf,
    if_neg hterminal]
  rfl

theorem sizes : Sizes events := by
  have hexamined : ∀ i frame, events[i]? = some (.frame frame) → (before [] events i).Accepts frame → frame.Terminal →
      (before [] events i).contents (.frame frame) = [(before [] events i).frameBuffer ++ frame.payload, []] :=
    fun i frame hevent haccepts hterminal =>
      contents_of_terminal haccepts (wellFormed_of_decoded hdecoded frame (List.mem_of_getElem? hevent)) hterminal
  refine ⟨length_before hdecoded, fun i frame hevent haccepts hterminal =>
    ⟨_, hexamined i frame hevent haccepts hterminal, length_examined hdecoded hevent haccepts hterminal⟩, ?_⟩
  constructor
  · intro hfits
    refine ⟨fun i => ?_, fun i frame hevent haccepts hterminal hfull => ?_⟩
    · rw [← fragments_fit_iff, ← length_before hdecoded]
      rcases before_mem_allContents events i with hempty | hmem
      · rw [hempty]
        exact Nat.zero_le _
      · exact hfits _ hmem
    · have hmem : (before [] events i).frameBuffer ++ frame.payload ∈ (before [] events i).contents (.frame frame) :=
        hexamined i frame hevent haccepts hterminal ▸ List.mem_cons_self
      have hfit := hfits _ (mem_allContents.mpr ⟨i, _, hevent, hmem⟩)
      rw [length_examined hdecoded hevent haccepts hterminal, hfull] at hfit
      simp only [kMaxPayloadSize, kMaxPacketSize, kHeaderSize] at hfit
      omega
  · rintro ⟨hopen, hlast⟩ content hcontent
    obtain ⟨i, event, hevent, hmem⟩ : ∃ i event, events[i]? = some event ∧ content ∈ (before [] events i).contents event :=
      mem_allContents.mp hcontent
    rcases mem_contents hmem with rfl | ⟨frame, rfl, haccepts, rfl⟩
    · exact Nat.zero_le _
    by_cases hterminal : frame.Terminal
    · have hle := hopen i
      have harg := hlast i frame hevent haccepts hterminal
      have hsize := hterminal.2
      rw [length_examined hdecoded hevent haccepts hterminal]
      simp only [kMaxPayloadSize, kMaxPacketSize, kHeaderSize] at hsize ⊢
      omega
    · have hstays := before_succ_of_unfinished hdecoded hevent haccepts hterminal
      exact hstays ▸ length_before hdecoded (i + 1) ▸ fragments_fit_iff.mpr (hopen (i + 1))

end Decoded

end RxState

/-! ### What the roles receive -/

namespace PrimaryRadioInterface
variable {s t : PrimaryRadioInterface} {p : Pass}

/-- What a pass does with the RX fields. -/
def rxEvents (s : PrimaryRadioInterface) (p : Pass) : List RxEvent :=
  match s.loopAction p.nowUs with
  | .wait => []
  | .reset => [.reset]
  | .exchange => p.reply.toList.map .frame

def received (s : PrimaryRadioInterface) : List Pass → List RxEvent
  | [] => []
  | p :: ps => s.rxEvents p ++ received (s.loopPass p) ps

theorem Exchanged.rx {a : Attempt} {result : ExchangeResult} (h : Exchanged s a t result) :
    t.rx = s.rx.after (a.reply.toList.map .frame) := by
  cases h with
  | unanswered r wasData result _ hrx hreply => simpa [hreply] using hrx
  | accepted r wasData consecutive rx _ hrx hreply => simpa [hreply, handle] using hrx
  | rejected r wasData rx _ hrx hreply => simpa [hreply, handle] using hrx

theorem Passed.rx (h : Passed s p t) : t.rx = s.rx.after (s.rxEvents p) := by
  cases h with
  | waited r hloop _ hrx => simpa [rxEvents, hloop] using hrx
  | resetSucceeded r hloop _ hrx => simpa [rxEvents, hloop, handle, PrimaryRadioInterface.resetSucceeded] using hrx
  | resetFailed r hloop _ hrx =>
    rw [resetFailed_toRadioInterface]
    simpa [rxEvents, hloop, handle] using hrx
  | exchanged t result hloop hx =>
    rw [afterExchange_toRadioInterface, hx.rx, setPollInterval_toRadioInterface, rxEvents, hloop]

theorem Runs.rx {ok : Pass → Prop} {ps : List Pass} (h : Runs ok s ps t) (hwf : s.tx.Wf) :
    t.rx = s.rx.after (received s ps) := by
  induction h with
  | nil => rfl
  | @cons s u t p ps _ hpass _ ih =>
    obtain rfl : s.loopPass p = u := Option.some.inj hpass
    have hpassed := loopPass_passed hwf p
    rw [ih (hpassed.lockSteps.wf hwf), hpassed.rx, received, after_append]

theorem decoded_of_received (s : PrimaryRadioInterface) (ps : List Pass) :
    ∀ frame, .frame frame ∈ received s ps → ∃ packet, decodeMacFrame packet = some frame := by
  induction ps generalizing s with
  | nil => simp [received]
  | cons p ps ih =>
    intro frame hframe
    rcases List.mem_append.mp hframe with hframe | hframe
    · have hreply : p.reply = some frame := by
        unfold rxEvents at hframe
        split at hframe
        · cases hframe
        · simp at hframe
        · simpa using hframe
      unfold Attempt.reply at hreply
      split at hreply
      · obtain ⟨packet, -, hdecode⟩ := Option.bind_eq_some_iff.mp hreply
        exact ⟨packet, hdecode⟩
      · cases hreply
    · exact ih _ frame hframe

end PrimaryRadioInterface

namespace SecondaryRadioInterface
variable {s t : SecondaryRadioInterface}

/-- What a pass does with the RX fields. -/
def Pass.rxEvents (p : Pass) : List RxEvent :=
  (decodeMacFrame p.request).toList.map fun rx => if rx.type = .reset then .reset else .frame rx

theorem Handled.rx {p : Pass} {reply : Option Bytes} (h : Handled s p.request t reply) : t.rx = s.rx.after p.rxEvents := by
  cases h with
  | dropped r _ hrx hdecode => simpa [Pass.rxEvents, hdecode] using hrx
  | reset r rx reply _ hrx hdecode htype => simpa [Pass.rxEvents, hdecode, htype, handle] using hrx
  | rejected r rx _ hrx hdecode htype => simpa [Pass.rxEvents, hdecode, htype, handle] using hrx
  | answered r rx tx reply b g _ hrx hdecode htype => simpa [Pass.rxEvents, hdecode, htype, handle] using hrx

theorem Runs.rx {ps : List Pass} (h : Runs s ps t) (hwf : s.tx.Wf) : t.rx = s.rx.after (ps.flatMap Pass.rxEvents) := by
  induction h with
  | nil => rfl
  | @cons s u t p ps _ hpass _ ih =>
    obtain rfl : (s.loopPass p).1 = u := Option.some.inj hpass
    have hhandled := loopPass_handled hwf p
    rw [ih (hhandled.lockSteps.wf hwf), hhandled.rx, List.flatMap_cons, after_append]

theorem decoded_of_received (ps : List Pass) :
    ∀ frame, .frame frame ∈ ps.flatMap Pass.rxEvents → ∃ packet, decodeMacFrame packet = some frame := by
  intro frame hframe
  obtain ⟨p, -, hp⟩ := List.mem_flatMap.mp hframe
  obtain ⟨rx, hdecode, hrx⟩ := List.mem_map.mp hp
  split at hrx
  · cases hrx
  · obtain rfl := RxEvent.frame.inj hrx
    exact ⟨p.request, by simpa using hdecode⟩

end SecondaryRadioInterface

/-! ### The size in a run -/

/-- On either role the buffer holds exactly the unfinished fragments accepted since the latest end, each
    of 27 bytes, and a terminal frame comes on top of them for `WriteTunnel` to examine. So all that it
    contains fits into the largest IP packet as long as there are at most 2428 of these fragments, and no
    terminal frame with more than 19 bytes on top of 2428; every further fragment adds 27 bytes. -/
theorem reassembly_size :
    (∀ pollIntervalUs ps s, PrimaryRadioInterface.Runs (fun _ => True) { currentPollIntervalUs := pollIntervalUs } ps s →
      let events := PrimaryRadioInterface.received { currentPollIntervalUs := pollIntervalUs } ps
      let n := openFragments events
      s.rx.frameBuffer.length = kMaxPayloadSize * n ∧ (s.rx.frameBuffer.length ≤ 65575 ↔ n ≤ 2428) ∧ Sizes events) ∧
    (∀ ps s, SecondaryRadioInterface.Runs {} ps s →
      let events := ps.flatMap SecondaryRadioInterface.Pass.rxEvents
      let n := openFragments events
      s.rx.frameBuffer.length = kMaxPayloadSize * n ∧ (s.rx.frameBuffer.length ≤ 65575 ↔ n ≤ 2428) ∧ Sizes events) ∧
    ∀ (rx : RxState) packet frame, decodeMacFrame packet = some frame → rx.Accepts frame → kMaxPayloadSize < frame.arg.toNat →
      (rx.consumeDataFrameLocked frame).1.frameBuffer.length = rx.frameBuffer.length + kMaxPayloadSize := by
  refine ⟨fun pollIntervalUs ps s h => ?_, fun ps s h => ?_, fun rx packet frame hdecode haccepts harg => ?_⟩
  · have hdecoded := PrimaryRadioInterface.decoded_of_received { currentPollIntervalUs := pollIntervalUs } ps
    rw [h.rx TxState.wf_init, frameBuffer_length hdecoded]
    exact ⟨rfl, fragments_fit_iff, sizes hdecoded⟩
  · have hdecoded := SecondaryRadioInterface.decoded_of_received ps
    rw [h.rx TxState.wf_init, frameBuffer_length hdecoded]
    exact ⟨rfl, fragments_fit_iff, sizes hdecoded⟩
  · have hwf := wellFormed_of_decode hdecode
    have hterminal : ¬ frame.Terminal := fun h => absurd h.2 (not_le.mpr harg)
    have hlen : frame.payload.length = kMaxPayloadSize := by
      rw [hwf, if_pos haccepts.1, Nat.min_eq_right harg.le]
    rw [consumeDataFrameLocked_of_accepts haccepts, acceptDataFrame_of_wellFormed haccepts.1 hwf, if_neg hterminal, join,
      List.length_append, hlen]

/-- The fragments of a packet that does not end, in sequence. -/
def endlessFragment (n : ℕ) : MacFrame := { type := .data, seq := seqLabel (n + 1), arg := 255, payload := .replicate 27 0 }

theorem endlessFragment_wellFormed (n : ℕ) : (endlessFragment n).WellFormed := rfl

/-- The first `n` of these fragments have been received. -/
structure Filled (n : ℕ) (rx : RxState) : Prop where
  last : rx.lastRxSeq = if n = 0 then none else some (seqLabel n)
  length : rx.frameBuffer.length = kMaxPayloadSize * n

theorem filled_initial : Filled 0 {} := ⟨rfl, rfl⟩

theorem Filled.accepts {n : ℕ} {rx : RxState} (h : Filled n rx) : rx.Accepts (endlessFragment n) :=
  accepts_of_seqLabel rfl rfl h.last

theorem Filled.handle {n : ℕ} {rx : RxState} (h : Filled n rx) : Filled (n + 1) (rx.handle (.frame (endlessFragment n))) := by
  have hterminal : ¬ (endlessFragment n).Terminal := by
    rintro ⟨-, hle⟩
    have hle : 255 ≤ 27 := hle
    omega
  rw [RxState.handle, consumeDataFrameLocked_of_accepts h.accepts,
    acceptDataFrame_of_wellFormed rfl (endlessFragment_wellFormed n), if_neg hterminal]
  refine ⟨rfl, ?_⟩
  rw [join, List.length_append, h.length, Nat.mul_add, Nat.mul_one]
  rfl

namespace PrimaryRadioInterface

def endlessPass (n : ℕ) : Pass := { response := encodeMacFrame (endlessFragment n) }

theorem reply_endlessPass (n : ℕ) : (endlessPass n).reply = some (endlessFragment n) := by
  obtain ⟨packet, hencode, hdecode⟩ := exists_encode (endlessFragment_wellFormed n)
  simp only [Attempt.reply, endlessPass, hencode, if_true, Option.bind_some]
  exact hdecode

/-- A connected coordinator accepts the next fragment and stays connected. -/
theorem loopPass_endlessPass {s : PrimaryRadioInterface} {n : ℕ} (hwf : s.tx.Wf) (hconnected : s.disconnected = false)
    (hready : s.connectionResetRequired = false) (hfilled : Filled n s.rx) :
    (s.loopPass (endlessPass n)).disconnected = false ∧ (s.loopPass (endlessPass n)).connectionResetRequired = false ∧
      Filled (n + 1) (s.loopPass (endlessPass n)).rx := by
  have haction : s.loopAction (endlessPass n).nowUs = .exchange := by simp [loopAction, hconnected, hready]
  have hrx := (loopPass_passed hwf (endlessPass n)).rx
  simp only [rxEvents, haction, reply_endlessPass, Option.toList_some, List.map_singleton, after_singleton] at hrx
  have hexchanged := exchange_exchanged hwf (endlessPass n)
  rw [hrx]
  rw [loopPass_of_exchange haction]
  generalize (s.exchange (endlessPass n)).1 = t at hexchanged ⊢
  generalize (s.exchange (endlessPass n)).2 = result at hexchanged ⊢
  have hkept : s.setPollInterval.rx = s.rx := congrArg (·.rx) s.setPollInterval_toRadioInterface
  cases hexchanged with
  | unanswered r wasData result _ _ hreply => cases (reply_endlessPass n).symm.trans hreply
  | accepted r wasData consecutive rx =>
    exact ⟨rfl, s.setPollInterval_keeps.connectionResetRequired.trans hready, hfilled.handle⟩
  | rejected r wasData rx _ _ hreply hbad =>
    obtain rfl := Option.some.inj ((reply_endlessPass n).symm.trans hreply)
    rw [hkept] at hbad
    rcases hbad with ⟨-, hrejects⟩ | htype
    · exact absurd hrejects hfilled.accepts.2.1
    · cases htype

theorem exists_filled (n : ℕ) : ∃ s, Runs (fun _ => True) { currentPollIntervalUs := 100 }
    (resetPass :: (List.range n).map endlessPass) s ∧ s.disconnected = false ∧ s.connectionResetRequired = false ∧
      Filled n s.rx := by
  induction n with
  | zero =>
    have hexec : (Machine.exec (fun s p => some (loopPass s p)) (fun _ _ => True) { currentPollIntervalUs := 100 } [resetPass]).map
        (fun s => (s.disconnected, s.connectionResetRequired, s.rx)) = some (false, false, {}) := by decide +kernel
    obtain ⟨s, hs, hstate⟩ := Option.map_eq_some_iff.mp hexec
    obtain ⟨hconnected, hready, hrx⟩ : s.disconnected = false ∧ s.connectionResetRequired = false ∧ s.rx = {} := by
      simpa using hstate
    exact ⟨s, .of_exec hs, hconnected, hready, hrx ▸ filled_initial⟩
  | succ n ih =>
    obtain ⟨s, hs, hconnected, hready, hfilled⟩ := ih
    have hwf : s.tx.Wf := hs.wf TxState.wf_init
    refine ⟨s.loopPass (endlessPass n), ?_, loopPass_endlessPass hwf hconnected hready hfilled⟩
    rw [List.range_succ, List.map_append, List.map_singleton, ← List.cons_append]
    exact hs.concat trivial rfl

end PrimaryRadioInterface

namespace SecondaryRadioInterface

def endlessPass (n : ℕ) : Pass := { request := (encodeMacFrame (endlessFragment n)).getD [] }

theorem rxEvents_endlessPass (n : ℕ) : (endlessPass n).rxEvents = [.frame (endlessFragment n)] := by
  obtain ⟨packet, hencode, hdecode⟩ := exists_encode (endlessFragment_wellFormed n)
  have hrequest : (endlessPass n).request = packet := by rw [endlessPass, hencode, Option.getD_some]
  rw [Pass.rxEvents, hrequest, hdecode]
  rfl

theorem exists_filled (n : ℕ) : ∃ s, Runs {} ((List.range n).map endlessPass) s ∧ Filled n s.rx := by
  induction n with
  | zero => exact ⟨{}, .nil _, filled_initial⟩
  | succ n ih =>
    obtain ⟨s, hs, hfilled⟩ := ih
    refine ⟨(s.loopPass (endlessPass n)).1, ?_, ?_⟩
    · rw [List.range_succ, List.map_append, List.map_singleton]
      exact hs.concat trivial rfl
    · rw [(loopPass_handled (hs.wf TxState.wf_init) (endlessPass n)).rx, rxEvents_endlessPass, after_singleton]
      exact hfilled.handle

end SecondaryRadioInterface

/-- 2429 fragments of a packet that does not end do not fit into the largest IP packet any more; either
    role takes them all. -/
theorem reassembly_exceeds :
    (¬∀ ps s, PrimaryRadioInterface.Runs (fun _ => True) { currentPollIntervalUs := 100 } ps s →
      s.rx.frameBuffer.length ≤ 65575) ∧
    ¬∀ ps s, SecondaryRadioInterface.Runs {} ps s → s.rx.frameBuffer.length ≤ 65575 := by
  constructor
  · intro h
    obtain ⟨s, hs, -, -, hfilled⟩ := PrimaryRadioInterface.exists_filled 2429
    have hbound := h _ s hs
    rw [hfilled.length] at hbound
    exact absurd hbound (by decide)
  · intro h
    obtain ⟨s, hs, hfilled⟩ := SecondaryRadioInterface.exists_filled 2429
    have hbound := h _ s hs
    rw [hfilled.length] at hbound
    exact absurd hbound (by decide)

end Nerfnet
