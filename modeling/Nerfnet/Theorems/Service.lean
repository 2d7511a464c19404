import Nerfnet.Theorems.Fairness
import Nerfnet.Theorems.Losses

/-! # The coordinator is served

The peer comes first, so the coordinator waits for the peer's traffic. It waits for nothing else: every
exchange that gets its reply moves a fragment of the peer, or ends a stretch of Grants, or moves a
fragment of the coordinator, and after each of its fragments at most one stretch begins. -/

namespace Nerfnet
namespace Link
variable {s t : Link} {result : Option ExchangeResult} {reads : List Bytes} {lost radioOk : Bool} {tx rx : MacFrame}
  {e : ExchangeEvent} {es fs : List ExchangeEvent} {front later : List Bytes}

/-- At most one frame is on its way. If the coordinator is idle and has packets of `front` left, the
    request carries a fragment. -/
inductive Sending (s : Link) (front : List Bytes) : Prop
  | atRest : s.Session [] [] → Sending s front
  | asked (tx : MacFrame) : s.Asked tx → (s.coord.state = .idle ∧ front ≠ [] → tx.type = .data) → Sending s front
  | answered (queue : List Bytes) (rx : MacFrame) : s.Answered queue rx →
      (s.coord.state = .idle ∧ front ≠ [] → s.coordAhead = true) → Sending s front

/-- The coordinator's queue is what is left of the packets to be served, and `later` ones; the first
    `base` packets pushed are not among these. -/
structure Sends (s : Link) (base : ℕ) (front later : List Bytes) : Prop where
  queue : s.coord.tx.readBuffer = front ++ later
  pushed : base + later.length ≤ s.coordPushed.length
  sending : s.Sending front

/-- What stands before the end of the service of `front`, if nothing is pushed at the peer: two exchanges
    for each of its fragments, what the peer has not delivered, and the end of the stretch of Grants. -/
def backlog (s : Link) (front : List Bytes) : ℕ :=
  2 * fragmentCount front + s.unsent + if s.load.granting then 1 else 0

theorem backlog_le (s : Link) (front : List Bytes) :
    s.backlog front ≤ 2 * fragmentCount front + fragmentCount s.peer.tx.readBuffer + 1 := by
  have hle : s.unsent ≤ fragmentCount s.peer.tx.readBuffer := Load.rest_le _ _
  unfold backlog
  split <;> omega

theorem Synced.front_pos (h : s.Synced) (hqueue : s.coord.tx.readBuffer = front ++ later) :
    0 < fragmentCount front ↔ front ≠ [] :=
  Nat.pos_iff_ne_zero.trans (not_congr (fragmentCount_eq_zero fun packet hp =>
    h.nonempty.coord packet (hqueue ▸ List.mem_append_left _ hp)))

/-- The request of an idle coordinator with packets carries a fragment. -/
theorem Synced.sends_front (h : s.Synced) (hqueue : s.coord.tx.readBuffer = front ++ later) (htype : tx.type = s.coord.nextFrameType)
    (hidle : s.coord.state = .idle ∧ front ≠ []) : tx.type = .data := by
  have hpos : 0 < s.load.coord := h.coord_pos.mpr (by simp [hqueue, hidle.2])
  have hgranting : s.load.granting = false := by simp [load, hidle.1]
  have hdata := h.sends_data htype
  simpa [hgranting, hpos] using hdata

/-- The reply takes a fragment of the peer, or ends a stretch of Grants, or retires the coordinator's
    fragment. -/
theorem Answered.backlog_receive {queue : List Bytes} (h : s.Answered queue rx) (hs : s.Synced)
    (hqueue : s.coord.tx.readBuffer = front ++ later) (hne : front ≠ [])
    (haccepted : s.coord.state = .idle ∧ front ≠ [] → s.coordAhead = true) (hstep : s.receive = some (t, result)) :
    ∃ front' later', t.coord.tx.readBuffer = front' ++ later' ∧ later'.length ≤ later.length ∧
      t.backlog front' + 1 ≤ s.backlog front := by
  obtain ⟨-, -, hgranting, hconfirmed, -, hpeer, hpeerAhead⟩ := h.receive hstep
  obtain ⟨front', later', happend, hlater, hcount⟩ := confirmed_append later s.coordAhead fun packet hp =>
    hs.nonempty.coord packet (hqueue ▸ List.mem_append_left _ hp)
  refine ⟨front', later', by rw [hconfirmed, hqueue, happend], hlater, ?_⟩
  have hfront := (hs.front_pos hqueue).mpr hne
  have hbefore : s.unsent = fragmentCount s.peer.tx.readBuffer := by
    have hbehind : s.load.peerAhead = false := h.behind
    rw [unsent, hbehind]
    rfl
  have hafter : t.unsent = Load.rest (fragmentCount s.peer.tx.readBuffer) (decide (s.coord.state ≠ .idle ∧ queue ≠ [])) := by
    simp only [unsent, load, hpeer, hpeerAhead]
  have hgrants : t.load.granting = decide (queue ≠ []) := by simp only [load, decide_eq_decide.mpr hgranting]
  have hle := Load.rest_le (fragmentCount front) s.coordAhead
  have hqueued : queue ≠ [] → 0 < fragmentCount s.peer.tx.readBuffer := fun hq =>
    hs.peer_pos.mpr fun hnil => hq (List.prefix_nil.mp (hnil ▸ h.queued))
  by_cases hidle : s.coord.state = .idle
  · have hnot : s.load.granting = false := by simp [load, hidle]
    rw [decide_eq_false fun hgrant => hgrant.1 hidle, Load.rest_false] at hafter
    rw [haccepted ⟨hidle, hne⟩, Load.rest_true] at hcount
    simp only [backlog, hbefore, hafter, hgrants, hnot, hcount, Bool.false_eq_true, if_false]
    split <;> omega
  · have hgrant : s.load.granting = true := by simp [load, hidle]
    simp only [backlog, hbefore, hgrants, hgrant, hcount, if_true]
    by_cases hq : queue = []
    · rw [decide_eq_false fun hgrant => hgrant.2 hq, Load.rest_false] at hafter
      simp only [hafter, hq, ne_eq, not_true_eq_false, decide_false, Bool.false_eq_true, if_false]
      omega
    · have hpos := hqueued hq
      rw [decide_eq_true ⟨hidle, hq⟩, Load.rest_true] at hafter
      simp only [hafter, ne_eq, hq, not_false_eq_true, decide_true, if_true]
      omega

/-- An exchange that gets its reply takes one from what stands before, and only what is pushed at the peer
    adds to it. -/
theorem Sends.step {base : ℕ} (h : s.Sends base front later) (hs : s.Synced) (hown : s.OwnSend e)
    (hstep : s.exchangeStep e = some (t, result)) :
    ∃ front' later', t.Sends base front' later' ∧ (front = [] → front' = []) ∧
      (front ≠ [] → t.backlog front' + (if e.isReceive then 1 else 0) ≤
        s.backlog front + fragmentCount (e.peerTunnel.filter isValidIpPacket)) := by
  obtain ⟨hqueue, hpushed, hsending⟩ := h
  have hgrows := (exchangeStep_frame hstep).coordPushed
  cases e with
  | coordReads reads =>
    cases hstep
    refine ⟨front, later ++ reads.filter isValidIpPacket, ⟨?_, ?_, ?_⟩, id, fun _ => Nat.le_refl _⟩
    · simp only [TxState.tunnelThread, hqueue, List.append_assoc]
    · simp only [List.length_append]
      omega
    · cases hsending with
      | atRest h => exact .atRest (h.coordReads reads)
      | asked tx h hdata => exact .asked tx ⟨h.session.coordReads reads, h.ack, h.arg, h.current, h.grant⟩ hdata
      | answered queue rx h haccepted =>
        exact .answered queue rx ⟨h.session.coordReads reads, h.ack, h.current, h.behind, h.queued, h.type, h.pending⟩ haccepted
  | peerReads reads =>
    have ht := (Prod.mk.inj (Option.some.inj hstep)).1
    have hunsent : t.unsent = s.unsent + fragmentCount (reads.filter isValidIpPacket) := hs.unsent_append (ht ▸ rfl) (ht ▸ rfl)
    have hgranting : t.load.granting = s.load.granting := ht ▸ rfl
    refine ⟨front, later, ⟨ht ▸ hqueue, ht ▸ hpushed, ?_⟩, id, fun _ => ?_⟩
    · rw [← ht]
      cases hsending with
      | atRest h => exact .atRest (h.peerReads reads)
      | asked tx h hdata => exact .asked tx ⟨h.session.peerReads reads, h.ack, h.arg, h.current, h.grant⟩ hdata
      | answered queue rx h haccepted =>
        exact .answered queue rx ⟨h.session.peerReads reads, h.ack, h.current, h.behind,
          h.queued.trans (List.prefix_append _ _), h.type, h.pending⟩ haccepted
    · simp only [backlog, hunsent, hgranting, ExchangeEvent.isReceive, ExchangeEvent.peerTunnel, Bool.false_eq_true, if_false]
      omega
  | send reads lost radioOk =>
    have hempty := hown rfl
    have hrest : s.Session [] [] := by
      cases hsending with
      | atRest h => exact h
      | asked tx h => cases (h.session.eq_nil_of_own hempty).1
      | answered queue rx h => cases (h.session.eq_nil_of_own hempty).2
    obtain ⟨hframe, hstate, hreads, -, hpeer, hpeerAhead⟩ := hrest.send_asked hs hstep
    refine ⟨front, later ++ reads.filter isValidIpPacket, ⟨?_, ?_, ?_⟩, id, fun _ => ?_⟩
    · rw [hreads, hqueue, List.append_assoc]
    · rw [hgrows]
      simp only [ExchangeEvent.coordTunnel, List.length_append]
      omega
    · rcases hframe with ht | ⟨tx, ht, htype⟩
      · exact .atRest ht
      · refine .asked tx ht fun hidle => ?_
        rw [hstate] at hidle
        exact hs.sends_front hqueue htype hidle
    · simp only [backlog, unsent, load, hstate, hpeer, hpeerAhead]
      exact Nat.le_add_right _ _
  | receive =>
    cases hsending with
    | atRest h => exact absurd hstep (by simp [Link.exchangeStep, h.receive_eq_none])
    | asked tx h => exact absurd hstep (by simp [Link.exchangeStep, h.session.receive_eq_none])
    | answered queue rx h haccepted =>
      obtain ⟨ht, -, -, hconfirmed, -⟩ := h.receive hstep
      rw [show ExchangeEvent.receive.coordTunnel = [] from rfl, List.filter_nil, List.append_nil] at hgrows
      by_cases hne : front = []
      · refine ⟨[], confirmed later s.coordAhead, ⟨?_, ?_, .atRest ht⟩, fun _ => rfl, fun hne' => absurd hne hne'⟩
        · rw [hconfirmed, hqueue, hne]
          rfl
        · rw [hgrows]
          exact (Nat.add_le_add_left (confirmed_length_le later _) base).trans hpushed
      · obtain ⟨front', later', hqueue', hlater, hle⟩ := h.backlog_receive hs hqueue hne haccepted hstep
        refine ⟨front', later', ⟨hqueue', ?_, .atRest ht⟩, fun hnil => absurd hnil hne, fun _ => hle.trans (Nat.le_add_right _ _)⟩
        rw [hgrows]
        exact (Nat.add_le_add_left hlater base).trans hpushed
  | timeout =>
    obtain ⟨tx, -, rfl, -⟩ := timeout_cases hstep
    refine ⟨front, later, ⟨hqueue, hpushed, ?_⟩, id, fun _ => Nat.le_refl _⟩
    cases hsending with
    | atRest h => exact .atRest (h.withPhase .top)
    | asked tx h hdata => exact .asked tx (h.withPhase .top) hdata
    | answered queue rx h haccepted => exact .answered queue rx (h.withPhase .top) haccepted
  | handle reads lost =>
    cases hsending with
    | atRest h => exact absurd hstep (by simp [Link.exchangeStep, h.handle_eq_none])
    | answered queue rx h => exact absurd hstep (by simp [Link.exchangeStep, h.session.handle_eq_none])
    | asked tx h hdata =>
      obtain ⟨hframe, hcoord, hqueue', hbehind, hahead⟩ := h.handle hstep
      rw [show (ExchangeEvent.handle reads lost).coordTunnel = [] from rfl, List.filter_nil, List.append_nil] at hgrows
      refine ⟨front, later, ⟨hcoord ▸ hqueue, hgrows ▸ hpushed, ?_⟩, id, fun _ => ?_⟩
      · rcases hframe with ht | ⟨rx, ht⟩
        · exact .atRest ht
        · refine .answered _ rx ht fun hidle => ?_
          rw [hcoord] at hidle
          rw [hahead, decide_eq_true (hdata hidle), Bool.true_or]
      · have hcount := fragmentCount_confirmed s.peerAhead hs.nonempty.peer (queue_ne_nil_of_ahead hs.live.wf.2)
        have hunsent : t.unsent = s.unsent + fragmentCount (reads.filter isValidIpPacket) := by
          have hpeer : fragmentCount t.peer.tx.readBuffer = Load.rest (fragmentCount s.peer.tx.readBuffer) s.peerAhead +
              fragmentCount (reads.filter isValidIpPacket) := by
            rw [hqueue', ← hcount]
            exact Transfer.fragments_append _ _
          simp only [unsent, load, hbehind, Load.rest_false, hpeer]
        have hgranting : t.load.granting = s.load.granting := by simp only [load, hcoord]
        simp only [backlog, hunsent, hgranting, ExchangeEvent.isReceive, ExchangeEvent.peerTunnel, Bool.false_eq_true, if_false]
        omega

/-- As long as packets of `front` are left, every exchange that got its reply has been counted. -/
theorem LossyRun.sends {base : ℕ} (hrun : s.LossyRun fs t) (h : s.Sends base front later) (hs : s.Synced) :
    ∃ pushed front' later', t.peerPushed = s.peerPushed ++ pushed ∧ t.Sends base front' later' ∧ (front = [] → front' = []) ∧
      (front' ≠ [] → t.backlog front' + fs.countP ExchangeEvent.isReceive ≤ s.backlog front + fragmentCount pushed) := by
  unfold LossyRun at hrun
  induction hrun generalizing front later with
  | nil s => exact ⟨[], front, later, by simp, h, id, fun _ => by simp⟩
  | @cons s u t e fs hown hstep _ ih =>
    obtain ⟨⟨u, result⟩, hexchange, rfl⟩ := Option.map_eq_some_iff.mp hstep
    obtain ⟨front', later', hu, hserved, hle⟩ := h.step hs hown hexchange
    obtain ⟨pushed, front'', later'', hpushed, ht, hserved', hle'⟩ := ih hu (hs.exchangeStep hexchange).1
    refine ⟨e.peerTunnel.filter isValidIpPacket ++ pushed, front'', later'', ?_, ht, hserved' ∘ hserved, fun hne => ?_⟩
    · rw [hpushed, (exchangeStep_frame hexchange).peerPushed, List.append_assoc]
    · have happend : fragmentCount (e.peerTunnel.filter isValidIpPacket ++ pushed) =
          fragmentCount (e.peerTunnel.filter isValidIpPacket) + fragmentCount pushed := Transfer.fragments_append _ _
      have hle := hle fun hnil => hne (hserved' (hserved hnil))
      have hle' : t.backlog front'' + fs.countP ExchangeEvent.isReceive ≤ u.backlog front' + fragmentCount pushed := hle' hne
      rw [happend, List.countP_cons]
      omega

/-- The coordinator waits for the peer's traffic and for nothing else: once two exchanges for each of its
    fragments, and one for each fragment that the peer has at the start or gets, have got their reply,
    everything the coordinator had queued is written. -/
theorem coordinator_served {coord : PrimaryRadioInterface} {peer : SecondaryRadioInterface} {pushed : List Bytes}
    (hcoord : ∀ packet ∈ coord.tx.readBuffer, isValidIpPacket packet = true)
    (hpeer : ∀ packet ∈ peer.tx.readBuffer, packet ≠ [])
    (hrun : (afterReset coord peer).SessionRun es s) (hempty : s.toPeer = [] ∧ s.toCoord = []) (hlossy : s.LossyRun fs t)
    (hpushed : t.peerPushed = s.peerPushed ++ pushed)
    (hanswered : 2 * fragmentCount s.coord.tx.readBuffer + fragmentCount s.peer.tx.readBuffer + fragmentCount pushed ≤
      fs.countP ExchangeEvent.isReceive) :
    peer.rx.tunnel ++ (coord.tx.readBuffer ++ s.coordPushed) <+: t.peer.rx.tunnel := by
  obtain ⟨hs, hmoved⟩ := (synced_afterReset (fun p hp => ne_nil_of_valid (hcoord p hp)) hpeer).sessionRun hrun
  have hrest : s.Session [] [] := by
    obtain ⟨requests, replies, hsession⟩ := hs.live
    obtain ⟨rfl, rfl⟩ := hsession.eq_nil_of_own hempty
    exact hsession
  have hsends : s.Sends s.coordPushed.length s.coord.tx.readBuffer [] := ⟨by simp, by simp, .atRest hrest⟩
  obtain ⟨ht, hmoved', hmore, -⟩ := hlossy.moved hs
  obtain ⟨pushed', front, later, hpushed', hfront, -, hle⟩ := hlossy.sends hsends hs
  obtain rfl : pushed' = pushed := List.append_cancel_left (hpushed'.symm.trans hpushed)
  have hnil : front = [] := by
    by_contra hne
    have hpos := (ht.front_pos hfront.queue).mpr hne
    have hle := hle hne
    have hbound := s.backlog_le s.coord.tx.readBuffer
    unfold backlog at hle hbound
    omega
  refine (deliveredInOrder_of_moves rfl hcoord (hmoved.trans hmoved').coord).written_first hmore ?_
  have hlength := hfront.pushed
  have hqueue : t.coordView.queue = later := hfront.queue.trans (by rw [hnil, List.nil_append])
  rw [hqueue]
  exact hlength

/-- The coordinator has one packet; a request is lost, and before each of the exchanges a packet is pushed
    at the coordinator, and twice at the peer. -/
def contendingRounds : List ExchangeEvent :=
  [.send [] true true, .timeout, .peerReads [ipv4Packet 4 []]] ++ exchangeEvents ++ [.peerReads [ipv4Packet 5 []]] ++
    (List.replicate 5 (.coordReads [ipv4Packet 3 []] :: exchangeEvents)).flatten

theorem coordinator_served_contending :
    ∃ t, twoPackets.LossyRun contendingRounds t ∧ [ipv4Packet 1 []] <+: t.peer.rx.tunnel := by
  have hexec : (Machine.exec sessionStep OwnSend twoPackets contendingRounds).map (·.peerPushed) =
      some [ipv4Packet 4 [], ipv4Packet 5 []] := by decide +kernel
  obtain ⟨t, ht, hpushed⟩ := Option.map_eq_some_iff.mp hexec
  have hstart : twoPackets.SessionRun [] twoPackets := .nil twoPackets
  exact ⟨t, .of_exec ht, coordinator_served (by decide +kernel) (by decide +kernel) hstart ⟨rfl, rfl⟩ (.of_exec ht) hpushed
    (by decide +kernel)⟩

/-! ### Starvation -/

/-- A packet is pushed at the peer, and an exchange follows. -/
def busyRound (packet : Bytes) : List ExchangeEvent := .peerReads [packet] :: exchangeEvents

theorem AtRest.busyRound {packet : Bytes} (h : s.AtRest) (hs : s.Synced) (hgranting : s.load.granting = true)
    (hvalid : isValidIpPacket packet = true) :
    ∃ t, s.LosslessRun (Link.busyRound packet) t ∧ t.AtRest ∧ t.Synced ∧ t.load.granting = true ∧
      t.load.coord = Load.rest s.load.coord s.load.coordAhead ∧ t.load.coordAhead = false := by
  have hpush : s.exchangeStep (.peerReads [packet]) = some (_, none) := rfl
  obtain ⟨hus, -⟩ := hs.exchangeStep hpush
  generalize hu : ({ s with
    peer := { s.peer with tx := s.peer.tx.tunnelThread [packet] }
    peerPushed := s.peerPushed ++ [packet].filter isValidIpPacket } : Link) = u at hpush hus
  have hrest : u.AtRest := hu ▸ ⟨h.session.peerReads [packet], h.phase⟩
  have hqueue : u.peer.tx.readBuffer = s.peer.tx.readBuffer ++ [packet] := by
    simp [← hu, TxState.tunnelThread, hvalid]
  have hunsent : u.unsent = s.unsent + fragmentCount [packet] := hs.unsent_append hqueue (hu ▸ rfl)
  have hne : ∀ p ∈ [packet], p ≠ [] := fun p hp => List.mem_singleton.mp hp ▸ ne_nil_of_valid hvalid
  have hpos : 0 < fragmentCount [packet] := Nat.pos_of_ne_zero fun h0 => by cases (fragmentCount_eq_zero hne).mp h0
  obtain ⟨t, honce, ht, hts, -, hload, -⟩ := hrest.exchangeOnce hus
  obtain ⟨v, w, hsend, hhandle, hreceive⟩ := exchangeOnce_steps hrest hus honce
  have hgrants : u.load.granting = true := hu ▸ hgranting
  have hcoord : u.load.coord = s.load.coord ∧ u.load.coordAhead = s.load.coordAhead := hu ▸ ⟨rfl, rfl⟩
  refine ⟨t, ?_, ht, hts, ?_, ?_, ?_⟩
  · refine .cons trivial (congrArg (Option.map _) hpush) (.cons ⟨rfl, rfl⟩ (congrArg (Option.map _) hsend)
      (.cons rfl (congrArg (Option.map _) hhandle) (.cons trivial (congrArg (Option.map _) hreceive) (.nil t))))
  · have hleft : 0 < Load.rest u.load.peer u.load.peerAhead := by
      have hrest : Load.rest u.load.peer u.load.peerAhead = u.unsent := rfl
      omega
    rw [hload, Load.next, decide_eq_true hleft]
  · rw [hload, Load.next, hgrants, hcoord.1, hcoord.2, Bool.not_true, Bool.false_and, Bool.or_false]
  · rw [hload, Load.next]

theorem AtRest.busyRounds {packets : List Bytes} (h : s.AtRest) (hs : s.Synced) (hgranting : s.load.granting = true)
    (hvalid : ∀ packet ∈ packets, isValidIpPacket packet = true) :
    ∃ t, s.LosslessRun (packets.flatMap Link.busyRound) t ∧ t.load.granting = true ∧
      s.load.coord ≤ t.load.coord + if s.load.coordAhead then 1 else 0 := by
  induction packets generalizing s with
  | nil => exact ⟨s, .nil s, hgranting, Nat.le_add_right _ _⟩
  | cons packet packets ih =>
    obtain ⟨u, hround, hu, hus, hgrants, hcount, hbehind⟩ := h.busyRound hs hgranting (hvalid packet List.mem_cons_self)
    obtain ⟨t, hrun, htGrants, hle⟩ := ih hu hus hgrants fun p hp => hvalid p (List.mem_cons_of_mem _ hp)
    refine ⟨t, Machine.Run.append hround hrun, htGrants, ?_⟩
    rw [hbehind, hcount, Load.rest] at hle
    split at hle <;> split <;> simp_all

/-- A coordinator that grants sends none of its packets as long as a packet is pushed at the peer before
    each exchange, however many exchanges there are: the limit for its own bursts does not help it. -/
theorem coordinator_starves {coord : PrimaryRadioInterface} {peer : SecondaryRadioInterface} {packets : List Bytes}
    (hcoord : ∀ packet ∈ coord.tx.readBuffer, packet ≠ []) (hpeer : ∀ packet ∈ peer.tx.readBuffer, packet ≠ [])
    (hrun : (afterReset coord peer).SessionRun es s) (hphase : s.phase = .top) (hempty : s.toPeer = [] ∧ s.toCoord = [])
    (hgranting : s.coord.state ≠ .idle) (hvalid : ∀ packet ∈ packets, isValidIpPacket packet = true) :
    ∃ t, s.LosslessRun (packets.flatMap busyRound) t ∧ t.coord.state ≠ .idle ∧
      fragmentCount s.coord.tx.readBuffer ≤ fragmentCount t.coord.tx.readBuffer + if s.coordAhead then 1 else 0 := by
  obtain ⟨hs, -⟩ := (synced_afterReset hcoord hpeer).sessionRun hrun
  have hrest : s.AtRest := by
    obtain ⟨requests, replies, hsession⟩ := hs.live
    obtain ⟨rfl, rfl⟩ := hsession.eq_nil_of_own hempty
    exact ⟨hsession, hphase⟩
  obtain ⟨t, hrounds, hgrants, hle⟩ := hrest.busyRounds hs (by simpa [load] using hgranting) hvalid
  exact ⟨t, hrounds, by simpa [load] using hgrants, hle⟩

/-- A coordinator with one packet left, through a hundred exchanges. -/
theorem coordinator_starves_hundred :
    ∃ s t, busyLink.SessionRun exchangeEvents s ∧
      s.LosslessRun ((List.replicate 100 (ipv4Packet 3 [])).flatMap busyRound) t ∧ t.coord.tx.readBuffer ≠ [] := by
  have hexec : (Machine.exec sessionStep (fun _ _ => True) busyLink exchangeEvents).map
      (fun s => ((s.phase, s.toPeer, s.toCoord), s.coord.state, s.coordAhead, fragmentCount s.coord.tx.readBuffer)) =
        some ((.top, [], []), .issueGrant, false, 1) := by decide +kernel
  obtain ⟨s, hs, hstate⟩ := Option.map_eq_some_iff.mp hexec
  obtain ⟨hrest, hstate⟩ := Prod.mk.inj hstate
  obtain ⟨hphase, hempty⟩ := Prod.mk.inj hrest
  obtain ⟨hgrants, hstate⟩ := Prod.mk.inj hstate
  obtain ⟨hahead, hcount⟩ := Prod.mk.inj hstate
  have hvalid : ∀ packet ∈ List.replicate 100 (ipv4Packet 3 []), isValidIpPacket packet = true := fun packet hp => by
    rw [List.eq_of_mem_replicate hp]
    decide +kernel
  obtain ⟨t, ht, -, hle⟩ := coordinator_starves (by decide +kernel) (by decide +kernel) (.of_exec hs) hphase (Prod.mk.inj hempty)
    (by rw [hgrants]; decide) hvalid
  refine ⟨s, t, .of_exec hs, ht, fun hnil => ?_⟩
  rw [hcount, hnil, hahead] at hle
  exact absurd hle (by decide)

end Link
end Nerfnet
