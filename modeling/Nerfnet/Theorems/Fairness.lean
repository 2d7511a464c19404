import Nerfnet.Theorems.Quiescence

/-! # How long the coordinator grants

A coordinator that has granted goes on granting as long as the peer announces more data: the credits
of a Grant bound nothing, because the peer answers every request with one frame, and the test for a
fair burst is only made by an idle coordinator. What bounds a stretch of Grants is the peer's data. -/

namespace Nerfnet
namespace Link
variable {s t : Link} {e : ExchangeEvent} {es fs : List ExchangeEvent} {n : ℕ}

/-- Requests and replies all get through. -/
def Lossless : ExchangeEvent → Prop
  | .send _ lost radioOk => lost = false ∧ radioOk = true
  | .handle _ lost => lost = false
  | .timeout => False
  | _ => True

instance (e : ExchangeEvent) : Decidable (Lossless e) := by
  unfold Lossless
  split <;> infer_instance

/-- The frame that the coordinator sends in the event. -/
def sentFrame (s : Link) : ExchangeEvent → Option MacFrame
  | .send reads _ _ => (s.coord.prepareRequest reads).2.map (·.1)
  | _ => none

/-- Successful exchanges, with pushes at any time. -/
def LosslessRun (s : Link) (es : List ExchangeEvent) (t : Link) : Prop :=
  Machine.Run sessionStep (fun _ e => Lossless e) s es t

/-- Successful exchanges, and every frame that the coordinator sends is a Grant. -/
def GrantsOnly (s : Link) (e : ExchangeEvent) : Prop := Lossless e ∧ ∀ tx ∈ s.sentFrame e, tx.type = .grant

instance (s : Link) (e : ExchangeEvent) : Decidable (s.GrantsOnly e) := inferInstanceAs (Decidable (_ ∧ _))

def GrantRun (s : Link) (es : List ExchangeEvent) (t : Link) : Prop := Machine.Run sessionStep GrantsOnly s es t

/-- The peer's fragments that the coordinator has not accepted. -/
def unsent (s : Link) : ℕ := Load.rest s.load.peer s.load.peerAhead

/-- At most `n` more Grants follow, if nothing is pushed at the peer and no other frame is sent. -/
inductive GrantsLeft (s : Link) : ℕ → Prop
  | atRest : s.AtRest → GrantsLeft s (s.unsent + if s.load.granting then 1 else 0)
  | requested {tx : MacFrame} : s.Requested tx → GrantsLeft s (s.unsent + if tx.type = .grant then 0 else 1)
  | replied {tx rx : MacFrame} : s.Replied tx rx →
      GrantsLeft s (s.unsent + if rx.type = .data ∨ rx.pending = 0 then 0 else 1)

theorem Load.rest_add {n m : ℕ} {ahead : Bool} (h : ahead = true → 0 < n) : rest (n + m) ahead = rest n ahead + m := by
  cases ahead with
  | false => rfl
  | true =>
    have := h rfl
    simp only [rest_true]
    omega

theorem GrantsLeft.le (h : s.GrantsLeft n) : n ≤ fragmentCount s.peer.tx.readBuffer + 1 := by
  have hle : s.unsent ≤ fragmentCount s.peer.tx.readBuffer := Load.rest_le _ _
  cases h <;> split <;> omega

theorem Synced.sentFrame_type (hs : s.Synced) (reads : List Bytes) (lost radioOk : Bool) :
    ∃ tx, s.sentFrame (.send reads lost radioOk) = some tx ∧ tx.type = s.coord.nextFrameType := by
  obtain ⟨r, wasData, tx, request, hprepare, -, htype, -⟩ :=
    PrimaryRadioInterface.prepareRequest_spec reads hs.live.wf.1 hs.state
  exact ⟨tx, by simp [sentFrame, hprepare], htype⟩

theorem Synced.unsent_append {packets : List Bytes} (hs : s.Synced)
    (hqueue : t.peer.tx.readBuffer = s.peer.tx.readBuffer ++ packets) (hahead : t.peerAhead = s.peerAhead) :
    t.unsent = s.unsent + fragmentCount packets := by
  have hcount : t.load.peer = s.load.peer + fragmentCount packets := by
    simp only [load, fragmentCount, hqueue, Transfer.fragments_append]
  have hahead : t.load.peerAhead = s.load.peerAhead := hahead
  rw [unsent, unsent, hcount, hahead, Load.rest_add hs.load_wf.peer]

/-- A Grant is one of those that are left. -/
theorem AtRest.unsent_send {result : Option ExchangeResult} {reads : List Bytes} (h : s.AtRest) (hs : s.Synced)
    (hstep : s.send reads false true = some (t, result)) :
    ∃ tx, t.Requested tx ∧ ((∀ frame ∈ s.sentFrame (.send reads false true), frame.type = .grant) →
      t.unsent + (if tx.type = .grant then 0 else 1) + 1 ≤ s.unsent + if s.load.granting then 1 else 0) := by
  obtain ⟨tx, ht, htype, -, -, htPeer, htPeerAhead⟩ := h.send hs.state hstep
  refine ⟨tx, ht, fun hgrants => ?_⟩
  obtain ⟨frame, hsent, hframe⟩ := hs.sentFrame_type reads false true
  have hgrant : tx.type = .grant := by rw [htype, ← hframe, hgrants frame hsent]
  have hgranting : s.load.granting = true := by rw [← hs.sends_grant htype, hgrant, decide_eq_true rfl]
  have hunsent : t.unsent = s.unsent + fragmentCount [] := hs.unsent_append (by simp [htPeer]) htPeerAhead
  rw [hunsent, if_pos hgrant, if_pos hgranting]
  exact le_rfl

/-- A Grant is answered by DATA, or by an ACK without pending data. -/
theorem Requested.unsent_handle {result : Option ExchangeResult} {reads : List Bytes} {tx : MacFrame} (h : s.Requested tx)
    (hs : s.Synced) (hstep : s.handle reads false = some (t, result)) :
    ∃ rx, t.Replied tx rx ∧ t.unsent + (if rx.type = .data ∨ rx.pending = 0 then 0 else 1) ≤
      s.unsent + (if tx.type = .grant then 0 else 1) + fragmentCount (reads.filter isValidIpPacket) := by
  obtain ⟨rx, ht, hrtype, hpending, htQueue, -, -⟩ := h.handle hstep
  have hcount := fragmentCount_confirmed s.peerAhead hs.nonempty.peer (queue_ne_nil_of_ahead hs.live.wf.2)
  have hunsent : t.unsent = s.unsent + fragmentCount (reads.filter isValidIpPacket) := by
    have hpeer : t.load.peer = fragmentCount (confirmed s.peer.tx.readBuffer s.peerAhead) +
        fragmentCount (reads.filter isValidIpPacket) := by
      simp only [load, fragmentCount, htQueue, Transfer.fragments_append]
    have hahead : t.load.peerAhead = false := ht.behind
    rw [unsent, hpeer, hahead, Load.rest_false, hcount]
    rfl
  refine ⟨rx, ht, ?_⟩
  rw [hunsent, hrtype, hpending]
  by_cases hq : confirmed s.peer.tx.readBuffer s.peerAhead = []
  · simp [hq]
  · by_cases hgrant : tx.type = .grant
    · simp [hq, hgrant]
    · have hpendingReply : ¬(FrameType.pending = .data ∨ (1 : UInt8) = 0) := by decide
      simp only [hq, hgrant, if_false, hpendingReply]
      omega

/-- A DATA reply takes one of the peer's fragments, and after a reply without pending data the
    coordinator does not grant. -/
theorem Replied.unsent_receive {result : Option ExchangeResult} {tx rx : MacFrame} (h : s.Replied tx rx) (hs : s.Synced)
    (hstep : s.receive = some (t, result)) :
    t.AtRest ∧ t.unsent + (if t.load.granting then 1 else 0) ≤ s.unsent + if rx.type = .data ∨ rx.pending = 0 then 0 else 1 := by
  obtain ⟨ht, -, htState, -, -, htPeer, htPeerAhead⟩ := h.receive hstep
  refine ⟨ht, ?_⟩
  have hbefore : s.unsent = fragmentCount s.peer.tx.readBuffer := by
    have hahead : s.load.peerAhead = false := h.behind
    rw [unsent, hahead]
    rfl
  have hafter : t.unsent = Load.rest (fragmentCount s.peer.tx.readBuffer) (decide (rx.type = .data)) := by
    simp only [unsent, load, htPeer, htPeerAhead]
  have hgranting : t.load.granting = decide (rx.pending ≠ 0) := by
    simp only [load, htState, ne_eq, PrimaryRadioInterface.replyState_idle_iff h.pending]
  rw [hbefore, hafter, hgranting]
  by_cases hdata : rx.type = .data
  · -- A fragment is accepted, so there was one.
    have hpos : fragmentCount s.peer.tx.readBuffer ≠ 0 := fun h0 => by
      obtain ⟨-, current, rest, hq, -⟩ := hs.live.wf.2.inFlight (h.current hdata).1
      rw [(fragmentCount_eq_zero hs.nonempty.peer).mp h0] at hq
      cases hq
    simp only [hdata, decide_true, Load.rest_true, true_or, if_true]
    split <;> omega
  · by_cases hzero : rx.pending = 0 <;> simp [hdata, hzero]

/-- Within a session an event takes a Grant from those that are left, or raises their number by the
    fragments that are pushed at the peer. -/
theorem GrantsLeft.step {result : Option ExchangeResult} (h : s.GrantsLeft n) (hs : s.Synced) (hlossless : Lossless e)
    (hstep : s.exchangeStep e = some (t, result)) :
    ∃ n', t.GrantsLeft n' ∧ ((∀ tx ∈ s.sentFrame e, tx.type = .grant) →
      n' + (if e.isSend then 1 else 0) ≤ n + fragmentCount (e.peerTunnel.filter isValidIpPacket)) := by
  cases e with
  | timeout => exact hlossless.elim
  | coordReads reads =>
    cases hstep
    refine ⟨n, ?_, fun _ => by simp [ExchangeEvent.isSend]⟩
    cases h with
    | atRest h => exact .atRest ⟨h.session.coordReads reads, h.phase⟩
    | requested h => exact .requested ⟨h.session.coordReads reads, h.phase, h.ack, h.arg, h.current⟩
    | replied h => exact .replied ⟨h.session.coordReads reads, h.phase, h.ack, h.current, h.behind, h.pending⟩
  | peerReads reads =>
    have ht := (Prod.mk.inj (Option.some.inj hstep)).1
    have hunsent : t.unsent = s.unsent + fragmentCount (reads.filter isValidIpPacket) := hs.unsent_append (ht ▸ rfl) (ht ▸ rfl)
    have hgranting : t.load.granting = s.load.granting := ht ▸ rfl
    simp only [ExchangeEvent.isSend, ExchangeEvent.peerTunnel, Bool.false_eq_true, if_false]
    cases h with
    | atRest h =>
      refine ⟨_, .atRest (by rw [← ht]; exact ⟨h.session.peerReads reads, h.phase⟩), fun _ => ?_⟩
      rw [hunsent, hgranting]
      omega
    | requested h =>
      refine ⟨_, .requested (by rw [← ht]; exact ⟨h.session.peerReads reads, h.phase, h.ack, h.arg, h.current⟩), fun _ => ?_⟩
      rw [hunsent]
      omega
    | replied h =>
      refine ⟨_, .replied (by rw [← ht]; exact ⟨h.session.peerReads reads, h.phase, h.ack, h.current, h.behind, h.pending⟩), fun _ => ?_⟩
      rw [hunsent]
      omega
  | send reads lost radioOk =>
    obtain ⟨rfl, rfl⟩ := hlossless
    have hphase := (send_spec hs.live.wf.1 hs.state hstep).1
    cases h with
    | requested h => exact absurd (h.phase.symm.trans hphase) (by simp)
    | replied h => exact absurd (h.phase.symm.trans hphase) (by simp)
    | atRest h =>
      obtain ⟨tx, ht, hle⟩ := h.unsent_send hs hstep
      exact ⟨_, .requested ht, fun hgrants => (hle hgrants).trans (Nat.le_add_right _ _)⟩
  | handle reads lost =>
    obtain rfl : lost = false := hlossless
    cases h with
    | atRest h => exact absurd hstep (by simp [Link.exchangeStep, h.session.handle_eq_none])
    | replied h => exact absurd hstep (by simp [Link.exchangeStep, h.session.handle_eq_none])
    | requested h =>
      obtain ⟨rx, ht, hle⟩ := h.unsent_handle hs hstep
      exact ⟨_, .replied ht, fun _ => hle⟩
  | receive =>
    cases h with
    | atRest h => exact absurd hstep (by simp [Link.exchangeStep, h.session.receive_eq_none])
    | requested h => exact absurd hstep (by simp [Link.exchangeStep, h.session.receive_eq_none])
    | replied h =>
      obtain ⟨ht, hle⟩ := h.unsent_receive hs hstep
      exact ⟨_, .atRest ht, fun _ => hle⟩

/-- A stretch of Grants is as long as the Grants that were left at its start and what was pushed at the
    peer since. -/
theorem GrantsLeft.run (h : s.GrantsLeft n) (hs : s.Synced) (hrun : s.GrantRun es t) :
    ∃ pushed n', t.peerPushed = s.peerPushed ++ pushed ∧ t.GrantsLeft n' ∧
      n' + es.countP ExchangeEvent.isSend ≤ n + fragmentCount pushed := by
  unfold GrantRun at hrun
  induction hrun generalizing n with
  | nil s => exact ⟨[], n, by simp, h, by simp⟩
  | @cons s u t e es hok hstep _ ih =>
    obtain ⟨⟨u, result⟩, hexchange, rfl⟩ := Option.map_eq_some_iff.mp hstep
    obtain ⟨n', hu, hle⟩ := h.step hs hok.1 hexchange
    obtain ⟨pushed, n'', hpushed, ht, hle'⟩ := ih hu (hs.exchangeStep hexchange).1
    have hle := hle hok.2
    refine ⟨e.peerTunnel.filter isValidIpPacket ++ pushed, n'', ?_, ht, ?_⟩
    · rw [hpushed, (exchangeStep_frame hexchange).peerPushed, List.append_assoc]
    · have happend : fragmentCount (e.peerTunnel.filter isValidIpPacket ++ pushed) =
          fragmentCount (e.peerTunnel.filter isValidIpPacket) + fragmentCount pushed := Transfer.fragments_append _ _
      rw [happend, List.countP_cons]
      omega

theorem LosslessRun.grantsLeft (hrun : s.LosslessRun es t) (hs : s.Synced) (h : s.GrantsLeft n) :
    t.Synced ∧ ∃ n', t.GrantsLeft n' :=
  Machine.Run.invariant (P := fun u => u.Synced ∧ ∃ n', u.GrantsLeft n')
    (fun _ _ _ hu hlossless hstep => by
      obtain ⟨⟨u, result⟩, hexchange, rfl⟩ := Option.map_eq_some_iff.mp hstep
      obtain ⟨n', hu', -⟩ := hu.2.choose_spec.step hu.1 hlossless hexchange
      exact ⟨(hu.1.exchangeStep hexchange).1, n', hu'⟩)
    hrun ⟨hs, n, h⟩

/-- While the coordinator has data it sends Grants and DATA frames only, and a stretch of Grants is at
    most one longer than the peer has fragments at its start or gets in the meantime. -/
theorem grants_bounded {coord : PrimaryRadioInterface} {peer : SecondaryRadioInterface}
    (hcoord : ∀ packet ∈ coord.tx.readBuffer, packet ≠ []) (hpeer : ∀ packet ∈ peer.tx.readBuffer, packet ≠ [])
    (hrun : (afterReset coord peer).LosslessRun es s) :
    (∀ e, ∀ tx ∈ s.sentFrame e, s.coord.tx.localHasData = true → tx.type = .grant ∨ tx.type = .data) ∧
      ∀ fs t, s.GrantRun fs t → ∃ pushed, t.peerPushed = s.peerPushed ++ pushed ∧
        fs.countP ExchangeEvent.isSend ≤ fragmentCount s.peer.tx.readBuffer + fragmentCount pushed + 1 := by
  have hstart : (afterReset coord peer).AtRest := ⟨⟨.nil, .nil, Pair.start _ _, by simp, by simp⟩, rfl⟩
  obtain ⟨hs, n, hleft⟩ := hrun.grantsLeft (synced_afterReset hcoord hpeer) (.atRest hstart)
  refine ⟨fun e tx hsent hdata => ?_, fun fs t hgrants => ?_⟩
  · cases e with
    | send reads lost radioOk =>
      obtain ⟨frame, hframe, htype⟩ := hs.sentFrame_type reads lost radioOk
      obtain rfl : frame = tx := Option.some.inj (hframe.symm.trans hsent)
      rw [htype, hs.nextFrameType]
      split
      · exact Or.inl rfl
      · rw [if_pos (hs.localHasData.mp hdata)]
        exact Or.inr rfl
    | _ => cases hsent
  · obtain ⟨pushed, n', hpushed, -, hle⟩ := hleft.run hs hgrants
    have := hleft.le
    exact ⟨pushed, hpushed, by omega⟩

/-- Two packets at the coordinator and five at the peer. -/
def busyLink : Link :=
  afterReset { currentPollIntervalUs := 0, tx := { readBuffer := [ipv4Packet 1 [], ipv4Packet 2 []] } }
    { tx := { readBuffer := [3, 4, 5, 6, 7].map fun tag => ipv4Packet tag [] } }

def exchange : List ExchangeEvent := [.send [] false true, .handle [] false, .receive]

/-- After its first DATA frame the coordinator grants four times, although it has another packet. -/
theorem grants_exceed_burst :
    ¬ ∀ s fs t, busyLink.LosslessRun exchange s →
      Machine.Run sessionStep (fun s e => s.GrantsOnly e ∧ s.coord.tx.localHasData = true) s fs t →
      fs.countP ExchangeEvent.isSend ≤ kDefaultBurstGrant.toNat := by
  intro h
  have hexec : ((Machine.exec sessionStep (fun _ e => Lossless e) busyLink exchange).bind fun s =>
      Machine.exec sessionStep (fun s e => s.GrantsOnly e ∧ s.coord.tx.localHasData = true) s
        (exchange ++ exchange ++ exchange ++ exchange)).isSome = true := by decide +kernel
  obtain ⟨t, ht⟩ := Option.isSome_iff_exists.mp hexec
  obtain ⟨s, hs, ht⟩ := Option.bind_eq_some_iff.mp ht
  exact absurd (h s _ t (.of_exec hs) (.of_exec ht)) (by decide)

/-- The five fragments of the peer allow six Grants. -/
theorem grants_bounded_busy :
    ∃ s, busyLink.LosslessRun exchange s ∧ fragmentCount s.peer.tx.readBuffer = 5 ∧
      ∀ fs t, s.GrantRun fs t → t.peerPushed = s.peerPushed → fs.countP ExchangeEvent.isSend ≤ 6 := by
  have hexec : (Machine.exec sessionStep (fun _ e => Lossless e) busyLink exchange).map
      (fun s => fragmentCount s.peer.tx.readBuffer) = some 5 := by decide +kernel
  obtain ⟨s, hs, hcount⟩ := Option.map_eq_some_iff.mp hexec
  refine ⟨s, .of_exec hs, hcount, fun fs t hgrants hsame => ?_⟩
  obtain ⟨pushed, hpushed, hle⟩ := (grants_bounded (by decide +kernel) (by decide +kernel) (.of_exec hs)).2 fs t hgrants
  obtain rfl : pushed = [] := by
    rw [hsame] at hpushed
    exact List.self_eq_append_right.mp hpushed
  rw [hcount] at hle
  exact hle

end Link
end Nerfnet
