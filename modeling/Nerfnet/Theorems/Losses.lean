import Nerfnet.Theorems.Quiescence

/-! # Exchanges with losses

Where each reply is read in its own exchange or lost, at most one frame of a session is on its way. A
lost frame costs the exchange it belongs to and nothing else: what is left to do is counted by the
exchanges that get their reply. -/

namespace Nerfnet

/-- The exchange gets its reply. -/
def ExchangeEvent.isReceive : ExchangeEvent → Bool
  | .receive => true
  | _ => false

/-- `TunnelThread` pushes nothing in the event. -/
def ExchangeEvent.Quiet (e : ExchangeEvent) : Prop :=
  e.coordTunnel.filter isValidIpPacket = [] ∧ e.peerTunnel.filter isValidIpPacket = []

instance (e : ExchangeEvent) : Decidable e.Quiet := inferInstanceAs (Decidable (_ ∧ _))

theorem TxState.tunnelThread_of_quiet (tx : TxState) {reads : List Bytes} (h : reads.filter isValidIpPacket = []) :
    tx.tunnelThread reads = tx := by
  simp only [TxState.tunnelThread, h, List.append_nil]

namespace Link
variable {s t : Link} {result : Option ExchangeResult} {reads : List Bytes} {lost radioOk : Bool} {tx rx : MacFrame}
  {e : ExchangeEvent} {es fs : List ExchangeEvent} {n : ℕ}

/-- A request is on its way, as the coordinator composes it in its present state. The coordinator may
    have given it up. -/
structure Asked (s : Link) (tx : MacFrame) : Prop where
  session : s.Session [tx] []
  ack : tx.ack = s.coord.rx.ackSeq
  arg : tx.type = .grant → tx.arg = kDefaultBurstGrant
  current : tx.type = .data → s.coord.tx.txInFlight = true ∧ tx.seq = s.coord.tx.txInflightSeq
  grant : tx.type = .grant ↔ s.coord.state ≠ .idle

/-- A reply is on its way, and `queue` is what the peer had to send when it composed it. -/
structure Answered (s : Link) (queue : List Bytes) (rx : MacFrame) : Prop where
  session : s.Session [] [rx]
  ack : rx.ack = s.peer.rx.ackSeq
  current : rx.type = .data → s.peer.tx.txInFlight = true ∧ rx.seq = s.peer.tx.txInflightSeq
  behind : s.peerAhead = false
  queued : queue <+: s.peer.tx.readBuffer
  type : rx.type = if queue = [] then .ack else if s.coord.state ≠ .idle then .data else .pending
  pending : rx.pending = if queue = [] then 0 else 1

/-! ### What an event does to the one frame -/

theorem Session.send_asked (h : s.Session [] []) (hs : s.Synced) (hstep : s.send reads lost radioOk = some (t, result)) :
    (t.Session [] [] ∨ ∃ tx, t.Asked tx ∧ tx.type = s.coord.nextFrameType) ∧ t.coord.state = s.coord.state ∧
      t.coord.tx.readBuffer = s.coord.tx.readBuffer ++ reads.filter isValidIpPacket ∧ t.coordAhead = s.coordAhead ∧
      t.peer = s.peer ∧ t.peerAhead = s.peerAhead := by
  obtain ⟨r, wasData, tx, request, hcompose, htype, harg, rfl, -, ht⟩ := h.send_spec hs.state hstep
  have hahead := ((h.pair.tunnelThread reads).forth.compose hcompose).2.2
  refine ⟨?_, rfl, hcompose.readBuffer, hahead, rfl, ?_⟩
  · cases lost with
    | true => exact Or.inl ht
    | false =>
      have hgrant := hs.sends_grant htype
      simp only [load, decide_eq_decide] at hgrant
      exact Or.inr ⟨tx, ⟨ht, by rw [hcompose.ack, ← hcompose.rx], harg, hcompose.current, hgrant⟩, htype⟩
  · simp only [peerAhead, hcompose.rx]
    rfl

/-- The peer retires its fragment if the request acknowledges it, whatever becomes of its reply. -/
theorem Asked.handle (h : s.Asked tx) (hstep : s.handle reads lost = some (t, result)) :
    (t.Session [] [] ∨ ∃ rx, t.Answered (confirmed s.peer.tx.readBuffer s.peerAhead) rx) ∧ t.coord = s.coord ∧
      t.peer.tx.readBuffer = confirmed s.peer.tx.readBuffer s.peerAhead ++ reads.filter isValidIpPacket ∧
      t.peerAhead = false ∧ t.coordAhead = (decide (tx.type = .data) || s.coordAhead) := by
  obtain ⟨request, toPeer, frame, requests, r, r', b, g, rx, reply, -, hframe, habsorb, hcompose, htype, hpending, -, rfl, -, ht⟩ :=
    h.session.handle_spec hstep
  obtain ⟨rfl, rfl⟩ := List.cons.inj hframe
  have hpair := (h.session.pair.symm.absorb habsorb).2
  obtain ⟨hqueue, hbehind⟩ := h.session.pair.symm.absorb_ack habsorb h.ack
  have hqueue : r.tx.readBuffer = confirmed s.peer.tx.readBuffer s.peerAhead := hqueue
  have hcoord : ahead s.coord.tx r.rx = (decide (tx.type = .data) || s.coordAhead) :=
    h.session.pair.symm.absorb_data habsorb h.current
  have hbehind' : ahead r'.tx s.coord.rx = false := ((hpair.tunnelThread reads).forth.compose hcompose).2.2.trans hbehind
  have hreadBuffer : r'.tx.readBuffer = confirmed s.peer.tx.readBuffer s.peerAhead ++ reads.filter isValidIpPacket := by
    rw [hcompose.readBuffer, ← hqueue]
    rfl
  refine ⟨?_, rfl, hreadBuffer, hbehind', ?_⟩
  · cases lost with
    | true => exact Or.inl ht
    | false =>
      refine Or.inr ⟨rx, ht, by rw [hcompose.ack, ← hcompose.rx], hcompose.current, hbehind', ⟨_, hreadBuffer.symm⟩, ?_, ?_⟩
      · rw [htype, SecondaryRadioInterface.granted_nextReplyType hpair.forth.wf fun hgrant => by rw [h.arg hgrant]; decide, hqueue]
        simp only [h.grant]
      · simp only [hpending, hpair.forth.wf.localHasData, hqueue, ite_not, ne_eq]
  · simp only [coordAhead, hcompose.rx]
    exact hcoord

/-- The coordinator retires its fragment if the reply acknowledges it, and grants if the peer had
    something to send. -/
theorem Answered.receive {queue : List Bytes} (h : s.Answered queue rx) (hstep : s.receive = some (t, result)) :
    t.Session [] [] ∧ result = some .success ∧ (t.coord.state ≠ .idle ↔ queue ≠ []) ∧
      t.coord.tx.readBuffer = confirmed s.coord.tx.readBuffer s.coordAhead ∧ t.coordAhead = false ∧
      t.peer = s.peer ∧ t.peerAhead = decide (s.coord.state ≠ .idle ∧ queue ≠ []) := by
  obtain ⟨tx', reply, toCoord, frame, replies, r, -, -, hframe, -, habsorb, rfl, rfl, ht⟩ := h.session.receive_spec hstep
  obtain ⟨rfl, rfl⟩ := List.cons.inj hframe
  obtain ⟨hqueue, hbehind⟩ := h.session.pair.absorb_ack habsorb h.ack
  have hpeer := h.session.pair.absorb_data habsorb h.current
  have hpeerBehind : ahead s.peer.tx s.coord.rx = false := h.behind
  rw [hpeerBehind, Bool.or_false] at hpeer
  have htype := h.type
  have hpending := h.pending
  refine ⟨ht, rfl, ?_, hqueue, hbehind, rfl, ?_⟩
  · have hne : rx.type = .pending → rx.pending ≠ 0 := fun hp => by
      by_cases hq : queue = []
      · rw [htype, if_pos hq] at hp
        cases hp
      · rw [hpending, if_neg hq]
        decide
    refine not_congr ((PrimaryRadioInterface.replyState_idle_iff hne).trans ?_)
    by_cases hq : queue = [] <;> simp [hpending, hq]
  · refine hpeer.trans (decide_eq_decide.mpr ?_)
    rw [htype]
    by_cases hq : queue = [] <;> by_cases hidle : s.coord.state = .idle <;> simp [hq, hidle]

/-! ### Where each reply is read in its own exchange or lost -/

/-- The coordinator sends only when nothing is on its way. -/
def OwnSend (s : Link) (e : ExchangeEvent) : Prop := e.isSend = true → s.toPeer = [] ∧ s.toCoord = []

instance (s : Link) (e : ExchangeEvent) : Decidable (s.OwnSend e) := inferInstanceAs (Decidable (_ → _))

theorem Session.withPhase {requests replies : List MacFrame} (h : s.Session requests replies) (phase : Phase) :
    Session { s with phase } requests replies :=
  ⟨h.toPeer, h.toCoord, h.pair, h.isRequest, h.isReply⟩

theorem Session.eq_nil_of_own {requests replies : List MacFrame} (h : s.Session requests replies)
    (hempty : s.toPeer = [] ∧ s.toCoord = []) : requests = [] ∧ replies = [] := by
  have htoPeer := h.toPeer
  have htoCoord := h.toCoord
  rw [hempty.1] at htoPeer
  rw [hempty.2] at htoCoord
  cases htoPeer
  cases htoCoord
  exact ⟨rfl, rfl⟩

theorem Asked.withPhase (h : s.Asked tx) (phase : Phase) : Asked { s with phase } tx :=
  ⟨h.session.withPhase phase, h.ack, h.arg, h.current, h.grant⟩

theorem Answered.withPhase {queue : List Bytes} (h : s.Answered queue rx) (phase : Phase) :
    Answered { s with phase } queue rx :=
  ⟨h.session.withPhase phase, h.ack, h.current, h.behind, h.queued, h.type, h.pending⟩

/-! ### Draining -/

/-- A request that is handled leaves no more to do, whatever becomes of its reply. -/
theorem Load.rank_handled {l : Load} (h : l.Wf) :
    Load.rank { l with
      coordAhead := (!l.granting && 0 < l.coord) || l.coordAhead
      peer := rest l.peer l.peerAhead
      peerAhead := false } ≤ l.rank := by
  obtain ⟨granting, coord, coordAhead, peer, peerAhead⟩ := l
  have hle := rest_le peer peerAhead
  generalize hunsent : rest peer peerAhead = unsent at hle
  cases granting with
  | true => simp [rank, hunsent]
  | false =>
    by_cases hc : coord = 0
    · by_cases hu : 0 < unsent
      · simp [rank, hunsent, hc, hu]
      · simp [rank, hunsent, hc, hu]
        omega
    · simp [rank, hunsent, hc]

/-- At most one frame is on its way, and nothing has been pushed since it was composed. -/
inductive Draining (s : Link) : Prop
  | atRest : s.Session [] [] → Draining s
  | asked (tx : MacFrame) : s.Asked tx → (tx.type = .data ↔ s.coord.state = .idle ∧ s.coord.tx.readBuffer ≠ []) → Draining s
  | answered (rx : MacFrame) : s.Answered s.peer.tx.readBuffer rx →
      (s.coord.state = .idle ∧ s.coord.tx.readBuffer ≠ [] → s.coordAhead = true) → Draining s

theorem Synced.coord_pos (h : s.Synced) : 0 < s.load.coord ↔ s.coord.tx.readBuffer ≠ [] :=
  Nat.pos_iff_ne_zero.trans (not_congr (fragmentCount_eq_zero h.nonempty.coord))

theorem Synced.peer_pos (h : s.Synced) : 0 < s.load.peer ↔ s.peer.tx.readBuffer ≠ [] :=
  Nat.pos_iff_ne_zero.trans (not_congr (fragmentCount_eq_zero h.nonempty.peer))

theorem Asked.load_handle (h : s.Asked tx) (hs : s.Synced)
    (hdata : tx.type = .data ↔ s.coord.state = .idle ∧ s.coord.tx.readBuffer ≠ []) (hquiet : reads.filter isValidIpPacket = [])
    (hstep : s.handle reads lost = some (t, result)) : t.Draining ∧ t.load.rank ≤ s.load.rank := by
  obtain ⟨hframe, hcoord, hqueue, hbehind, hahead⟩ := h.handle hstep
  rw [hquiet, List.append_nil] at hqueue
  have hcount := fragmentCount_confirmed s.peerAhead hs.nonempty.peer (queue_ne_nil_of_ahead hs.live.wf.2)
  have hsends : decide (tx.type = .data) = (!s.load.granting && decide (0 < s.load.coord)) := by
    rw [Bool.eq_iff_iff, decide_eq_true_iff, hdata, ← hs.coord_pos]
    simp [load]
  constructor
  · rcases hframe with ht | ⟨rx, ht⟩
    · exact .atRest ht
    · rw [← hqueue] at ht
      refine .answered rx ht fun hidle => ?_
      rw [hcoord] at hidle
      rw [hahead, decide_eq_true (hdata.mpr hidle), Bool.true_or]
  · have hload : t.load = { s.load with
        coordAhead := (!s.load.granting && 0 < s.load.coord) || s.load.coordAhead
        peer := Load.rest s.load.peer s.load.peerAhead
        peerAhead := false } := by
      simp only [load, hcoord, hqueue, hbehind, hahead, hsends, hcount]
    rw [hload]
    exact Load.rank_handled hs.load_wf

theorem Answered.load_receive (h : s.Answered s.peer.tx.readBuffer rx) (hs : s.Synced)
    (haccepted : s.coord.state = .idle ∧ s.coord.tx.readBuffer ≠ [] → s.coordAhead = true)
    (hstep : s.receive = some (t, result)) : t.Draining ∧ t.load.rank = s.load.rank - 1 := by
  obtain ⟨ht, -, hgranting, hqueue, hahead, hpeer, hpeerAhead⟩ := h.receive hstep
  refine ⟨.atRest ht, ?_⟩
  have hcount := fragmentCount_confirmed s.coordAhead hs.nonempty.coord (queue_ne_nil_of_ahead hs.live.wf.1)
  have hbehind : s.load.peerAhead = false := h.behind
  have hdata : (s.load.coordAhead || (!s.load.granting && decide (0 < s.load.coord))) = s.load.coordAhead := by
    by_cases hd : s.coord.state = .idle ∧ s.coord.tx.readBuffer ≠ []
    · have hahead' : s.load.coordAhead = true := haccepted hd
      rw [hahead', Bool.true_or]
    · have hno : (!s.load.granting && decide (0 < s.load.coord)) = false := by
        by_cases hidle : s.coord.state = .idle
        · have hzero : ¬0 < s.load.coord := fun hpos => hd ⟨hidle, hs.coord_pos.mp hpos⟩
          simp [hzero]
        · simp [load, hidle]
      rw [hno, Bool.or_false]
  have hload : t.load = s.load.next := by
    simp only [Load.next, hbehind, Load.rest_false, hdata, hs.peer_pos]
    simp only [load, hqueue, hahead, hpeer, hpeerAhead, hcount, decide_eq_decide.mpr hgranting, Bool.decide_and]
  rw [hload, hs.load_wf.rank_next]

/-- Where nothing is pushed, no event adds to what is left to do, and an exchange that gets its reply
    takes one from it. -/
theorem Draining.step (h : s.Draining) (hs : s.Synced) (hown : s.OwnSend e) (hquiet : e.Quiet)
    (hstep : s.exchangeStep e = some (t, result)) :
    t.Draining ∧ t.load.rank ≤ s.load.rank - if e.isReceive then 1 else 0 := by
  cases e with
  | coordReads reads =>
    have hnone : reads.filter isValidIpPacket = [] := hquiet.1
    simp only [Link.exchangeStep, s.coord.tx.tunnelThread_of_quiet hnone, hnone, List.append_nil] at hstep
    cases hstep
    exact ⟨h, Nat.le_refl _⟩
  | peerReads reads =>
    have hnone : reads.filter isValidIpPacket = [] := hquiet.2
    simp only [Link.exchangeStep, s.peer.tx.tunnelThread_of_quiet hnone, hnone, List.append_nil] at hstep
    cases hstep
    exact ⟨h, Nat.le_refl _⟩
  | send reads lost radioOk =>
    have hempty := hown rfl
    have hrest : s.Session [] [] := by
      cases h with
      | atRest h => exact h
      | asked tx h => cases (h.session.eq_nil_of_own hempty).1
      | answered rx h => cases (h.session.eq_nil_of_own hempty).2
    obtain ⟨hframe, hstate, hqueue, hahead, hpeer, hpeerAhead⟩ := hrest.send_asked hs hstep
    have hnone : reads.filter isValidIpPacket = [] := hquiet.1
    rw [hnone, List.append_nil] at hqueue
    have hload : t.load = s.load := by simp only [load, hstate, hqueue, hahead, hpeer, hpeerAhead]
    refine ⟨?_, hload ▸ Nat.le_refl _⟩
    rcases hframe with ht | ⟨tx, ht, htype⟩
    · exact .atRest ht
    · refine .asked tx ht ?_
      have hdata := hs.sends_data htype
      rw [hstate, hqueue, ← hs.coord_pos]
      by_cases hidle : s.coord.state = .idle <;> simpa [load, hidle] using hdata
  | receive =>
    cases h with
    | atRest h => exact absurd hstep (by simp [Link.exchangeStep, h.receive_eq_none])
    | asked tx h => exact absurd hstep (by simp [Link.exchangeStep, h.session.receive_eq_none])
    | answered rx h haccepted =>
      obtain ⟨ht, hrank⟩ := h.load_receive hs haccepted hstep
      exact ⟨ht, Nat.le_of_eq hrank⟩
  | timeout =>
    obtain ⟨tx, -, rfl, -⟩ := timeout_cases hstep
    refine ⟨?_, Nat.le_refl _⟩
    cases h with
    | atRest h => exact .atRest (h.withPhase .top)
    | asked tx h hdata => exact .asked tx (h.withPhase .top) hdata
    | answered rx h haccepted => exact .answered rx (h.withPhase .top) haccepted
  | handle reads lost =>
    cases h with
    | atRest h => exact absurd hstep (by simp [Link.exchangeStep, h.handle_eq_none])
    | answered rx h => exact absurd hstep (by simp [Link.exchangeStep, h.session.handle_eq_none])
    | asked tx h hdata => exact h.load_handle hs hdata hquiet.2 hstep

/-- Nothing is pushed, and each reply is read in its own exchange or lost. -/
def QuietRun (s : Link) (fs : List ExchangeEvent) (t : Link) : Prop :=
  Machine.Run sessionStep (fun s e => s.OwnSend e ∧ e.Quiet) s fs t

theorem QuietRun.drains (hrun : s.QuietRun fs t) (h : s.Draining) (hs : s.Synced) :
    t.Synced ∧ s.Moved t ∧ t.coordPushed = s.coordPushed ∧ t.peerPushed = s.peerPushed ∧
      t.load.rank ≤ s.load.rank - fs.countP ExchangeEvent.isReceive := by
  have hcount := Machine.Run.countdown ExchangeEvent.isReceive
    (P := fun u n => (u.Synced ∧ s.Moved u ∧ u.coordPushed = s.coordPushed ∧ u.peerPushed = s.peerPushed) ∧ u.Draining ∧ u.load.rank ≤ n)
    (fun u e v n hu hok hstep => ?_) hrun (n := s.load.rank) ⟨⟨hs, .refl s, rfl, rfl⟩, h, Nat.le_refl _⟩
  · obtain ⟨⟨ht, hmoved, hcoord, hpeer⟩, -, hrank⟩ := hcount
    exact ⟨ht, hmoved, hcoord, hpeer, hrank⟩
  · obtain ⟨⟨v, result⟩, hexchange, rfl⟩ := Option.map_eq_some_iff.mp hstep
    obtain ⟨⟨hsynced, hmoved, hcoord, hpeer⟩, hdraining, hrank⟩ := hu
    obtain ⟨hsynced', hmoved'⟩ := hsynced.exchangeStep hexchange
    obtain ⟨hdraining', hrank'⟩ := hdraining.step hsynced hok.1 hok.2 hexchange
    have hframe := exchangeStep_frame hexchange
    refine ⟨⟨hsynced', hmoved.trans hmoved', ?_, ?_⟩, hdraining', hrank'.trans (Nat.sub_le_sub_right hrank _)⟩
    · rw [hframe.coordPushed, hok.2.1, List.append_nil, hcoord]
    · rw [hframe.peerPushed, hok.2.2, List.append_nil, hpeer]

/-- Whatever is lost in between: once as many exchanges as `reaches_quiescence` needs have got their
    reply, nothing is left to do and every packet has been written. -/
theorem drains_despite_losses {coord : PrimaryRadioInterface} {peer : SecondaryRadioInterface}
    (hcoord : ∀ packet ∈ coord.tx.readBuffer, isValidIpPacket packet = true)
    (hpeer : ∀ packet ∈ peer.tx.readBuffer, isValidIpPacket packet = true)
    (hrun : (afterReset coord peer).SessionRun es s) (hempty : s.toPeer = [] ∧ s.toCoord = []) (hquiet : s.QuietRun fs t)
    (hanswered : fragmentCount s.coord.tx.readBuffer + fragmentCount s.peer.tx.readBuffer + 2 ≤
      fs.countP ExchangeEvent.isReceive) :
    t.Quiescent ∧ t.peer.rx.tunnel = peer.rx.tunnel ++ (coord.tx.readBuffer ++ s.coordPushed) ∧
      t.coord.rx.tunnel = coord.rx.tunnel ++ (peer.tx.readBuffer ++ s.peerPushed) := by
  obtain ⟨hs, hmoved⟩ := (synced_afterReset (fun p hp => ne_nil_of_valid (hcoord p hp))
    fun p hp => ne_nil_of_valid (hpeer p hp)).sessionRun hrun
  have hrest : s.Session [] [] := by
    obtain ⟨requests, replies, hsession⟩ := hs.live
    obtain ⟨rfl, rfl⟩ := hsession.eq_nil_of_own hempty
    exact hsession
  obtain ⟨ht, hmoved', hcoordPushed, hpeerPushed, hrank⟩ := hquiet.drains (.atRest hrest) hs
  have hmoved := hmoved.trans hmoved'
  have hle : s.load.rank ≤ fragmentCount s.coord.tx.readBuffer + fragmentCount s.peer.tx.readBuffer + 2 := s.load.rank_le
  have hquiescent := ht.quiescent hmoved (by omega)
  have hdelivered := deliveredInOrder_of_moves rfl hcoord hmoved.coord
  have hdelivered' := deliveredInOrder_of_moves rfl hpeer hmoved.peer
  simp only [coordView, peerView, view, hquiescent.queues.1, hquiescent.queues.2] at hdelivered hdelivered'
  exact ⟨hquiescent, hcoordPushed ▸ hdelivered.complete, hpeerPushed ▸ hdelivered'.complete⟩

def exchangeEvents : List ExchangeEvent := [.send [] false true, .handle [] false, .receive]

/-- The events of `exchangeOnce`, one by one. -/
theorem exchangeOnce_steps {result : Option ExchangeResult} (h : s.AtRest) (hs : s.Synced)
    (honce : s.exchangeOnce = some (t, result)) :
    ∃ u v, s.exchangeStep (.send [] false true) = some (u, none) ∧ u.exchangeStep (.handle [] false) = some (v, none) ∧
      v.exchangeStep .receive = some (t, result) := by
  obtain ⟨⟨u, result₁⟩, hsend, honce⟩ := Option.bind_eq_some_iff.mp honce
  obtain ⟨⟨v, result₂⟩, hhandle, hreceive⟩ := Option.bind_eq_some_iff.mp honce
  obtain ⟨-, -, -, -, -, -, -, -, hnone, -⟩ := h.session.send_spec hs.state hsend
  obtain ⟨-, -, -, -, -, -, hnone'⟩ := handle_cases hhandle
  obtain rfl : result₁ = none := hnone
  obtain rfl : result₂ = none := hnone'
  exact ⟨u, v, hsend, hhandle, hreceive⟩

/-- A request is lost, a reply is lost, and four exchanges get their reply. -/
def lossyRounds : List ExchangeEvent :=
  [.send [] true true, .timeout, .send [] false true, .handle [] true, .timeout] ++ exchangeEvents ++ exchangeEvents ++
    exchangeEvents ++ exchangeEvents

/-- One packet on each side. -/
def twoPackets : Link :=
  afterReset { currentPollIntervalUs := 0, tx := { readBuffer := [ipv4Packet 1 []] } } { tx := { readBuffer := [ipv4Packet 2 []] } }

theorem drains_despite_losses_rounds :
    ∃ t, twoPackets.QuietRun lossyRounds t ∧ t.Quiescent ∧ t.peer.rx.tunnel = [ipv4Packet 1 []] ∧
      t.coord.rx.tunnel = [ipv4Packet 2 []] := by
  have hexec : (Machine.exec sessionStep (fun s e => s.OwnSend e ∧ e.Quiet) twoPackets lossyRounds).isSome = true := by
    decide +kernel
  obtain ⟨t, ht⟩ := Option.isSome_iff_exists.mp hexec
  have hstart : twoPackets.SessionRun [] twoPackets := .nil twoPackets
  obtain ⟨hquiescent, hpeer, hcoord⟩ := drains_despite_losses (by decide +kernel) (by decide +kernel) hstart ⟨rfl, rfl⟩ (.of_exec ht)
    (by decide +kernel)
  exact ⟨t, .of_exec ht, hquiescent, hpeer, hcoord⟩

/-! ### The peer is served first -/

/-- How many exchanges the peer needs, at most, until its `fragments` oldest fragments are retired: the
    coordinator has to learn that there are any, and the last one has to be acknowledged. -/
def serviceLeft (granting ahead : Bool) (fragments : ℕ) : ℕ :=
  if fragments = 0 then 0
  else Load.rest fragments ahead + 1 + if granting = false ∧ 0 < Load.rest fragments ahead then 1 else 0

theorem serviceLeft_le (granting ahead : Bool) (fragments : ℕ) : serviceLeft granting ahead fragments ≤ fragments + 2 := by
  have hle := Load.rest_le fragments ahead
  unfold serviceLeft
  split_ifs <;> omega

theorem serviceLeft_handled (granting ahead : Bool) (fragments : ℕ) :
    serviceLeft granting false (Load.rest fragments ahead) ≤ serviceLeft granting ahead fragments := by
  have hle := Load.rest_le fragments ahead
  by_cases hrest : Load.rest fragments ahead = 0
  · simp [serviceLeft, hrest]
  · have hne : fragments ≠ 0 := fun h0 => hrest (Nat.le_zero.mp (h0 ▸ hle))
    simp only [serviceLeft, Load.rest_false, if_neg hrest, if_neg hne]
    exact Nat.le_refl _

theorem serviceLeft_received {granting : Bool} {fragments : ℕ} (hpos : 0 < fragments) :
    serviceLeft true granting fragments = serviceLeft granting false fragments - 1 := by
  cases granting <;> simp [serviceLeft, Nat.ne_of_gt hpos, hpos]
  omega

/-- At most one frame is on its way, and a reply was composed while the queue started with `front`. -/
inductive Serving (s : Link) (front : List Bytes) : Prop
  | atRest : s.Session [] [] → Serving s front
  | asked (tx : MacFrame) : s.Asked tx → Serving s front
  | answered (queue : List Bytes) (rx : MacFrame) : s.Answered queue rx → front <+: queue → Serving s front

def serviceOf (s : Link) (front : List Bytes) : ℕ := serviceLeft s.load.granting s.peerAhead (fragmentCount front)

/-- The peer's queue is what is left of the packets to be served, and `later` ones; the first `base`
    packets pushed are not among these. -/
structure Serves (s : Link) (base : ℕ) (front later : List Bytes) : Prop where
  queue : s.peer.tx.readBuffer = front ++ later
  pushed : base + later.length ≤ s.peerPushed.length
  serving : s.Serving front

theorem confirmed_length_le (queue : List Bytes) (ahead : Bool) : (confirmed queue ahead).length ≤ queue.length := by
  cases ahead with
  | false => exact Nat.le_refl _
  | true => exact Transfer.length_dropFragment_le _ _

/-- A fragment is taken from the packets to be served as long as there are any. -/
theorem confirmed_append {front : List Bytes} (later : List Bytes) (ahead : Bool) (hne : ∀ packet ∈ front, packet ≠ []) :
    ∃ front' later', confirmed (front ++ later) ahead = front' ++ later' ∧ later'.length ≤ later.length ∧
      fragmentCount front' = Load.rest (fragmentCount front) ahead := by
  cases front with
  | nil => exact ⟨[], confirmed later ahead, rfl, confirmed_length_le later ahead, by cases ahead <;> rfl⟩
  | cons packet rest =>
    refine ⟨confirmed (packet :: rest) ahead, later, ?_, Nat.le_refl _, fragmentCount_confirmed ahead hne (by simp)⟩
    cases ahead with
    | false => rfl
    | true =>
      simp only [confirmed, if_true, List.cons_append, Transfer.dropFragment]
      split <;> rfl

/-- Whatever is pushed and lost: an exchange that gets its reply brings the service of `front` forward by
    one, and nothing sets it back. -/
theorem Serves.step {base : ℕ} {front later : List Bytes} (h : s.Serves base front later) (hs : s.Synced)
    (hown : s.OwnSend e) (hstep : s.exchangeStep e = some (t, result)) :
    ∃ front' later', t.Serves base front' later' ∧ t.serviceOf front' ≤ s.serviceOf front - if e.isReceive then 1 else 0 := by
  obtain ⟨hqueue, hpushed, hserving⟩ := h
  have hgrows := (exchangeStep_frame hstep).peerPushed
  cases e with
  | coordReads reads =>
    cases hstep
    refine ⟨front, later, ⟨hqueue, hpushed, ?_⟩, Nat.le_refl _⟩
    cases hserving with
    | atRest h => exact .atRest (h.coordReads reads)
    | asked tx h => exact .asked tx ⟨h.session.coordReads reads, h.ack, h.arg, h.current, h.grant⟩
    | answered queue rx h hfront =>
      exact .answered queue rx ⟨h.session.coordReads reads, h.ack, h.current, h.behind, h.queued, h.type, h.pending⟩ hfront
  | peerReads reads =>
    cases hstep
    refine ⟨front, later ++ reads.filter isValidIpPacket, ⟨?_, ?_, ?_⟩, Nat.le_refl _⟩
    · simp only [TxState.tunnelThread, hqueue, List.append_assoc]
    · simp only [List.length_append]
      omega
    · cases hserving with
      | atRest h => exact .atRest (h.peerReads reads)
      | asked tx h => exact .asked tx ⟨h.session.peerReads reads, h.ack, h.arg, h.current, h.grant⟩
      | answered queue rx h hfront =>
        exact .answered queue rx ⟨h.session.peerReads reads, h.ack, h.current, h.behind,
          h.queued.trans (List.prefix_append _ _), h.type, h.pending⟩ hfront
  | send reads lost radioOk =>
    have hempty := hown rfl
    have hrest : s.Session [] [] := by
      cases hserving with
      | atRest h => exact h
      | asked tx h => cases (h.session.eq_nil_of_own hempty).1
      | answered queue rx h => cases (h.session.eq_nil_of_own hempty).2
    obtain ⟨hframe, hstate, -, -, hpeer, hpeerAhead⟩ := hrest.send_asked hs hstep
    rw [show (ExchangeEvent.send reads lost radioOk).peerTunnel = [] from rfl, List.filter_nil, List.append_nil] at hgrows
    refine ⟨front, later, ⟨hpeer ▸ hqueue, hgrows ▸ hpushed, ?_⟩, ?_⟩
    · rcases hframe with ht | ⟨tx, ht, -⟩
      · exact .atRest ht
      · exact .asked tx ht
    · simp only [serviceOf, load, hstate, hpeerAhead]
      exact Nat.le_refl _
  | receive =>
    cases hserving with
    | atRest h => exact absurd hstep (by simp [Link.exchangeStep, h.receive_eq_none])
    | asked tx h => exact absurd hstep (by simp [Link.exchangeStep, h.session.receive_eq_none])
    | answered queue rx h hfront =>
      obtain ⟨ht, -, hgranting, -, -, hpeer, hpeerAhead⟩ := h.receive hstep
      rw [show ExchangeEvent.receive.peerTunnel = [] from rfl, List.filter_nil, List.append_nil] at hgrows
      refine ⟨front, later, ⟨hpeer ▸ hqueue, hgrows ▸ hpushed, .atRest ht⟩, ?_⟩
      by_cases hcount : fragmentCount front = 0
      · simp [serviceOf, serviceLeft, hcount]
      · have hne : queue ≠ [] := fun hq => by
          subst hq
          exact hcount (by rw [List.prefix_nil.mp hfront]; rfl)
        have hbehind : s.peerAhead = false := h.behind
        have hgrants : t.load.granting = true := by simpa only [load, decide_eq_true_iff] using hgranting.mpr hne
        have hahead : t.peerAhead = s.load.granting := by
          rw [hpeerAhead]
          simp [load, hne]
        simp only [serviceOf, hgrants, hahead, hbehind]
        exact Nat.le_of_eq (serviceLeft_received (Nat.pos_of_ne_zero hcount))
  | timeout =>
    obtain ⟨tx, -, rfl, -⟩ := timeout_cases hstep
    refine ⟨front, later, ⟨hqueue, hpushed, ?_⟩, Nat.le_refl _⟩
    cases hserving with
    | atRest h => exact .atRest (h.withPhase .top)
    | asked tx h => exact .asked tx (h.withPhase .top)
    | answered queue rx h hfront => exact .answered queue rx (h.withPhase .top) hfront
  | handle reads lost =>
    cases hserving with
    | atRest h => exact absurd hstep (by simp [Link.exchangeStep, h.handle_eq_none])
    | answered queue rx h => exact absurd hstep (by simp [Link.exchangeStep, h.session.handle_eq_none])
    | asked tx h =>
      obtain ⟨hframe, hcoord, hqueue', hbehind, -⟩ := h.handle hstep
      have hne : ∀ packet ∈ front, packet ≠ [] := fun packet hp => hs.nonempty.peer packet (hqueue ▸ List.mem_append_left _ hp)
      obtain ⟨front', later', happend, hlater, hcount⟩ := confirmed_append later s.peerAhead hne
      rw [hqueue, happend] at hframe hqueue'
      refine ⟨front', later' ++ reads.filter isValidIpPacket, ⟨?_, ?_, ?_⟩, ?_⟩
      · rw [hqueue', List.append_assoc]
      · rw [hgrows]
        simp only [ExchangeEvent.peerTunnel, List.length_append]
        omega
      · rcases hframe with ht | ⟨rx, ht⟩
        · exact .atRest ht
        · exact .answered _ rx ht (List.prefix_append _ _)
      · simp only [serviceOf, load, hcoord, hbehind, hcount]
        exact serviceLeft_handled _ _ _

/-- Each reply is read in its own exchange or lost; packets are pushed at any time. -/
def LossyRun (s : Link) (fs : List ExchangeEvent) (t : Link) : Prop := Machine.Run sessionStep OwnSend s fs t

theorem LossyRun.moved (hrun : s.LossyRun fs t) (hs : s.Synced) :
    t.Synced ∧ s.Moved t ∧ s.coordPushed <+: t.coordPushed ∧ s.peerPushed <+: t.peerPushed :=
  Machine.Run.invariant (P := fun u : Link => u.Synced ∧ s.Moved u ∧ s.coordPushed <+: u.coordPushed ∧ s.peerPushed <+: u.peerPushed)
    (fun u e v hu _ hstep => by
      obtain ⟨hu, hmoved, hcoord, hpeer⟩ := hu
      obtain ⟨⟨v, result⟩, hexchange, rfl⟩ := Option.map_eq_some_iff.mp hstep
      obtain ⟨hv, hmoved'⟩ := hu.exchangeStep hexchange
      have hframe := exchangeStep_frame hexchange
      exact ⟨hv, hmoved.trans hmoved', hcoord.trans ⟨_, hframe.coordPushed.symm⟩, hpeer.trans ⟨_, hframe.peerPushed.symm⟩⟩)
    hrun ⟨hs, .refl s, List.prefix_rfl, List.prefix_rfl⟩

/-- If no more is left than was pushed later, the packets queued and pushed first have been written. -/
theorem DeliveredInOrder.written_first {queued pushed total left before written : List Bytes} (hpushed : pushed <+: total)
    (hleft : pushed.length + left.length ≤ total.length) (h : DeliveredInOrder queued total left before written) :
    before ++ (queued ++ pushed) <+: written := by
  obtain ⟨more, rfl⟩ := hpushed
  obtain ⟨j, hlow, -, rfl⟩ := h
  have hj : (queued ++ pushed).length ≤ j := by
    simp only [Transfer.removed, List.length_append] at hlow hleft ⊢
    omega
  rw [← List.append_assoc queued, List.take_append, List.take_of_length_le hj]
  exact (List.prefix_append_right_inj _).mpr (List.prefix_append _ _)

/-- The peer comes first: two more exchanges with a reply than it has fragments, and everything it had
    queued is written, whatever is pushed on either side and lost in between. -/
theorem peer_served_first {coord : PrimaryRadioInterface} {peer : SecondaryRadioInterface}
    (hcoord : ∀ packet ∈ coord.tx.readBuffer, packet ≠ [])
    (hpeer : ∀ packet ∈ peer.tx.readBuffer, isValidIpPacket packet = true)
    (hrun : (afterReset coord peer).SessionRun es s) (hempty : s.toPeer = [] ∧ s.toCoord = []) (hlossy : s.LossyRun fs t)
    (hanswered : fragmentCount s.peer.tx.readBuffer + 2 ≤ fs.countP ExchangeEvent.isReceive) :
    coord.rx.tunnel ++ (peer.tx.readBuffer ++ s.peerPushed) <+: t.coord.rx.tunnel := by
  obtain ⟨hs, hmoved⟩ := (synced_afterReset hcoord fun p hp => ne_nil_of_valid (hpeer p hp)).sessionRun hrun
  have hrest : s.Session [] [] := by
    obtain ⟨requests, replies, hsession⟩ := hs.live
    obtain ⟨rfl, rfl⟩ := hsession.eq_nil_of_own hempty
    exact hsession
  have hserves : s.Serves s.peerPushed.length s.peer.tx.readBuffer [] := ⟨by simp, by simp, .atRest hrest⟩
  obtain ⟨ht, hmoved', -, hpushed⟩ := hlossy.moved hs
  obtain ⟨-, front, later, hserves', hleft⟩ := Machine.Run.countdown ExchangeEvent.isReceive
    (P := fun u n => u.Synced ∧ ∃ front later, u.Serves s.peerPushed.length front later ∧ u.serviceOf front ≤ n)
    (fun u e v n hu hown hstep => by
      obtain ⟨⟨v, result⟩, hexchange, rfl⟩ := Option.map_eq_some_iff.mp hstep
      obtain ⟨hu, front, later, hserves, hleft⟩ := hu
      obtain ⟨front', later', hserves', hleft'⟩ := hserves.step hu hown hexchange
      exact ⟨(hu.exchangeStep hexchange).1, front', later', hserves', hleft'.trans (Nat.sub_le_sub_right hleft _)⟩)
    hlossy (n := s.serviceOf s.peer.tx.readBuffer) ⟨hs, _, _, hserves, Nat.le_refl _⟩
  have hle := serviceLeft_le s.load.granting s.peerAhead (fragmentCount s.peer.tx.readBuffer)
  have hzero : t.serviceOf front = 0 := by
    unfold serviceOf at hleft ⊢
    omega
  have hfront : fragmentCount front = 0 := by
    unfold serviceOf serviceLeft at hzero
    split at hzero
    · assumption
    · omega
  have hnil : front = [] := (fragmentCount_eq_zero fun packet hp =>
    ht.nonempty.peer packet (hserves'.queue ▸ List.mem_append_left _ hp)).mp hfront
  -- What has left the queue has been written.
  refine (deliveredInOrder_of_moves rfl hpeer (hmoved.trans hmoved').peer).written_first hpushed ?_
  have hlength := hserves'.pushed
  have hqueue : t.peerView.queue = later := hserves'.queue.trans (by rw [hnil, List.nil_append])
  rw [hqueue]
  exact hlength

/-- The peer has one packet; a request is lost, and packets are pushed on both sides before each of the
    three exchanges. -/
def busyRounds : List ExchangeEvent :=
  .send [] true true :: .timeout ::
    (List.replicate 3 ([.coordReads [ipv4Packet 3 []], .peerReads [ipv4Packet 4 []]] ++ exchangeEvents)).flatten

theorem peer_served_first_busy :
    ∃ t, twoPackets.LossyRun busyRounds t ∧ [ipv4Packet 2 []] <+: t.coord.rx.tunnel := by
  have hexec : (Machine.exec sessionStep OwnSend twoPackets busyRounds).isSome = true := by decide +kernel
  obtain ⟨t, ht⟩ := Option.isSome_iff_exists.mp hexec
  have hstart : twoPackets.SessionRun [] twoPackets := .nil twoPackets
  exact ⟨t, .of_exec ht, peer_served_first (by decide +kernel) (by decide +kernel) hstart ⟨rfl, rfl⟩ (.of_exec ht) (by decide +kernel)⟩

end Link
end Nerfnet
