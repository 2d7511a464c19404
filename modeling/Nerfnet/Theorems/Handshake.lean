import Nerfnet.Theorems.Steps

/-! # The reset handshake

When each reply is read in its own exchange or lost, coordinator and peer are either in one session or
between two (`Resetting`): then the coordinator's state is cleared, nothing but one Reset or its
answer is on its way, and the answer comes from a peer whose state is cleared. So a reset that
succeeds starts a session on both sides (`Synchronised`), whatever state the peer was in. -/

namespace Nerfnet

/-- Nothing of a session is left in the state under the lock. -/
def RadioInterface.Cleared (r : RadioInterface) : Prop := r.resetLocked = r

section
variable {a b r : RadioInterface}

theorem RadioInterface.cleared_resetLocked (r : RadioInterface) : r.resetLocked.Cleared := rfl

theorem RadioInterface.Cleared.tunnelThread (h : r.Cleared) (reads : List Bytes) : (r.tunnelThread reads).Cleared := by
  have hcomm : (r.tunnelThread reads).resetLocked = r.resetLocked.tunnelThread reads := rfl
  rw [RadioInterface.Cleared, hcomm, h]

theorem Pair.of_cleared (ha : a.Cleared) (hb : b.Cleared) : Pair a b [] [] := by
  have h := Pair.start a b
  rwa [ha, hb] at h

end

namespace Link
variable {s t : Link} {e : Event} {es : List Event}

structure Resetting (s : Link) : Prop where
  required : s.coord.connectionResetRequired = true
  phase : ∀ tx, s.phase ≠ .exchange tx
  coord : s.coord.toRadioInterface.Cleared
  toPeer : ∀ packet ∈ s.toPeer, decodeMacFrame packet.packet = some resetFrame
  toCoord : ∀ packet ∈ s.toCoord, decodeMacFrame packet.packet = some resetFrame
  single : s.toPeer.length + s.toCoord.length ≤ 1
  peer : s.toCoord ≠ [] → s.peer.toRadioInterface.Cleared

/-- Packets were pushed, and nothing else happened to the packets of a direction. -/
structure Queued (pushed queue written pushed' queue' written' : List Bytes) : Prop where
  packets : ∃ packets, (∀ packet ∈ packets, isValidIpPacket packet = true) ∧ pushed' = pushed ++ packets ∧
    queue' = queue ++ packets
  written : written' = written

theorem Queued.refl (pushed queue written : List Bytes) : Queued pushed queue written pushed queue written :=
  ⟨⟨[], nofun, by simp, by simp⟩, rfl⟩

theorem Queued.filter (pushed queue written reads : List Bytes) :
    Queued pushed queue written (pushed ++ reads.filter isValidIpPacket) (queue ++ reads.filter isValidIpPacket) written :=
  ⟨⟨_, fun _ hp => (List.mem_filter.mp hp).2, rfl, rfl⟩, rfl⟩

/-- What happens to the packets between two sessions. -/
structure Paused (s t : Link) : Prop where
  coord : Queued s.coordPushed s.coord.tx.readBuffer s.peer.rx.tunnel t.coordPushed t.coord.tx.readBuffer t.peer.rx.tunnel
  peer : Queued s.peerPushed s.peer.tx.readBuffer s.coord.rx.tunnel t.peerPushed t.peer.tx.readBuffer t.coord.rx.tunnel

/-- A `ConnectionReset` call leaves nothing of a session but the queue and the tunnel. -/
theorem resetSend_resetting {nowUs laterUs flushed : Nat} {lost radioOk : Bool} (hready : s.coord.Ready)
    (hempty : s.toPeer = [] ∧ s.toCoord = []) (h : s.resetSend nowUs laterUs flushed lost radioOk = some t) :
    t.Resetting ∧ s.Paused t := by
  obtain ⟨hphase, haction, request, hdecode, rfl⟩ := resetSend_spec h
  have hrequired := PrimaryRadioInterface.loopAction_reset hready haction
  have hradio : s.coord.setPollInterval.beginConnectionReset.toRadioInterface = s.coord.resetLocked :=
    congrArg RadioInterface.resetLocked s.coord.setPollInterval_toRadioInterface
  have hcoord : (if radioOk then s.coord.setPollInterval.beginConnectionReset
      else s.coord.setPollInterval.beginConnectionReset.resetFailed laterUs).toRadioInterface = s.coord.resetLocked := by
    split
    · exact hradio
    · rw [PrimaryRadioInterface.resetFailed_toRadioInterface, hradio]
  refine ⟨⟨?_, ?_, ?_, ?_, ?_, ?_, ?_⟩, ?_, ?_⟩
  · dsimp only
    split
    · exact hrequired
    · exact PrimaryRadioInterface.resetFailed_required hrequired laterUs
  · intro tx
    dsimp only
    split <;> simp
  · rw [hcoord]
    exact RadioInterface.cleared_resetLocked _
  · intro packet hp
    simp only [hempty.1, List.nil_append] at hp
    split at hp
    · cases hp
    · rw [List.mem_singleton.mp hp]
      exact hdecode
  · simp [hempty.2]
  · simp only [hempty.1, hempty.2]
    split <;> simp
  · simp [hempty.2]
  · rw [hcoord]
    exact .refl ..
  · rw [hcoord]
    exact .refl ..

theorem exists_handleReset (s : SecondaryRadioInterface) :
    ∃ reply, s.handleReset = ({ s with toRadioInterface := s.resetLocked, grantedToSend := false, grantBudget := 0 }, some reply) ∧
      decodeMacFrame reply = some resetFrame := by
  obtain ⟨reply, hencode, hdecode⟩ := exists_encode_resetFrame
  exact ⟨reply, by rw [SecondaryRadioInterface.handleReset, hencode], hdecode⟩

/-- The peer handles the Reset, or packets are pushed. -/
theorem Resetting.exchangeStep {x : ExchangeEvent} {result : Option ExchangeResult} (h : s.Resetting) (hsend : x.isSend = false)
    (hstep : s.exchangeStep x = some (t, result)) : t.Resetting ∧ s.Paused t ∧ result = none := by
  cases x with
  | coordReads reads =>
    cases hstep
    exact ⟨⟨h.required, h.phase, h.coord.tunnelThread reads, h.toPeer, h.toCoord, h.single, h.peer⟩,
      ⟨.filter .., .refl ..⟩, rfl⟩
  | peerReads reads =>
    cases hstep
    exact ⟨⟨h.required, h.phase, h.coord, h.toPeer, h.toCoord, h.single, fun hne => (h.peer hne).tunnelThread reads⟩,
      ⟨.refl .., .filter ..⟩, rfl⟩
  | send reads lost radioOk => cases hsend
  | receive =>
    obtain ⟨tx, _, _, hphase, -⟩ := receive_cases hstep
    exact absurd hphase (h.phase tx)
  | timeout =>
    obtain ⟨tx, hphase, -⟩ := timeout_cases hstep
    exact absurd hphase (h.phase tx)
  | handle reads lost =>
    obtain ⟨request, toPeer, peerCall, hpeer, -, rfl, rfl⟩ := handle_cases hstep
    have hdecode := h.toPeer request (by simp [hpeer])
    have hsingle := h.single
    rw [hpeer, List.length_cons] at hsingle
    have hcoord : s.toCoord = [] := List.eq_nil_of_length_eq_zero (by omega)
    have hrest : toPeer = [] := List.eq_nil_of_length_eq_zero (by omega)
    obtain ⟨reply, hreset, hreply⟩ := exists_handleReset s.peer
    have hhandle : s.peer.handleRequest request.packet reads =
        ({ toRadioInterface := s.peer.resetLocked.tunnelThread reads, grantedToSend := false, grantBudget := 0 }, some reply) := by
      simp only [SecondaryRadioInterface.handleRequest, hdecode, hreset]
      rfl
    rw [hhandle, hcoord, hrest]
    refine ⟨⟨h.required, h.phase, h.coord, by simp, ?_, ?_, fun _ => (RadioInterface.cleared_resetLocked _).tunnelThread reads⟩,
      ⟨.refl .., .filter ..⟩, rfl⟩
    · intro packet hp
      rw [List.nil_append] at hp
      split at hp
      · cases hp
      · rw [List.mem_singleton.mp hp]
        exact hreply
    · cases lost <;> simp

/-- Both sides and everything on its way are in one session. -/
structure InSession (s : Link) : Prop where
  live : s.Live
  phase : s.phase ≠ .reset

theorem enter_of_not_send {nowUs : Nat} {x : ExchangeEvent} (h : x.isSend = false) : s.enter nowUs x = some s := by
  cases x with
  | send reads lost radioOk => cases h
  | _ => rfl

/-- The peer's answer to the Reset starts a session with both buffers empty. -/
theorem Resetting.resetReceive {nowUs flushed : Nat} (h : s.Resetting) (hstep : s.resetReceive nowUs flushed = some t) :
    completesReset s (.resetReceive nowUs flushed) = true ∧ t.coord.Ready ∧ t.InSession ∧
      t.coordView = s.coordView.reset ∧ t.peerView = s.peerView.reset := by
  obtain ⟨hphase, reply, toCoord, hcoord, ht⟩ := resetReceive_spec hstep
  have hdecode := h.toCoord reply (by simp [hcoord])
  have hconfirm : PrimaryRadioInterface.confirmsReset reply.packet = true := by
    simp [PrimaryRadioInterface.confirmsReset, hdecode, resetFrame]
  have hpeer := h.peer (by simp [hcoord])
  have hsingle := h.single
  rw [hcoord, List.length_cons] at hsingle
  have htoPeer : s.toPeer = [] := List.eq_nil_of_length_eq_zero (by omega)
  have hrest : toCoord = [] := List.eq_nil_of_length_eq_zero (by omega)
  rw [if_pos hconfirm, hrest, List.drop_nil] at ht
  have hcoordCleared : s.coord.resetSucceeded.toRadioInterface.Cleared := h.coord
  have hview : ∀ {pushed : List Bytes} {a b : RadioInterface}, a.Cleared → b.Cleared →
      view pushed a.tx b.rx = (view pushed a.tx b.rx).reset := fun {pushed a b} ha hb => by
    rw [← ha, ← hb]
    rfl
  refine ⟨by simp [completesReset, hphase, hcoord, hconfirm], ?_⟩
  rw [ht]
  exact ⟨s.coord.resetSucceeded_ready,
    ⟨⟨[], [], by rw [htoPeer]; exact .nil, .nil, Pair.of_cleared hcoordCleared hpeer, by simp, by simp⟩, by simp⟩,
    hview h.coord hpeer, hview hpeer h.coord⟩

/-- Between two sessions: a step either stays there, or it completes the reset and starts a session
    with both buffers empty. -/
theorem Resetting.step (h : s.Resetting) (hown : OwnExchange s e) (hstep : s.step e = some t) :
    (t.Resetting ∧ s.Paused t) ∨ (completesReset s e = true ∧ t.coord.Ready ∧ t.InSession ∧
      t.coordView = s.coordView.reset ∧ t.peerView = s.peerView.reset) := by
  cases e with
  | exchange nowUs x =>
    left
    obtain ⟨s', u, result, henter, hexchange, rfl⟩ := step_exchange hstep
    have hsend : x.isSend = false := by
      by_contra hsend
      have := (enter_spec henter).2.2 (by simpa using hsend)
      rw [h.required] at this
      cases this
    rw [enter_of_not_send hsend] at henter
    cases henter
    obtain ⟨hresetting, hpaused, rfl⟩ := h.exchangeStep hsend hexchange
    exact ⟨hresetting, hpaused⟩
  | resetSend nowUs laterUs flushed lost radioOk =>
    exact Or.inl (resetSend_resetting (.of_required h.required) hown hstep)
  | resetTimeout nowUs =>
    left
    obtain ⟨-, rfl⟩ := resetTimeout_spec hstep
    have hradio := s.coord.resetFailed_toRadioInterface nowUs
    refine ⟨⟨PrimaryRadioInterface.resetFailed_required h.required nowUs, by simp, ?_, h.toPeer, h.toCoord, h.single, h.peer⟩, ?_, ?_⟩
    · rw [hradio]
      exact h.coord
    · rw [hradio]
      exact .refl ..
    · rw [hradio]
      exact .refl ..
  | resetReceive nowUs flushed => exact Or.inr (h.resetReceive hstep)

theorem InSession.step (h : s.InSession) (hready : s.coord.Ready) (hown : OwnExchange s e) (hstep : s.step e = some t) :
    (t.Resetting ∧ s.Paused t) ∨ (t.coord.Ready ∧ t.InSession ∧ (s.NonemptyPackets → s.Moved t)) := by
  cases e with
  | exchange nowUs x =>
    obtain ⟨hlive, hphase, hmoved⟩ := h.live.step_exchange hready hstep
    exact Or.inr ⟨step_exchange_ready hready hstep, ⟨hlive, hphase h.phase⟩, hmoved⟩
  | resetSend nowUs laterUs flushed lost radioOk =>
    exact Or.inl (resetSend_resetting hready hown hstep)
  | resetReceive nowUs flushed => exact absurd (resetReceive_spec hstep).1 h.phase
  | resetTimeout nowUs => exact absurd (resetTimeout_spec hstep).1 h.phase

/-! ### Runs -/

/-- In one session, or between two. -/
def Synchronised (s : Link) : Prop := s.coord.Ready ∧ s.InSession ∨ s.Resetting

theorem synchronised_initial (pollIntervalUs : Nat) (peer : SecondaryRadioInterface) :
    (initial pollIntervalUs peer).Resetting where
  required := rfl
  phase := nofun
  coord := rfl
  toPeer := nofun
  toCoord := nofun
  single := Nat.zero_le 1
  peer h := absurd rfl h

theorem Synchronised.step (h : s.Synchronised) (hown : OwnExchange s e) (hstep : s.step e = some t) : t.Synchronised := by
  rcases h with ⟨hready, hsession⟩ | hresetting
  · rcases hsession.step hready hown hstep with ⟨ht, -⟩ | ⟨hready', ht, -⟩
    · exact Or.inr ht
    · exact Or.inl ⟨hready', ht⟩
  · rcases hresetting.step hown hstep with ⟨ht, -⟩ | ⟨-, hready', ht, -⟩
    · exact Or.inr ht
    · exact Or.inl ⟨hready', ht⟩

/-- A run of the link in which each reply is read in its own exchange or lost. -/
def OwnRun (s : Link) (es : List Event) (t : Link) : Prop := Machine.Run Link.step OwnExchange s es t

theorem OwnRun.synchronised {pollIntervalUs : Nat} {peer : SecondaryRadioInterface}
    (hrun : (initial pollIntervalUs peer).OwnRun es s) : s.Synchronised :=
  Machine.Run.invariant (fun _ _ _ h hown hstep => h.step hown hstep) hrun (Or.inr (synchronised_initial _ _))

end Link

/-! ### The sequence numbers -/

/-- The receiver expects the sequence number that the sender will use next; or it has accepted it
    already, and the fragment is still in flight. -/
def SeqsAgree (tx : TxState) (rx : RxState) : Prop :=
  match rx.lastRxSeq with
  | none => tx.nextTxSeq = 1
  | some last => (tx.nextTxSeq = last ∧ tx.txInFlight = true) ∨ tx.nextTxSeq = nextSeq last

theorem Direction.seqsAgree {tx : TxState} {rx : RxState} {forth back : List MacFrame} (h : Direction tx rx forth back) :
    SeqsAgree tx rx := by
  obtain ⟨acked, accepted, data, acks, hn⟩ := h
  have hlower := hn.ring.lower
  have hupper := hn.ring.upper
  by_cases h0 : accepted = 0
  · have hacked : acked = 0 := by omega
    simp only [SeqsAgree, hn.last, hn.next, h0, hacked, if_true]
    rfl
  · simp only [SeqsAgree, hn.last, hn.next, h0, if_false]
    by_cases heq : accepted = acked
    · exact Or.inr (by rw [heq, nextSeq_seqLabel])
    · have heq : accepted = acked + 1 := by omega
      exact Or.inl ⟨by rw [heq], hn.ring.ahead heq⟩

/-- If the packet that arrives next is a DATA frame, it is consumed. -/
def NextConsumed (rx : RxState) (packets : List InFlight) : Prop :=
  ∀ packet rest frame, packets = packet :: rest → decodeMacFrame packet.packet = some frame → frame.type = .data →
    (rx.consumeDataFrameLocked frame).2 = true

theorem Direction.nextConsumed {tx : TxState} {rx : RxState} {forth back : List MacFrame} {packets : List InFlight}
    (h : Direction tx rx forth back) (hdecodes : Link.Decodes packets forth) : NextConsumed rx packets := by
  rintro packet rest frame rfl hdecode htype
  obtain - | ⟨hhead, -⟩ := hdecodes
  rw [hdecode, Option.some.injEq] at hhead
  subst hhead
  obtain ⟨rx', hconsume, -⟩ := h.consume htype
  rw [hconsume]

namespace Link
variable {s : Link} {es : List Event}

/-- Between two sessions there is no DATA frame on its way. -/
theorem nextConsumed_of_reset {rx : RxState} {packets : List InFlight}
    (h : ∀ packet ∈ packets, decodeMacFrame packet.packet = some resetFrame) : NextConsumed rx packets := by
  rintro packet rest frame rfl hdecode htype
  rw [h packet List.mem_cons_self, Option.some.injEq] at hdecode
  rw [← hdecode] at htype
  cases htype

/-- Whatever state the peer starts in: while no reset is required both sequence spaces agree, and no
    DATA frame is ever rejected. -/
theorem sequences_agree {pollIntervalUs : Nat} {peer : SecondaryRadioInterface}
    (hrun : (initial pollIntervalUs peer).OwnRun es s) :
    (s.coord.connectionResetRequired = false → SeqsAgree s.coord.tx s.peer.rx ∧ SeqsAgree s.peer.tx s.coord.rx) ∧
      NextConsumed s.peer.rx s.toPeer ∧ NextConsumed s.coord.rx s.toCoord := by
  rcases hrun.synchronised with ⟨-, ⟨requests, replies, hs⟩, -⟩ | hresetting
  · exact ⟨fun _ => ⟨hs.pair.forth.seqsAgree, hs.pair.back.seqsAgree⟩, hs.pair.forth.nextConsumed hs.toPeer,
      hs.pair.back.nextConsumed hs.toCoord⟩
  · refine ⟨fun h => ?_, nextConsumed_of_reset hresetting.toPeer, nextConsumed_of_reset hresetting.toCoord⟩
    rw [hresetting.required] at h
    cases h

/-- A peer in the middle of another session, whose first answer to a Reset is lost. -/
def strayPeer : SecondaryRadioInterface where
  tx := { readBuffer := [[1, 2]], nextTxSeq := 9, txInFlight := true, txInflightSeq := 9, txInflightBytesLeft := 2, txInflightPayload := [1, 2] }
  rx := { frameBuffer := [3], lastRxSeq := some 30 }
  grantBudget := 2
  grantedToSend := true

def secondReset : List Event :=
  [.resetSend 0 0 0 false true, .exchange 0 (.handle [] true), .resetTimeout 1, .resetSend 2 2 0 false true,
    .exchange 2 (.handle [] false), .resetReceive 3 0, .exchange 4 (.send [] false true), .exchange 4 (.handle [] false),
    .exchange 5 .receive, .exchange 6 (.send [] false true), .exchange 6 (.handle [] false)]

theorem sequences_agree_stray_peer :
    ∃ s, (initial 100 strayPeer).OwnRun secondReset s ∧ s.peer.tx.txInFlight = true ∧
      SeqsAgree s.coord.tx s.peer.rx ∧ SeqsAgree s.peer.tx s.coord.rx := by
  have hexec : (Machine.exec step OwnExchange (initial 100 strayPeer) secondReset).map
      (fun s => (s.coord.connectionResetRequired, s.peer.tx.txInFlight)) = some (false, true) := by decide +kernel
  obtain ⟨s, hs, hstate⟩ := Option.map_eq_some_iff.mp hexec
  obtain ⟨hrequired, hflight⟩ := Prod.mk.inj hstate
  exact ⟨s, .of_exec hs, hflight, (sequences_agree (.of_exec hs)).1 hrequired⟩

end Link
end Nerfnet
