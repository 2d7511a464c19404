import Nerfnet.Theorems.Losses
import Nerfnet.Theorems.Projection
import Nerfnet.Theorems.Resets

/-! # Recovery

Whatever a run has left on its way and in the peer, a coordinator that must reset starts a session by its
second `ConnectionReset` call if both calls keep to the schedule of `attempt`: nothing is lost, `flush_rx`
takes every reply, and the peer handles all requests before the coordinator reads. The first call may be
given a reply to an older request, but then no older request is left. The session drains both queues. -/

namespace Nerfnet

/-! ### No packet of a queue becomes empty -/

theorem TxState.commitAckLocked_nonempty {tx : TxState} (ackSeq : UInt8) (h : ∀ packet ∈ tx.readBuffer, packet ≠ []) :
    ∀ packet ∈ (tx.commitAckLocked ackSeq).readBuffer, packet ≠ [] := by
  unfold TxState.commitAckLocked
  split
  · exact h
  · split
    · exact h
    · simp only [TxState.advanceTxSeq]
      split
      · simp
      · rename_i frame rest hqueue
        have hrest : ∀ packet ∈ rest, packet ≠ [] := fun packet hp => h packet (hqueue ▸ List.mem_cons_of_mem _ hp)
        split
        · exact hrest
        · rename_i hne
          intro packet hp
          rcases List.mem_cons.mp hp with rfl | hp
          · simpa using hne
          · exact hrest packet hp

theorem LockStep.nonempty {r r' : RadioInterface} (h : LockStep r r') (hr : ∀ packet ∈ r.tx.readBuffer, packet ≠ []) :
    ∀ packet ∈ r'.tx.readBuffer, packet ≠ [] := by
  cases h with
  | push packet hvalid =>
    intro p hp
    rcases List.mem_append.mp hp with hp | hp
    · exact hr p hp
    · exact List.mem_singleton.mp hp ▸ ne_nil_of_valid hvalid
  | build =>
    have hqueue : r.buildNextDataFrameLocked.1.tx.readBuffer = r.tx.readBuffer := by
      simp only [RadioInterface.buildNextDataFrameLocked]
      split
      · rfl
      · split <;> rfl
    rw [hqueue]
    exact hr
  | commitAck ackSeq => exact TxState.commitAckLocked_nonempty ackSeq hr
  | consume frame => exact hr
  | reset => exact hr

theorem LockSteps.nonempty {r r' : RadioInterface} (h : LockSteps r r') (hr : ∀ packet ∈ r.tx.readBuffer, packet ≠ []) :
    ∀ packet ∈ r'.tx.readBuffer, packet ≠ [] := by
  induction h with
  | refl => exact hr
  | tail _ hstep ih => exact hstep.nonempty ih

theorem PrimaryRadioInterface.prepareRequest_lockSteps (s : PrimaryRadioInterface) (reads : List Bytes) :
    LockSteps s.toRadioInterface (s.prepareRequest reads).1.toRadioInterface := by
  obtain ⟨r, wasData, frame, hchoose, hsteps, -⟩ := s.chooseCoordinatorTxFrame_eq reads
  cases frame <;> simpa only [prepareRequest, hchoose] using hsteps

theorem PrimaryRadioInterface.completeExchange_lockSteps (s : PrimaryRadioInterface) (tx : MacFrame) (response : Option Bytes) :
    LockSteps s.toRadioInterface (s.completeExchange tx response).1.toRadioInterface := by
  unfold completeExchange
  split
  · exact .refl
  · split
    · exact .refl
    · rename_i rx _
      rcases s.applyPeerResponse_spec rx with ⟨r, ok, habsorb, ⟨-, -, happly⟩ | ⟨-, happly⟩⟩ <;>
        simpa only [happly] using habsorb.lockSteps.1

namespace Link
variable {s t u : Link} {e : Event} {es : List Event} {nowUs : Nat}

/-- On either side a step of the link changes the shared fields only under the lock. -/
theorem step_lockSteps (hwf : s.peer.tx.Wf) (hstep : s.step e = some t) :
    LockSteps s.coord.toRadioInterface t.coord.toRadioInterface ∧ LockSteps s.peer.toRadioInterface t.peer.toRadioInterface := by
  constructor
  · cases e with
    | exchange nowUs x =>
      obtain ⟨s', u, result, henter, hexchange, rfl⟩ := step_exchange hstep
      rw [(settle_loopOnly u nowUs result).toRadioInterface, ← (enter_spec henter).1.toRadioInterface]
      cases x with
      | coordReads reads =>
        cases hexchange
        exact lockSteps_tunnelThread _ reads
      | peerReads reads =>
        cases hexchange
        exact .refl
      | send reads lost radioOk =>
        obtain ⟨-, sent, phase, -, rfl, -⟩ := send_cases hexchange
        exact s'.coord.prepareRequest_lockSteps reads
      | receive =>
        obtain ⟨tx, reply, toCoord, -, -, rfl, -⟩ := receive_cases hexchange
        exact s'.coord.completeExchange_lockSteps tx _
      | timeout =>
        obtain ⟨tx, -, rfl, -⟩ := timeout_cases hexchange
        exact .refl
      | handle reads lost =>
        obtain ⟨request, toPeer, peerCall, -, -, rfl, -⟩ := handle_cases hexchange
        exact .refl
    | resetSend nowUs laterUs flushed lost radioOk =>
      obtain ⟨-, -, request, -, rfl⟩ := resetSend_spec hstep
      have hreset : LockSteps s.coord.toRadioInterface s.coord.setPollInterval.beginConnectionReset.toRadioInterface := by
        have hradio : s.coord.setPollInterval.beginConnectionReset.toRadioInterface = s.coord.resetLocked :=
          congrArg RadioInterface.resetLocked s.coord.setPollInterval_toRadioInterface
        rw [hradio]
        exact .single (.reset _)
      dsimp only
      split
      · exact hreset
      · rwa [PrimaryRadioInterface.resetFailed_toRadioInterface]
    | resetReceive nowUs flushed =>
      obtain ⟨-, reply, toCoord, -, rfl⟩ := resetReceive_spec hstep
      split
      · exact .refl
      · dsimp only
        rw [PrimaryRadioInterface.resetFailed_toRadioInterface]
    | resetTimeout nowUs =>
      obtain ⟨-, rfl⟩ := resetTimeout_spec hstep
      dsimp only
      rw [PrimaryRadioInterface.resetFailed_toRadioInterface]
  · rcases step_peer hstep with ⟨reads, ht, -⟩ | ⟨request, reads, ht, -⟩
    · rw [ht]
      exact lockSteps_tunnelThread _ reads
    · rw [ht]
      exact (SecondaryRadioInterface.handleRequest_handled hwf request reads).lockSteps

theorem NonemptyPackets.step (h : s.NonemptyPackets) (hwf : s.peer.tx.Wf) (hstep : s.step e = some t) : t.NonemptyPackets := by
  obtain ⟨hcoord, hpeer⟩ := step_lockSteps hwf hstep
  exact ⟨hcoord.nonempty h.coord, hpeer.nonempty h.peer⟩

theorem Run.nonemptyPackets (hrun : s.Run es t) (hs : s.Sound) (h : s.NonemptyPackets) : t.NonemptyPackets :=
  (Machine.Run.invariant (P := fun u : Link => u.Sound ∧ u.NonemptyPackets)
    (fun _ _ _ hu _ hstep => ⟨hu.1.step hstep, hu.2.step hu.1.peer hstep⟩) hrun ⟨hs, h⟩).2

/-! ### A reset without losses -/

/-- The events of a `ConnectionReset` call in which nothing is lost: `flush_rx` takes every reply, and the
    peer has handled every request when the coordinator reads the oldest reply. -/
def attempt (s : Link) (nowUs : Nat) : List Event :=
  .resetSend nowUs nowUs s.toCoord.length false true ::
    (List.replicate (s.toPeer.length + 1) (.exchange nowUs (.handle [] false)) ++ [.resetReceive nowUs (s.toPeer.length + 1)])

/-- The peer handles its oldest request, and its reply gets through. -/
theorem step_handle {request : InFlight} {toPeer : List InFlight} (hs : s.toPeer = request :: toPeer) (nowUs : Nat) :
    ∃ u call, s.step (.exchange nowUs (.handle [] false)) = some u ∧ u.coord = s.coord ∧ u.phase = s.phase ∧
      u.toPeer = toPeer ∧ u.peer = (s.peer.handleRequest request.packet []).1 ∧
      u.toCoord = s.toCoord ++ ((s.peer.handleRequest request.packet []).2.map (⟨·, call⟩)).toList := by
  have hhandle : ∃ u, s.handle [] false = some u := by
    simp only [handle, hs]
    exact ⟨_, rfl⟩
  obtain ⟨⟨u, result⟩, hu⟩ := hhandle
  have hstep : s.step (.exchange nowUs (.handle [] false)) = some (u.settle nowUs result) := by
    simp only [step, enter, exchangeStep, Option.bind_some, hu, Option.map_some]
  obtain ⟨request', toPeer', call, htoPeer, -, rfl, rfl⟩ := handle_cases hu
  obtain ⟨rfl, rfl⟩ := List.cons.inj (hs.symm.trans htoPeer)
  exact ⟨_, call, hstep, rfl, rfl, rfl, rfl, rfl⟩

/-- The peer has answered the requests in their order, the Reset last: `earlier` are the replies to the
    other ones. -/
structure AnsweredAll (s u : Link) : Prop where
  coord : u.coord = s.coord
  phase : u.phase = s.phase
  toPeer : u.toPeer = []
  cleared : u.peer.toRadioInterface.Cleared
  toCoord : ∃ earlier answer, u.toCoord = s.toCoord ++ (earlier ++ [answer]) ∧ earlier.length < s.toPeer.length ∧
    decodeMacFrame answer.packet = some resetFrame

theorem answersAll {older : List InFlight} {reset : InFlight} (hs : s.toPeer = older ++ [reset])
    (hreset : decodeMacFrame reset.packet = some resetFrame) (nowUs : Nat) :
    ∃ u, s.Run (List.replicate (older.length + 1) (.exchange nowUs (.handle [] false))) u ∧ s.AnsweredAll u := by
  induction older generalizing s with
  | nil =>
    obtain ⟨u, call, hstep, hcoord, hphase, htoPeer, hpeer, htoCoord⟩ := step_handle hs nowUs
    obtain ⟨reply, hhandle, hreply⟩ := exists_handleReset s.peer
    have hrequest : s.peer.handleRequest reset.packet [] =
        ({ toRadioInterface := s.peer.resetLocked.tunnelThread [], grantedToSend := false, grantBudget := 0 }, some reply) := by
      simp only [SecondaryRadioInterface.handleRequest, hreset, hhandle]
      rfl
    rw [hrequest] at hpeer htoCoord
    refine ⟨u, .cons trivial hstep (.nil u), hcoord, hphase, htoPeer, ?_, [], ⟨reply, call⟩, htoCoord, ?_, hreply⟩
    · rw [hpeer]
      exact (RadioInterface.cleared_resetLocked _).tunnelThread []
    · rw [hs]
      exact Nat.one_pos
  | cons request older ih =>
    have hs : s.toPeer = request :: (older ++ [reset]) := hs
    obtain ⟨u, call, hstep, hcoord, hphase, htoPeer, -, htoCoord⟩ := step_handle hs nowUs
    obtain ⟨v, hrun, hanswered⟩ := ih htoPeer
    obtain ⟨earlier, answer, htoCoord', hlength, hanswer⟩ := hanswered.toCoord
    refine ⟨v, .cons trivial hstep hrun, hanswered.coord.trans hcoord, hanswered.phase.trans hphase, hanswered.toPeer,
      hanswered.cleared, ((s.peer.handleRequest request.packet []).2.map (⟨·, call⟩)).toList ++ earlier, answer, ?_, ?_, hanswer⟩
    · rw [htoCoord', htoCoord, List.append_assoc, List.append_assoc]
    · have hreply : ((s.peer.handleRequest request.packet []).2.map (InFlight.mk · call)).toList.length ≤ 1 := by
        cases (s.peer.handleRequest request.packet []).2 <;> simp
      rw [htoPeer] at hlength
      rw [hs]
      simp only [List.length_append, List.length_cons] at hlength ⊢
      omega

def Connected (s : Link) : Prop := s.coord.disconnected = false ∧ s.coord.connectionResetRequired = false

/-- A session that has just begun: nothing is on its way, and of a packet either side has its queue and
    nothing else. -/
structure Begun (s : Link) : Prop where
  synced : s.Synced
  atRest : s.AtRest
  connected : s.Connected
  coord : s.coord.toRadioInterface.Cleared
  peer : s.peer.toRadioInterface.Cleared

theorem begun {c : PrimaryRadioInterface} (hcoord : s.coord = c.beginConnectionReset.resetSucceeded)
    (hpeer : s.peer.toRadioInterface.Cleared) (hphase : s.phase = .top) (hempty : s.toPeer = [] ∧ s.toCoord = [])
    (hne : s.NonemptyPackets) : s.Begun := by
  have hcleared : s.coord.toRadioInterface.Cleared := by
    rw [hcoord]
    exact RadioInterface.cleared_resetLocked c.toRadioInterface
  have hsession : s.Session [] [] :=
    ⟨hempty.1 ▸ .nil, hempty.2 ▸ .nil, Pair.of_cleared hcleared hpeer, by simp, by simp⟩
  refine ⟨⟨⟨[], [], hsession⟩, ?_, fun _ => ?_, hne⟩, ⟨hsession, hphase⟩, ?_, hcleared, hpeer⟩
  · simp [hcoord, PrimaryRadioInterface.resetSucceeded]
  · simp [hcoord, PrimaryRadioInterface.resetSucceeded, PrimaryRadioInterface.beginConnectionReset]
  · simp [Connected, hcoord, PrimaryRadioInterface.resetSucceeded]

theorem loopAction_after_resetFailed {c : PrimaryRadioInterface} {laterUs : Nat} (hrequired : c.connectionResetRequired = true)
    (hlater : nowUs + c.disconnectBackoffUs ≤ laterUs) : (c.resetFailed nowUs).loopAction laterUs = .reset := by
  have hnot : ¬laterUs < nowUs + c.disconnectBackoffUs := Nat.not_lt.mpr hlater
  unfold PrimaryRadioInterface.resetFailed
  split
  · rename_i hdisconnected
    simp only [PrimaryRadioInterface.loopAction, hdisconnected, if_true, if_neg hnot]
  · rename_i hconnected
    obtain ⟨sendStreak, timeoutStreak, -, -, ⟨-, heq⟩ | ⟨-, heq⟩⟩ := c.handleTransactionFailure_cases .protocol nowUs <;> rw [heq]
    · simp only [PrimaryRadioInterface.loopAction, if_true, if_neg hnot]
    · simp only [PrimaryRadioInterface.loopAction, if_neg hconnected, hrequired, if_true]

/-- The call starts a session, or it is given the reply to an older request. -/
theorem Sound.attempt (h : s.Sound) (hne : s.NonemptyPackets) (hphase : s.phase = .top)
    (haction : s.coord.loopAction nowUs = .reset) :
    ∃ u, s.Run (s.attempt nowUs) u ∧ (u.Begun ∨ (s.toPeer ≠ [] ∧ u.toPeer = [] ∧ u.phase = .top ∧
      u.coord = s.coord.setPollInterval.beginConnectionReset.resetFailed nowUs)) := by
  have hsend : ∃ t, s.step (.resetSend nowUs nowUs s.toCoord.length false true) = some t := by
    obtain ⟨request, hencode, -⟩ := exists_encode_resetFrame
    simp only [Link.step, resetSend, hphase, haction, hencode, send_of_encode hencode]
    exact ⟨_, rfl⟩
  obtain ⟨t, ht⟩ := hsend
  obtain ⟨-, -, request, hdecode, rfl⟩ := resetSend_spec ht
  obtain ⟨u, hrun, hanswered⟩ := answersAll (s := { s with
    coord := s.coord.setPollInterval.beginConnectionReset
    toPeer := s.toPeer ++ [⟨request, s.resetCalls + 1⟩]
    toCoord := s.toCoord.drop s.toCoord.length
    resetCalls := s.resetCalls + 1
    phase := .reset }) rfl hdecode nowUs
  obtain ⟨earlier, answer, htoCoord, hlength, hanswer⟩ := hanswered.toCoord
  simp only [List.drop_length, List.nil_append, List.length_append, List.length_singleton] at htoCoord hlength
  have hcoord : u.coord = s.coord.setPollInterval.beginConnectionReset := hanswered.coord
  obtain ⟨reply, rest, hreplies⟩ : ∃ reply rest, earlier ++ [answer] = reply :: rest := by
    cases earlier with
    | nil => exact ⟨answer, [], rfl⟩
    | cons reply earlier => exact ⟨reply, earlier ++ [answer], rfl⟩
  have hrest : rest.length = earlier.length := by simpa using (congrArg List.length hreplies).symm
  have hcoord : u.coord = s.coord.setPollInterval.beginConnectionReset := hanswered.coord
  have hreached : ∀ v, u.step (.resetReceive nowUs (s.toPeer.length + 1)) = some v → s.Run (s.attempt nowUs) v :=
    fun v hv => .cons trivial ht (hrun.concat trivial hv)
  by_cases hconfirm : PrimaryRadioInterface.confirmsReset reply.packet = true
  · have hreceive : u.step (.resetReceive nowUs (s.toPeer.length + 1)) =
        some { u with coord := u.coord.resetSucceeded, toCoord := rest.drop (s.toPeer.length + 1), phase := .top } := by
      simp only [Link.step, resetReceive, hanswered.phase, htoCoord, hreplies, hconfirm, if_true]
    have hflushed : rest.drop (s.toPeer.length + 1) = [] := List.drop_of_length_le (by omega)
    refine ⟨_, hreached _ hreceive, Or.inl (begun (c := s.coord.setPollInterval) ?_ hanswered.cleared rfl ⟨hanswered.toPeer, hflushed⟩ ?_)⟩
    · exact congrArg PrimaryRadioInterface.resetSucceeded hcoord
    · exact (hreached _ hreceive).nonemptyPackets h hne
  · have hreceive : u.step (.resetReceive nowUs (s.toPeer.length + 1)) =
        some { u with coord := u.coord.resetFailed nowUs, toCoord := rest, phase := .top } := by
      simp only [Link.step, resetReceive, hanswered.phase, htoCoord, hreplies, hconfirm, Bool.false_eq_true, if_false]
    refine ⟨_, hreached _ hreceive, Or.inr ⟨fun hnil => hconfirm ?_, hanswered.toPeer, rfl, ?_⟩⟩
    · -- Without an older request the first reply is the answer to the Reset.
      obtain rfl : earlier = [] := List.eq_nil_of_length_eq_zero (by rw [hnil, List.length_nil] at hlength; omega)
      obtain ⟨rfl, -⟩ := List.cons.inj hreplies
      simp [PrimaryRadioInterface.confirmsReset, hanswer, resetFrame]
    · exact congrArg (PrimaryRadioInterface.resetFailed · nowUs) hcoord

/-! ### Draining at the top of the loop -/

theorem LoopOnly.session {requests replies : List MacFrame} (h : LoopOnly s t) (hs : s.Session requests replies) :
    t.Session requests replies := by
  rw [h.eq]
  exact ⟨hs.toPeer, hs.toCoord, h.toRadioInterface.symm ▸ hs.pair, hs.isRequest, hs.isReply⟩

/-- The loop also keeps what decides on the next frame. -/
structure KeepsSession (s t : Link) : Prop where
  loop : LoopOnly s t
  state : t.coord.state = s.coord.state
  peerHasPending : t.coord.peerHasPending = s.coord.peerHasPending

theorem KeepsSession.synced (h : KeepsSession s t) (hs : s.Synced) : t.Synced := by
  refine ⟨h.loop.live hs.live, ?_, ?_, h.loop.nonemptyPackets hs.nonempty⟩
  · rw [h.state]
    exact hs.state
  · rw [h.state, h.peerHasPending]
    exact hs.idle

theorem KeepsSession.atRest (h : KeepsSession s t) (hs : s.AtRest) : t.AtRest :=
  ⟨h.loop.session hs.session, h.loop.phase.trans hs.phase⟩

theorem KeepsSession.load (h : KeepsSession s t) : t.load = s.load := by
  have hcoordAhead : t.coordAhead = s.coordAhead := by
    rw [h.loop.eq]
    simp only [coordAhead, h.loop.toRadioInterface]
  have hpeerAhead : t.peerAhead = s.peerAhead := by
    rw [h.loop.eq]
    simp only [peerAhead, h.loop.toRadioInterface]
  have hpeer : t.peer = s.peer := by rw [h.loop.eq]
  simp only [Link.load, h.state, h.loop.toRadioInterface, hpeer, hcoordAhead, hpeerAhead]

/-- An exchange of a connected coordinator, with what the loop of `Run` does around it. -/
theorem AtRest.exchangeRound (h : s.AtRest) (hs : s.Synced) (hconnected : s.Connected) (nowUs : Nat) :
    ∃ t, s.Run (Link.exchangeRound nowUs) t ∧ t.AtRest ∧ t.Synced ∧ t.Connected ∧ s.Moved t ∧ t.load = s.load.next ∧
      t.coordPushed = s.coordPushed ∧ t.peerPushed = s.peerPushed := by
  have haction : s.coord.loopAction nowUs = .exchange := by simp [PrimaryRadioInterface.loopAction, hconnected.1, hconnected.2]
  have henter : s.enter nowUs (.send [] false true) = some { s with coord := s.coord.setPollInterval } := by
    rw [enter, if_pos haction]
  obtain ⟨hloop, hkeeps, -⟩ := enter_spec henter
  have hpoll : KeepsSession s { s with coord := s.coord.setPollInterval } := by
    refine ⟨hloop, ?_, ?_⟩ <;> unfold PrimaryRadioInterface.setPollInterval <;> split_ifs <;> rfl
  obtain ⟨t, honce, ht, hts, hmoved, hload, hcoordPushed, hpeerPushed⟩ := (hpoll.atRest h).exchangeOnce (hpoll.synced hs)
  obtain ⟨u, v, hsend, hhandle, hreceive⟩ := exchangeOnce_steps (hpoll.atRest h) (hpoll.synced hs) honce
  have hsettle : KeepsSession t (t.settle nowUs (some .success)) := ⟨settle_loopOnly t nowUs _, rfl, rfl⟩
  have hrequired : t.coord.connectionResetRequired = false := by
    rw [(exchangeStep_frame hreceive).keeps.connectionResetRequired, (exchangeStep_frame hhandle).keeps.connectionResetRequired,
      (exchangeStep_frame hsend).keeps.connectionResetRequired, hkeeps.connectionResetRequired]
    exact hconnected.2
  have hrun : s.Run (Link.exchangeRound nowUs) (t.settle nowUs (some .success)) := by
    refine .cons (t := u) trivial ?_ (.cons (t := v) trivial ?_ (.cons trivial ?_ (.nil _)))
    · simp only [step, henter, Option.bind_some, hsend, Option.map_some, settle]
    · simp only [step, enter, Option.bind_some, hhandle, Option.map_some, settle]
    · simp only [step, enter, Option.bind_some, hreceive, Option.map_some]
  exact ⟨_, hrun, hsettle.atRest ht, hsettle.synced hts, ⟨rfl, hrequired⟩, hloop.moved.trans (hmoved.trans hsettle.loop.moved),
    by rw [hsettle.load, hload, hpoll.load], hcoordPushed, hpeerPushed⟩

theorem AtRest.exchangeRounds (h : s.AtRest) (hs : s.Synced) (hconnected : s.Connected) (times : List Nat) :
    ∃ t, s.Run (times.flatMap Link.exchangeRound) t ∧ t.Synced ∧ s.Moved t ∧ t.load.rank = s.load.rank - times.length ∧
      t.coordPushed = s.coordPushed ∧ t.peerPushed = s.peerPushed := by
  induction times generalizing s with
  | nil => exact ⟨s, .nil s, hs, .refl s, rfl, rfl, rfl⟩
  | cons nowUs times ih =>
    obtain ⟨u, hround, hu, hus, huConnected, hmoved, hload, hcoord, hpeer⟩ := h.exchangeRound hs hconnected nowUs
    obtain ⟨t, hrun, hts, hmoved', hrank, hcoord', hpeer'⟩ := ih hu hus huConnected
    refine ⟨t, Machine.Run.append hround hrun, hts, hmoved.trans hmoved', ?_, hcoord'.trans hcoord, hpeer'.trans hpeer⟩
    rw [hrank, hload, hs.load_wf.rank_next, List.length_cons]
    omega

/-- Exchanges without losses, at whatever times, soon leave nothing to do, and each side has written the
    packets of the other one's queue that are valid. Only the first of a queue may have been cut. -/
def Drains (s : Link) : Prop :=
  ∀ times : List Nat, fragmentCount s.coord.tx.readBuffer + fragmentCount s.peer.tx.readBuffer + 2 ≤ times.length →
    ∃ t, s.Run (times.flatMap exchangeRound) t ∧ t.Quiescent ∧
      t.peer.rx.tunnel = s.peer.rx.tunnel ++ s.coord.tx.readBuffer.filter isValidIpPacket ∧
      t.coord.rx.tunnel = s.coord.rx.tunnel ++ s.peer.tx.readBuffer.filter isValidIpPacket

/-- The moves of a direction that starts with nothing on its way, and empties its queue. -/
theorem drained_of_moves {pushed : List Bytes} {a b : RadioInterface} {v : Transfer.State UInt8} (ha : a.Cleared) (hb : b.Cleared)
    (hmoves : Moves (view pushed a.tx b.rx) v) (hpushed : v.pushed = pushed) (hq : v.queue = []) :
    v.buffer = [] ∧ v.written = b.rx.tunnel ++ a.tx.readBuffer.filter isValidIpPacket := by
  have hbuffer : b.rx.frameBuffer = [] := by rw [← hb]; rfl
  have hahead : ahead a.tx b.rx = false := by rw [← ha]; rfl
  have hsession : Transfer.Session kMaxPayloadSize isValidIpPacket (view pushed a.tx b.rx) _ _ [] [] :=
    Transfer.Session.fresh hbuffer hahead
  obtain ⟨packets, done, pre, hpackets, hs⟩ := hsession.moves hmoves
  obtain rfl : packets = [] := by
    rw [hpushed] at hpackets
    exact List.self_eq_append_right.mp hpackets
  rw [List.append_nil] at hs
  exact hs.drained hq

theorem TxState.Wf.idle_of_empty {tx : TxState} (h : tx.Wf) (hq : tx.readBuffer = []) : tx.txInFlight = false := by
  by_contra hflight
  obtain ⟨-, current, rest, hq', -⟩ := h.inFlight (by simpa using hflight)
  rw [hq] at hq'
  cases hq'

theorem Begun.drains (h : s.Begun) : s.Drains := by
  intro times hlength
  obtain ⟨t, hrun, ht, hmoved, hrank, hcoordPushed, hpeerPushed⟩ := h.atRest.exchangeRounds h.synced h.connected times
  have hle : s.load.rank ≤ fragmentCount s.coord.tx.readBuffer + fragmentCount s.peer.tx.readBuffer + 2 := s.load.rank_le
  obtain ⟨hgranting, hcoordCount, hpeerCount⟩ := Load.rank_eq_zero (hrank.trans (Nat.sub_eq_zero_of_le (hle.trans hlength)))
  have hcoord := (fragmentCount_eq_zero ht.nonempty.coord).mp hcoordCount
  have hpeer := (fragmentCount_eq_zero ht.nonempty.peer).mp hpeerCount
  have hidle : t.coord.state = .idle := by simpa [load] using hgranting
  obtain ⟨hpeerBuffer, hpeerTunnel⟩ := drained_of_moves h.coord h.peer hmoved.coord hcoordPushed hcoord
  obtain ⟨hcoordBuffer, hcoordTunnel⟩ := drained_of_moves h.peer h.coord hmoved.peer hpeerPushed hpeer
  refine ⟨t, hrun, ?_, hpeerTunnel, hcoordTunnel⟩
  exact {
    queues := ⟨hcoord, hpeer⟩
    inFlight := ⟨TxState.Wf.idle_of_empty ht.live.wf.1 hcoord, TxState.Wf.idle_of_empty ht.live.wf.2 hpeer⟩
    buffers := ⟨hcoordBuffer, hpeerBuffer⟩
    idle := hidle
    peerHasPending := ht.idle hidle }

/-- Whatever has been lost, is late or is still on its way, and whatever state that its code leaves the peer
    was in: on the schedule of `attempt` this `ConnectionReset` call starts a session, or older requests are
    on their way and the next call on that schedule does, after at most the longest backoff. The session
    drains both queues. -/
theorem recovers_and_drains {pollIntervalUs : Nat} {peer : SecondaryRadioInterface} (hpeer : peer.tx.Wf)
    (hnonempty : ∀ packet ∈ peer.tx.readBuffer, packet ≠ []) (hrun : (initial pollIntervalUs peer).Run es s)
    (hphase : s.phase = .top) (haction : s.coord.loopAction nowUs = .reset) :
    ∃ u, s.Run (s.attempt nowUs) u ∧ (u.Drains ∨ (s.toPeer ≠ [] ∧
      ∀ laterUs, nowUs + kMaxDisconnectBackoffUs ≤ laterUs → ∃ v, u.Run (u.attempt laterUs) v ∧ v.Drains)) := by
  obtain ⟨hsound, hprojects⟩ := hrun.projects hpeer
  have hne : s.NonemptyPackets := hrun.nonemptyPackets (sound_initial pollIntervalUs hpeer) ⟨nofun, hnonempty⟩
  have hreaches := hprojects.coord
  rw [hphase] at hreaches
  have hbackoff : s.coord.disconnectBackoffUs ≤ kMaxDisconnectBackoffUs := by
    generalize s.coord = c at hreaches
    cases hreaches with
    | top ps c before hruns => exact hruns.controlState.2.backoff.2
  obtain ⟨u, hattempt, hbegun | ⟨holder, htoPeer, htop, hcoord⟩⟩ := hsound.attempt hne hphase haction
  · exact ⟨u, hattempt, Or.inl hbegun.drains⟩
  · refine ⟨u, hattempt, Or.inr ⟨holder, fun laterUs hlater => ?_⟩⟩
    have hrequired := PrimaryRadioInterface.loopAction_reset hsound.ready haction
    have hpoll : s.coord.setPollInterval.beginConnectionReset.disconnectBackoffUs = s.coord.disconnectBackoffUs := by
      unfold PrimaryRadioInterface.setPollInterval
      split_ifs <;> rfl
    have haction' : u.coord.loopAction laterUs = .reset := by
      rw [hcoord]
      refine loopAction_after_resetFailed hrequired ?_
      rw [hpoll]
      omega
    obtain ⟨v, hattempt', hbegun | ⟨hnot, -⟩⟩ := (hattempt.sound hsound).attempt (hattempt.nonemptyPackets hsound hne) htop haction'
    · exact ⟨v, hattempt', hbegun.drains⟩
    · exact absurd htoPeer hnot

/-- The radio reports five failures although the requests get through, so the peer has them all when the
    coordinator resets, and a packet is left that was cut. -/
def unreportedSends : List Event :=
  resetRound 0 ++ [.exchange 0 (.coordReads [twoFragments])] ++ exchangeRound 0 ++
    List.replicate kDisconnectFailureThreshold (.exchange 0 (.send [] false false))

theorem recovers_and_drains_unreported_sends :
    ∃ s u, (initial 100 {}).Run unreportedSends s ∧ s.toPeer.length = 5 ∧ s.Run (s.attempt 100000) u ∧
      (u.Drains ∨ (s.toPeer ≠ [] ∧ ∀ laterUs, 100000 + kMaxDisconnectBackoffUs ≤ laterUs →
        ∃ v, u.Run (u.attempt laterUs) v ∧ v.Drains)) := by
  have hexec : (Machine.exec step (fun _ _ => True) (initial 100 {}) unreportedSends).map
      (fun s => (s.phase, s.toPeer.length, s.coord.loopAction 100000)) = some (.top, 5, .reset) := by decide +kernel
  obtain ⟨s, hs, hstate⟩ := Option.map_eq_some_iff.mp hexec
  obtain ⟨hphase, hstate⟩ := Prod.mk.inj hstate
  obtain ⟨hlength, haction⟩ := Prod.mk.inj hstate
  obtain ⟨u, hattempt, hrecovers⟩ := recovers_and_drains TxState.wf_init (by decide) (.of_exec hs) hphase haction
  exact ⟨s, u, .of_exec hs, hlength, hattempt, hrecovers⟩

end Link
end Nerfnet
