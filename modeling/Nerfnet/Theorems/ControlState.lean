import Nerfnet.Theorems.Passes

/-! # The control fields of the coordinator

How `state_`, the decision to reset, the streaks of failures, `peer_has_pending_` and the backoff hang
together at the top of the loop, against a peer that composes its replies as `ChoosePeerResponse` and
`HandleReset` do. -/

namespace Nerfnet

/-- The peer answers with the kinds of frames that a coordinator expects from it. -/
theorem SecondaryRadioInterface.handleRequest_fromPeer {s : SecondaryRadioInterface} (hwf : s.tx.Wf) {request reply : Bytes}
    {reads : List Bytes} (h : (s.handleRequest request reads).2 = some reply) :
    ∃ tx, decodeMacFrame reply = some tx ∧ tx.FromPeer := by
  have hhandled := handleRequest_handled hwf request reads
  rw [h] at hhandled
  generalize (s.handleRequest request reads).1 = t at hhandled
  cases hhandled with
  | reset r rx reply _ _ _ _ hreply => exact ⟨resetFrame, hreply, Or.inr (Or.inr ⟨rfl, rfl⟩)⟩
  | answered r rx tx reply grantBudget grantedToSend _ _ _ _ _ _ hreply hfrom => exact ⟨tx, hreply, hfrom⟩

namespace PrimaryRadioInterface
variable {s t : PrimaryRadioInterface} {p : Pass} {ps : List Pass}

/-- What `Receive` reads in the pass is of a kind that the peer composes, or no frame at all. -/
def Pass.FromPeer (p : Pass) : Prop := ∀ packet ∈ p.response, ∀ rx ∈ decodeMacFrame packet, rx.FromPeer

instance (p : Pass) : Decidable p.FromPeer := by
  unfold Pass.FromPeer MacFrame.FromPeer
  infer_instance

theorem Pass.FromPeer.reply (h : p.FromPeer) {rx : MacFrame} (hreply : p.reply = some rx) : rx.FromPeer := by
  unfold Attempt.reply at hreply
  split at hreply
  · obtain ⟨packet, hpacket, hdecode⟩ := Option.bind_eq_some_iff.mp hreply
    exact h packet hpacket rx hdecode
  · cases hreply

structure ControlState (s : PrimaryRadioInterface) : Prop where
  resetSync : s.state = .resetSync ↔ s.connectionResetRequired = true
  disconnected : s.disconnected = true → s.connectionResetRequired = true
  streaks : s.disconnected = false → ¬Exceeds s.sendFailStreak s.timeoutFailStreak
  idle : s.state = .idle → s.peerHasPending = false
  backoff : kInitialDisconnectBackoffUs ≤ s.disconnectBackoffUs ∧ s.disconnectBackoffUs ≤ kMaxDisconnectBackoffUs

theorem not_exceeds_zero : ¬Exceeds 0 0 := by
  unfold Exceeds
  decide

theorem initial_backoff : kInitialDisconnectBackoffUs ≤ kInitialDisconnectBackoffUs ∧
    kInitialDisconnectBackoffUs ≤ kMaxDisconnectBackoffUs := by decide

theorem controlState_initial (pollIntervalUs : Nat) : ControlState { currentPollIntervalUs := pollIntervalUs } where
  resetSync := by simp
  disconnected := by simp
  streaks _ := not_exceeds_zero
  idle := by simp
  backoff := initial_backoff

theorem ControlState.setPollInterval (h : ControlState s) : ControlState s.setPollInterval := by
  unfold PrimaryRadioInterface.setPollInterval
  split_ifs
  · exact h
  · exact ⟨h.resetSync, h.disconnected, h.streaks, h.idle, h.backoff⟩
  · exact ⟨h.resetSync, h.disconnected, h.streaks, h.idle, h.backoff⟩

theorem ControlState.handleTransactionFailure (h : ControlState s) (kind : FailureType) (nowUs : Nat) :
    ControlState (s.handleTransactionFailure kind nowUs) := by
  obtain ⟨sendStreak, timeoutStreak, -, -, ⟨-, heq⟩ | ⟨hbelow, heq⟩⟩ := s.handleTransactionFailure_cases kind nowUs <;> rw [heq]
  · exact ⟨by simp, fun _ => rfl, by simp, by simp, h.backoff⟩
  · exact ⟨h.resetSync, h.disconnected, fun _ => hbelow, h.idle, h.backoff⟩

/-- `ConnectionReset` clears `peer_has_pending_` before it can fail. -/
theorem ControlState.beginConnectionReset (h : ControlState s) (r : RadioInterface) :
    ControlState { s.beginConnectionReset with toRadioInterface := r } :=
  ⟨h.resetSync, h.disconnected, h.streaks, fun _ => rfl, h.backoff⟩

theorem ControlState.resetSucceeded (hpending : s.peerHasPending = false) : ControlState s.resetSucceeded :=
  ⟨by simp [PrimaryRadioInterface.resetSucceeded], by simp [PrimaryRadioInterface.resetSucceeded], fun _ => not_exceeds_zero,
    fun _ => hpending, initial_backoff⟩

theorem ControlState.resetFailed (h : ControlState s) (nowUs : Nat) : ControlState (s.resetFailed nowUs) := by
  unfold PrimaryRadioInterface.resetFailed
  split
  · refine ⟨h.resetSync, h.disconnected, h.streaks, h.idle, ?_⟩
    have hbackoff := h.backoff
    simp only [kInitialDisconnectBackoffUs, kMaxDisconnectBackoffUs] at hbackoff ⊢
    omega
  · exact h.handleTransactionFailure .protocol nowUs

theorem ControlState.afterExchange (h : ControlState s) (result : ExchangeResult) (nowUs : Nat) :
    ControlState (s.afterExchange result nowUs) := by
  cases result with
  | success => exact ⟨h.resetSync, by simp [PrimaryRadioInterface.afterExchange], fun _ => not_exceeds_zero, h.idle, initial_backoff⟩
  | sendFailure => exact h.handleTransactionFailure .send nowUs
  | timeoutFailure => exact h.handleTransactionFailure .timeout nowUs
  | protocolFailure => exact h.handleTransactionFailure .protocol nowUs

/-- A reply without pending data leaves the coordinator idle only if it is accepted, and a rejected one
    from the peer announces nothing unless it is a DATA frame. -/
theorem ControlState.exchanged {result : ExchangeResult} (h : ControlState s) (hp : p.FromPeer)
    (hready : s.connectionResetRequired = false) (hx : Exchanged s p.toAttempt t result) : ControlState t := by
  cases hx with
  | unanswered r wasData result => exact ⟨h.resetSync, h.disconnected, h.streaks, h.idle, h.backoff⟩
  | accepted r wasData consecutive rx =>
    refine ⟨?_, h.disconnected, h.streaks, pending_of_replyState_idle, h.backoff⟩
    simp [replyState_ne, hready]
  | rejected r wasData rx _ _ hreply htype =>
    refine ⟨h.resetSync, h.disconnected, h.streaks, fun hidle => ?_, h.backoff⟩
    have hfrom := hp.reply hreply
    unfold rejectedPending
    split
    · exact h.idle hidle
    · rename_i hdata
      have hbad := htype.resolve_left fun hrejects => hdata hrejects.1
      rcases hfrom with ⟨hack, -⟩ | ⟨hpending | hdata', -⟩ | ⟨-, hzero⟩
      · simp [hack, FrameType.isReply] at hbad
      · simp [hpending, FrameType.isReply] at hbad
      · exact absurd hdata' hdata
      · simp [hzero]

theorem ControlState.step (h : ControlState s) (hp : p.FromPeer) (hpass : Passed s p t) : ControlState t := by
  cases hpass with
  | waited r => exact ⟨h.resetSync, h.disconnected, h.streaks, h.idle, h.backoff⟩
  | resetSucceeded r => exact .resetSucceeded rfl
  | resetFailed r => exact (h.setPollInterval.beginConnectionReset r).resetFailed p.laterUs
  | exchanged t result haction hx =>
    have hready : s.setPollInterval.connectionResetRequired = false :=
      s.setPollInterval_keeps.connectionResetRequired.trans (loopAction_exchange haction)
    exact (h.setPollInterval.exchanged hp hready hx).afterExchange result p.laterUs

theorem Runs.controlState {pollIntervalUs : Nat} (h : Runs Pass.FromPeer { currentPollIntervalUs := pollIntervalUs } ps s) :
    s.tx.Wf ∧ ControlState s :=
  Runs.invariant (fun _ _ _ hs hp hpass => hs.step hp hpass) h TxState.wf_init (controlState_initial pollIntervalUs)

/-- The frame that `PerformExchange` hands to `Send` in a pass. -/
def exchangeFrame (s : PrimaryRadioInterface) (p : Pass) : Option MacFrame :=
  if s.loopAction p.nowUs = .exchange then
    ((setPollInterval { s with tx := s.tx.tunnelThread p.before }).prepareRequest p.reads).2.map (·.1)
  else none

/-- The coordinator does not send a Reset in an exchange. -/
theorem ControlState.exchangeFrame_ne_reset (h : ControlState s) (hwf : s.tx.Wf) {tx : MacFrame}
    (htx : s.exchangeFrame p = some tx) : tx.type ≠ .reset := by
  unfold exchangeFrame at htx
  split at htx
  · rename_i haction
    have hready : s.setPollInterval.connectionResetRequired = false :=
      s.setPollInterval_keeps.connectionResetRequired.trans (loopAction_exchange haction)
    have hstate : s.setPollInterval.state ≠ .resetSync := fun hsync => by
      rw [h.setPollInterval.resetSync.mp hsync] at hready
      cases hready
    obtain ⟨r, wasData, frame, request, hprepare, -, htype, -⟩ :=
      prepareRequest_spec (s := { s.setPollInterval with tx := s.setPollInterval.tx.tunnelThread p.before }) p.reads
        (by simpa using hwf.tunnelThread p.before) hstate
    rw [setPollInterval_tunnelThread, hprepare] at htx
    cases htx
    rw [htype]
    unfold nextFrameType
    split_ifs <;> simp
  · cases htx

/-- The control fields at the top of the loop, in every run against the replies of a peer. In an
    exchange the coordinator never sends a Reset, and the fairness branch is never taken. -/
theorem control_state {pollIntervalUs : Nat} (h : Runs Pass.FromPeer { currentPollIntervalUs := pollIntervalUs } ps s) :
    (s.state = .resetSync ↔ s.connectionResetRequired = true) ∧
    (s.disconnected = true → s.connectionResetRequired = true) ∧
    (s.disconnected = false → s.sendFailStreak < 5 ∧ s.timeoutFailStreak < 7 ∧ s.sendFailStreak + s.timeoutFailStreak < 8) ∧
    (s.state = .idle → s.peerHasPending = false) ∧
    kInitialDisconnectBackoffUs ≤ s.disconnectBackoffUs ∧ s.disconnectBackoffUs ≤ kMaxDisconnectBackoffUs ∧
    (∀ p tx, s.exchangeFrame p = some tx → tx.type ≠ .reset) ∧
    ¬(s.state = .idle ∧ s.peerHasPending = true ∧ kFairDataBurstLimit ≤ s.consecutiveLocalDataFrames) := by
  obtain ⟨hwf, hs⟩ := h.controlState
  refine ⟨hs.resetSync, hs.disconnected, fun hconnected => ?_, hs.idle, hs.backoff.1, hs.backoff.2,
    fun p tx htx => hs.exchangeFrame_ne_reset hwf htx, ?_⟩
  · have hbelow := hs.streaks hconnected
    simp only [Exceeds, kDisconnectFailureThreshold] at hbelow
    omega
  · rintro ⟨hidle, hpending, -⟩
    rw [hs.idle hidle] at hpending
    cases hpending

/-- The session starts, the peer announces data, and then come a timeout, a DATA frame without a sequence
    number, which is rejected, and a failing `Send`. -/
def failingPasses : List Pass :=
  [{ response := encodeMacFrame resetFrame }, { response := encodeMacFrame { type := .pending, pending := 1 } }, {},
    { response := encodeMacFrame { type := .data, pending := 1 } }, { radioOk := false }]

theorem control_state_failing :
    ∃ s, Runs Pass.FromPeer { currentPollIntervalUs := 100 } failingPasses s ∧ s.state = .issueGrant ∧ s.sendFailStreak = 2 ∧
      s.disconnected = false ∧ s.sendFailStreak + s.timeoutFailStreak < 8 := by
  have hexec : (Machine.exec (fun s p => some (loopPass s p)) (fun _ p => Pass.FromPeer p) { currentPollIntervalUs := 100 }
      failingPasses).map (fun s => (s.state, s.sendFailStreak, s.disconnected)) = some (.issueGrant, 2, false) := by decide +kernel
  obtain ⟨s, hs, hstate⟩ := Option.map_eq_some_iff.mp hexec
  obtain ⟨hissue, hstreak, hconnected⟩ : s.state = .issueGrant ∧ s.sendFailStreak = 2 ∧ s.disconnected = false := by
    simpa using hstate
  exact ⟨s, .of_exec hs, hissue, hstreak, hconnected, ((control_state (.of_exec hs)).2.2.1 hconnected).2.2⟩

end PrimaryRadioInterface
end Nerfnet
