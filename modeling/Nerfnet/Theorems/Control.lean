import Nerfnet.Theorems.Locked
import Nerfnet.Theorems.Roles

/-! # The loop of the coordinator

What an exchange leaves to the loop of `Run` (`KeepsRun`), and what the loop decides between two
exchanges: nothing in it touches the radio interface's own state, and a coordinator that need not
reset is synchronised (`Ready`). -/

namespace Nerfnet

namespace PrimaryRadioInterface
variable {s c c' c'' : PrimaryRadioInterface}

/-- An exchange changes neither the streaks of failures nor the decision to reset. -/
structure KeepsRun (c c' : PrimaryRadioInterface) : Prop where
  sendFailStreak : c'.sendFailStreak = c.sendFailStreak
  timeoutFailStreak : c'.timeoutFailStreak = c.timeoutFailStreak
  disconnected : c'.disconnected = c.disconnected
  connectionResetRequired : c'.connectionResetRequired = c.connectionResetRequired
  state : c.state ≠ .resetSync → c'.state ≠ .resetSync

theorem KeepsRun.refl (c : PrimaryRadioInterface) : KeepsRun c c := ⟨rfl, rfl, rfl, rfl, id⟩

/-- Choosing a frame takes the lock twice, and changes the TX fields only. -/
theorem chooseCoordinatorTxFrame_eq (s : PrimaryRadioInterface) (reads : List Bytes) :
    ∃ r wasData frame, s.chooseCoordinatorTxFrame reads = ({ s with toRadioInterface := r, lastTxWasData := wasData }, frame) ∧
      LockSteps s.toRadioInterface r ∧ r.rx = s.rx := by
  have hpush := lockSteps_tunnelThread s.toRadioInterface reads
  unfold chooseCoordinatorTxFrame
  dsimp only
  split
  · exact ⟨_, _, _, rfl, hpush, rfl⟩
  · exact ⟨_, _, _, rfl, hpush, rfl⟩
  · exact ⟨_, _, _, rfl, hpush, rfl⟩
  · split
    · split
      · exact ⟨_, _, _, rfl, hpush, rfl⟩
      · have hbuild := hpush.tail (.build _)
        have hrx := buildNextDataFrameLocked_rx { s.toRadioInterface with tx := s.tx.tunnelThread reads }
        split <;> rename_i heq <;> simp only [heq] at hbuild hrx
        · exact ⟨_, s.lastTxWasData, _, rfl, hbuild, hrx⟩
        · exact ⟨_, _, _, rfl, hbuild, hrx⟩
    · exact ⟨_, _, _, rfl, hpush, rfl⟩

theorem prepareRequest_keeps (s : PrimaryRadioInterface) (reads : List Bytes) :
    KeepsRun s (s.prepareRequest reads).1 := by
  obtain ⟨r, wasData, frame, hchoose, -⟩ := s.chooseCoordinatorTxFrame_eq reads
  cases frame <;> simp only [prepareRequest, hchoose] <;> exact ⟨rfl, rfl, rfl, rfl, id⟩

theorem replyState_ne (rx : MacFrame) : replyState rx ≠ .resetSync := by
  unfold replyState
  split <;> [skip; split; split] <;> simp

theorem replyState_of_pending {rx : MacFrame} (h : rx.pending ≠ 0) : replyState rx = .issueGrant ∨ replyState rx = .activeRx := by
  have hpending : (rx.pending != 0) = true := bne_iff_ne.mpr h
  unfold replyState
  split
  · exact Or.inl rfl
  · exact Or.inr (if_pos hpending)
  · exact Or.inl (if_pos hpending)

theorem pending_of_replyState_idle {rx : MacFrame} (h : replyState rx = .idle) : (rx.pending != 0) = false := by
  by_contra hpending
  have hpending : (rx.pending != 0) = true := by simpa using hpending
  unfold replyState at h
  split at h
  · cases h
  · rw [if_pos hpending] at h
    cases h
  · rw [if_pos hpending] at h
    cases h

/-- A reply without pending data makes the coordinator idle, unless it is a PENDING. -/
theorem replyState_idle_iff {rx : MacFrame} (h : rx.type = .pending → rx.pending ≠ 0) :
    replyState rx = .idle ↔ rx.pending = 0 := by
  constructor
  · intro hidle
    simpa using pending_of_replyState_idle hidle
  · intro hzero
    unfold replyState
    split
    · rename_i hp
      exact absurd hzero (h hp)
    · simp [hzero]
    · simp [hzero]

theorem completeExchange_keeps (s : PrimaryRadioInterface) (tx : MacFrame) (response : Option Bytes) :
    KeepsRun s (s.completeExchange tx response).1 := by
  unfold completeExchange
  split
  · exact .refl s
  · split
    · exact .refl s
    · rename_i rx _
      rcases s.applyPeerResponse_spec rx with ⟨r, ok, -, ⟨-, -, happly⟩ | ⟨-, happly⟩⟩
      · simp only [happly]
        exact ⟨rfl, rfl, rfl, rfl, fun _ => replyState_ne rx⟩
      · simp only [happly]
        exact ⟨rfl, rfl, rfl, rfl, id⟩

/-- A coordinator that need not reset is connected and synchronised. -/
structure Ready (s : PrimaryRadioInterface) : Prop where
  connected : s.connectionResetRequired = false → s.disconnected = false
  state : s.connectionResetRequired = false → s.state ≠ .resetSync

theorem KeepsRun.ready (h : KeepsRun c c') (hc : c.Ready) : c'.Ready where
  connected hr := by
    rw [h.disconnected]
    exact hc.connected (h.connectionResetRequired ▸ hr)
  state hr := h.state (hc.state (h.connectionResetRequired ▸ hr))

/-! ### Between two exchanges -/

@[simp] theorem setPollInterval_toRadioInterface (s : PrimaryRadioInterface) :
    s.setPollInterval.toRadioInterface = s.toRadioInterface := by
  unfold setPollInterval
  split_ifs <;> rfl

theorem setPollInterval_keeps (s : PrimaryRadioInterface) : KeepsRun s s.setPollInterval := by
  unfold setPollInterval
  split_ifs <;> exact ⟨rfl, rfl, rfl, rfl, id⟩

/-- The streaks reach one of the three thresholds. -/
def Exceeds (sendStreak timeoutStreak : Nat) : Prop :=
  kDisconnectFailureThreshold ≤ sendStreak ∨ kDisconnectFailureThreshold + 2 ≤ timeoutStreak ∨
    kDisconnectFailureThreshold + 3 ≤ sendStreak + timeoutStreak

/-- A failure extends the streaks, and it disconnects the coordinator or doubles the poll interval. -/
theorem handleTransactionFailure_cases (s : PrimaryRadioInterface) (kind : FailureType) (nowUs : Nat) :
    ∃ sendStreak timeoutStreak, sendStreak = (if kind = .timeout then 0 else s.sendFailStreak + 1) ∧
      timeoutStreak = (if kind = .send then 0 else s.timeoutFailStreak + 1) ∧
      ((Exceeds sendStreak timeoutStreak ∧ s.handleTransactionFailure kind nowUs = { s with
          sendFailStreak := sendStreak
          timeoutFailStreak := timeoutStreak
          pollFailCount := sendStreak + timeoutStreak
          disconnected := true
          connectionResetRequired := true
          state := .resetSync
          nextRetryTimeUs := nowUs + s.disconnectBackoffUs }) ∨
        (¬Exceeds sendStreak timeoutStreak ∧ s.handleTransactionFailure kind nowUs = { s with
          sendFailStreak := sendStreak
          timeoutFailStreak := timeoutStreak
          pollFailCount := sendStreak + timeoutStreak
          currentPollIntervalUs := min (s.currentPollIntervalUs * 2) 1000000 })) := by
  refine ⟨_, _, rfl, rfl, ?_⟩
  by_cases h : Exceeds (if kind = .timeout then 0 else s.sendFailStreak + 1) (if kind = .send then 0 else s.timeoutFailStreak + 1)
  · exact Or.inl ⟨h, by cases kind <;> exact if_pos h⟩
  · exact Or.inr ⟨h, by cases kind <;> exact if_neg h⟩

@[simp] theorem handleTransactionFailure_toRadioInterface (s : PrimaryRadioInterface) (failureType : FailureType) (nowUs : Nat) :
    (s.handleTransactionFailure failureType nowUs).toRadioInterface = s.toRadioInterface := by
  obtain ⟨sendStreak, timeoutStreak, -, -, ⟨-, heq⟩ | ⟨-, heq⟩⟩ := s.handleTransactionFailure_cases failureType nowUs <;> rw [heq]

theorem handleTransactionFailure_ready (hs : s.Ready) (failureType : FailureType) (nowUs : Nat) :
    (s.handleTransactionFailure failureType nowUs).Ready := by
  obtain ⟨sendStreak, timeoutStreak, -, -, ⟨-, heq⟩ | ⟨-, heq⟩⟩ := s.handleTransactionFailure_cases failureType nowUs <;> rw [heq]
  · exact ⟨by simp, by simp⟩
  · exact ⟨hs.connected, hs.state⟩

@[simp] theorem afterExchange_toRadioInterface (s : PrimaryRadioInterface) (result : ExchangeResult) (nowUs : Nat) :
    (s.afterExchange result nowUs).toRadioInterface = s.toRadioInterface := by
  cases result <;> simp [afterExchange]

theorem afterExchange_ready (hs : s.Ready) (result : ExchangeResult) (nowUs : Nat) : (s.afterExchange result nowUs).Ready := by
  cases result with
  | success => exact ⟨fun _ => rfl, hs.state⟩
  | sendFailure => exact handleTransactionFailure_ready hs .send nowUs
  | timeoutFailure => exact handleTransactionFailure_ready hs .timeout nowUs
  | protocolFailure => exact handleTransactionFailure_ready hs .protocol nowUs

theorem resetSucceeded_ready (s : PrimaryRadioInterface) : s.resetSucceeded.Ready := ⟨fun _ => rfl, fun _ => by simp [resetSucceeded]⟩

@[simp] theorem resetFailed_toRadioInterface (s : PrimaryRadioInterface) (nowUs : Nat) :
    (s.resetFailed nowUs).toRadioInterface = s.toRadioInterface := by
  unfold resetFailed
  split <;> simp

/-- The decision to reset stands until a reset succeeds. -/
theorem resetFailed_required (hs : s.connectionResetRequired = true) (nowUs : Nat) :
    (s.resetFailed nowUs).connectionResetRequired = true := by
  unfold resetFailed
  split
  · exact hs
  · obtain ⟨sendStreak, timeoutStreak, -, -, ⟨-, heq⟩ | ⟨-, heq⟩⟩ := s.handleTransactionFailure_cases .protocol nowUs <;> rw [heq]
    exact hs

theorem Ready.of_required (hs : s.connectionResetRequired = true) : s.Ready :=
  ⟨fun h => absurd (hs.symm.trans h) (by simp), fun h => absurd (hs.symm.trans h) (by simp)⟩

theorem resetFailed_ready (hs : s.Ready) (nowUs : Nat) : (s.resetFailed nowUs).Ready := by
  unfold resetFailed
  split
  · exact ⟨hs.connected, hs.state⟩
  · exact handleTransactionFailure_ready hs .protocol nowUs

/-- The loop resets only when it has to. -/
theorem loopAction_reset {nowUs : Nat} (hs : s.Ready) (h : s.loopAction nowUs = .reset) :
    s.setPollInterval.beginConnectionReset.connectionResetRequired = true := by
  by_contra hnot
  have hnot : s.connectionResetRequired = false :=
    s.setPollInterval_keeps.connectionResetRequired.symm.trans (Bool.eq_false_iff.mpr hnot)
  simp [loopAction, hnot, hs.connected hnot] at h

/-- The loop gets to an exchange only when no reset is required. -/
theorem loopAction_exchange {nowUs : Nat} (h : s.loopAction nowUs = .exchange) : s.connectionResetRequired = false := by
  unfold loopAction at h
  split at h
  · split at h <;> cases h
  · split at h
    · cases h
    · rename_i hr
      simpa using hr

/-- The loop gets to an exchange only when the coordinator is connected. -/
theorem loopAction_exchange_connected {nowUs : Nat} (h : s.loopAction nowUs = .exchange) : s.disconnected = false := by
  unfold loopAction at h
  split at h
  · split at h <;> cases h
  · rename_i hd
    simpa using hd

end PrimaryRadioInterface
end Nerfnet
