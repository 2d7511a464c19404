import Nerfnet.Library.Backoff
import Nerfnet.Theorems.ControlState

/-! # When the coordinator tries to connect

A coordinator without a session calls `ConnectionReset` until a call succeeds. While it is connected
every pass makes a call, and the fourth failure disconnects it; then the calls are the tries of an
exponential backoff. -/

namespace Nerfnet
namespace PrimaryRadioInterface
variable {s t : PrimaryRadioInterface} {p : Pass} {ps fs : List Pass} {sinceUs n : ℕ}

def disconnectBackoff : Backoff.Policy := ⟨kInitialDisconnectBackoffUs, kMaxDisconnectBackoffUs, by decide⟩

/-- The waits before a try: they double from 100 ms to 800 ms, and then each of them is a second. -/
theorem elapsed_disconnectBackoff (k : ℕ) : disconnectBackoff.elapsed 0 k =
    if k ≤ 4 then kInitialDisconnectBackoffUs * 2 ^ k else 1600000 + (k - 4) * kMaxDisconnectBackoffUs := by
  have hdoubling : ∀ i ≤ 3, disconnectBackoff.initial * 2 ^ i ≤ disconnectBackoff.cap := by decide
  split
  · rename_i hk
    exact disconnectBackoff.elapsed_doubling fun i hi => hdoubling i (by omega)
  · rename_i hk
    have hindex : k = 4 + (k - 4) := by omega
    rw [hindex, disconnectBackoff.elapsed_capped (by decide), Nat.add_sub_cancel_left]
    rfl

/-- When `ConnectionReset` is called in the passes, and when it has failed or succeeded. -/
def resetTimes (s : PrimaryRadioInterface) : List Pass → List (ℕ × ℕ)
  | [] => []
  | p :: ps =>
    if s.loopAction p.nowUs = .reset then (p.nowUs, p.laterUs) :: resetTimes (s.loopPass p) ps
    else resetTimes (s.loopPass p) ps

/-- The clock of the loop, pass by pass. -/
def clock (ps : List Pass) : List (ℕ × ℕ) := ps.map fun p => (p.nowUs, p.laterUs)

/-! ### Disconnected -/

/-- The coordinator is disconnected, `n` calls have failed since, and the last of them, or what
    disconnected it, was at `sinceUs`. -/
structure Waiting (s : PrimaryRadioInterface) (sinceUs n : ℕ) : Prop where
  disconnected : s.disconnected = true
  nextRetryTimeUs : s.nextRetryTimeUs = sinceUs + disconnectBackoff.wait (n - 1)
  disconnectBackoffUs : s.disconnectBackoffUs = disconnectBackoff.wait n

theorem Waiting.loopAction (h : Waiting s sinceUs n) (nowUs : ℕ) :
    s.loopAction nowUs = if sinceUs + disconnectBackoff.wait (n - 1) ≤ nowUs then .reset else .wait := by
  simp only [PrimaryRadioInterface.loopAction, h.disconnected, h.nextRetryTimeUs, if_true, ← Nat.not_le, ite_not]

theorem setPollInterval_of_disconnected (h : s.disconnected = true) : s.setPollInterval = s := by
  simp only [setPollInterval, h, if_true]

theorem resetFailed_of_disconnected (h : s.disconnected = true) (nowUs : ℕ) :
    s.resetFailed nowUs = { s with
      nextRetryTimeUs := nowUs + s.disconnectBackoffUs
      disconnectBackoffUs := min (s.disconnectBackoffUs * 2) kMaxDisconnectBackoffUs } := by
  rw [resetFailed, if_pos h]

theorem resetFailed_of_connected (h : s.disconnected = false) (nowUs : ℕ) :
    s.resetFailed nowUs = s.handleTransactionFailure .protocol nowUs := by
  rw [resetFailed, if_neg (by simp [h])]

/-- A pass that does not connect waits, or its call fails and doubles the wait. -/
theorem Waiting.step (h : Waiting s sinceUs n) (hpass : Passed s p t) (ht : t.disconnected = true) :
    if sinceUs + disconnectBackoff.wait (n - 1) ≤ p.nowUs then Waiting t p.laterUs (n + 1) else Waiting t sinceUs n := by
  have haction := h.loopAction p.nowUs
  cases hpass with
  | waited r hwait =>
    rw [hwait] at haction
    split at haction
    · cases haction
    · rename_i hearly
      rw [if_neg hearly]
      exact ⟨h.disconnected, h.nextRetryTimeUs, h.disconnectBackoffUs⟩
  | resetSucceeded r hreset => cases ht
  | resetFailed r hreset =>
    rw [hreset] at haction
    split at haction
    · rename_i hdue
      rw [if_pos hdue, setPollInterval_of_disconnected h.disconnected]
      rw [resetFailed_of_disconnected (s := { s.beginConnectionReset with toRadioInterface := r }) h.disconnected]
      refine ⟨h.disconnected, ?_, ?_⟩
      · rw [Nat.add_sub_cancel]
        exact congrArg (p.laterUs + ·) h.disconnectBackoffUs
      · rw [disconnectBackoff.wait_succ, ← h.disconnectBackoffUs]
        rfl
    · cases haction
  | exchanged t result hexchange =>
    rw [hexchange] at haction
    split at haction <;> cases haction

/-- The coordinator stays disconnected. -/
def DisconnectedRun (s : PrimaryRadioInterface) (ps : List Pass) (t : PrimaryRadioInterface) : Prop :=
  Machine.Run (fun s p => some (s.loopPass p)) (fun s p => (s.loopPass p).disconnected = true) s ps t

/-- The calls of a disconnected coordinator are the tries of the backoff. -/
theorem Waiting.resetTimes (h : Waiting s sinceUs n) (hwf : s.tx.Wf) (hrun : DisconnectedRun s ps t) :
    s.resetTimes ps = disconnectBackoff.tries sinceUs n (clock ps) ∧
      ∃ lastUs, Waiting t lastUs (n + (s.resetTimes ps).length) := by
  unfold DisconnectedRun at hrun
  induction hrun generalizing sinceUs n with
  | nil s => exact ⟨rfl, sinceUs, h⟩
  | @cons s u t p ps hstays hpass _ ih =>
    obtain rfl := Option.some.inj hpass
    have hpassed := loopPass_passed hwf p
    have hnext := h.step hpassed hstays
    have hwf' := hpassed.lockSteps.wf hwf
    simp only [PrimaryRadioInterface.resetTimes, h.loopAction, clock, List.map_cons, Backoff.Policy.tries]
    split at hnext
    · rename_i hdue
      obtain ⟨htimes, lastUs, hlast⟩ := ih hnext hwf'
      refine ⟨by rw [if_pos hdue, if_pos rfl, if_pos hdue, htimes]; rfl, lastUs, ?_⟩
      rw [if_pos hdue, if_pos rfl, List.length_cons, ← Nat.add_assoc, Nat.add_right_comm]
      exact hlast
    · rename_i hearly
      obtain ⟨htimes, hlast⟩ := ih hnext hwf'
      rw [if_neg hearly, if_neg (by simp), if_neg hearly]
      exact ⟨htimes, hlast⟩

/-! ### Connected -/

/-- A connected coordinator has the initial backoff, so a disconnect starts the schedule anew. -/
def StartsAnew (s : PrimaryRadioInterface) (sinceUs : ℕ) : Prop :=
  (s.disconnected = true → Waiting s sinceUs 0) ∧
    (s.disconnected = false → s.disconnectBackoffUs = kInitialDisconnectBackoffUs)

theorem startsAnew_handleTransactionFailure {kind : FailureType} {nowUs : ℕ} (hs : s.disconnected = false)
    (hbackoff : s.disconnectBackoffUs = kInitialDisconnectBackoffUs) : (s.handleTransactionFailure kind nowUs).StartsAnew nowUs := by
  obtain ⟨sendStreak, timeoutStreak, -, -, ⟨-, heq⟩ | ⟨-, heq⟩⟩ := s.handleTransactionFailure_cases kind nowUs <;> rw [heq]
  · refine ⟨fun _ => ⟨rfl, ?_, ?_⟩, by simp⟩
    · rw [Nat.zero_sub, disconnectBackoff.wait_zero]
      exact congrArg (nowUs + ·) hbackoff
    · rw [disconnectBackoff.wait_zero]
      exact hbackoff
  · exact ⟨fun hd => absurd (hs.symm.trans hd) (by simp), fun _ => hbackoff⟩

theorem Passed.startsAnew (h : Passed s p t) (hs : s.disconnected = false)
    (hbackoff : s.disconnectBackoffUs = kInitialDisconnectBackoffUs) : t.StartsAnew p.laterUs := by
  have hpoll : s.setPollInterval.disconnectBackoffUs = s.disconnectBackoffUs := by
    unfold setPollInterval
    split_ifs <;> rfl
  have hconnected : s.setPollInterval.disconnected = false := s.setPollInterval_keeps.disconnected.trans hs
  cases h with
  | waited r => exact ⟨fun hd => absurd (hs.symm.trans hd) (by simp), fun _ => hbackoff⟩
  | resetSucceeded r => exact ⟨by simp [PrimaryRadioInterface.resetSucceeded], fun _ => rfl⟩
  | resetFailed r =>
    rw [resetFailed_of_connected (s := { s.setPollInterval.beginConnectionReset with toRadioInterface := r }) hconnected]
    exact startsAnew_handleTransactionFailure hconnected (hpoll.trans hbackoff)
  | exchanged t result _ hx =>
    have ht : t.disconnected = false ∧ t.disconnectBackoffUs = kInitialDisconnectBackoffUs := by
      cases hx <;> exact ⟨hconnected, hpoll.trans hbackoff⟩
    cases result with
    | success => exact ⟨by simp [afterExchange], fun _ => rfl⟩
    | sendFailure | timeoutFailure | protocolFailure => exact startsAnew_handleTransactionFailure ht.1 ht.2

theorem Passed.backoff (h : Passed s p t) (hs : s.disconnected = false → s.disconnectBackoffUs = kInitialDisconnectBackoffUs)
    (ht : t.disconnected = false) : t.disconnectBackoffUs = kInitialDisconnectBackoffUs := by
  cases hd : s.disconnected with
  | false => exact (h.startsAnew hd (hs hd)).2 ht
  | true =>
    have haction : s.loopAction p.nowUs ≠ .exchange := by
      simp only [PrimaryRadioInterface.loopAction, hd, if_true]
      split <;> simp
    cases h with
    | waited r => exact absurd (hd.symm.trans ht) (by simp)
    | resetSucceeded r => rfl
    | resetFailed r =>
      rw [setPollInterval_of_disconnected hd, resetFailed_of_disconnected (s := { s.beginConnectionReset with toRadioInterface := r }) hd] at ht
      exact absurd (hd.symm.trans ht) (by simp)
    | exchanged t result hexchange => exact absurd hexchange haction

/-- Whatever arrives: from a disconnect until a call succeeds the calls are the tries of a backoff that
    starts anew, so the `k`-th one after the first comes no earlier than the waits before it add up to. -/
theorem retry_schedule {pollIntervalUs : ℕ} (hrun : Runs (fun _ => True) { currentPollIntervalUs := pollIntervalUs } ps s)
    (hs : s.disconnected = false) (hd : (s.loopPass p).disconnected = true) (hstays : DisconnectedRun (s.loopPass p) fs t) :
    resetTimes (s.loopPass p) fs = disconnectBackoff.tries p.laterUs 0 (clock fs) ∧
      t.disconnectBackoffUs = disconnectBackoff.wait (resetTimes (s.loopPass p) fs).length ∧
      ((∀ time ∈ clock fs, time.1 ≤ time.2) → ∀ k time, (resetTimes (s.loopPass p) fs)[k]? = some time →
        p.laterUs + (if k ≤ 4 then kInitialDisconnectBackoffUs * 2 ^ k else 1600000 + (k - 4) * kMaxDisconnectBackoffUs) ≤ time.1) := by
  obtain ⟨hwf, hbackoff⟩ := Runs.invariant
    (P := fun s => s.disconnected = false → s.disconnectBackoffUs = kInitialDisconnectBackoffUs)
    (fun _ _ _ hs _ hpass => hpass.backoff hs) hrun TxState.wf_init (fun _ => rfl)
  have hpassed := loopPass_passed hwf p
  have hwaiting := (hpassed.startsAnew hs (hbackoff hs)).1 hd
  obtain ⟨htimes, lastUs, hlast⟩ := hwaiting.resetTimes (hpassed.lockSteps.wf hwf) hstays
  refine ⟨htimes, ?_, fun hclock k time htime => ?_⟩
  · rw [hlast.disconnectBackoffUs, Nat.zero_add]
  · rw [htimes] at htime
    have hspaced := disconnectBackoff.tries_spaced hclock time htime
    rwa [elapsed_disconnectBackoff] at hspaced

/-- The clock is read every 50 ms, up to 700 ms. -/
def slowPasses : List Pass := (List.range 15).map fun i => { nowUs := 50000 * i, laterUs := 50000 * i }

/-- No peer answers: the fourth call disconnects the coordinator, and in the next 700 ms it calls three times. -/
theorem retry_schedule_no_peer :
    ∃ s t, Runs (fun _ => True) { currentPollIntervalUs := 100 } [{}, {}, {}] s ∧ DisconnectedRun (s.loopPass {}) slowPasses t ∧
      resetTimes (s.loopPass {}) slowPasses = [(100000, 100000), (200000, 200000), (400000, 400000)] ∧
      t.disconnectBackoffUs = 800000 := by
  have hexec : ((Machine.exec (fun s p => some (loopPass s p)) (fun _ _ => True) { currentPollIntervalUs := 100 }
      [{}, {}, {}]).bind fun s => (Machine.exec (fun s p => some (loopPass s p)) (fun s p => (s.loopPass p).disconnected = true)
        (s.loopPass {}) slowPasses).map fun _ => (s.disconnected, (s.loopPass {}).disconnected)) = some (false, true) := by
    decide +kernel
  obtain ⟨s, hs, hexec⟩ := Option.bind_eq_some_iff.mp hexec
  obtain ⟨t, ht, hstate⟩ := Option.map_eq_some_iff.mp hexec
  obtain ⟨hconnected, hdisconnects⟩ := Prod.mk.inj hstate
  obtain ⟨htimes, hbackoff, -⟩ := retry_schedule (.of_exec hs) hconnected hdisconnects (.of_exec ht)
  have htries : disconnectBackoff.tries 0 0 (clock slowPasses) = [(100000, 100000), (200000, 200000), (400000, 400000)] := by
    decide +kernel
  have htimes := htimes.trans htries
  rw [htimes] at hbackoff
  exact ⟨s, t, .of_exec hs, .of_exec ht, htimes, hbackoff⟩

/-! ### Startup -/

/-- No call has succeeded since the constructor, and `n` have failed. -/
def Unconnected (s : PrimaryRadioInterface) (n : ℕ) : Prop :=
  (n < 4 ∧ s.disconnected = false ∧ s.connectionResetRequired = true ∧ s.sendFailStreak = n ∧ s.timeoutFailStreak = n ∧
      s.disconnectBackoffUs = kInitialDisconnectBackoffUs) ∨
    (4 ≤ n ∧ ∃ lastUs, Waiting s lastUs (n - 4))

/-- A disconnected coordinator connects by a call that succeeds, and not otherwise. -/
theorem Waiting.stays (h : Waiting s sinceUs n) (hpass : Passed s p t) (ht : t.connectionResetRequired = true) :
    t.disconnected = true := by
  cases hpass with
  | waited r => exact h.disconnected
  | resetSucceeded r => cases ht
  | resetFailed r =>
    rw [setPollInterval_of_disconnected h.disconnected,
      resetFailed_of_disconnected (s := { s.beginConnectionReset with toRadioInterface := r }) h.disconnected]
    exact h.disconnected
  | exchanged t result hexchange =>
    have haction := h.loopAction p.nowUs
    rw [hexchange] at haction
    split at haction <;> cases haction

theorem exceeds_self_iff : Exceeds n n ↔ 4 ≤ n := by
  simp only [Exceeds, kDisconnectFailureThreshold]
  omega

/-- A call that fails counts in both streaks. -/
theorem Unconnected.step (h : Unconnected s n) (hpass : Passed s p t) (ht : t.connectionResetRequired = true) :
    Unconnected t (n + if s.loopAction p.nowUs = .reset then 1 else 0) := by
  rcases h with ⟨hn, hconnected, hrequired, hsend, htimeout, hbackoff⟩ | ⟨hn, lastUs, hwaiting⟩
  · have haction : s.loopAction p.nowUs = .reset := by
      simp only [PrimaryRadioInterface.loopAction, hconnected, hrequired, Bool.false_eq_true, if_false, if_true]
    have hkeeps := s.setPollInterval_keeps
    have hstarts := hpass.startsAnew hconnected hbackoff
    rw [if_pos haction]
    cases hpass with
    | waited r hwait => cases haction.symm.trans hwait
    | exchanged t result hexchange => cases haction.symm.trans hexchange
    | resetSucceeded r => cases ht
    | resetFailed r =>
      rw [resetFailed_of_connected (s := { s.setPollInterval.beginConnectionReset with toRadioInterface := r })
        (hkeeps.disconnected.trans hconnected)] at ht hstarts ⊢
      obtain ⟨sendStreak, timeoutStreak, rfl, rfl, hcases⟩ :=
        handleTransactionFailure_cases { s.setPollInterval.beginConnectionReset with toRadioInterface := r } .protocol p.laterUs
      have hsendStreak : s.setPollInterval.beginConnectionReset.sendFailStreak + 1 = n + 1 :=
        congrArg (· + 1) (hkeeps.sendFailStreak.trans hsend)
      have htimeoutStreak : s.setPollInterval.beginConnectionReset.timeoutFailStreak + 1 = n + 1 :=
        congrArg (· + 1) (hkeeps.timeoutFailStreak.trans htimeout)
      simp only [reduceCtorEq, if_false, hsendStreak, htimeoutStreak, exceeds_self_iff] at hcases
      rcases hcases with ⟨hexceeds, heq⟩ | ⟨hbelow, heq⟩ <;> rw [heq] at ht hstarts ⊢
      · obtain rfl : n = 3 := by omega
        exact Or.inr ⟨Nat.le_refl 4, p.laterUs, hstarts.1 rfl⟩
      · have hstays := hkeeps.disconnected.trans hconnected
        exact Or.inl ⟨by omega, hstays, ht, rfl, rfl, hstarts.2 hstays⟩
  · have hnext := hwaiting.step hpass (hwaiting.stays hpass ht)
    rw [hwaiting.loopAction]
    split at hnext
    · rename_i hdue
      rw [if_pos hdue, if_pos rfl]
      have hindex : n - 4 + 1 = n + 1 - 4 := by omega
      exact Or.inr ⟨by omega, p.laterUs, hindex ▸ hnext⟩
    · rename_i hearly
      rw [if_neg hearly, if_neg (by simp)]
      exact Or.inr ⟨hn, lastUs, hnext⟩

/-- No call of `ConnectionReset` succeeds. -/
def UnconnectedRun (s : PrimaryRadioInterface) (ps : List Pass) (t : PrimaryRadioInterface) : Prop :=
  Machine.Run (fun s p => some (s.loopPass p)) (fun s p => (s.loopPass p).connectionResetRequired = true) s ps t

theorem Unconnected.run (h : Unconnected s n) (hwf : s.tx.Wf) (hrun : UnconnectedRun s ps t) :
    Unconnected t (n + (s.resetTimes ps).length) := by
  unfold UnconnectedRun at hrun
  induction hrun generalizing n with
  | nil s => exact h
  | @cons s u t p ps hrequired hpass _ ih =>
    obtain rfl := Option.some.inj hpass
    have hpassed := loopPass_passed hwf p
    have hlast := ih (h.step hpassed hrequired) (hpassed.lockSteps.wf hwf)
    simp only [PrimaryRadioInterface.resetTimes]
    split <;> rename_i haction
    · rw [if_pos haction] at hlast
      rwa [List.length_cons, Nat.add_comm _ 1, ← Nat.add_assoc]
    · rwa [if_neg haction, Nat.add_zero] at hlast

/-- Without a peer that answers, the first three failures leave the coordinator connected, and their number
    in both streaks; the fourth one disconnects it, and each further one doubles the backoff. -/
theorem startup_schedule {pollIntervalUs : ℕ} (hrun : UnconnectedRun { currentPollIntervalUs := pollIntervalUs } ps s) :
    ((resetTimes { currentPollIntervalUs := pollIntervalUs } ps).length < 4 →
      s.disconnected = false ∧ s.sendFailStreak = (resetTimes { currentPollIntervalUs := pollIntervalUs } ps).length ∧
        s.timeoutFailStreak = (resetTimes { currentPollIntervalUs := pollIntervalUs } ps).length) ∧
      (4 ≤ (resetTimes { currentPollIntervalUs := pollIntervalUs } ps).length →
        s.disconnected = true ∧ s.disconnectBackoffUs = min
          (kInitialDisconnectBackoffUs * 2 ^ ((resetTimes { currentPollIntervalUs := pollIntervalUs } ps).length - 4))
          kMaxDisconnectBackoffUs) := by
  have hlast := Unconnected.run (n := 0) (Or.inl ⟨by omega, rfl, rfl, rfl, rfl, rfl⟩) TxState.wf_init hrun
  rw [Nat.zero_add] at hlast
  rcases hlast with ⟨hn, hconnected, -, hsend, htimeout, -⟩ | ⟨hn, lastUs, hwaiting⟩
  · exact ⟨fun _ => ⟨hconnected, hsend, htimeout⟩, fun hn' => absurd hn (Nat.not_lt.mpr hn')⟩
  · exact ⟨fun hn' => absurd hn (Nat.not_le.mpr hn'), fun _ => ⟨hwaiting.disconnected, hwaiting.disconnectBackoffUs⟩⟩

theorem startup_schedule_six_failures :
    ∃ s, UnconnectedRun { currentPollIntervalUs := 100 } [{}, {}, {}, {}, { nowUs := 100000 }, { nowUs := 100000 }] s ∧
      s.disconnectBackoffUs = 400000 := by
  have hexec : (Machine.exec (fun s p => some (loopPass s p)) (fun s p => (s.loopPass p).connectionResetRequired = true)
      { currentPollIntervalUs := 100 } [{}, {}, {}, {}, { nowUs := 100000 }, { nowUs := 100000 }]).isSome = true := by decide +kernel
  obtain ⟨s, hs⟩ := Option.isSome_iff_exists.mp hexec
  have hcount : (resetTimes { currentPollIntervalUs := 100 } [{}, {}, {}, {}, { nowUs := 100000 }, { nowUs := 100000 }]).length = 6 := by
    decide +kernel
  have hstartup := (startup_schedule (.of_exec hs)).2
  rw [hcount] at hstartup
  exact ⟨s, .of_exec hs, (hstartup (by decide)).2⟩

end PrimaryRadioInterface
end Nerfnet
