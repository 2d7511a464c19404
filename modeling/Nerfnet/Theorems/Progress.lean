import Nerfnet.Library.Polling
import Nerfnet.Theorems.Calls

/-! # The loops come back

Every wait of the code has a deadline, apart from the peer's wait for a request. So on a clock that does
not go back and during whose sleeps the time passes, the coordinator without an `irq_line_` is at the top
of its loop again after a bounded number of calls, and the peer is in `Receive` again, whatever the radio
returns. -/

namespace Nerfnet
open Polling

/-! ### The clock -/

/-- A call with the time before it: the clock does not go back. -/
def DriverCall.OnTime (clock : ℕ) : DriverCall → Prop
  | .timeNowUs nowUs => clock ≤ nowUs
  | _ => True

/-- The time after a call, at the earliest. -/
def DriverCall.clock (clock : ℕ) : DriverCall → ℕ
  | .timeNowUs nowUs => nowUs
  | .sleepUs delay => clock + delay
  | _ => clock

namespace ThreadEvent

def OnTime (clock : ℕ) : ThreadEvent → Prop
  | .call driverCall => driverCall.OnTime clock
  | .compose _ | .tunnelThread _ => True

instance (clock : ℕ) (e : ThreadEvent) : Decidable (e.OnTime clock) := by
  unfold OnTime DriverCall.OnTime
  split
  · split <;> infer_instance
  · infer_instance
  · infer_instance

def clock (time : ℕ) : ThreadEvent → ℕ
  | .call driverCall => driverCall.clock time
  | .compose _ | .tunnelThread _ => time

/-- The loop's own events. -/
def own : ThreadEvent → Bool
  | .tunnelThread _ => false
  | _ => true

/-- A loop beside a clock. -/
def clocked {σ : Type} (step : σ → ThreadEvent → Option σ) (s : σ × ℕ) (e : ThreadEvent) : Option (σ × ℕ) :=
  (step s.1 e).map fun t => (t, e.clock s.2)

theorem countP_own_call (calls : List DriverCall) : (calls.map call).countP own = calls.length := by
  rw [List.countP_map]
  exact List.countP_eq_length.mpr fun _ _ => rfl

end ThreadEvent

/-- `Send` or `Receive` looks at the radio every 50 microseconds and finds that it is not ready. -/
def polls (look : DriverCall) (startUs n : ℕ) : List DriverCall :=
  (List.range n).flatMap fun k => [look, .timeNowUs (startUs + kPollSleepUs * k), .sleepUs kPollSleepUs]

theorem polls_succ (look : DriverCall) (startUs n : ℕ) :
    polls look startUs (n + 1) = polls look startUs n ++ [look, .timeNowUs (startUs + kPollSleepUs * n), .sleepUs kPollSleepUs] := by
  rw [polls, List.range_succ, List.flatMap_append, List.flatMap_singleton, polls]

theorem polls_length (look : DriverCall) (startUs n : ℕ) : (polls look startUs n).length = 3 * n := by
  induction n with
  | zero => rfl
  | succ n ih =>
    rw [polls_succ, List.length_append, ih]
    rfl

/-- Where each look, with its look at the clock and its sleep, leaves the loop in the same place, any number
    of them does. -/
theorem polls_run {σ : Type} {step : σ → ThreadEvent → Option σ} {s : σ} {look : DriverCall} {startUs n : ℕ} (looked late : σ)
    (honTime : ∀ clock, look.OnTime clock) (hclock : ∀ clock, look.clock clock = clock) (hlook : step s (.call look) = some looked)
    (hnow : ∀ k < n, step looked (.call (.timeNowUs (startUs + kPollSleepUs * k))) = some late)
    (hsleep : step late (.call (.sleepUs kPollSleepUs)) = some s) :
    Machine.Run (ThreadEvent.clocked step) (fun s e => e.OnTime s.2) (s, startUs) ((polls look startUs n).map .call)
      (s, startUs + kPollSleepUs * n) := by
  induction n with
  | zero => exact .nil _
  | succ n ih =>
    rw [polls_succ, List.map_append]
    refine (ih fun k hk => hnow k (Nat.lt_succ_of_lt hk)).append ?_
    refine .cons (t := (looked, startUs + kPollSleepUs * n)) (honTime _) ?_
      (.cons (t := (late, startUs + kPollSleepUs * n)) (Nat.le_refl _) ?_ (.cons trivial ?_ (.nil _)))
    · simp only [ThreadEvent.clocked, hlook, Option.map_some, ThreadEvent.clock, hclock]
    · simp only [ThreadEvent.clocked, hnow n (Nat.lt_succ_self n), Option.map_some, ThreadEvent.clock, DriverCall.clock]
    · simp only [ThreadEvent.clocked, hsleep, Option.map_some, ThreadEvent.clock, DriverCall.clock, Nat.mul_succ, Nat.add_assoc]

/-! ### Send -/

section
variable {request : Bytes} {call : DriverCall} {clock timeoutUs : ℕ}

/-- How many calls `Send` makes at most. -/
def sendCalls : ℕ := 7 + 3 * ((kTxStandbyTimeoutUs + (kPollSleepUs - 1)) / kPollSleepUs)

namespace SendPhase

def callsLeft (clock : ℕ) : SendPhase → ℕ
  | .stopListening => sendCalls
  | .write => sendCalls - 1
  | .deadline => sendCalls - 2
  | .standBy deadlineUs => 3 * sleepsLeft kPollSleepUs deadlineUs clock + 4
  | .expired deadlineUs => 3 * sleepsLeft kPollSleepUs deadlineUs clock + 3
  | .sleeping deadlineUs => 3 * sleepsLeft kPollSleepUs deadlineUs clock + 2
  | .flush => 2
  | .recovering => 1
  | .returned _ => 0

/-- `Send` sleeps before its deadline only. -/
def OnTime (clock : ℕ) : SendPhase → Prop
  | .sleeping deadlineUs => clock < deadlineUs
  | _ => True

end SendPhase

theorem sendStep_calls {phase next : SendPhase} (h : phase.OnTime clock) (hcall : call.OnTime clock)
    (hstep : sendStep request phase call = some next) :
    next.OnTime (call.clock clock) ∧ next.callsLeft (call.clock clock) < phase.callsLeft clock := by
  have hsleep : 0 < kPollSleepUs := by decide
  have hcalls : sendCalls = 3 * ((kTxStandbyTimeoutUs + (kPollSleepUs - 1)) / kPollSleepUs) + 7 := by decide
  cases phase <;> cases call <;> simp only [sendStep, reduceCtorEq, Option.ite_none_right_eq_some, Option.some.injEq] at hstep
  case stopListening.stopListening =>
    subst hstep
    split <;> simp only [SendPhase.OnTime, SendPhase.callsLeft] <;> exact ⟨trivial, by omega⟩
  case write.write packet ok =>
    obtain ⟨rfl, rfl⟩ := hstep
    cases ok <;> simp only [SendPhase.OnTime, SendPhase.callsLeft, Bool.false_eq_true, if_false, if_true] <;>
      exact ⟨trivial, by omega⟩
  case deadline.timeNowUs nowUs =>
    subst hstep
    refine ⟨trivial, ?_⟩
    have hstart := sleepsLeft_start kPollSleepUs kTxStandbyTimeoutUs nowUs
    simp only [SendPhase.callsLeft, DriverCall.clock]
    omega
  case standBy.txStandBy deadlineUs ok =>
    subst hstep
    cases ok <;> simp only [SendPhase.OnTime, SendPhase.callsLeft, DriverCall.clock, Bool.false_eq_true, if_false, if_true] <;>
      exact ⟨trivial, by omega⟩
  case expired.timeNowUs deadlineUs nowUs =>
    have hlater := sleepsLeft_le kPollSleepUs deadlineUs hcall
    by_cases hexpired : deadlineUs ≤ nowUs
    · rw [if_pos hexpired] at hstep
      subst hstep
      simp only [SendPhase.OnTime, SendPhase.callsLeft]
      exact ⟨trivial, by omega⟩
    · rw [if_neg hexpired] at hstep
      subst hstep
      simp only [SendPhase.OnTime, SendPhase.callsLeft, DriverCall.clock]
      exact ⟨Nat.lt_of_not_le hexpired, by omega⟩
  case sleeping.sleepUs deadlineUs delay =>
    obtain ⟨rfl, rfl⟩ := hstep
    have hslept := sleepsLeft_sleep hsleep h
    refine ⟨trivial, ?_⟩
    simp only [SendPhase.callsLeft, DriverCall.clock]
    omega
  case flush.flushTx =>
    subst hstep
    exact ⟨trivial, Nat.one_lt_two⟩
  case recovering.sleepUs delay =>
    obtain ⟨-, rfl⟩ := hstep
    exact ⟨trivial, Nat.one_pos⟩

/-! ### Receive, without a line -/

/-- How many calls `Receive` makes at most. -/
def receiveCalls (timeoutUs : ℕ) : ℕ := 5 + 3 * ((timeoutUs + 1 + (kPollSleepUs - 1)) / kPollSleepUs)

/-- The deadline has passed when the clock is beyond it. -/
def WaitPhase.callsLeft (timeoutUs clock : ℕ) : WaitPhase → ℕ
  | .start => receiveCalls timeoutUs - 2
  | .poll startUs => 3 * sleepsLeft kPollSleepUs (startUs + (timeoutUs + 1)) clock + 2
  | .expired startUs => 3 * sleepsLeft kPollSleepUs (startUs + (timeoutUs + 1)) clock + 1
  | .sleeping startUs => 3 * sleepsLeft kPollSleepUs (startUs + (timeoutUs + 1)) clock
  | _ => 0

def WaitPhase.OnTime (timeoutUs clock : ℕ) : WaitPhase → Prop
  | .sleeping startUs => clock < startUs + (timeoutUs + 1)
  | .test _ | .remaining _ | .eventWait _ _ | .eventRead _ => False
  | _ => True

theorem waitStep_calls {phase next : WaitPhase} (htimeout : timeoutUs ≠ 0) (h : phase.OnTime timeoutUs clock) (hcall : call.OnTime clock)
    (hstep : waitStep false timeoutUs phase call = some next) :
    next.OnTime timeoutUs (call.clock clock) ∧ next.callsLeft timeoutUs (call.clock clock) < phase.callsLeft timeoutUs clock := by
  have hsleep : 0 < kPollSleepUs := by decide
  cases phase <;> try contradiction
  all_goals
    cases call <;> simp only [waitStep, reduceCtorEq, Option.ite_none_right_eq_some, Option.some.injEq] at hstep
  case start.timeNowUs nowUs =>
    subst hstep
    refine ⟨trivial, ?_⟩
    have hstart := sleepsLeft_start kPollSleepUs (timeoutUs + 1) nowUs
    simp only [WaitPhase.callsLeft, receiveCalls, DriverCall.clock, if_false]
    omega
  case poll.available startUs ready =>
    rw [if_pos htimeout] at hstep
    subst hstep
    cases ready <;> simp only [WaitPhase.OnTime, WaitPhase.callsLeft, DriverCall.clock, Bool.false_eq_true, if_false, if_true] <;>
      exact ⟨trivial, by omega⟩
  case expired.timeNowUs startUs nowUs =>
    have hlater := sleepsLeft_le kPollSleepUs (startUs + (timeoutUs + 1)) hcall
    by_cases hexpired : startUs + timeoutUs < nowUs
    · rw [if_pos hexpired] at hstep
      subst hstep
      simp only [WaitPhase.OnTime, WaitPhase.callsLeft]
      exact ⟨trivial, by omega⟩
    · rw [if_neg hexpired] at hstep
      subst hstep
      simp only [WaitPhase.OnTime, WaitPhase.callsLeft, DriverCall.clock]
      exact ⟨by omega, by omega⟩
  case sleeping.sleepUs startUs delay =>
    obtain ⟨rfl, rfl⟩ := hstep
    have hslept := sleepsLeft_sleep hsleep h
    refine ⟨trivial, ?_⟩
    simp only [WaitPhase.callsLeft, DriverCall.clock]
    omega

namespace ReceivePhase

def callsLeft (timeoutUs clock : ℕ) : ReceivePhase → ℕ
  | .startListening => receiveCalls timeoutUs
  | .waiting phase => phase.callsLeft timeoutUs clock + 1
  | .read => 1
  | .returned _ => 0

def OnTime (timeoutUs clock : ℕ) : ReceivePhase → Prop
  | .waiting phase => phase.OnTime timeoutUs clock
  | _ => True

end ReceivePhase

theorem receiveStep_calls {phase next : ReceivePhase} (htimeout : timeoutUs ≠ 0) (h : phase.OnTime timeoutUs clock)
    (hcall : call.OnTime clock) (hstep : receiveStep false timeoutUs phase call = some next) :
    next.OnTime timeoutUs (call.clock clock) ∧ next.callsLeft timeoutUs (call.clock clock) < phase.callsLeft timeoutUs clock := by
  cases phase with
  | startListening =>
    cases call <;> simp only [receiveStep, reduceCtorEq, Option.some.injEq] at hstep
    subst hstep
    refine ⟨trivial, ?_⟩
    simp only [waitStart, Bool.false_eq_true, false_and, if_false, ReceivePhase.callsLeft, WaitPhase.callsLeft, receiveCalls]
    omega
  | waiting phase =>
    simp only [receiveStep, Option.map_eq_some_iff] at hstep
    obtain ⟨waited, hwait, rfl⟩ := hstep
    obtain ⟨hontime, hcalls⟩ := waitStep_calls htimeout h hcall hwait
    cases waited with
    | returned result =>
      by_cases hsuccess : result = .success
      · simp only [if_pos hsuccess]
        exact ⟨trivial, Nat.succ_lt_succ (Nat.zero_lt_of_lt hcalls)⟩
      · simp only [if_neg hsuccess]
        exact ⟨trivial, Nat.succ_pos _⟩
    | _ => exact ⟨hontime, Nat.succ_lt_succ hcalls⟩
  | read =>
    cases call <;> simp only [receiveStep, reduceCtorEq, Option.ite_none_right_eq_some, Option.some.injEq] at hstep
    obtain ⟨-, rfl⟩ := hstep
    exact ⟨trivial, Nat.one_pos⟩
  | returned response => cases call <;> simp [receiveStep] at hstep

end

/-! ### The coordinator -/

namespace CoordinatorThread
variable {s t u : CoordinatorThread} {clock : ℕ} {e : ThreadEvent}

/-- How many steps of its own a pass of the loop takes at most. -/
def passCalls : ℕ := sendCalls + receiveCalls kResponseTimeoutUs + 6

def callsLeft (s : CoordinatorThread) (clock : ℕ) : ℕ :=
  match s.phase with
  | .top => passCalls
  | .retryWait | .resetFailure | .confirmedFlushTx | .statistics => 1
  | .failure _ | .confirmedFlushRx => 2
  | .gap => 3
  | .receive _ phase => phase.callsLeft kResponseTimeoutUs clock + 3
  | .send _ _ phase => phase.callsLeft clock + receiveCalls kResponseTimeoutUs + 3
  | .resetReceive phase => phase.callsLeft kResponseTimeoutUs clock + 2
  | .resetSend _ phase => phase.callsLeft clock + receiveCalls kResponseTimeoutUs + 2
  | .flushTx => sendCalls + receiveCalls kResponseTimeoutUs + 3
  | .flushRx | .compose => sendCalls + receiveCalls kResponseTimeoutUs + 4
  | .pollSleep => sendCalls + receiveCalls kResponseTimeoutUs + 5

def OnTime (s : CoordinatorThread) (clock : ℕ) : Prop :=
  match s.phase with
  | .resetSend _ phase | .send _ _ phase => phase.OnTime clock
  | .resetReceive phase | .receive _ phase => phase.OnTime kResponseTimeoutUs clock
  | _ => True

theorem resetFails_calls (r : PrimaryRadioInterface) (phase : CoordinatorPhase) (clock : ℕ) :
    (resetFails ⟨r, phase⟩).OnTime clock ∧
      ((resetFails ⟨r, phase⟩).phase = .top ∨ (resetFails ⟨r, phase⟩).callsLeft clock ≤ 1) := by
  rcases resetFails_cases r phase with heq | heq <;> rw [heq]
  · exact ⟨trivial, .inr (Nat.le_refl _)⟩
  · exact ⟨trivial, .inl rfl⟩

theorem exchangeReturns_calls (r : PrimaryRadioInterface) (phase : CoordinatorPhase) (result : ExchangeResult) (clock : ℕ) :
    (exchangeReturns ⟨r, phase⟩ result).OnTime clock ∧ (exchangeReturns ⟨r, phase⟩ result).callsLeft clock ≤ 2 := by
  rcases exchangeReturns_cases r phase result with heq | heq <;> rw [heq]
  · exact ⟨trivial, Nat.le_refl _⟩
  · exact ⟨trivial, Nat.le_succ 1⟩

theorem completeExchange_calls (r : PrimaryRadioInterface) (phase : CoordinatorPhase) (tx : MacFrame) (response : Option Bytes)
    (clock : ℕ) :
    (completeExchange ⟨r, phase⟩ tx response).OnTime clock ∧ (completeExchange ⟨r, phase⟩ tx response).callsLeft clock ≤ 3 := by
  rcases completeExchange_cases r phase tx response with ⟨heq, -⟩ | heq <;> rw [heq]
  · exact ⟨trivial, Nat.le_refl _⟩
  · obtain ⟨hontime, hcalls⟩ := exchangeReturns_calls (r.completeExchange tx response).1 phase (r.completeExchange tx response).2 clock
    exact ⟨hontime, Nat.le_succ_of_le hcalls⟩

/-- A call takes the loop nearer to its top. -/
theorem step_calls {call : DriverCall} (h : s.OnTime clock) (hcall : call.OnTime clock) (hstep : Step false s (.call call) t) :
    t.OnTime (call.clock clock) ∧ (t.phase = .top ∨ t.callsLeft (call.clock clock) < s.callsLeft clock) := by
  have htimeout : kResponseTimeoutUs ≠ 0 := by decide
  cases hstep with
  | wait | retry | poll => exact ⟨trivial, .inr (by simp only [callsLeft, passCalls]; omega)⟩
  | polled r => cases r.connectionResetRequired <;> exact ⟨trivial, .inr (Nat.lt_succ_self _)⟩
  | flushRx | flushTx | confirmedFlushRx | failure => exact ⟨trivial, .inr (by simp only [callsLeft, SendPhase.callsLeft]; omega)⟩
  | waited | confirmedFlushTx | resetFailure | statistics => exact ⟨trivial, .inl rfl⟩
  | resetSend r request hsend =>
    obtain ⟨hontime, hcalls⟩ := sendStep_calls h hcall hsend
    exact ⟨hontime, .inr (by simp only [callsLeft]; omega)⟩
  | resetSent r request hsend =>
    obtain ⟨-, hcalls⟩ := sendStep_calls h hcall hsend
    exact ⟨trivial, .inr (by simp only [callsLeft, ReceivePhase.callsLeft]; omega)⟩
  | @resetUnsent r request phase _ result hsend hresult =>
    obtain ⟨-, hcalls⟩ := sendStep_calls h hcall hsend
    obtain ⟨hontime, hend⟩ := resetFails_calls r (.resetSend request phase) (call.clock clock)
    exact ⟨hontime, hend.imp_right fun hend => by simp only [callsLeft] at hend ⊢; omega⟩
  | resetReceive r hreceive =>
    obtain ⟨hontime, hcalls⟩ := receiveStep_calls htimeout h hcall hreceive
    exact ⟨hontime, .inr (by simp only [callsLeft]; omega)⟩
  | resetConfirmed r hreceive =>
    obtain ⟨-, hcalls⟩ := receiveStep_calls htimeout h hcall hreceive
    exact ⟨trivial, .inr (by simp only [callsLeft]; omega)⟩
  | @resetRefused r phase _ response hreceive =>
    obtain ⟨-, hcalls⟩ := receiveStep_calls htimeout h hcall hreceive
    obtain ⟨hontime, hend⟩ := resetFails_calls r (.resetReceive phase) (call.clock clock)
    exact ⟨hontime, hend.imp_right fun hend => by simp only [callsLeft] at hend ⊢; omega⟩
  | send r tx request hsend =>
    obtain ⟨hontime, hcalls⟩ := sendStep_calls h hcall hsend
    exact ⟨hontime, .inr (by simp only [callsLeft]; omega)⟩
  | sent r tx request hsend =>
    obtain ⟨-, hcalls⟩ := sendStep_calls h hcall hsend
    exact ⟨trivial, .inr (by simp only [callsLeft, ReceivePhase.callsLeft]; omega)⟩
  | @unsent r tx request phase _ result hsend hresult =>
    obtain ⟨-, hcalls⟩ := sendStep_calls h hcall hsend
    obtain ⟨hontime, hend⟩ := exchangeReturns_calls r (.send tx request phase) .sendFailure (call.clock clock)
    exact ⟨hontime, .inr (by simp only [callsLeft] at hend ⊢; omega)⟩
  | receive r tx hreceive =>
    obtain ⟨hontime, hcalls⟩ := receiveStep_calls htimeout h hcall hreceive
    exact ⟨hontime, .inr (by simp only [callsLeft]; omega)⟩
  | @received r tx phase _ response hreceive =>
    obtain ⟨-, hcalls⟩ := receiveStep_calls htimeout h hcall hreceive
    obtain ⟨hontime, hend⟩ := completeExchange_calls r (.receive tx phase) tx response (call.clock clock)
    exact ⟨hontime, .inr (by simp only [callsLeft] at hend ⊢; omega)⟩
  | gap r =>
    obtain ⟨hontime, hend⟩ := exchangeReturns_calls r .gap .success (DriverCall.clock clock (.sleepUs kPostDataExchangeGapUs))
    exact ⟨hontime, .inr (Nat.lt_succ_of_le hend)⟩

/-- So does the choice of a frame; what `TunnelThread` does makes no difference. -/
theorem step_onTime (h : s.OnTime clock) (he : e.OnTime clock) (hstep : Step false s e t) :
    t.OnTime (e.clock clock) ∧
      if e.own then t.phase = .top ∨ t.callsLeft (e.clock clock) < s.callsLeft clock else t.callsLeft (e.clock clock) ≤ s.callsLeft clock := by
  cases e with
  | call call => exact step_calls h he hstep
  | tunnelThread reads =>
    cases hstep
    exact ⟨h, Nat.le_refl _⟩
  | compose reads =>
    cases hstep with
    | @composeFails r u _ hprepare =>
      obtain ⟨hontime, hend⟩ := exchangeReturns_calls u .compose .protocolFailure clock
      exact ⟨hontime, .inr (Nat.lt_of_le_of_lt hend (by simp only [callsLeft]; omega))⟩
    | compose hprepare => exact ⟨trivial, .inr (by simp only [callsLeft, SendPhase.callsLeft]; omega)⟩

/-- Whatever the radio does: among any `passCalls + 1` steps of its own, one takes the coordinator to the
    top of its loop. -/
theorem coordinator_comes_back {r : PrimaryRadioInterface} {start : ℕ} {es fs : List ThreadEvent} {s t : CoordinatorThread × ℕ}
    (hstart : Machine.Run (ThreadEvent.clocked (step false)) (fun s e => e.OnTime s.2) ({ radio := r }, start) es s)
    (hrun : Machine.Run (ThreadEvent.clocked (step false)) (fun s e => e.OnTime s.2) s fs t)
    (hlong : passCalls < fs.countP ThreadEvent.own) :
    ∃ before e after u, fs = before ++ e :: after ∧ e.own = true ∧
      Machine.Run (ThreadEvent.clocked (step false)) (fun s e => e.OnTime s.2) s (before ++ [e]) u ∧ u.1.phase = .top ∧
      Machine.Run (ThreadEvent.clocked (step false)) (fun s e => e.OnTime s.2) u after t := by
  refine Machine.Run.recurs (fun s => s.1.OnTime s.2) (fun s => s.1.phase = .top) (fun s => s.1.callsLeft s.2) passCalls
    (fun s e t h he hstep => ?_) (fun s htop => ?_) ⟨trivial, Nat.le_refl _⟩ hstart hrun hlong
  · obtain ⟨u, hu, rfl⟩ := Option.map_eq_some_iff.mp hstep
    exact step_onTime h he (step_cases hu)
  · rw [callsLeft, htop]

example : passCalls = 7221 := by decide

def resetRequest : Bytes := (encodeMacFrame resetFrame).getD []

/-- The first `ConnectionReset` of a run: `txStandBy` succeeds at the last moment only, and no response
    comes. In the end the next one begins. -/
def slowReset : List DriverCall :=
  [DriverCall.timeNowUs 0, .sleepUs 1000, .flushRx, .flushTx, .stopListening, .write resetRequest true, .timeNowUs 1000] ++
    polls (.txStandBy false) 1000 400 ++ [DriverCall.txStandBy true, .startListening, .timeNowUs 21000] ++
    polls (.available false) 21000 2001 ++
  [DriverCall.available false, .timeNowUs 121050, .timeNowUs 121050, .sleepUs 1000, .flushRx, .flushTx, .stopListening,
    .write resetRequest true, .timeNowUs 122050]

/-- The coordinator as `ConnectionReset` leaves it before it calls `Send`. -/
def resetting : PrimaryRadioInterface := (PrimaryRadioInterface.setPollInterval { currentPollIntervalUs := 100 }).beginConnectionReset

theorem slowReset_run :
    ∃ t, Machine.Run (ThreadEvent.clocked (step false)) (fun s e => e.OnTime s.2) ({ radio := { currentPollIntervalUs := 100 } }, 0)
      (slowReset.map .call) t := by
  have hstart : Machine.Run (ThreadEvent.clocked (step false)) (fun s e => e.OnTime s.2)
      ({ radio := { currentPollIntervalUs := 100 } }, 0)
      ([.timeNowUs 0, .sleepUs 1000, .flushRx, .flushTx, .stopListening, .write resetRequest true, .timeNowUs 1000].map .call)
      ({ radio := resetting, phase := .resetSend resetRequest (.standBy 21000) }, 1000) := .of_exec (by decide +kernel)
  have hstandBy : Machine.Run (ThreadEvent.clocked (step false)) (fun s e => e.OnTime s.2)
      ({ radio := resetting, phase := .resetSend resetRequest (.standBy 21000) }, 1000)
      ((polls (.txStandBy false) 1000 400).map .call)
      ({ radio := resetting, phase := .resetSend resetRequest (.standBy 21000) }, 21000) := by
    refine polls_run { radio := resetting, phase := .resetSend resetRequest (.expired 21000) }
      { radio := resetting, phase := .resetSend resetRequest (.sleeping 21000) } (fun _ => trivial) (fun _ => rfl) rfl
      (fun k hk => ?_) rfl
    have hearly : ¬21000 ≤ 1000 + kPollSleepUs * k := by
      simp only [kPollSleepUs]
      omega
    simp only [step, sendStep, if_neg hearly, Option.map_some]
  have hsent : Machine.Run (ThreadEvent.clocked (step false)) (fun s e => e.OnTime s.2)
      ({ radio := resetting, phase := .resetSend resetRequest (.standBy 21000) }, 21000)
      ([.txStandBy true, .startListening, .timeNowUs 21000].map .call)
      ({ radio := resetting, phase := .resetReceive (.waiting (.poll 21000)) }, 21000) := .of_exec (by decide +kernel)
  have hwait : Machine.Run (ThreadEvent.clocked (step false)) (fun s e => e.OnTime s.2)
      ({ radio := resetting, phase := .resetReceive (.waiting (.poll 21000)) }, 21000)
      ((polls (.available false) 21000 2001).map .call)
      ({ radio := resetting, phase := .resetReceive (.waiting (.poll 21000)) }, 121050) := by
    refine polls_run { radio := resetting, phase := .resetReceive (.waiting (.expired 21000)) }
      { radio := resetting, phase := .resetReceive (.waiting (.sleeping 21000)) } (fun _ => trivial) (fun _ => rfl) rfl
      (fun k hk => ?_) rfl
    have hearly : ¬21000 + kResponseTimeoutUs < 21000 + kPollSleepUs * k := by
      simp only [kPollSleepUs, kResponseTimeoutUs]
      omega
    simp only [step, receiveStep, waitStep, if_neg hearly, Option.map_some]
  have hnext : (Machine.exec (ThreadEvent.clocked (step false)) (fun s e => e.OnTime s.2)
      ({ radio := resetting, phase := .resetReceive (.waiting (.poll 21000)) }, 121050)
      ([.available false, .timeNowUs 121050, .timeNowUs 121050, .sleepUs 1000, .flushRx, .flushTx, .stopListening,
        .write resetRequest true, .timeNowUs 122050].map .call)).isSome = true := by decide +kernel
  obtain ⟨t, ht⟩ := Option.isSome_iff_exists.mp hnext
  have hrun := (((hstart.append hstandBy).append hsent).append hwait).append (.of_exec ht)
  refine ⟨t, ?_⟩
  rw [slowReset, List.map_append, List.map_append, List.map_append, List.map_append]
  exact hrun

theorem coordinator_comes_back_slow_reset :
    ∃ before e after u, slowReset.map .call = before ++ e :: after ∧ e.own = true ∧ u.1.phase = CoordinatorPhase.top ∧
      Machine.Run (ThreadEvent.clocked (step false)) (fun s e => e.OnTime s.2) ({ radio := { currentPollIntervalUs := 100 } }, 0)
        (before ++ [e]) u := by
  obtain ⟨t, hrun⟩ := slowReset_run
  have hcount : (slowReset.map ThreadEvent.call).countP ThreadEvent.own = 7222 := by
    rw [ThreadEvent.countP_own_call, slowReset, List.length_append, List.length_append, List.length_append,
      List.length_append, polls_length, polls_length]
    rfl
  obtain ⟨before, e, after, u, hsplit, hown, hrun, htop, -⟩ := coordinator_comes_back (.nil _) hrun (by rw [hcount]; decide)
  exact ⟨before, e, after, u, hsplit, hown, htop, hrun⟩

end CoordinatorThread

/-! ### The peer -/

namespace PeerThread
variable {irq : Bool} {s t : PeerThread} {clock : ℕ} {e : ThreadEvent}

/-- How many steps of its own the peer takes at most between two calls of `Receive`. -/
def answerCalls : ℕ := sendCalls + 3

def callsLeft (s : PeerThread) (clock : ℕ) : ℕ :=
  match s.phase with
  | .receive _ => answerCalls
  | .handle _ => sendCalls + 2
  | .send _ _ phase => phase.callsLeft clock + 1
  | .statistics => 1

def OnTime (s : PeerThread) (clock : ℕ) : Prop :=
  match s.phase with
  | .send _ _ phase => phase.OnTime clock
  | _ => True

def Receiving (s : PeerThread) : Prop := ∃ phase, s.phase = .receive phase

theorem step_onTime (h : s.OnTime clock) (he : e.OnTime clock) (hstep : Step irq s e t) :
    t.OnTime (e.clock clock) ∧
      if e.own then t.Receiving ∨ t.callsLeft (e.clock clock) < s.callsLeft clock else t.callsLeft (e.clock clock) ≤ s.callsLeft clock := by
  cases hstep with
  | tunnelThread r phase reads => exact ⟨h, Nat.le_refl _⟩
  | receive | notReceived | statistics => exact ⟨trivial, .inl ⟨_, rfl⟩⟩
  | ignored => exact ⟨trivial, .inl ⟨_, rfl⟩⟩
  | received => exact ⟨trivial, .inr (Nat.lt_succ_self _)⟩
  | answered hhandle => exact ⟨trivial, .inr (Nat.lt_succ_self _)⟩
  | send r request response hsend =>
    obtain ⟨hontime, hcalls⟩ := sendStep_calls h he hsend
    exact ⟨hontime, .inr (Nat.succ_lt_succ hcalls)⟩
  | @sent r request response phase _ result hsend =>
    obtain ⟨-, hcalls⟩ := sendStep_calls h he hsend
    rcases sent_cases r (.send request response phase) request with heq | heq <;> rw [heq]
    · exact ⟨trivial, .inl ⟨_, rfl⟩⟩
    · exact ⟨trivial, .inr (Nat.succ_lt_succ (Nat.zero_lt_of_lt hcalls))⟩

/-- Whatever the radio does, with a line or without one: among any `answerCalls + 1` steps of its own, one
    leaves the peer in `Receive`. -/
theorem peer_comes_back {r : SecondaryRadioInterface} {start : ℕ} {es fs : List ThreadEvent} {s t : PeerThread × ℕ}
    (hstart : Machine.Run (ThreadEvent.clocked (step irq)) (fun s e => e.OnTime s.2) ({ radio := r }, start) es s)
    (hrun : Machine.Run (ThreadEvent.clocked (step irq)) (fun s e => e.OnTime s.2) s fs t)
    (hlong : answerCalls < fs.countP ThreadEvent.own) :
    ∃ before e after u, fs = before ++ e :: after ∧ e.own = true ∧
      Machine.Run (ThreadEvent.clocked (step irq)) (fun s e => e.OnTime s.2) s (before ++ [e]) u ∧ u.1.Receiving ∧
      Machine.Run (ThreadEvent.clocked (step irq)) (fun s e => e.OnTime s.2) u after t := by
  refine Machine.Run.recurs (fun s => s.1.OnTime s.2) (fun s => s.1.Receiving) (fun s => s.1.callsLeft s.2) answerCalls
    (fun s e t h he hstep => ?_) (fun s hreceiving => ?_) ⟨trivial, Nat.le_refl _⟩ hstart hrun hlong
  · obtain ⟨u, hu, rfl⟩ := Option.map_eq_some_iff.mp hstep
    exact step_onTime h he (step_cases hu)
  · obtain ⟨phase, hphase⟩ := hreceiving
    rw [callsLeft, hphase]

example : answerCalls = 1210 := by decide

def pendingRequest : Bytes := (encodeMacFrame { type := .pending }).getD []

def pendingAnswer : SecondaryRadioInterface × Option Bytes := SecondaryRadioInterface.handleRequest {} pendingRequest []

/-- The answer to a request is not sent within its deadline, and the peer listens again. -/
def unsentAnswer : List ThreadEvent :=
  [ThreadEvent.call (.read pendingRequest), .compose [], .call .stopListening, .call (.write (pendingAnswer.2.getD []) true),
      .call (.timeNowUs 0)] ++
    (polls (.txStandBy false) 0 400).map ThreadEvent.call ++
  [DriverCall.txStandBy false, .timeNowUs 20000, .flushTx, .sleepUs kTxFailureRecoveryGapUs, .timeNowUs 20200, .startListening].map
    ThreadEvent.call

theorem unsentAnswer_run :
    ∃ t, Machine.Run (ThreadEvent.clocked (step true)) (fun s e => e.OnTime s.2) ({ radio := {}, phase := .receive .read }, 0)
      unsentAnswer t := by
  have hcompose : Machine.Run (ThreadEvent.clocked (step true)) (fun s e => e.OnTime s.2)
      ({ radio := {}, phase := .receive .read }, 0)
      [.call (.read pendingRequest), .compose [], .call .stopListening, .call (.write (pendingAnswer.2.getD []) true),
        .call (.timeNowUs 0)]
      ({ radio := pendingAnswer.1, phase := .send pendingRequest (pendingAnswer.2.getD []) (.standBy 20000) }, 0) :=
    .of_exec (by decide +kernel)
  have hstandBy : Machine.Run (ThreadEvent.clocked (step true)) (fun s e => e.OnTime s.2)
      ({ radio := pendingAnswer.1, phase := .send pendingRequest (pendingAnswer.2.getD []) (.standBy 20000) }, 0)
      ((polls (.txStandBy false) 0 400).map .call)
      ({ radio := pendingAnswer.1, phase := .send pendingRequest (pendingAnswer.2.getD []) (.standBy 20000) }, 20000) := by
    refine polls_run { radio := pendingAnswer.1, phase := .send pendingRequest (pendingAnswer.2.getD []) (.expired 20000) }
      { radio := pendingAnswer.1, phase := .send pendingRequest (pendingAnswer.2.getD []) (.sleeping 20000) }
      (fun _ => trivial) (fun _ => rfl) rfl (fun k hk => ?_) rfl
    have hearly : ¬20000 ≤ 0 + kPollSleepUs * k := by
      simp only [kPollSleepUs]
      omega
    simp only [step, sendStep, if_neg hearly, Option.map_some]
  have hfails : (Machine.exec (ThreadEvent.clocked (step true)) (fun s e => e.OnTime s.2)
      ({ radio := pendingAnswer.1, phase := .send pendingRequest (pendingAnswer.2.getD []) (.standBy 20000) }, 20000)
      ([.txStandBy false, .timeNowUs 20000, .flushTx, .sleepUs kTxFailureRecoveryGapUs, .timeNowUs 20200, .startListening].map
        .call)).isSome = true := by decide +kernel
  obtain ⟨t, ht⟩ := Option.isSome_iff_exists.mp hfails
  exact ⟨t, (hcompose.append hstandBy).append (.of_exec ht)⟩

theorem peer_comes_back_unsent_answer :
    ∃ before e after u, unsentAnswer = before ++ e :: after ∧ e.own = true ∧ u.1.Receiving ∧
      Machine.Run (ThreadEvent.clocked (step true)) (fun s e => e.OnTime s.2) ({ radio := {}, phase := .receive .read }, 0)
        (before ++ [e]) u := by
  have hstart : Machine.Run (ThreadEvent.clocked (step true)) (fun s e => e.OnTime s.2) ({ radio := {} }, 0)
      [.call .startListening, .call (.available true)] ({ radio := {}, phase := .receive .read }, 0) := .of_exec (by decide)
  obtain ⟨t, hrun⟩ := unsentAnswer_run
  have hcount : unsentAnswer.countP ThreadEvent.own = 1211 := by
    rw [unsentAnswer, List.countP_append, List.countP_append, ThreadEvent.countP_own_call, ThreadEvent.countP_own_call, polls_length]
    rfl
  obtain ⟨before, e, after, u, hsplit, hown, hrun, hreceiving, -⟩ := peer_comes_back hstart hrun (by rw [hcount]; decide)
  exact ⟨before, e, after, u, hsplit, hown, hreceiving, hrun⟩

end PeerThread

end Nerfnet
