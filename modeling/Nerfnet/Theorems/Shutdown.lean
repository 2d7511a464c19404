import Nerfnet.Theorems.Queue

/-! # The end of TunnelThread

The destructor clears `running_` and waits for the thread, which looks at the flag at the top of its loop
and where it waits for a shorter queue. A `read` that it is in then does not look at the flag: a step in
the phase `reading` is its return, and on an idle tunnel it need not come. -/

namespace Nerfnet

def LockEvent.own : LockEvent → Bool
  | .tunnelThread _ => true
  | _ => false

namespace TunnelPhase

/-- How many steps the thread makes at most once `running_` is cleared. -/
def stepsLeft : TunnelPhase → ℕ
  | .reading => 4
  | .sizing => 3
  | .full => 2
  | .test => 1
  | .ended => 0

/-- How many packets it pushes by then. -/
def pushesLeft : TunnelPhase → ℕ
  | .reading => 1
  | _ => 0

end TunnelPhase

/-! ### The steps -/

namespace ThreadedRadio
variable {s t : ThreadedRadio} {packet : Option Bytes} {e : LockEvent}

theorem tunnelThreadStep_running (h : s.tunnelThreadStep packet = some t) : t.running = s.running := by
  rcases tunnelThreadStep_cases h with ⟨p, -, -, -, rfl⟩ | ⟨-, hmoved, -⟩
  · rfl
  · rw [hmoved]

/-- From where to where a step of the thread can lead. -/
theorem tunnelThreadStep_phase (h : s.tunnelThreadStep packet = some t) :
    (s.phase = .test ∧ t.phase = if s.running then .reading else .ended) ∨
    (s.phase = .reading ∧ (t.phase = .test ∨ t.phase = .sizing)) ∨
    (s.phase = .sizing ∧ (t.phase = .full ∨ t.phase = .test)) ∨
    (s.phase = .full ∧ t.phase = if s.running then .sizing else .test) := by
  unfold tunnelThreadStep at h
  cases hphase : s.phase with
  | test =>
    simp only [hphase] at h
    obtain rfl := Option.some.inj h
    exact Or.inl ⟨rfl, rfl⟩
  | reading =>
    refine Or.inr (Or.inl ⟨rfl, ?_⟩)
    simp only [hphase] at h
    cases packet with
    | none =>
      obtain rfl := Option.some.inj h
      exact Or.inl rfl
    | some p =>
      simp only at h
      split at h
      · obtain rfl := Option.some.inj h
        exact Or.inl rfl
      · obtain rfl := Option.some.inj h
        exact Or.inr rfl
  | sizing =>
    simp only [hphase] at h
    obtain rfl := Option.some.inj h
    exact Or.inr (Or.inr (Or.inl ⟨rfl, ite_eq_or_eq _ _ _⟩))
  | full =>
    simp only [hphase] at h
    obtain rfl := Option.some.inj h
    exact Or.inr (Or.inr (Or.inr ⟨rfl, rfl⟩))
  | ended =>
    simp only [hphase] at h
    cases h

/-- It ends at the test of `running_` only. -/
theorem tunnelThreadStep_ended (h : s.tunnelThreadStep packet = some t) (hended : t.phase = .ended) : s.running = false := by
  rcases tunnelThreadStep_phase h with ⟨-, hnext⟩ | ⟨-, hnext⟩ | ⟨-, hnext⟩ | ⟨-, hnext⟩
  · by_contra hrunning
    rw [if_pos (eq_true_of_ne_false hrunning), hended] at hnext
    cases hnext
  · simp [hended] at hnext
  · simp [hended] at hnext
  · rw [hended] at hnext
    split at hnext <;> cases hnext

/-- Once `running_` is cleared every step takes the thread closer to its end. -/
theorem tunnelThreadStep_stopped (hstopped : s.running = false) (h : s.tunnelThreadStep packet = some t) :
    t.phase.stepsLeft < s.phase.stepsLeft ∧ t.phase.pushesLeft = 0 := by
  rcases tunnelThreadStep_phase h with ⟨hphase, hnext⟩ | ⟨hphase, hnext | hnext⟩ | ⟨hphase, hnext | hnext⟩ | ⟨hphase, hnext⟩ <;>
    simp [hphase, hnext, hstopped, TunnelPhase.stepsLeft, TunnelPhase.pushesLeft]

/-- The other steps are not the thread's. -/
theorem step_phase (hown : e.own = false) (h : s.step e = some t) : t.phase = s.phase := by
  cases e with
  | tunnelThread packet => cases hown
  | stop | buildNextDataFrame | commitAck | consumeDataFrame | reset =>
    obtain rfl := Option.some.inj h
    rfl

theorem step_running (h : s.step e = some t) : t.running = true ↔ s.running = true ∧ e ≠ .stop := by
  cases e with
  | tunnelThread packet =>
    rw [tunnelThreadStep_running h]
    simp
  | stop =>
    obtain rfl := Option.some.inj h
    simp
  | buildNextDataFrame | commitAck | consumeDataFrame | reset =>
    obtain rfl := Option.some.inj h
    simp

/-- Nothing sets `running_` again. -/
theorem step_running_false (hstopped : s.running = false) (h : s.step e = some t) : t.running = false :=
  Bool.eq_false_iff.mpr fun hrunning => Bool.eq_false_iff.mp hstopped ((step_running h).mp hrunning).1

end ThreadedRadio

/-! ### The runs -/

namespace QueueHistory
variable {s t u : QueueHistory} {e : LockEvent} {es fs : List LockEvent}

theorem step_thread (h : s.step e = some t) : s.toThreadedRadio.step e = some t.toThreadedRadio := by
  obtain ⟨r, hr, rfl⟩ := Option.map_eq_some_iff.mp h
  exact hr

theorem Runs.running (h : Runs s es t) : t.running = true ↔ s.running = true ∧ .stop ∉ es := by
  induction h with
  | nil => simp
  | @cons s u t e es _ hstep _ ih =>
    rw [ih, ThreadedRadio.step_running (step_thread hstep), List.mem_cons, not_or, and_assoc, ne_comm, ne_eq]

/-- A thread that has ended has been told to. -/
theorem Runs.ended (h : Runs {} es s) : s.phase = .ended → s.running = false := by
  refine Machine.Run.invariant (P := fun s => s.phase = .ended → s.running = false) (fun s e t hs _ hstep hended => ?_) h
    (by simp)
  have hthread := step_thread hstep
  have hstopped : s.running = false := by
    cases hown : e.own with
    | false => exact hs (ThreadedRadio.step_phase hown hthread ▸ hended)
    | true =>
      cases e with
      | tunnelThread packet => exact ThreadedRadio.tunnelThreadStep_ended hthread hended
      | stop | buildNextDataFrame | commitAck | consumeDataFrame | reset => cases hown
  exact ThreadedRadio.step_running_false hstopped hthread

theorem step_stopped (hstopped : s.running = false) (h : s.step e = some t) :
    t.running = false ∧ if e.own then t.phase.stepsLeft < s.phase.stepsLeft else t.phase.stepsLeft ≤ s.phase.stepsLeft := by
  have hthread := step_thread h
  refine ⟨ThreadedRadio.step_running_false hstopped hthread, ?_⟩
  cases hown : e.own with
  | false => exact (congrArg TunnelPhase.stepsLeft (ThreadedRadio.step_phase hown hthread)).le
  | true =>
    cases e with
    | tunnelThread packet => exact (ThreadedRadio.tunnelThreadStep_stopped hstopped hthread).1
    | stop | buildNextDataFrame | commitAck | consumeDataFrame | reset => cases hown

theorem step_pushed (h : s.step e = some t) : t.pushed = s.pushed ++ s.pushedIn e := by
  obtain ⟨r, -, rfl⟩ := Option.map_eq_some_iff.mp h
  rfl

/-- A packet is pushed in `reading` only. -/
theorem step_pushes (hstopped : s.running = false) (h : s.step e = some t) :
    (s.pushedIn e).length + t.phase.pushesLeft ≤ s.phase.pushesLeft := by
  have hthread := step_thread h
  cases e with
  | tunnelThread packet =>
    rw [(ThreadedRadio.tunnelThreadStep_stopped hstopped hthread).2, pushedIn]
    split
    · rename_i hreading
      rw [hreading]
      exact (List.length_filter_le _ _).trans (by cases packet <;> simp [TunnelPhase.pushesLeft])
    · simp
  | stop | buildNextDataFrame | commitAck | consumeDataFrame | reset =>
    rw [ThreadedRadio.step_phase rfl hthread]
    simp [pushedIn]

theorem Runs.stepsLeft (h : Runs s fs t) (hstopped : s.running = false) :
    fs.countP LockEvent.own + t.phase.stepsLeft ≤ s.phase.stepsLeft :=
  Machine.Run.countP_add_le (P := fun s : QueueHistory => s.running = false) (fun s => s.phase.stepsLeft)
    (fun _ _ _ hs _ hstep => step_stopped hs hstep) h hstopped

theorem Runs.pushes (h : Runs s fs t) (hstopped : s.running = false) :
    ∃ more, t.pushed = s.pushed ++ more ∧ more.length ≤ s.phase.pushesLeft := by
  obtain ⟨-, more, hmore, hlength⟩ := Machine.Run.invariant (P := fun u : QueueHistory => u.running = false ∧
    ∃ more, u.pushed = s.pushed ++ more ∧ more.length + u.phase.pushesLeft ≤ s.phase.pushesLeft)
    (fun u e v hu _ hstep => by
      obtain ⟨hu, more, hmore, hlength⟩ := hu
      have hpushes := step_pushes hu hstep
      refine ⟨(step_stopped hu hstep).1, more ++ u.pushedIn e, ?_, ?_⟩
      · rw [step_pushed hstep, hmore, List.append_assoc]
      · rw [List.length_append]
        omega) h ⟨hstopped, [], by simp, by simp⟩
  exact ⟨more, hmore, Nat.le_of_add_right_le hlength⟩

end QueueHistory

end Nerfnet
