import Mathlib.Data.List.TakeWhile
import Nerfnet.Run
import Nerfnet.Theorems.Resets

/-! # From failures to a disconnect

`HandleTransactionFailure` counts failures in two streaks that a SendFailure and a TimeoutFailure clear
for each other: the first streak has grown since the last TimeoutFailure, the second since the last
SendFailure. So it depends on the order of the failures whether they ever reach a threshold. -/

namespace Nerfnet

/-- The kind of failure that the loop hands to `HandleTransactionFailure`. -/
def ExchangeResult.failure : ExchangeResult → Option FailureType
  | .success => none
  | .sendFailure => some .send
  | .timeoutFailure => some .timeout
  | .protocolFailure => some .protocol

namespace PrimaryRadioInterface
variable {s t u : PrimaryRadioInterface} {kind : FailureType} {kinds : List FailureType} {nowUs before n m : Nat}

/-! ### Passes of the loop -/

/-- A pass that fails with the given kind. Once disconnected, the loop makes no more exchanges. -/
def failingPass (s : PrimaryRadioInterface) (e : Attempt × FailureType) : Option PrimaryRadioInterface :=
  if s.disconnected then some s
  else if s.loopAction e.1.nowUs ≠ .exchange then none
  else
    let exchanged := s.setPollInterval.performExchange e.1
    if exchanged.2.failure = some e.2 then some (exchanged.1.afterExchange exchanged.2 e.1.nowUs) else none

/-- Consecutive failed exchanges. -/
def FailingRun (s : PrimaryRadioInterface) (es : List (Attempt × FailureType)) (t : PrimaryRadioInterface) : Prop :=
  Machine.Run failingPass (fun _ _ => True) s es t

/-! ### The streaks -/

/-- How many failures have come since the last one of the given kind; `before` if there was none yet,
    and all of them since. -/
def sinceLast (kind : FailureType) (before : Nat) (kinds : List FailureType) : Nat :=
  (kinds.reverse.takeWhile (· ≠ kind)).length + if kind ∈ kinds then 0 else before

theorem sinceLast_nil (kind : FailureType) (before : Nat) : sinceLast kind before [] = before := by simp [sinceLast]

theorem sinceLast_cons (kind : FailureType) (before : Nat) (x : FailureType) (kinds : List FailureType) :
    sinceLast kind before (x :: kinds) = sinceLast kind (if x = kind then 0 else before + 1) kinds := by
  by_cases hmem : kind ∈ kinds
  · -- The last one is among the later failures.
    have hstop : ¬ (kinds.reverse.takeWhile (· ≠ kind)).length = kinds.reverse.length := fun hall => by
      have hself := (List.takeWhile_prefix (l := kinds.reverse) (· ≠ kind)).eq_of_length hall
      simpa using List.takeWhile_eq_self_iff.mp hself kind (List.mem_reverse.mpr hmem)
    simp only [sinceLast, List.reverse_cons, List.takeWhile_append, if_neg hstop, hmem, List.mem_cons, or_true, if_true]
  · have hall : ∀ y ∈ kinds.reverse, decide (y ≠ kind) = true := fun y hy => by
      simp only [decide_eq_true_eq]
      rintro rfl
      exact hmem (List.mem_reverse.mp hy)
    simp only [sinceLast, List.reverse_cons]
    rw [List.takeWhile_append_of_pos hall, List.takeWhile_eq_self_iff.mpr hall]
    by_cases hx : x = kind
    · simp [hmem, hx]
    · have hx' : ¬ kind = x := fun h => hx h.symm
      simp [hmem, hx, hx']
      omega

/-- The loop has stopped to make exchanges and will reset. -/
structure Disconnected (s : PrimaryRadioInterface) : Prop where
  disconnected : s.disconnected = true
  connectionResetRequired : s.connectionResetRequired = true
  state : s.state = .resetSync

/-- What a failure makes of the streaks, and when it disconnects. -/
theorem handleTransactionFailure_streaks (kind : FailureType) (nowUs : Nat) (ht : s.handleTransactionFailure kind nowUs = t) :
    t.sendFailStreak = (if kind = .timeout then 0 else s.sendFailStreak + 1) ∧
      t.timeoutFailStreak = (if kind = .send then 0 else s.timeoutFailStreak + 1) ∧
      (Exceeds t.sendFailStreak t.timeoutFailStreak → t.Disconnected) ∧
      (¬Exceeds t.sendFailStreak t.timeoutFailStreak → t.disconnected = s.disconnected) := by
  obtain ⟨sendStreak, timeoutStreak, hsend, htimeout, ⟨hexceeds, heq⟩ | ⟨hexceeds, heq⟩⟩ :=
    s.handleTransactionFailure_cases kind nowUs <;>
    rw [heq] at ht <;> subst ht
  · exact ⟨hsend, htimeout, fun _ => ⟨rfl, rfl, rfl⟩, fun hnot => absurd hexceeds hnot⟩
  · exact ⟨hsend, htimeout, fun hyes => absurd hyes hexceeds, fun _ => rfl⟩

/-! ### Failing runs -/

theorem performExchange_keeps (s : PrimaryRadioInterface) (a : Attempt) : KeepsRun s (s.performExchange a).1 := by
  have hprepare := s.prepareRequest_keeps a.reads
  unfold performExchange
  split
  · rename_i heq
    rw [heq] at hprepare
    exact hprepare
  · rename_i u tx request heq
    rw [heq] at hprepare
    split
    · exact hprepare
    · have hcomplete := completeExchange_keeps { u with tx := u.tx.tunnelThread a.later } tx a.response
      exact ⟨hcomplete.sendFailStreak.trans hprepare.sendFailStreak, hcomplete.timeoutFailStreak.trans hprepare.timeoutFailStreak,
        hcomplete.disconnected.trans hprepare.disconnected,
        hcomplete.connectionResetRequired.trans hprepare.connectionResetRequired, fun h => hcomplete.state (hprepare.state h)⟩

/-- A failing pass of a connected coordinator extends the streaks, and nothing else counts. -/
theorem failingPass_spec {a : Attempt} (hs : s.disconnected = false) (h : failingPass s (a, kind) = some t) :
    t.sendFailStreak = (if kind = .timeout then 0 else s.sendFailStreak + 1) ∧
      t.timeoutFailStreak = (if kind = .send then 0 else s.timeoutFailStreak + 1) ∧
      (Exceeds t.sendFailStreak t.timeoutFailStreak → t.Disconnected) ∧
      (¬Exceeds t.sendFailStreak t.timeoutFailStreak → t.disconnected = false) := by
  simp only [failingPass, hs, Bool.false_eq_true, if_false] at h
  split at h
  · cases h
  · split at h
    · rename_i hkind
      have hpoll := s.setPollInterval_keeps
      have hkeeps := s.setPollInterval.performExchange_keeps a
      have hafter : (s.setPollInterval.performExchange a).1.handleTransactionFailure kind a.nowUs = t := by
        rw [← Option.some.inj h]
        cases hresult : (s.setPollInterval.performExchange a).2 <;> rw [hresult] at hkind <;> cases hkind <;> rfl
      obtain ⟨hsend, htimeout, hyes, hno⟩ := handleTransactionFailure_streaks kind a.nowUs hafter
      refine ⟨?_, ?_, hyes, fun hnot => ?_⟩
      · rw [hsend, hkeeps.sendFailStreak, hpoll.sendFailStreak]
      · rw [htimeout, hkeeps.timeoutFailStreak, hpoll.timeoutFailStreak]
      · rw [hno hnot, hkeeps.disconnected, hpoll.disconnected, hs]
    · cases h

/-- Once disconnected, a failing run stays where it is. -/
theorem FailingRun.eq_of_disconnected {es : List (Attempt × FailureType)} (h : FailingRun s es t)
    (hs : s.disconnected = true) : t = s := by
  unfold FailingRun at h
  induction h with
  | nil => rfl
  | cons _ hstep _ ih =>
    simp only [failingPass, hs, if_true, Option.some.injEq] at hstep
    subst hstep
    exact ih hs

/-- Somewhere in the failures the streaks reach a threshold: the failures since the last TimeoutFailure,
    those since the last SendFailure, or both together. -/
def ReachesThreshold (s : PrimaryRadioInterface) (kinds : List FailureType) : Prop :=
  ∃ k < kinds.length, Exceeds (sinceLast .timeout s.sendFailStreak (kinds.take (k + 1)))
    (sinceLast .send s.timeoutFailStreak (kinds.take (k + 1)))

theorem FailingRun.disconnected_iff {es : List (Attempt × FailureType)} (h : FailingRun s es t)
    (hs : s.disconnected = false) : t.Disconnected ↔ s.ReachesThreshold (es.map (·.2)) := by
  unfold FailingRun at h
  induction h with
  | nil s =>
    refine ⟨fun hd => ?_, fun ⟨k, hk, _⟩ => by simp at hk⟩
    rw [hd.disconnected] at hs
    cases hs
  | @cons s u t e es _ hstep hrest ih =>
    obtain ⟨hsend, htimeout, hyes, hno⟩ := failingPass_spec hs hstep
    -- The threshold after the first failure, and after a later one.
    have hfirst : Exceeds (sinceLast .timeout s.sendFailStreak [e.2]) (sinceLast .send s.timeoutFailStreak [e.2]) ↔
        Exceeds u.sendFailStreak u.timeoutFailStreak := by
      rw [sinceLast_cons, sinceLast_cons, sinceLast_nil, sinceLast_nil, hsend, htimeout]
    have hlater : ∀ k, Exceeds (sinceLast .timeout s.sendFailStreak (e.2 :: (es.map (·.2)).take k))
          (sinceLast .send s.timeoutFailStreak (e.2 :: (es.map (·.2)).take k)) ↔
        Exceeds (sinceLast .timeout u.sendFailStreak ((es.map (·.2)).take k))
          (sinceLast .send u.timeoutFailStreak ((es.map (·.2)).take k)) := fun k => by
      rw [sinceLast_cons, sinceLast_cons, hsend, htimeout]
    by_cases hexceeds : Exceeds u.sendFailStreak u.timeoutFailStreak
    · rw [FailingRun.eq_of_disconnected hrest (hyes hexceeds).disconnected]
      exact ⟨fun _ => ⟨0, by simp, by simpa using hfirst.mpr hexceeds⟩, fun _ => hyes hexceeds⟩
    · rw [ih (hno hexceeds)]
      constructor
      · rintro ⟨k, hk, hk'⟩
        exact ⟨k + 1, by simpa using hk, by simpa using (hlater (k + 1)).mpr hk'⟩
      · rintro ⟨k, hk, hk'⟩
        cases k with
        | zero => exact absurd (hfirst.mp (by simpa using hk')) hexceeds
        | succ k => exact ⟨k, by simpa using hk, (hlater (k + 1)).mp (by simpa using hk')⟩

/-- A connected coordinator has disconnected by the eighth consecutive failure exactly if the first eight
    reach a threshold. -/
theorem disconnects_by_eighth {es : List (Attempt × FailureType)} (hs : s.disconnected = false)
    (h : FailingRun s (es.take (kDisconnectFailureThreshold + 3)) t) :
    t.Disconnected ↔ s.ReachesThreshold ((es.take (kDisconnectFailureThreshold + 3)).map (·.2)) :=
  FailingRun.disconnected_iff h hs

/-- `Send` fails. -/
def sendFails : Attempt × FailureType := ({ radioOk := false }, .send)

/-- No reply arrives. -/
def timesOut : Attempt × FailureType := ({}, .timeout)

/-- Two failures of `Receive` and then those of `Send`. -/
theorem disconnects_by_eighth_mixed :
    ∃ t, FailingRun (Link.afterReset { currentPollIntervalUs := 100 } {}).coord
        ((timesOut :: timesOut :: List.replicate 6 sendFails).take (kDisconnectFailureThreshold + 3)) t ∧ t.Disconnected := by
  have hexec : (Machine.exec failingPass (fun _ _ => True) (Link.afterReset { currentPollIntervalUs := 100 } {}).coord
      ((timesOut :: timesOut :: List.replicate 6 sendFails).take (kDisconnectFailureThreshold + 3))).isSome = true := by
    decide +kernel
  obtain ⟨t, ht⟩ := Option.isSome_iff_exists.mp hexec
  exact ⟨t, .of_exec ht, (disconnects_by_eighth rfl (.of_exec ht)).mpr ⟨6, by decide, Or.inl (by decide)⟩⟩

/-- Failures that alternate: the streaks clear each other, and nothing is ever reached. -/
theorem alternating_failures :
    ¬ ∀ es s fs t, (Link.initial 100 {}).OwnRun es s → s.coord.disconnected = false →
      s.coord.connectionResetRequired = false → FailingRun s.coord fs t → kDisconnectFailureThreshold + 3 ≤ fs.length →
      t.Disconnected := by
  intro h
  have hreset : (Machine.exec Link.step Link.OwnExchange (Link.initial 100 {}) (Link.resetRound 0)).map
      (·.coord) = some (Link.afterReset { currentPollIntervalUs := 1000 } {}).coord := by decide +kernel
  obtain ⟨s, hs, hcoord⟩ := Option.map_eq_some_iff.mp hreset
  have hexec : (Machine.exec failingPass (fun _ _ => True) s.coord
      [sendFails, timesOut, sendFails, timesOut, sendFails, timesOut, sendFails, timesOut]).map (·.disconnected) = some false := by
    rw [hcoord]
    decide +kernel
  obtain ⟨t, ht, hconnected⟩ := Option.map_eq_some_iff.mp hexec
  have hd := h _ s _ t (.of_exec hs) (by rw [hcoord]; rfl) (by rw [hcoord]; rfl) (.of_exec ht) (by decide)
  exact absurd (hconnected.symm.trans hd.disconnected) (by decide)

end PrimaryRadioInterface
end Nerfnet
