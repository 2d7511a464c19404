import Nerfnet.Theorems.ControlState

/-! # The poll interval after failures

`HandleTransactionFailure` doubles `current_poll_interval_us_`, and the next pass of the loop sets it
anew before it sleeps: what is slept depends on `state_` and `peer_has_pending_` only. So a failure is
followed by twice the delay only where it takes an Idle coordinator out of the active interval, and there
an Idle coordinator gets only by another failure. -/

namespace Nerfnet

namespace PrimaryRadioInterface
variable {s t : PrimaryRadioInterface} {p : Pass} {ps fs : List Pass}

/-- What the pass that starts in `s` hands to `SleepUs` before its exchange. -/
def sleptUs (s : PrimaryRadioInterface) : Nat := s.setPollInterval.currentPollIntervalUs

/-- A failed exchange that does not disconnect the coordinator. -/
def FailsConnected (s : PrimaryRadioInterface) (p : Pass) : Prop :=
  s.loopAction p.nowUs = .exchange ∧ (s.exchange p).2 ≠ .success ∧ (s.loopPass p).disconnected = false

instance (s : PrimaryRadioInterface) (p : Pass) : Decidable (s.FailsConnected p) := inferInstanceAs (Decidable (_ ∧ _))

/-- Consecutive failures. -/
def FailingStretch (s : PrimaryRadioInterface) (fs : List Pass) (t : PrimaryRadioInterface) : Prop :=
  Machine.Run (fun s p => some (s.loopPass p)) FailsConnected s fs t

/-- `peer_has_pending_` after failures: the last reply that is rejected for its type decides. -/
def pendingAfter (pending : Bool) (fs : List Pass) : Bool :=
  fs.foldl (fun pending p =>
    match p.reply with
    | none => pending
    | some rx => if rx.type = .data then pending else rx.pending != 0) pending

/-- What a connected coordinator sleeps. -/
theorem sleptUs_of_connected (hs : s.disconnected = false) :
    s.sleptUs = if s.state = .idle ∧ s.peerHasPending = false then kIdlePollIntervalUs else kActivePollIntervalUs := by
  simp only [sleptUs, setPollInterval, hs, Bool.false_eq_true, if_false, Bool.not_eq_true']
  split_ifs <;> rfl

theorem handleTransactionFailure_of_connected {kind : FailureType} {nowUs : Nat}
    (ht : (s.handleTransactionFailure kind nowUs).disconnected = false) :
    (s.handleTransactionFailure kind nowUs).state = s.state ∧
      (s.handleTransactionFailure kind nowUs).peerHasPending = s.peerHasPending := by
  obtain ⟨sendStreak, timeoutStreak, -, -, ⟨-, heq⟩ | ⟨-, heq⟩⟩ := s.handleTransactionFailure_cases kind nowUs <;>
    rw [heq] at ht ⊢
  · cases ht
  · exact ⟨rfl, rfl⟩

/-- A failure leaves `state_`, and `peer_has_pending_` unless a reply is rejected for its type. -/
theorem FailsConnected.spec (hwf : s.tx.Wf) (h : s.FailsConnected p) :
    (s.loopPass p).state = s.state ∧ (s.loopPass p).peerHasPending = pendingAfter s.peerHasPending [p] := by
  obtain ⟨haction, hresult, hconnected⟩ := h
  have hexchanged := exchange_exchanged hwf p
  have hpoll : s.setPollInterval.state = s.state ∧ s.setPollInterval.peerHasPending = s.peerHasPending := by
    unfold setPollInterval
    split_ifs <;> exact ⟨rfl, rfl⟩
  rw [loopPass_of_exchange haction] at hconnected ⊢
  have hafter : ((s.exchange p).1.afterExchange (s.exchange p).2 p.laterUs).state = (s.exchange p).1.state ∧
      ((s.exchange p).1.afterExchange (s.exchange p).2 p.laterUs).peerHasPending = (s.exchange p).1.peerHasPending := by
    cases hr : (s.exchange p).2 with
    | success => exact absurd hr hresult
    | sendFailure | timeoutFailure | protocolFailure =>
      rw [hr] at hconnected
      exact handleTransactionFailure_of_connected hconnected
  rw [hafter.1, hafter.2]
  generalize (s.exchange p).1 = t at hexchanged ⊢
  generalize (s.exchange p).2 = result at hexchanged hresult
  cases hexchanged with
  | unanswered r wasData result _ _ hreply => exact ⟨hpoll.1, by simpa [pendingAfter, hreply] using hpoll.2⟩
  | accepted => exact absurd rfl hresult
  | rejected r wasData rx _ _ hreply =>
    refine ⟨hpoll.1, ?_⟩
    simp only [pendingAfter, List.foldl_cons, List.foldl_nil, hreply, rejectedPending, hpoll.2]

theorem FailingStretch.spec (h : FailingStretch s fs t) (hwf : s.tx.Wf) :
    t.state = s.state ∧ t.peerHasPending = pendingAfter s.peerHasPending fs ∧ (fs ≠ [] → t.disconnected = false) := by
  unfold FailingStretch at h
  induction h with
  | nil s => exact ⟨rfl, rfl, fun hne => absurd rfl hne⟩
  | @cons s u t p fs hfails hpass hrest ih =>
    obtain rfl := Option.some.inj hpass
    obtain ⟨hstate, hpending⟩ := hfails.spec hwf
    obtain ⟨hstate', hpending', hconnected⟩ := ih ((loopPass_passed hwf p).lockSteps.wf hwf)
    refine ⟨hstate'.trans hstate, ?_, fun _ => ?_⟩
    · rw [hpending', hpending]
      rfl
    · by_cases hfs : fs = []
      · subst hfs
        cases hrest
        exact hfails.2.2
      · exact hconnected hfs

/-- A failing coordinator is connected from the start. -/
theorem FailingStretch.connected (h : FailingStretch s fs t) (hne : fs ≠ []) : s.disconnected = false := by
  cases h with
  | nil => exact absurd rfl hne
  | cons hfails => exact loopAction_exchange_connected hfails.1

/-- `2 ^ k` times the active interval is at most the idle interval for up to four failures. -/
theorem pow_mul_active_le {k : Nat} : 2 ^ k * kActivePollIntervalUs ≤ kIdlePollIntervalUs ↔ k ≤ 4 := by
  simp only [kActivePollIntervalUs, kIdlePollIntervalUs]
  constructor
  · intro h
    by_contra hk
    have hpow : 2 ^ 5 ≤ 2 ^ k := Nat.pow_le_pow_right (by omega) (by omega)
    omega
  · intro hk
    have hpow : 2 ^ k ≤ 2 ^ 4 := Nat.pow_le_pow_right (by omega) hk
    omega

/-- The delay after consecutive failures is the doubled one only if it is the idle interval after up to
    four failures that began in the active one. -/
theorem FailingStretch.doubled_iff (h : FailingStretch s fs t) (hwf : s.tx.Wf) (hne : fs ≠ []) :
    min 1000000 (2 ^ fs.length * s.sleptUs) ≤ t.sleptUs ↔
      s.state = .idle ∧ s.peerHasPending = true ∧ pendingAfter s.peerHasPending fs = false ∧ fs.length ≤ 4 := by
  obtain ⟨hstate, hpending, hconnected⟩ := h.spec hwf
  have hpos : 2 ^ 1 ≤ 2 ^ fs.length := Nat.pow_le_pow_right (by omega) (List.length_pos_iff.mpr hne)
  have hpow := pow_mul_active_le (k := fs.length)
  rw [sleptUs_of_connected (h.connected hne), sleptUs_of_connected (hconnected hne), hstate, hpending, ← hpow]
  simp only [kActivePollIntervalUs, kIdlePollIntervalUs]
  by_cases hidle : s.state = .idle
  · cases hp : s.peerHasPending <;> cases hp' : pendingAfter s.peerHasPending fs <;> rw [hp] at hp' <;> simp [hidle, hp'] <;> omega
  · simp [hidle]
    omega

/-- Against replies of the kinds that the peer composes the backoff never takes effect. -/
theorem backoff_lost {pollIntervalUs : Nat} (hrun : Runs Pass.FromPeer { currentPollIntervalUs := pollIntervalUs } ps s)
    (h : FailingStretch s fs t) (hne : fs ≠ []) : t.sleptUs < min 1000000 (2 ^ fs.length * s.sleptUs) := by
  obtain ⟨hwf, hs⟩ := hrun.controlState
  by_contra hnot
  obtain ⟨hidle, hpending, -⟩ := (h.doubled_iff hwf hne).mp (not_lt.mp hnot)
  cases hpending.symm.trans (hs.idle hidle)

/-! ### Every failed exchange of a run -/

/-- After the failed exchange at least twice the delay before it is slept, or a second. -/
def BacksOff (s : PrimaryRadioInterface) (p : Pass) : Prop := min 1000000 (2 * s.sleptUs) ≤ (s.loopPass p).sleptUs

/-- The failed exchanges of the passes from a state on, each with the state that it starts in. -/
inductive FailsWithin : PrimaryRadioInterface → List Pass → PrimaryRadioInterface → Pass → Prop
  | here {s : PrimaryRadioInterface} {p : Pass} {ps : List Pass} : s.FailsConnected p → FailsWithin s (p :: ps) s p
  | later {s u : PrimaryRadioInterface} {p q : Pass} {ps : List Pass} :
      FailsWithin (s.loopPass p) ps u q → FailsWithin s (p :: ps) u q

theorem FailsWithin.of_run {ok : Pass → Prop} (hrun : Runs ok s ps t) (h : t.FailsConnected p) (qs : List Pass) :
    FailsWithin s (ps ++ p :: qs) t p := by
  unfold Runs at hrun
  induction hrun with
  | nil => exact .here h
  | cons _ hpass _ ih =>
    obtain rfl := Option.some.inj hpass
    exact .later (ih h)

theorem FailsConnected.backsOff_iff (h : s.FailsConnected p) (hwf : s.tx.Wf) :
    s.BacksOff p ↔ s.state = .idle ∧ s.peerHasPending = true ∧
      ∃ rx, p.reply = some rx ∧ rx.type.isReply = false ∧ rx.pending = 0 := by
  have hstretch : FailingStretch s [p] (s.loopPass p) := .cons h rfl (.nil _)
  have hdoubled := hstretch.doubled_iff hwf (List.cons_ne_nil _ _)
  rw [List.length_singleton, Nat.pow_one] at hdoubled
  refine hdoubled.trans (and_congr_right fun _ => and_congr_right fun hpending => ?_)
  rw [hpending]
  have hexchanged := exchange_exchanged hwf p
  obtain ⟨-, hresult, -⟩ := h
  generalize (s.exchange p).1 = u at hexchanged
  generalize (s.exchange p).2 = result at hexchanged hresult
  cases hexchanged with
  | unanswered r wasData result _ _ hreply => simp [pendingAfter, hreply]
  | accepted => exact absurd rfl hresult
  | rejected r wasData rx _ _ hreply htype =>
    by_cases hdata : rx.type = .data
    · simp [pendingAfter, hreply, hdata, FrameType.isReply]
    · have hreply' : rx.type.isReply = false := htype.resolve_left fun hrejects => hdata hrejects.1
      simp [pendingAfter, hreply, hdata, hreply']

/-- The coordinator is not Idle while it knows of pending data at the peer. -/
def Settled (s : PrimaryRadioInterface) : Prop := s.state = .idle → s.peerHasPending = false

theorem Settled.not_backsOff (hs : s.Settled) (h : s.FailsConnected p) (hwf : s.tx.Wf) : ¬s.BacksOff p := by
  intro hbacks
  obtain ⟨hidle, hpending, -⟩ := (h.backsOff_iff hwf).mp hbacks
  cases hpending.symm.trans (hs hidle)

theorem Settled.resetFailed (hpending : s.peerHasPending = false) (nowUs : Nat) : (s.resetFailed nowUs).Settled := by
  unfold PrimaryRadioInterface.resetFailed
  split
  · exact fun _ => hpending
  · obtain ⟨sendStreak, timeoutStreak, -, -, ⟨-, heq⟩ | ⟨-, heq⟩⟩ := s.handleTransactionFailure_cases .protocol nowUs <;> rw [heq]
    · exact fun _ => hpending
    · exact fun _ => hpending

/-- A failure that disconnects leaves Idle. -/
theorem Settled.handleTransactionFailure {kind : FailureType} {nowUs : Nat} (hs : s.disconnected = false)
    (ht : (s.handleTransactionFailure kind nowUs).disconnected = true) : (s.handleTransactionFailure kind nowUs).Settled := by
  obtain ⟨sendStreak, timeoutStreak, -, -, ⟨-, heq⟩ | ⟨-, heq⟩⟩ := s.handleTransactionFailure_cases kind nowUs <;> rw [heq] at ht ⊢
  · exact fun hidle => by cases hidle
  · cases hs.symm.trans ht

theorem Exchanged.disconnected {a : Attempt} {result : ExchangeResult} (h : Exchanged s a t result) :
    t.disconnected = s.disconnected := by
  cases h <;> rfl

/-- Only a failure that does not disconnect leaves an Idle coordinator with pending data at the peer. -/
theorem Settled.step (hs : s.Settled) (hwf : s.tx.Wf) (hnot : ¬s.FailsConnected p) : (s.loopPass p).Settled := by
  by_cases haction : s.loopAction p.nowUs = .exchange
  · have hexchanged := exchange_exchanged hwf p
    have hconnected : (s.exchange p).1.disconnected = false :=
      hexchanged.disconnected.trans (s.setPollInterval_keeps.disconnected.trans (loopAction_exchange_connected haction))
    have hlost : (s.exchange p).2 ≠ .success → (s.loopPass p).disconnected = true := fun hresult => by
      by_contra hstill
      exact hnot ⟨haction, hresult, Bool.eq_false_iff.mpr hstill⟩
    rw [loopPass_of_exchange haction] at hlost ⊢
    generalize (s.exchange p).1 = t at hexchanged hconnected hlost ⊢
    cases hresult : (s.exchange p).2 with
    | success =>
      rw [hresult] at hexchanged
      cases hexchanged with
      | unanswered r wasData result _ _ _ hfailed => exact absurd rfl hfailed
      | accepted r wasData consecutive rx => exact pending_of_replyState_idle
    | sendFailure | timeoutFailure | protocolFailure =>
      rw [hresult] at hlost
      exact .handleTransactionFailure hconnected (hlost (by simp))
  · have hpassed := loopPass_passed hwf p
    generalize s.loopPass p = t at hpassed
    cases hpassed with
    | waited r => exact hs
    | resetSucceeded r => exact fun _ => rfl
    | resetFailed r => exact .resetFailed rfl p.laterUs
    | exchanged t result hexchange => exact absurd hexchange haction

/-- Passes whose failed exchanges are all followed by twice the delay have none. -/
theorem Settled.not_failsWithin (hs : s.Settled) (hwf : s.tx.Wf) (h : ∀ u q, FailsWithin s ps u q → u.BacksOff q) :
    ∀ u q, ¬FailsWithin s ps u q := by
  induction ps generalizing s with
  | nil => exact fun u q hfails => by cases hfails
  | cons p ps ih =>
    have hnot : ¬s.FailsConnected p := fun hfails => hs.not_backsOff hfails hwf (h s p (.here hfails))
    have hrest : ∀ u q, ¬FailsWithin (s.loopPass p) ps u q :=
      ih (hs.step hwf hnot) ((loopPass_passed hwf p).lockSteps.wf hwf) fun u q hfails => h u q (.later hfails)
    intro u q hfails
    cases hfails with
    | here hfails => exact hnot hfails
    | later hfails => exact hrest u q hfails

/-- A failed exchange is followed by twice the delay exactly if it finds an Idle coordinator with
    `peer_has_pending_` and its reply, of another type than ACK, PENDING and DATA, clears that. Not every
    one of a run is, unless the run has none. Over a stretch of failures the delay has grown as it should
    where the first one finds that, the last such reply clears it, and there are up to four. -/
theorem backoff_takes_effect {pollIntervalUs : Nat} :
    (∀ ps s p, Runs (fun _ => True) { currentPollIntervalUs := pollIntervalUs } ps s → s.FailsConnected p →
      (s.BacksOff p ↔ s.state = .idle ∧ s.peerHasPending = true ∧
        ∃ rx, p.reply = some rx ∧ rx.type.isReply = false ∧ rx.pending = 0)) ∧
    (∀ ps, (∀ s p, FailsWithin { currentPollIntervalUs := pollIntervalUs } ps s p → s.BacksOff p) ↔
      ∀ s p, ¬FailsWithin { currentPollIntervalUs := pollIntervalUs } ps s p) ∧
    ∀ ps s fs t, Runs (fun _ => True) { currentPollIntervalUs := pollIntervalUs } ps s → FailingStretch s fs t → fs ≠ [] →
      (min 1000000 (2 ^ fs.length * s.sleptUs) ≤ t.sleptUs ↔
        s.state = .idle ∧ s.peerHasPending = true ∧ pendingAfter s.peerHasPending fs = false ∧ fs.length ≤ 4) := by
  refine ⟨fun ps s p hrun hfails => hfails.backsOff_iff (hrun.wf TxState.wf_init), fun ps => ?_,
    fun ps s fs t hrun hfails hne => hfails.doubled_iff (hrun.wf TxState.wf_init) hne⟩
  constructor
  · exact Settled.not_failsWithin (fun _ => rfl) TxState.wf_init
  · exact fun hnone s p hfails => absurd hfails (hnone s p)

/-- A Grant from the peer, which the coordinator rejects. -/
def grantPass (pending : UInt8) : Pass := { response := encodeMacFrame { type := .grant, pending } }

/-- Two unexpected Grants, the second one without pending data: the coordinator backs off after the
    second, and it does not after the first. -/
theorem backoff_takes_effect_grants :
    ∃ s, Runs (fun _ => True) { currentPollIntervalUs := 100 } [resetPass, grantPass 1] s ∧ s.FailsConnected (grantPass 0) ∧
      s.BacksOff (grantPass 0) ∧
      ∃ u p, FailsWithin { currentPollIntervalUs := 100 } [resetPass, grantPass 1, grantPass 0] u p ∧ ¬u.BacksOff p := by
  have hexec : (Machine.exec (fun s p => some (loopPass s p)) (fun _ _ => True) { currentPollIntervalUs := 100 }
      [resetPass, grantPass 1]).map (fun s => (s.state, s.peerHasPending, decide (s.FailsConnected (grantPass 0)))) =
        some (.idle, true, true) := by decide +kernel
  obtain ⟨s, hs, hstate⟩ := Option.map_eq_some_iff.mp hexec
  obtain ⟨hidle, hstate⟩ := Prod.mk.inj hstate
  obtain ⟨hpending, hfails⟩ := Prod.mk.inj hstate
  have hfails := of_decide_eq_true hfails
  have hreply : (grantPass 0).reply = some { type := .grant } := by decide +kernel
  refine ⟨s, .of_exec hs, hfails, ?_, ?_⟩
  · exact (backoff_takes_effect.1 _ s _ (.of_exec hs) hfails).mpr ⟨hidle, hpending, _, hreply, rfl, rfl⟩
  · by_contra hall
    have hall : ∀ u p, FailsWithin { currentPollIntervalUs := 100 } [resetPass, grantPass 1, grantPass 0] u p → u.BacksOff p :=
      fun u p hwithin => by_contra fun hnot => hall ⟨u, p, hwithin, hnot⟩
    exact (backoff_takes_effect.2.1 _).mp hall s _ (.of_run (.of_exec hs) hfails [])

/-- A reply that does not come: the coordinator sleeps as long as before. -/
theorem timeout_keeps_interval :
    ¬∀ ps s fs t, Runs (fun _ => True) { currentPollIntervalUs := 100 } ps s → FailingStretch s fs t →
      min 1000000 (2 ^ fs.length * s.sleptUs) ≤ t.sleptUs := by
  intro h
  have hexec : ((Machine.exec (fun s p => some (loopPass s p)) (fun _ _ => True) { currentPollIntervalUs := 100 }
      [resetPass]).bind fun s => (Machine.exec (fun s p => some (loopPass s p)) FailsConnected s [{}]).map
        fun t => (s.sleptUs, t.sleptUs)) = some (20000, 20000) := by decide +kernel
  obtain ⟨s, hs, hexec⟩ := Option.bind_eq_some_iff.mp hexec
  obtain ⟨t, ht, hslept⟩ := Option.map_eq_some_iff.mp hexec
  obtain ⟨hs', ht'⟩ := Prod.mk.inj hslept
  have hdoubled := h _ s _ t (.of_exec hs) (.of_exec ht)
  rw [hs', ht'] at hdoubled
  exact absurd hdoubled (by decide)

end PrimaryRadioInterface
end Nerfnet
