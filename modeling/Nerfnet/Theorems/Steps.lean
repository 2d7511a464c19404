import Nerfnet.Theorems.Exchange

/-! # What a step of the link does

An event of an exchange changes the link as within a session, up to the fields that the coordinator's
loop keeps for itself (`LoopOnly`); the rounds of a reset are described by one lemma each. -/

namespace Nerfnet

namespace Link
variable {s t u : Link} {e : ExchangeEvent} {result : Option ExchangeResult} {nowUs laterUs flushed : Nat} {lost radioOk : Bool}

/-- The states differ at most in what the coordinator's loop keeps for itself. -/
structure LoopOnly (s t : Link) : Prop where
  eq : t = { s with coord := t.coord }
  toRadioInterface : t.coord.toRadioInterface = s.coord.toRadioInterface

theorem LoopOnly.phase (h : LoopOnly s t) : t.phase = s.phase := by rw [h.eq]

theorem LoopOnly.live (h : LoopOnly s t) (hs : s.Live) : t.Live := by
  obtain ⟨requests, replies, hs⟩ := hs
  rw [h.eq]
  exact ⟨requests, replies, hs.toPeer, hs.toCoord, h.toRadioInterface.symm ▸ hs.pair, hs.isRequest, hs.isReply⟩

theorem LoopOnly.nonemptyPackets (h : LoopOnly s t) (hs : s.NonemptyPackets) : t.NonemptyPackets := by
  rw [h.eq]
  exact ⟨h.toRadioInterface.symm ▸ hs.coord, hs.peer⟩

theorem LoopOnly.moved (h : LoopOnly s t) : s.Moved t := by
  have hcoord : t.coordView = s.coordView := by
    rw [h.eq]
    simp only [coordView, h.toRadioInterface]
  have hpeer : t.peerView = s.peerView := by
    rw [h.eq]
    simp only [peerView, h.toRadioInterface]
  exact ⟨hcoord ▸ .refl, hpeer ▸ .refl⟩

/-! ### An event of an exchange -/

theorem enter_spec (h : s.enter nowUs e = some t) :
    LoopOnly s t ∧ PrimaryRadioInterface.KeepsRun s.coord t.coord ∧
      (e.isSend = true → s.coord.connectionResetRequired = false) := by
  cases e with
  | send reads lost radioOk =>
    simp only [enter] at h
    split at h
    · rename_i haction
      cases h
      exact ⟨⟨rfl, s.coord.setPollInterval_toRadioInterface⟩, s.coord.setPollInterval_keeps,
        fun _ => PrimaryRadioInterface.loopAction_exchange haction⟩
    · cases h
  | coordReads | peerReads | receive | timeout | handle =>
    cases h
    exact ⟨⟨rfl, rfl⟩, .refl _, fun hsend => by cases hsend⟩

theorem settle_loopOnly (s : Link) (nowUs : Nat) (result : Option ExchangeResult) : LoopOnly s (s.settle nowUs result) := by
  cases result with
  | none => exact ⟨rfl, rfl⟩
  | some result => exact ⟨rfl, s.coord.afterExchange_toRadioInterface result nowUs⟩

theorem settle_ready (hs : s.coord.Ready) (nowUs : Nat) (result : Option ExchangeResult) :
    (s.settle nowUs result).coord.Ready := by
  cases result with
  | none => exact hs
  | some result => exact PrimaryRadioInterface.afterExchange_ready hs result nowUs

theorem step_exchange (h : s.step (.exchange nowUs e) = some t) :
    ∃ s' u result, s.enter nowUs e = some s' ∧ s'.exchangeStep e = some (u, result) ∧ t = u.settle nowUs result := by
  obtain ⟨s', henter, h⟩ := Option.bind_eq_some_iff.mp h
  obtain ⟨⟨u, result⟩, hstep, rfl⟩ := Option.map_eq_some_iff.mp h
  exact ⟨s', u, result, henter, hstep, rfl⟩

theorem step_exchange_ready (hs : s.coord.Ready) (h : s.step (.exchange nowUs e) = some t) : t.coord.Ready := by
  obtain ⟨s', u, result, henter, hstep, rfl⟩ := step_exchange h
  exact settle_ready ((exchangeStep_frame hstep).keeps.ready ((enter_spec henter).2.1.ready hs)) nowUs result

/-- An event of an exchange within a session, while the loop runs around it. -/
theorem Live.step_exchange (hs : s.Live) (hready : s.coord.Ready) (h : s.step (.exchange nowUs e) = some t) :
    t.Live ∧ (s.phase ≠ .reset → t.phase ≠ .reset) ∧ (s.NonemptyPackets → s.Moved t) := by
  obtain ⟨s', u, result, henter, hstep, rfl⟩ := Link.step_exchange h
  obtain ⟨hloop, hkeeps, hrequired⟩ := enter_spec henter
  obtain ⟨hlive, -, hmoved⟩ := (hloop.live hs).exchangeStep (fun hsend => hkeeps.state (hready.state (hrequired hsend))) hstep
  have hsettle := settle_loopOnly u nowUs result
  refine ⟨hsettle.live hlive, fun hphase => ?_, fun hne => hloop.moved.trans ((hmoved (hloop.nonemptyPackets hne)).trans hsettle.moved)⟩
  rw [hsettle.phase]
  exact (exchangeStep_frame hstep).phase.ne_reset (hloop.phase ▸ hphase)

/-! ### Reset rounds -/

theorem resetSend_spec (h : s.resetSend nowUs laterUs flushed lost radioOk = some t) :
    s.phase = .top ∧ s.coord.loopAction nowUs = .reset ∧ ∃ request, decodeMacFrame request = some resetFrame ∧
      t = { s with
        coord := if radioOk then s.coord.setPollInterval.beginConnectionReset
          else s.coord.setPollInterval.beginConnectionReset.resetFailed laterUs
        toPeer := if lost then s.toPeer else s.toPeer ++ [⟨request, s.resetCalls + 1⟩]
        toCoord := s.toCoord.drop flushed
        resetCalls := s.resetCalls + 1
        phase := if radioOk then .reset else .top } := by
  obtain ⟨request, hencode, hdecode⟩ := exists_encode_resetFrame
  unfold resetSend at h
  split at h
  · cases h
  · rename_i hnot
    obtain ⟨hphase, haction⟩ := not_or.mp hnot
    refine ⟨not_not.mp hphase, not_not.mp haction, request, hdecode, ?_⟩
    simp only [hencode, send_of_encode hencode] at h
    cases radioOk <;> cases lost <;> simp at h <;> subst h <;> simp [not_not.mp hphase]

theorem resetReceive_spec (h : s.resetReceive nowUs flushed = some t) :
    s.phase = .reset ∧ ∃ reply toCoord, s.toCoord = reply :: toCoord ∧
      t = if PrimaryRadioInterface.confirmsReset reply.packet then
          { s with coord := s.coord.resetSucceeded, toCoord := toCoord.drop flushed, phase := .top }
        else { s with coord := s.coord.resetFailed nowUs, toCoord, phase := .top } := by
  unfold resetReceive at h
  split at h
  · rename_i reply toCoord hphase hcoord
    refine ⟨hphase, reply, toCoord, hcoord, ?_⟩
    split at h <;> rename_i hc <;> cases h
    · rw [if_pos hc]
    · rw [if_neg hc]
  · cases h

theorem resetTimeout_spec (h : s.resetTimeout nowUs = some t) :
    s.phase = .reset ∧ t = { s with coord := s.coord.resetFailed nowUs, phase := .top } := by
  unfold resetTimeout at h
  split at h
  · rename_i hphase
    cases h
    exact ⟨hphase, rfl⟩
  · cases h

end Link
end Nerfnet
