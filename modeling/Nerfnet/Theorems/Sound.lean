import Nerfnet.Theorems.Steps

/-! # What every run keeps

With late replies, lost resets and frames of earlier sessions the two sides need not agree on anything.
What each side keeps by itself, whatever it receives, is `Sound`. -/

namespace Nerfnet

/-- What the peer does with a request, whatever it is. -/
theorem SecondaryRadioInterface.handleRequest_wf {s : SecondaryRadioInterface} (hwf : s.tx.Wf) (packet : Bytes)
    (reads : List Bytes) : (s.handleRequest packet reads).1.tx.Wf := by
  unfold handleRequest
  split
  · exact hwf.tunnelThread reads
  · rename_i request _
    split
    · exact (TxState.wf_resetLocked s.tx).tunnelThread reads
    · rcases s.applyCoordinatorRequest_spec request with ⟨r, ok, habsorb, ⟨-, -, haccept⟩ | ⟨-, hreject⟩⟩
      · obtain ⟨r', b, g, tx, hchoose, hcompose, -⟩ :=
          choosePeerResponse_spec (s := granted r request) reads (habsorb.wf hwf)
        rw [haccept]
        simp only [hchoose]
        exact hcompose.wf ((habsorb.wf hwf).tunnelThread reads)
      · rw [hreject]
        exact (habsorb.wf hwf).tunnelThread reads

theorem PrimaryRadioInterface.completeExchange_wf {s : PrimaryRadioInterface} (hwf : s.tx.Wf) (tx : MacFrame)
    (response : Option Bytes) : (s.completeExchange tx response).1.tx.Wf := by
  unfold completeExchange
  split
  · exact hwf
  · split
    · exact hwf
    · rename_i rx _
      rcases s.applyPeerResponse_spec rx with ⟨r, ok, habsorb, ⟨-, -, happly⟩ | ⟨-, happly⟩⟩
      · simp only [happly]
        exact habsorb.wf hwf
      · simp only [happly]
        exact habsorb.wf hwf

namespace Link
variable {s t : Link} {e : Event} {es : List Event}

/-- A run of the link, with any losses and any delays. -/
def Run (s : Link) (es : List Event) (t : Link) : Prop := Machine.Run Link.step (fun _ _ => True) s es t

structure Sound (s : Link) : Prop where
  ready : s.coord.Ready
  exchanging : ∀ tx, s.phase = .exchange tx → s.coord.connectionResetRequired = false
  coord : s.coord.tx.Wf
  peer : s.peer.tx.Wf

/-- Both sides keep their TX fields well-formed in an exchange. -/
theorem exchangeStep_wf {x : ExchangeEvent} {result : Option ExchangeResult} (hcoord : s.coord.tx.Wf) (hpeer : s.peer.tx.Wf)
    (hstate : x.isSend = true → s.coord.state ≠ .resetSync) (hstep : s.exchangeStep x = some (t, result)) :
    t.coord.tx.Wf ∧ t.peer.tx.Wf := by
  cases x with
  | coordReads reads =>
    cases hstep
    exact ⟨hcoord.tunnelThread reads, hpeer⟩
  | peerReads reads =>
    cases hstep
    exact ⟨hcoord, hpeer.tunnelThread reads⟩
  | send reads lost radioOk =>
    obtain ⟨-, r, wasData, tx, request, hcompose, -, -, -, rfl, -⟩ := send_spec hcoord (hstate rfl) hstep
    exact ⟨hcompose.wf (hcoord.tunnelThread reads), hpeer⟩
  | receive =>
    obtain ⟨tx, reply, toCoord, -, -, rfl, -⟩ := receive_cases hstep
    exact ⟨PrimaryRadioInterface.completeExchange_wf hcoord _ _, hpeer⟩
  | timeout =>
    obtain ⟨tx, -, rfl, -⟩ := timeout_cases hstep
    exact ⟨hcoord, hpeer⟩
  | handle reads lost =>
    obtain ⟨request, toPeer, peerCall, -, -, rfl, -⟩ := handle_cases hstep
    exact ⟨hcoord, SecondaryRadioInterface.handleRequest_wf hpeer _ reads⟩

theorem Sound.exchange {nowUs : Nat} {x : ExchangeEvent} (h : s.Sound) (hstep : s.step (.exchange nowUs x) = some t) :
    t.Sound := by
  obtain ⟨s', u, result, henter, hexchange, rfl⟩ := step_exchange hstep
  obtain ⟨hloop, hkeeps, hrequired⟩ := enter_spec henter
  have hframe := exchangeStep_frame hexchange
  have hcoord : s'.coord.tx.Wf := by
    rw [hloop.toRadioInterface]
    exact h.coord
  have hpeer : s'.peer.tx.Wf := by
    rw [hloop.eq]
    exact h.peer
  obtain ⟨huCoord, huPeer⟩ := exchangeStep_wf hcoord hpeer (fun hsend => hkeeps.state (h.ready.state (hrequired hsend))) hexchange
  have hsettle := settle_loopOnly u nowUs result
  refine ⟨step_exchange_ready h.ready hstep, fun tx hphase => ?_, ?_, ?_⟩
  · -- An exchange goes on only if it did before, or if it starts now.
    rw [hsettle.phase] at hphase
    have hunchanged : u.coord.connectionResetRequired = s.coord.connectionResetRequired :=
      hframe.keeps.connectionResetRequired.trans hkeeps.connectionResetRequired
    have hchange := hframe.phase
    rw [hphase, hloop.phase] at hchange
    generalize hp : s.phase = phase at hchange
    cases hchange with
    | stay => exact hunchanged.trans (h.exchanging tx hp)
    | sent _ hsend => exact hunchanged.trans (hrequired hsend)
  · rw [hsettle.toRadioInterface]
    exact huCoord
  · rw [hsettle.eq]
    exact huPeer

theorem Sound.step (h : s.Sound) (hstep : s.step e = some t) : t.Sound := by
  cases e with
  | exchange nowUs x => exact h.exchange hstep
  | resetSend nowUs laterUs flushed lost radioOk =>
    obtain ⟨-, haction, request, -, rfl⟩ := resetSend_spec hstep
    have hrequired := PrimaryRadioInterface.loopAction_reset h.ready haction
    refine ⟨.of_required ?_, fun tx hphase => ?_, ?_, h.peer⟩
    · dsimp only
      split
      · exact hrequired
      · exact PrimaryRadioInterface.resetFailed_required hrequired laterUs
    · dsimp only at hphase
      split at hphase <;> cases hphase
    · dsimp only
      split
      · exact TxState.wf_resetLocked _
      · rw [PrimaryRadioInterface.resetFailed_toRadioInterface]
        exact TxState.wf_resetLocked _
  | resetReceive nowUs flushed =>
    obtain ⟨-, reply, toCoord, -, rfl⟩ := resetReceive_spec hstep
    split
    · exact ⟨s.coord.resetSucceeded_ready, by simp, h.coord, h.peer⟩
    · exact ⟨PrimaryRadioInterface.resetFailed_ready h.ready nowUs, by simp,
        by rw [PrimaryRadioInterface.resetFailed_toRadioInterface]; exact h.coord, h.peer⟩
  | resetTimeout nowUs =>
    obtain ⟨-, rfl⟩ := resetTimeout_spec hstep
    exact ⟨PrimaryRadioInterface.resetFailed_ready h.ready nowUs, by simp,
      by rw [PrimaryRadioInterface.resetFailed_toRadioInterface]; exact h.coord, h.peer⟩

theorem sound_initial (pollIntervalUs : Nat) {peer : SecondaryRadioInterface} (hpeer : peer.tx.Wf) :
    (initial pollIntervalUs peer).Sound where
  ready := .of_required rfl
  exchanging := nofun
  coord := TxState.wf_init
  peer := hpeer

theorem Run.sound (hrun : s.Run es t) (hs : s.Sound) : t.Sound :=
  Machine.Run.invariant (fun _ _ _ h _ hstep => h.step hstep) hrun hs

end Link
end Nerfnet
