import Nerfnet.Theorems.ControlState
import Nerfnet.Theorems.Sound

/-! # The link, seen from each role

A run of the link is, for each role, a run of that role's own loop: whole passes, and the beginning of
another one while the coordinator waits for a reply. So what holds of every run of a loop holds of it in
the link. -/

namespace Nerfnet

theorem TxState.tunnelThread_append (tx : TxState) (reads later : List Bytes) :
    (tx.tunnelThread reads).tunnelThread later = tx.tunnelThread (reads ++ later) := by
  simp only [TxState.tunnelThread, List.filter_append, List.append_assoc]

theorem TxState.tunnelThread_nil (tx : TxState) : tx.tunnelThread [] = tx := by
  simp only [TxState.tunnelThread, List.filter_nil, List.append_nil]

namespace PrimaryRadioInterface
variable {ok : Pass → Prop} {c₀ c : PrimaryRadioInterface} {ps : List Pass}

/-- `s` with what `TunnelThread` read in the meantime. -/
def pushed (s : PrimaryRadioInterface) (reads : List Bytes) : PrimaryRadioInterface := { s with tx := s.tx.tunnelThread reads }

theorem pushed_append (s : PrimaryRadioInterface) (reads later : List Bytes) :
    (s.pushed reads).pushed later = s.pushed (reads ++ later) := by
  simp only [pushed, TxState.tunnelThread_append]

theorem pushed_nil (s : PrimaryRadioInterface) : s.pushed [] = s := by
  simp only [pushed, TxState.tunnelThread_nil]

/-- Where the loop is after the passes of a run: between two passes, or waiting for the reply of an
    exchange or of a reset. -/
inductive Reaches (ok : Pass → Prop) (c₀ : PrimaryRadioInterface) : Phase → PrimaryRadioInterface → Prop
  | top (ps : List Pass) (c : PrimaryRadioInterface) (before : List Bytes) : Runs ok c₀ ps c → Reaches ok c₀ .top (c.pushed before)
  | exchange (ps : List Pass) (c u : PrimaryRadioInterface) (nowUs : Nat) (before reads later : List Bytes) (tx : MacFrame)
      (request : Bytes) : Runs ok c₀ ps c → c.loopAction nowUs = .exchange →
      (c.pushed before).setPollInterval.prepareRequest reads = (u, some (tx, request)) →
      RadioInterface.send request true = .success → Reaches ok c₀ (.exchange tx) (u.pushed later)
  | reset (ps : List Pass) (c : PrimaryRadioInterface) (nowUs : Nat) (before later : List Bytes) : Runs ok c₀ ps c →
      c.loopAction nowUs = .reset →
      Reaches ok c₀ .reset ((c.pushed before).setPollInterval.beginConnectionReset.pushed later)

theorem Reaches.pushed {phase : Phase} (h : Reaches ok c₀ phase c) (reads : List Bytes) : Reaches ok c₀ phase (c.pushed reads) := by
  cases h with
  | top ps c before hrun =>
    rw [pushed_append]
    exact .top ps c _ hrun
  | exchange ps c u nowUs before reads' later tx request hrun haction hprepare hsend =>
    rw [pushed_append]
    exact .exchange ps c u nowUs before reads' _ tx request hrun haction hprepare hsend
  | reset ps c nowUs before later hrun haction =>
    rw [pushed_append]
    exact .reset ps c nowUs before _ hrun haction

/-- A pass ends, and the coordinator stands between two passes. -/
theorem Reaches.pass {t : PrimaryRadioInterface} {p : Pass} (hrun : Runs ok c₀ ps c) (hok : ok p) (ht : c.loopPass p = t) :
    Reaches ok c₀ .top t := by
  have hnext := Reaches.top (ps ++ [p]) t [] (Machine.Run.concat hrun hok (congrArg some ht))
  rwa [pushed_nil] at hnext

/-- A pass through `PerformExchange`. -/
theorem loopPass_exchange {p : Pass} (haction : c.loopAction p.nowUs = .exchange) :
    c.loopPass p = ((c.pushed p.before).setPollInterval.performExchange p.toAttempt).1.afterExchange
      ((c.pushed p.before).setPollInterval.performExchange p.toAttempt).2 p.laterUs :=
  loopPass_of_exchange haction

theorem performExchange_prepared {a : Attempt} {u : PrimaryRadioInterface} {tx : MacFrame} {request : Bytes}
    (hprepare : c.prepareRequest a.reads = (u, some (tx, request))) (hsend : RadioInterface.send request a.radioOk = .success) :
    c.performExchange a = (u.pushed a.later).completeExchange tx a.response := by
  simp only [performExchange, hprepare, hsend]
  rfl

/-- A pass through `ConnectionReset`. -/
theorem loopPass_reset {p : Pass} (haction : c.loopAction p.nowUs = .reset) :
    c.loopPass p =
      if ((c.pushed p.before).setPollInterval.connectionReset p.toAttempt).2
      then ((c.pushed p.before).setPollInterval.connectionReset p.toAttempt).1.resetSucceeded
      else ((c.pushed p.before).setPollInterval.connectionReset p.toAttempt).1.resetFailed p.laterUs := by
  have haction' : loopAction { c with tx := c.tx.tunnelThread p.before } p.nowUs = .reset := haction
  simp only [loopPass, haction']
  rfl

theorem connectionReset_unsent {a : Attempt} (hradio : a.radioOk = false) : c.connectionReset a = (c.beginConnectionReset, false) := by
  obtain ⟨request, hencode, -⟩ := exists_encode_resetFrame
  simp [connectionReset, hencode, send_of_encode hencode, hradio]

theorem connectionReset_sent {a : Attempt} (hradio : a.radioOk = true) :
    c.connectionReset a = (c.beginConnectionReset.pushed a.later, a.response.any confirmsReset) := by
  obtain ⟨request, hencode, -⟩ := exists_encode_resetFrame
  cases hresponse : a.response <;> simp [connectionReset, hencode, send_of_encode hencode, hradio, hresponse, pushed]

end PrimaryRadioInterface

namespace Link
open PrimaryRadioInterface (Reaches Pass)
variable {s t : Link} {e : Event} {es : List Event} {ok : Pass → Prop} {c₀ : PrimaryRadioInterface}

/-- The coordinator's loop allows every reply that is on its way. -/
def RepliesOk (ok : Pass → Prop) (s : Link) : Prop :=
  ∀ p : Pass, (∀ packet ∈ p.response, ∃ reply ∈ s.toCoord, reply.packet = packet) → ok p

/-- A step of the link takes the coordinator's loop on, or leaves it where it is. -/
theorem reaches_exchange {nowUs : Nat} {x : ExchangeEvent} (h : Reaches ok c₀ s.phase s.coord) (hok : s.RepliesOk ok)
    (hstep : s.step (.exchange nowUs x) = some t) : Reaches ok c₀ t.phase t.coord := by
  obtain ⟨s', u, result, henter, hexchange, rfl⟩ := step_exchange hstep
  cases x with
  | coordReads reads =>
    cases henter
    cases hexchange
    exact h.pushed reads
  | peerReads reads =>
    cases henter
    cases hexchange
    exact h
  | handle reads lost =>
    cases henter
    obtain ⟨request, toPeer, peerCall, -, -, rfl, rfl⟩ := handle_cases hexchange
    exact h
  | timeout =>
    cases henter
    simp only [exchangeStep, Link.timeout] at hexchange
    split at hexchange
    · rename_i tx hphase
      cases hexchange
      rw [hphase] at h
      generalize s.coord = c at h
      cases h with
      | exchange ps c u nowUs' before reads later tx request hrun haction hprepare hsend =>
        refine Reaches.pass (p := { nowUs := nowUs', reads, later, before, laterUs := nowUs }) hrun (hok _ (by simp)) ?_
        rw [PrimaryRadioInterface.loopPass_exchange haction, PrimaryRadioInterface.performExchange_prepared hprepare hsend]
        rfl
    · cases hexchange
  | receive =>
    cases henter
    simp only [exchangeStep, Link.receive] at hexchange
    split at hexchange
    · rename_i tx reply toCoord hphase hcoord
      cases hexchange
      rw [hphase] at h
      generalize s.coord = c at h
      cases h with
      | exchange ps c u nowUs' before reads later tx request hrun haction hprepare hsend =>
        refine Reaches.pass (p := { nowUs := nowUs', reads, later, before, laterUs := nowUs, response := some reply.packet })
          hrun (hok _ fun packet hp => ⟨reply, by simp [hcoord], Option.some.inj hp⟩) ?_
        rw [PrimaryRadioInterface.loopPass_exchange haction, PrimaryRadioInterface.performExchange_prepared hprepare hsend]
        rfl
    · cases hexchange
  | send reads lost radioOk =>
    simp only [enter] at henter
    split at henter
    · rename_i haction
      cases henter
      simp only [exchangeStep, Link.send] at hexchange
      split at hexchange
      · cases hexchange
      · rename_i hphase
        have hphase : s.phase = .top := not_not.mp hphase
        rw [hphase] at h
        generalize s.coord = c at h haction hexchange
        cases h with
        | top ps c before hrun =>
          split at hexchange
          · rename_i coord hprepare
            cases hexchange
            change Reaches ok c₀ s.phase _
            rw [hphase]
            refine Reaches.pass (p := { nowUs, reads, before, laterUs := nowUs }) hrun (hok _ (by simp)) ?_
            have hexchange : (c.pushed before).setPollInterval.performExchange { nowUs, reads } = (coord, .protocolFailure) := by
              simp only [PrimaryRadioInterface.performExchange, hprepare]
            rw [PrimaryRadioInterface.loopPass_exchange haction, hexchange]
            rfl
          · rename_i coord tx request hprepare
            split at hexchange <;> rename_i hsend <;> cases hexchange
            · change Reaches ok c₀ s.phase _
              rw [hphase]
              refine Reaches.pass (p := { nowUs, reads, radioOk, before, laterUs := nowUs }) hrun (hok _ (by simp)) ?_
              have hexchange : (c.pushed before).setPollInterval.performExchange { nowUs, reads, radioOk } =
                  (coord, .sendFailure) := by
                simp only [PrimaryRadioInterface.performExchange, hprepare]
                rw [if_pos hsend]
              rw [PrimaryRadioInterface.loopPass_exchange haction, hexchange]
              rfl
            · have hsent : RadioInterface.send request true = .success := by
                unfold RadioInterface.send at hsend ⊢
                split_ifs at hsend ⊢ <;> simp_all
              have hreach : Reaches ok c₀ (.exchange tx) (coord.pushed []) :=
                .exchange ps c coord nowUs before reads [] tx request hrun haction hprepare hsent
              rwa [PrimaryRadioInterface.pushed_nil] at hreach
    · cases henter

theorem reaches_resetSend {nowUs laterUs flushed : Nat} {lost radioOk : Bool} (h : Reaches ok c₀ s.phase s.coord)
    (hok : s.RepliesOk ok) (hstep : s.resetSend nowUs laterUs flushed lost radioOk = some t) :
    Reaches ok c₀ t.phase t.coord := by
  obtain ⟨hphase, haction, request, -, rfl⟩ := resetSend_spec hstep
  rw [hphase] at h
  generalize s.coord = c at h haction
  cases h with
  | top ps c before hrun =>
    have haction : c.loopAction nowUs = .reset := haction
    cases radioOk with
    | false =>
      refine Reaches.pass (p := { nowUs, before, laterUs, radioOk := false }) hrun (hok _ (by simp)) ?_
      rw [PrimaryRadioInterface.loopPass_reset haction, PrimaryRadioInterface.connectionReset_unsent rfl]
      rfl
    | true =>
      have hreach : Reaches ok c₀ .reset ((c.pushed before).setPollInterval.beginConnectionReset.pushed []) :=
        .reset ps c nowUs before [] hrun haction
      rwa [PrimaryRadioInterface.pushed_nil] at hreach

theorem reaches_resetEnd (nowUs : Nat) (response : Option Bytes) (hphase : s.phase = .reset)
    (h : Reaches ok c₀ s.phase s.coord) (hok : s.RepliesOk ok)
    (hresponse : ∀ packet ∈ response, ∃ reply ∈ s.toCoord, reply.packet = packet) :
    Reaches ok c₀ .top
      (if response.any PrimaryRadioInterface.confirmsReset then s.coord.resetSucceeded else s.coord.resetFailed nowUs) := by
  rw [hphase] at h
  generalize s.coord = c at h
  cases h with
  | reset ps c nowUs' before later hrun haction =>
    refine Reaches.pass (p := { nowUs := nowUs', before, later, laterUs := nowUs, response }) hrun (hok _ hresponse) ?_
    rw [PrimaryRadioInterface.loopPass_reset haction, PrimaryRadioInterface.connectionReset_sent rfl]

theorem reaches_step (h : Reaches ok c₀ s.phase s.coord) (hok : s.RepliesOk ok) (hstep : s.step e = some t) :
    Reaches ok c₀ t.phase t.coord := by
  cases e with
  | exchange nowUs x => exact reaches_exchange h hok hstep
  | resetSend nowUs laterUs flushed lost radioOk => exact reaches_resetSend h hok hstep
  | resetReceive nowUs flushed =>
    obtain ⟨hphase, reply, toCoord, hcoord, rfl⟩ := resetReceive_spec hstep
    have hend := reaches_resetEnd nowUs (some reply.packet) hphase h hok
      fun packet hp => ⟨reply, by simp [hcoord], Option.some.inj hp⟩
    rw [Option.any_some] at hend
    split
    · rwa [if_pos (by assumption)] at hend
    · rwa [if_neg (by assumption)] at hend
  | resetTimeout nowUs =>
    obtain ⟨hphase, rfl⟩ := resetTimeout_spec hstep
    exact reaches_resetEnd nowUs none hphase h hok (by simp)

/-! ### The peer -/

/-- What a step of the link makes of the peer: `TunnelThread` pushes, or a pass handles the oldest request. -/
theorem step_peer (hstep : s.step e = some t) :
    (∃ reads, t.peer = { s.peer with tx := s.peer.tx.tunnelThread reads } ∧ ∀ reply ∈ t.toCoord, reply ∈ s.toCoord) ∨
      ∃ request reads, t.peer = (s.peer.handleRequest request reads).1 ∧
        ∀ reply ∈ t.toCoord, reply ∈ s.toCoord ∨ (s.peer.handleRequest request reads).2 = some reply.packet := by
  have hsame : ∀ {u : Link}, u.peer = s.peer → (∀ reply ∈ u.toCoord, reply ∈ s.toCoord) →
      ∃ reads, u.peer = { s.peer with tx := s.peer.tx.tunnelThread reads } ∧ ∀ reply ∈ u.toCoord, reply ∈ s.toCoord :=
    fun hpeer hreplies => ⟨[], by rw [TxState.tunnelThread_nil]; exact hpeer, hreplies⟩
  cases e with
  | exchange nowUs x =>
    obtain ⟨s', u, result, henter, hexchange, rfl⟩ := step_exchange hstep
    have hs' : s'.peer = s.peer ∧ s'.toCoord = s.toCoord ∧ s'.toPeer = s.toPeer := by
      rw [(enter_spec henter).1.eq]
      exact ⟨rfl, rfl, rfl⟩
    have hsettle : (u.settle nowUs result).peer = u.peer ∧ (u.settle nowUs result).toCoord = u.toCoord := by
      rw [(settle_loopOnly u nowUs result).eq]
      exact ⟨rfl, rfl⟩
    rw [hsettle.1, hsettle.2]
    cases x with
    | coordReads reads =>
      cases hexchange
      exact Or.inl (hsame hs'.1 fun reply hr => hs'.2.1 ▸ hr)
    | peerReads reads =>
      cases hexchange
      refine Or.inl ⟨reads, ?_, fun reply hr => hs'.2.1 ▸ hr⟩
      dsimp only
      rw [hs'.1]
    | send reads lost radioOk =>
      obtain ⟨-, sent, phase, -, rfl, -⟩ := send_cases hexchange
      exact Or.inl (hsame hs'.1 fun reply hr => hs'.2.1 ▸ hr)
    | receive =>
      obtain ⟨tx, reply, toCoord, -, hcoord, rfl, -⟩ := receive_cases hexchange
      refine Or.inl (hsame hs'.1 fun reply' hr => ?_)
      rw [← hs'.2.1, hcoord]
      exact List.mem_cons_of_mem _ hr
    | timeout =>
      obtain ⟨tx, -, rfl, -⟩ := timeout_cases hexchange
      exact Or.inl (hsame hs'.1 fun reply hr => hs'.2.1 ▸ hr)
    | handle reads lost =>
      obtain ⟨request, toPeer, peerCall, -, -, rfl, -⟩ := handle_cases hexchange
      refine Or.inr ⟨request.packet, reads, by rw [← hs'.1], fun reply hr => ?_⟩
      rw [← hs'.1, ← hs'.2.1]
      rcases List.mem_append.mp hr with hr | hr
      · exact Or.inl hr
      · split at hr
        · cases hr
        · obtain ⟨packet, hpacket, rfl⟩ := Option.map_eq_some_iff.mp (Option.mem_toList.mp hr)
          exact Or.inr hpacket
  | resetSend nowUs laterUs flushed lost radioOk =>
    obtain ⟨-, -, request, -, rfl⟩ := resetSend_spec hstep
    exact Or.inl (hsame rfl fun reply hr => List.mem_of_mem_drop hr)
  | resetReceive nowUs flushed =>
    obtain ⟨-, reply, toCoord, hcoord, rfl⟩ := resetReceive_spec hstep
    rw [hcoord] at hsame ⊢
    split
    · exact Or.inl (hsame rfl fun reply' hr => List.mem_cons_of_mem _ (List.mem_of_mem_drop hr))
    · exact Or.inl (hsame rfl fun reply' hr => List.mem_cons_of_mem _ hr)
  | resetTimeout nowUs =>
    obtain ⟨-, rfl⟩ := resetTimeout_spec hstep
    exact Or.inl (hsame rfl fun reply hr => hr)

/-- Both roles are where their own loops lead, and only frames of the kinds that the peer composes are on
    their way to the coordinator. -/
structure Projects (c₀ : PrimaryRadioInterface) (p₀ : SecondaryRadioInterface) (s : Link) : Prop where
  coord : Reaches PrimaryRadioInterface.Pass.FromPeer c₀ s.phase s.coord
  peer : ∃ ps p before, SecondaryRadioInterface.Runs p₀ ps p ∧ s.peer = { p with tx := p.tx.tunnelThread before }
  replies : ∀ reply ∈ s.toCoord, ∀ rx ∈ decodeMacFrame reply.packet, rx.FromPeer

theorem Projects.step {p₀ : SecondaryRadioInterface} (h : s.Projects c₀ p₀) (hwf : s.peer.tx.Wf) (hstep : s.step e = some t) :
    t.Projects c₀ p₀ := by
  have hok : s.RepliesOk PrimaryRadioInterface.Pass.FromPeer := fun p hp packet hpacket => by
    obtain ⟨reply, hr, rfl⟩ := hp packet hpacket
    exact h.replies reply hr
  have hcoord := reaches_step h.coord hok hstep
  obtain ⟨ps, p, before, hrun, hpeer⟩ := h.peer
  rcases step_peer hstep with ⟨reads, ht, hreplies⟩ | ⟨request, reads, ht, hreplies⟩
  · refine ⟨hcoord, ⟨ps, p, before ++ reads, hrun, ?_⟩, fun reply hr => h.replies reply (hreplies reply hr)⟩
    rw [ht, hpeer]
    dsimp only
    rw [TxState.tunnelThread_append]
  · refine ⟨hcoord, ⟨ps ++ [⟨before, request, reads⟩], t.peer, [], ?_, ?_⟩, fun reply hr rx hrx => ?_⟩
    · refine Machine.Run.concat hrun trivial (congrArg some ?_)
      rw [ht, hpeer]
      rfl
    · rw [TxState.tunnelThread_nil]
    · rcases hreplies reply hr with hr | hr
      · exact h.replies reply hr rx hrx
      · obtain ⟨tx, hdecode, hfrom⟩ := SecondaryRadioInterface.handleRequest_fromPeer hwf hr
        rw [hdecode] at hrx
        cases hrx
        exact hfrom

theorem projects_initial (pollIntervalUs : Nat) (peer : SecondaryRadioInterface) :
    (initial pollIntervalUs peer).Projects { currentPollIntervalUs := pollIntervalUs } peer where
  coord := by
    have hreach : Reaches PrimaryRadioInterface.Pass.FromPeer { currentPollIntervalUs := pollIntervalUs } .top
        (PrimaryRadioInterface.pushed { currentPollIntervalUs := pollIntervalUs } []) := .top [] _ [] (.nil _)
    rwa [PrimaryRadioInterface.pushed_nil] at hreach
  peer := ⟨[], peer, [], .nil peer, by rw [TxState.tunnelThread_nil]; rfl⟩
  replies := by simp [initial]

theorem Run.projects {pollIntervalUs : Nat} {peer : SecondaryRadioInterface} (hpeer : peer.tx.Wf)
    (hrun : (initial pollIntervalUs peer).Run es s) : s.Sound ∧ s.Projects { currentPollIntervalUs := pollIntervalUs } peer :=
  Machine.Run.invariant (P := fun u : Link => u.Sound ∧ u.Projects { currentPollIntervalUs := pollIntervalUs } peer)
    (fun _ _ _ hu _ hstep => ⟨hu.1.step hstep, hu.2.step hu.1.peer hstep⟩) hrun
    ⟨sound_initial pollIntervalUs hpeer, projects_initial pollIntervalUs peer⟩

/-- Whatever is lost or late: each role runs its own loop in the link, the coordinator against replies of
    the kinds that the peer composes. -/
theorem projects_to_loops {pollIntervalUs : Nat} {peer : SecondaryRadioInterface} (hpeer : peer.tx.Wf)
    (hrun : (initial pollIntervalUs peer).Run es s) :
    Reaches PrimaryRadioInterface.Pass.FromPeer { currentPollIntervalUs := pollIntervalUs } s.phase s.coord ∧
      ∃ ps p before, SecondaryRadioInterface.Runs peer ps p ∧ s.peer = { p with tx := p.tx.tunnelThread before } :=
  ⟨(hrun.projects hpeer).2.coord, (hrun.projects hpeer).2.peer⟩

/-- The peer answers a Reset, and the coordinator is given the answer while it waits for its next reply. -/
def lateAnswer : List Event :=
  [.resetSend 0 0 0 false true, .resetTimeout 0, .resetSend 0 0 0 true true, .exchange 0 (.handle [ipv4Packet 1 []] false),
    .resetReceive 0 0, .exchange 0 (.send [] false true)]

theorem projects_to_loops_late_answer :
    ∃ s tx, (initial 100 {}).Run lateAnswer s ∧ s.phase = .exchange tx ∧
      Reaches PrimaryRadioInterface.Pass.FromPeer { currentPollIntervalUs := 100 } (.exchange tx) s.coord ∧
      ∃ ps p before, SecondaryRadioInterface.Runs {} ps p ∧ s.peer = { p with tx := p.tx.tunnelThread before } := by
  have hexec : (Machine.exec step (fun _ _ => True) (initial 100 {}) lateAnswer).map (·.phase) =
      some (.exchange { type := .pending }) := by decide +kernel
  obtain ⟨s, hs, hphase⟩ := Option.map_eq_some_iff.mp hexec
  obtain ⟨hcoord, hpeer⟩ := projects_to_loops TxState.wf_init (.of_exec hs)
  exact ⟨s, _, .of_exec hs, hphase, hphase ▸ hcoord, hpeer⟩

end Link

end Nerfnet
