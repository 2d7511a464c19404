import Nerfnet.Theorems.Receive
import Nerfnet.Theorems.Sound

/-! # From PENDING to DATA

The peer announces its data in every reply, the coordinator grants until its next accepted reply says
otherwise, and the peer answers a Grant with its oldest fragment. None of the three steps is lost to
failing exchanges, whatever arrives. -/

namespace Nerfnet

/-- In IssueGrant and ActiveRx the coordinator grants, whatever it has to send itself. -/
theorem PrimaryRadioInterface.prepareRequest_granting {c : PrimaryRadioInterface} {reads : List Bytes} {tx : MacFrame}
    {request : Bytes} (h : c.state = .issueGrant ∨ c.state = .activeRx)
    (hprepare : (c.prepareRequest reads).2 = some (tx, request)) : tx.type = .grant ∧ tx.arg = kDefaultBurstGrant := by
  have htx : (c.chooseCoordinatorTxFrame reads).2 = some {
      ack := c.rx.ackSeq
      type := .grant
      pending := if c.tx.localHasData then 1 else 0
      arg := kDefaultBurstGrant } := by
    rcases h with hst | hst <;> simp [chooseCoordinatorTxFrame, hst]
  unfold prepareRequest at hprepare
  split at hprepare
  · cases hprepare
  · rename_i heq
    rw [heq] at htx
    cases htx
    simp only [Option.map_eq_some_iff] at hprepare
    obtain ⟨packet, -, heq⟩ := hprepare
    cases heq
    exact ⟨rfl, rfl⟩

/-- An accepted request is answered with the frame that `ChoosePeerResponse` chooses: it advertises the
    peer's data, and after a Grant with credits it carries the first fragment of the peer's front packet. -/
theorem SecondaryRadioInterface.handleRequest_reply {s s' : SecondaryRadioInterface} {packet : Bytes} {request : MacFrame}
    (hwf : s.tx.Wf) (hdecode : decodeMacFrame packet = some request) (haccept : s.applyCoordinatorRequest request = (s', true))
    (hdata : s'.tx.localHasData = true) (reads : List Bytes) :
    ∃ reply tx, (s.handleRequest packet reads).2 = some reply ∧ decodeMacFrame reply = some tx ∧ tx.pending ≠ 0 ∧
      (request.type = .grant → 0 < request.arg → ∃ current rest, s'.tx.readBuffer = current :: rest ∧
        tx.type = .data ∧ tx.seq = s'.tx.nextTxSeq ∧ tx.payload = current.take kMaxPayloadSize) := by
  rcases s.applyCoordinatorRequest_spec request with ⟨r, ok, habsorb, ⟨-, hrequest, happly⟩ | ⟨-, happly⟩⟩
  · obtain rfl : s' = granted r request := (Prod.mk.inj (haccept.symm.trans happly)).1
    have hwf' : (granted r request).tx.Wf := habsorb.wf hwf
    obtain ⟨r', b, g, tx, reply, hhandle, hcompose, htype, hpending, -, hreply⟩ :=
      handleRequest_accepted reads hdecode hrequest haccept hwf'
    refine ⟨reply, tx, by rw [hhandle], hreply, by simp [hpending, hdata], fun hgrant harg => ?_⟩
    have htx : tx.type = .data := by
      have hne : r.tx.readBuffer ≠ [] := hwf'.localHasData.mp hdata
      rw [htype, granted_nextReplyType (r := r) hwf' fun _ => harg, if_neg hne, if_pos hgrant]
    rcases hcompose.tx with ⟨hnot, -⟩ | ⟨-, hoffers⟩
    · exact absurd htx hnot
    · obtain ⟨current, rest, hqueue, hpayload, -⟩ := hoffers.fragment
      obtain ⟨front, packets, hfront⟩ := List.exists_cons_of_ne_nil (hwf'.localHasData.mp hdata)
      have hqueue' : front :: (packets ++ reads.filter isValidIpPacket) = current :: rest := by
        rw [← hqueue]
        simp [RadioInterface.tunnelThread, hfront]
      obtain ⟨rfl, -⟩ := List.cons.inj hqueue'
      refine ⟨front, packets, hfront, htx, ?_, hpayload⟩
      rw [hoffers.seq, (hoffers.wf.inFlight hoffers.inFlight).1, hoffers.next]
      rfl
  · cases (Prod.mk.inj (haccept.symm.trans happly)).2

namespace Link
variable {s t u v : Link} {e : Event} {es fs : List Event} {rx tx : MacFrame}

/-- The reply on which `ApplyPeerResponse` returns true in the event. -/
def acceptedReply (s : Link) (e : Event) : Option MacFrame :=
  match e, s.phase, s.toCoord with
  | .exchange _ .receive, .exchange _, reply :: _ =>
    (decodeMacFrame reply.packet).filter fun rx => (s.coord.applyPeerResponse rx).2
  | _, _, _ => none

/-- The frame that the coordinator hands to `Send` in the event. -/
def transmitted (s : Link) (e : Event) : Option MacFrame :=
  match e with
  | .exchange nowUs (.send reads _ _) =>
    if s.coord.loopAction nowUs = .exchange then (s.coord.setPollInterval.prepareRequest reads).2.map (·.1) else none
  | .resetSend nowUs _ _ _ _ => if s.coord.loopAction nowUs = .reset then some resetFrame else none
  | _ => none

/-- A step in which no reply is accepted and no reset succeeds. -/
def Unanswered (s : Link) (e : Event) : Prop := s.acceptedReply e = none ∧ completesReset s e = false

instance (s : Link) (e : Event) : Decidable (s.Unanswered e) := inferInstanceAs (Decidable (_ ∧ _))

/-- The coordinator will grant in its next exchange, or it is disconnected and will reset. -/
inductive Granting (c : PrimaryRadioInterface) : Prop
  | connected : c.disconnected = false → c.connectionResetRequired = false → c.state = .issueGrant ∨ c.state = .activeRx →
      Granting c
  | disconnected : c.disconnected = true → Granting c

theorem Granting.congr {c c' : PrimaryRadioInterface} (h : Granting c) (hd : c'.disconnected = c.disconnected)
    (hr : c'.connectionResetRequired = c.connectionResetRequired) (hs : c'.state = c.state) : Granting c' := by
  cases h with
  | connected h₁ h₂ h₃ => exact .connected (hd.trans h₁) (hr.trans h₂) (by rwa [hs])
  | disconnected h => exact .disconnected (hd.trans h)

theorem Granting.handleTransactionFailure {c : PrimaryRadioInterface} (h : Granting c) (kind : FailureType) (nowUs : Nat) :
    Granting (c.handleTransactionFailure kind nowUs) := by
  obtain ⟨sendStreak, timeoutStreak, -, -, ⟨-, heq⟩ | ⟨-, heq⟩⟩ := c.handleTransactionFailure_cases kind nowUs <;> rw [heq]
  · exact .disconnected rfl
  · exact h.congr rfl rfl rfl

theorem Granting.resetFailed {c : PrimaryRadioInterface} (h : Granting c) (nowUs : Nat) : Granting (c.resetFailed nowUs) := by
  unfold PrimaryRadioInterface.resetFailed
  split
  · exact h.congr rfl rfl rfl
  · exact h.handleTransactionFailure .protocol nowUs

theorem Granting.setPollInterval {c : PrimaryRadioInterface} (h : Granting c) : Granting c.setPollInterval := by
  unfold PrimaryRadioInterface.setPollInterval
  split_ifs
  · exact h
  · exact h.congr rfl rfl rfl
  · exact h.congr rfl rfl rfl

/-- A reply that is not accepted leaves the coordinator granting, and the exchange fails. -/
theorem Granting.completeExchange {c : PrimaryRadioInterface} (h : Granting c) (tx : MacFrame) (response : Option Bytes)
    (hno : ∀ packet rx, response = some packet → decodeMacFrame packet = some rx → (c.applyPeerResponse rx).2 = false) :
    Granting (c.completeExchange tx response).1 ∧ (c.completeExchange tx response).2 ≠ .success := by
  unfold PrimaryRadioInterface.completeExchange
  split
  · exact ⟨h, by simp⟩
  · rename_i packet
    split
    · exact ⟨h, by simp⟩
    · rename_i rx hdecode
      have hrejected := hno packet rx rfl hdecode
      rcases c.applyPeerResponse_spec rx with ⟨r, ok, -, ⟨-, -, happly⟩ | ⟨-, happly⟩⟩
      · rw [happly] at hrejected
        cases hrejected
      · simp only [happly]
        exact ⟨h.congr rfl rfl rfl, by simp⟩

theorem Granting.exchangeStep {x : ExchangeEvent} {result : Option ExchangeResult} {nowUs : Nat} (h : Granting s.coord)
    (hno : s.acceptedReply (.exchange nowUs x) = none) (hstep : s.exchangeStep x = some (t, result)) :
    Granting t.coord ∧ result ≠ some .success := by
  cases x with
  | coordReads reads =>
    cases hstep
    exact ⟨h.congr rfl rfl rfl, by simp⟩
  | peerReads reads =>
    cases hstep
    exact ⟨h, by simp⟩
  | send reads lost radioOk =>
    have hprepare : Granting (s.coord.prepareRequest reads).1 := by
      obtain ⟨r, wasData, frame, hchoose, -⟩ := s.coord.chooseCoordinatorTxFrame_eq reads
      cases frame <;> simp only [PrimaryRadioInterface.prepareRequest, hchoose] <;> exact h.congr rfl rfl rfl
    obtain ⟨-, sent, phase, -, rfl, hcase⟩ := send_cases hstep
    refine ⟨hprepare, ?_⟩
    rcases hcase with ⟨-, rfl | rfl⟩ | ⟨tx, -, rfl⟩ <;> simp
  | receive =>
    obtain ⟨tx, reply, toCoord, hphase, hcoord, rfl, rfl⟩ := receive_cases hstep
    simp only [acceptedReply, hphase, hcoord] at hno
    obtain ⟨hgranting, hresult⟩ := h.completeExchange tx (some reply.packet) fun packet rx hpacket hdecode => by
      cases hpacket
      simpa [hdecode, Option.filter] using hno
    exact ⟨hgranting, fun hsuccess => hresult (Option.some.inj hsuccess)⟩
  | timeout =>
    obtain ⟨tx, -, rfl, rfl⟩ := timeout_cases hstep
    exact ⟨h, by simp⟩
  | handle reads lost =>
    obtain ⟨request, toPeer, peerCall, -, -, rfl, rfl⟩ := handle_cases hstep
    exact ⟨h, by simp⟩

theorem Granting.step (h : Granting s.coord) (hno : s.Unanswered e) (hstep : s.step e = some t) : Granting t.coord := by
  cases e with
  | exchange nowUs x =>
    obtain ⟨s', u, result, henter, hexchange, rfl⟩ := step_exchange hstep
    have hs' : Granting s'.coord ∧ s'.acceptedReply (.exchange nowUs x) = none := by
      cases x with
      | send reads lost radioOk =>
        simp only [enter] at henter
        split at henter <;> cases henter
        exact ⟨h.setPollInterval, rfl⟩
      | _ =>
        cases henter
        exact ⟨h, hno.1⟩
    obtain ⟨hu, hresult⟩ := hs'.1.exchangeStep hs'.2 hexchange
    cases result with
    | none => exact hu
    | some result =>
      cases result with
      | success => exact absurd rfl hresult
      | sendFailure => exact hu.handleTransactionFailure .send nowUs
      | timeoutFailure => exact hu.handleTransactionFailure .timeout nowUs
      | protocolFailure => exact hu.handleTransactionFailure .protocol nowUs
  | resetSend nowUs laterUs flushed lost radioOk =>
    obtain ⟨-, -, request, -, rfl⟩ := resetSend_spec hstep
    have hbegin : Granting s.coord.setPollInterval.beginConnectionReset := h.setPollInterval.congr rfl rfl rfl
    dsimp only
    split
    · exact hbegin
    · exact hbegin.resetFailed laterUs
  | resetReceive nowUs flushed =>
    obtain ⟨hphase, reply, toCoord, hcoord, rfl⟩ := resetReceive_spec hstep
    have hconfirm := hno.2
    simp only [completesReset, hphase, hcoord] at hconfirm
    rw [if_neg (by simp [hconfirm])]
    exact h.resetFailed nowUs
  | resetTimeout nowUs =>
    obtain ⟨-, rfl⟩ := resetTimeout_spec hstep
    exact h.resetFailed nowUs

/-- An accepted reply with pending data makes the coordinator grant. -/
theorem Sound.granting (hs : s.Sound) (haccept : s.acceptedReply e = some rx) (hpending : rx.pending ≠ 0)
    (hstep : s.step e = some t) : Granting t.coord := by
  unfold acceptedReply at haccept
  split at haccept
  · rename_i nowUs tx reply toCoord hphase hcoord
    obtain ⟨hdecode, happlied⟩ := Option.filter_eq_some_iff.mp haccept
    rcases s.coord.applyPeerResponse_spec rx with ⟨r, ok, -, ⟨-, -, happly⟩ | ⟨-, happly⟩⟩
    · obtain ⟨s', u, result, henter, hexchange, rfl⟩ := step_exchange hstep
      cases henter
      obtain ⟨tx', reply', toCoord', -, hcoord', rfl, rfl⟩ := receive_cases hexchange
      obtain ⟨rfl, -⟩ := List.cons.inj (hcoord'.symm.trans hcoord)
      rw [PrimaryRadioInterface.completeExchange_accepted hdecode happly]
      exact .connected rfl (hs.exchanging tx hphase) (PrimaryRadioInterface.replyState_of_pending hpending)
    · rw [happly] at happlied
      cases happlied
  · cases haccept

/-- While the coordinator is granting it sends Grants, or Resets once it is disconnected. -/
theorem Granting.transmitted (h : Granting s.coord) (htx : s.transmitted e = some tx) :
    (s.coord.disconnected = false ∧ tx.type = .grant ∧ tx.arg = kDefaultBurstGrant) ∨
      (s.coord.disconnected = true ∧ tx = resetFrame) := by
  unfold Link.transmitted at htx
  split at htx
  · rename_i nowUs reads lost radioOk
    split at htx
    · rename_i haction
      have hconnected := PrimaryRadioInterface.loopAction_exchange_connected haction
      cases h.setPollInterval with
      | connected hd hr hst =>
        obtain ⟨⟨frame, request⟩, hprepare, rfl⟩ := Option.map_eq_some_iff.mp htx
        exact Or.inl ⟨hconnected, PrimaryRadioInterface.prepareRequest_granting hst hprepare⟩
      | disconnected hd =>
        rw [s.coord.setPollInterval_keeps.disconnected, hconnected] at hd
        cases hd
    · cases htx
  · split at htx
    · rename_i haction
      cases htx
      cases h with
      | connected hd hr =>
        rw [PrimaryRadioInterface.loopAction, hd, hr] at haction
        cases haction
      | disconnected hd => exact Or.inr ⟨hd, rfl⟩
    · cases htx
  · cases htx

theorem Granting.run (h : Granting t.coord) (hrun : Machine.Run Link.step Unanswered t fs u) : Granting u.coord :=
  Machine.Run.invariant (P := fun v : Link => Granting v.coord) (fun _ _ _ hs hno hstep => hs.step hno hstep) hrun h

/-- The peer advertises its data, the coordinator grants until it has accepted the next reply, and the
    peer answers the Grant with its oldest fragment. -/
theorem advertisement_kept {pollIntervalUs : Nat} (hrun : (initial pollIntervalUs {}).Run es s) :
    (∀ packet request peer reads, decodeMacFrame packet = some request →
      s.peer.applyCoordinatorRequest request = (peer, true) → peer.tx.localHasData = true →
      ∃ reply tx, (s.peer.handleRequest packet reads).2 = some reply ∧ decodeMacFrame reply = some tx ∧ tx.pending ≠ 0) ∧
    (∀ e rx t fs u e' tx, s.acceptedReply e = some rx → rx.pending ≠ 0 → s.step e = some t →
      Machine.Run Link.step Unanswered t fs u → u.transmitted e' = some tx →
      (u.coord.disconnected = false ∧ tx.type = .grant ∧ tx.arg = kDefaultBurstGrant) ∨
        (u.coord.disconnected = true ∧ tx = resetFrame)) ∧
    (∀ packet request peer reads, decodeMacFrame packet = some request →
      s.peer.applyCoordinatorRequest request = (peer, true) → peer.tx.localHasData = true →
      request.type = .grant → request.arg = kDefaultBurstGrant →
      ∃ reply tx current rest, (s.peer.handleRequest packet reads).2 = some reply ∧ decodeMacFrame reply = some tx ∧
        peer.tx.readBuffer = current :: rest ∧ tx.type = .data ∧ tx.seq = peer.tx.nextTxSeq ∧
        tx.payload = current.take kMaxPayloadSize) := by
  have hs := hrun.sound (sound_initial pollIntervalUs TxState.wf_init)
  refine ⟨?_, ?_, ?_⟩
  · intro packet request peer reads hdecode haccept hdata
    obtain ⟨reply, tx, hreply, htx, hpending, -⟩ :=
      SecondaryRadioInterface.handleRequest_reply hs.peer hdecode haccept hdata reads
    exact ⟨reply, tx, hreply, htx, hpending⟩
  · intro e rx t fs u e' tx haccept hpending hstep hrun htx
    exact ((hs.granting haccept hpending hstep).run hrun).transmitted htx
  · intro packet request peer reads hdecode haccept hdata htype harg
    obtain ⟨reply, tx, hreply, htx, -, hgrant⟩ :=
      SecondaryRadioInterface.handleRequest_reply hs.peer hdecode haccept hdata reads
    obtain ⟨current, rest, hqueue, hdata', hseq, hpayload⟩ := hgrant htype (by rw [harg]; decide)
    exact ⟨reply, tx, current, rest, hreply, htx, hqueue, hdata', hseq, hpayload⟩

/-- The session starts, the peer gets a packet, and its PENDING is on its way. -/
def advertised : List Event :=
  [.resetSend 0 0 0 false true, .exchange 0 (.handle [] false), .resetReceive 0 0,
    .exchange 0 (.peerReads [ipv4Packet 1 []]), .exchange 0 (.send [] false true), .exchange 0 (.handle [] false)]

/-- A packet of its own, a failing `Send` and a timeout later, the coordinator grants. -/
theorem advertisement_kept_failing_exchanges :
    ∃ s t u tx, (initial 0 {}).Run advertised s ∧ s.step (.exchange 0 .receive) = some t ∧
      Machine.Run Link.step Unanswered t [.exchange 0 (.coordReads [ipv4Packet 2 []]), .exchange 0 (.send [] true false),
        .exchange 0 (.send [] true true), .exchange 0 .timeout] u ∧
      u.transmitted (.exchange 0 (.send [] false true)) = some tx ∧ tx.type = .grant ∧ tx.arg = kDefaultBurstGrant := by
  have hexec : ((Machine.exec Link.step (fun _ _ => True) (initial 0 {}) advertised).bind fun s =>
      (s.step (.exchange 0 .receive)).bind fun t =>
        (Machine.exec Link.step Unanswered t [.exchange 0 (.coordReads [ipv4Packet 2 []]), .exchange 0 (.send [] true false),
          .exchange 0 (.send [] true true), .exchange 0 .timeout]).bind fun u =>
          (s.acceptedReply (.exchange 0 .receive)).bind fun rx =>
            (u.transmitted (.exchange 0 (.send [] false true))).map fun tx =>
              (rx.pending, u.coord.disconnected)) = some (1, false) := by decide +kernel
  obtain ⟨s, hs, hexec⟩ := Option.bind_eq_some_iff.mp hexec
  obtain ⟨t, ht, hexec⟩ := Option.bind_eq_some_iff.mp hexec
  obtain ⟨u, hu, hexec⟩ := Option.bind_eq_some_iff.mp hexec
  obtain ⟨rx, hrx, hexec⟩ := Option.bind_eq_some_iff.mp hexec
  obtain ⟨tx, htx, hstate⟩ := Option.map_eq_some_iff.mp hexec
  obtain ⟨hpending, hconnected⟩ := Prod.mk.inj hstate
  rcases (advertisement_kept (.of_exec hs)).2.1 _ rx t _ u _ tx hrx (by rw [hpending]; decide) ht (.of_exec hu) htx with
    ⟨-, htype, harg⟩ | ⟨hd, -⟩
  · exact ⟨s, t, u, tx, .of_exec hs, ht, .of_exec hu, htx, htype, harg⟩
  · cases hconnected.symm.trans hd

end Link
end Nerfnet
