import Nerfnet.Theorems.Refinement

/-! # The link is made of calls

The other half of the refinement: whatever happens in `Link`, calls of the two loops make it happen. So
`Link` leaves no behaviour of the loops out and adds none. -/

namespace Nerfnet

/-- A call that has nothing to do with the packets on their way. -/
def DriverCall.quiet : DriverCall → Bool
  | .write _ _ | .read _ | .flushRx => false
  | _ => true

theorem DriverCall.onAir_quiet {call : DriverCall} (h : call.quiet = true) (sent arriving : List Bytes) :
    call.onAir sent arriving false 0 = some (sent, arriving) := by
  cases call <;> first | rfl | cases h

/-! ### The coordinator's calls -/

namespace CoordinatorThread
variable {irq : Bool} {r : PrimaryRadioInterface} {phase : CoordinatorPhase} {tx : MacFrame} {request : Bytes}

/-- A loop that makes only quiet calls. -/
def QuietRun (irq : Bool) (s : CoordinatorThread) (calls : List DriverCall) (t : CoordinatorThread) : Prop :=
  Machine.Run (fun s call => s.step irq (.call call)) (fun _ call => call.quiet = true) s calls t

theorem quietRun_compose (h : r.Exchanges) :
    QuietRun irq ⟨r, .top⟩ [.timeNowUs 0, .sleepUs r.setPollInterval.currentPollIntervalUs] ⟨r.setPollInterval, .compose⟩ := by
  have hrequired : r.setPollInterval.connectionResetRequired = false := r.setPollInterval_keeps.connectionResetRequired.trans h.2
  refine .cons (t := ⟨r.setPollInterval, .pollSleep⟩) rfl ?_ (.cons rfl ?_ (.nil _))
  · simp [step, h.1]
  · simp [step, hrequired]

theorem quietRun_flush {nowUs : Nat} (h : r.loopAction nowUs = .reset) :
    ∃ calls, QuietRun irq ⟨r, .top⟩ calls ⟨r.setPollInterval, .flushRx⟩ := by
  unfold PrimaryRadioInterface.loopAction at h
  cases hdisconnected : r.disconnected <;> simp only [hdisconnected, Bool.false_eq_true, if_false, if_true] at h
  · split at h
    · rename_i hreset
      have hrequired : r.setPollInterval.connectionResetRequired = true :=
        r.setPollInterval_keeps.connectionResetRequired.trans hreset
      refine ⟨[.timeNowUs 0, .sleepUs r.setPollInterval.currentPollIntervalUs], .cons (t := ⟨r.setPollInterval, .pollSleep⟩) rfl ?_
        (.cons rfl ?_ (.nil _))⟩
      · simp [step, hdisconnected]
      · simp [step, hrequired]
    · cases h
  · split at h
    · cases h
    · rename_i hearly
      refine ⟨[.timeNowUs nowUs], .cons rfl ?_ (.nil _)⟩
      simp [step, hdisconnected, hearly, PrimaryRadioInterface.setPollInterval]

/-- The time matters only to a failure that disconnects, or to a coordinator that is disconnected. -/
theorem handleTransactionFailure_time {kind : FailureType} (h : (r.handleTransactionFailure kind 0).disconnected = false) (nowUs : Nat) :
    r.handleTransactionFailure kind nowUs = r.handleTransactionFailure kind 0 := by
  obtain ⟨sendStreak, timeoutStreak, rfl, rfl, ⟨-, heq⟩ | ⟨hnot, heq⟩⟩ := r.handleTransactionFailure_cases kind 0
  · rw [heq] at h
    cases h
  · obtain ⟨sendStreak, timeoutStreak, rfl, rfl, ⟨hexceeds, -⟩ | ⟨-, heq'⟩⟩ := r.handleTransactionFailure_cases kind nowUs
    · exact absurd hexceeds hnot
    · exact heq'.trans heq.symm

theorem afterExchange_time {result : ExchangeResult} (h : (r.afterExchange result 0).disconnected = false) (nowUs : Nat) :
    r.afterExchange result nowUs = r.afterExchange result 0 := by
  cases result with
  | success => rfl
  | sendFailure | timeoutFailure | protocolFailure => exact handleTransactionFailure_time h nowUs

theorem resetFailed_time (hconnected : r.disconnected = false) (h : (r.resetFailed 0).disconnected = false) (nowUs : Nat) :
    r.resetFailed nowUs = r.resetFailed 0 := by
  rw [PrimaryRadioInterface.resetFailed_of_connected hconnected] at h
  rw [PrimaryRadioInterface.resetFailed_of_connected hconnected, PrimaryRadioInterface.resetFailed_of_connected hconnected]
  exact handleTransactionFailure_time h nowUs

/-- The rest of a pass after `PerformExchange`. -/
theorem quietRun_exchangeReturns (r : PrimaryRadioInterface) (phase : CoordinatorPhase) (result : ExchangeResult) (nowUs : Nat) :
    ∃ calls, QuietRun irq (exchangeReturns ⟨r, phase⟩ result) calls ⟨r.afterExchange result nowUs, .top⟩ := by
  unfold exchangeReturns
  split
  · exact ⟨[.timeNowUs nowUs, .timeNowUs nowUs], .cons rfl rfl (.cons rfl rfl (.nil _))⟩
  · rename_i hconnected
    rw [afterExchange_time (eq_false_of_ne_true hconnected) nowUs]
    exact ⟨[.timeNowUs nowUs], .cons rfl rfl (.nil _)⟩

/-- The rest of a pass after a failed `ConnectionReset`. -/
theorem quietRun_resetFails (r : PrimaryRadioInterface) (phase : CoordinatorPhase) (nowUs : Nat) :
    ∃ calls, QuietRun irq (resetFails ⟨r, phase⟩) calls ⟨r.resetFailed nowUs, .top⟩ := by
  unfold resetFails
  split
  · exact ⟨[.timeNowUs nowUs], .cons rfl rfl (.nil _)⟩
  · rename_i hconnected
    obtain ⟨hbefore, hafter⟩ := not_or.mp hconnected
    rw [resetFailed_time (eq_false_of_ne_true hbefore) (eq_false_of_ne_true hafter) nowUs]
    exact ⟨[], .nil _⟩

/-- The rest of a pass after `Receive`. -/
theorem quietRun_completeExchange (r : PrimaryRadioInterface) (phase : CoordinatorPhase) (tx : MacFrame) (response : Option Bytes)
    (nowUs : Nat) :
    ∃ calls, QuietRun irq (completeExchange ⟨r, phase⟩ tx response) calls
      ⟨(r.completeExchange tx response).1.afterExchange (r.completeExchange tx response).2 nowUs, .top⟩ := by
  rcases completeExchange_cases r phase tx response with ⟨heq, hsuccess⟩ | heq <;> rw [heq]
  · obtain ⟨calls, hcalls⟩ := quietRun_exchangeReturns (r.completeExchange tx response).1 .gap .success nowUs
    rw [hsuccess]
    exact ⟨.sleepUs kPostDataExchangeGapUs :: calls, .cons rfl rfl hcalls⟩
  · exact quietRun_exchangeReturns _ phase _ nowUs

end CoordinatorThread

/-! ### Send and Receive -/

/-- What `Send` does after `write`, for each outcome. -/
def sentCalls (radioOk : Bool) : List DriverCall :=
  if radioOk then [.timeNowUs 0, .txStandBy true] else [.flushTx, .sleepUs kTxFailureRecoveryGapUs]

/-- What `Receive` does before it reads, without a line. -/
def readyCalls : List DriverCall := [.startListening, .timeNowUs 0, .available true]

/-- What `Receive` does if nothing comes. -/
def timeoutCalls : List DriverCall := [.startListening, .timeNowUs 0, .available false, .timeNowUs (kResponseTimeoutUs + 1)]

namespace CoordinatorThread
variable {irq : Bool} {r : PrimaryRadioInterface} {phase : CoordinatorPhase} {tx : MacFrame} {request : Bytes}

theorem step_sending (phase next : SendPhase) (call : DriverCall) (hsend : sendStep request phase call = some next)
    (hnext : ∀ result, next ≠ .returned result) :
    step irq ⟨r, .send tx request phase⟩ (.call call) = some ⟨r, .send tx request next⟩ := by
  simp only [step, hsend, Option.map_some]

theorem step_resetSending (phase next : SendPhase) (call : DriverCall) (hsend : sendStep request phase call = some next)
    (hnext : ∀ result, next ≠ .returned result) :
    step irq ⟨r, .resetSend request phase⟩ (.call call) = some ⟨r, .resetSend request next⟩ := by
  simp only [step, hsend, Option.map_some]

theorem quietRun_sent (r : PrimaryRadioInterface) (tx : MacFrame) (request : Bytes) :
    QuietRun irq ⟨r, .send tx request .deadline⟩ (sentCalls true) ⟨r, .receive tx .startListening⟩ :=
  .cons rfl rfl (.cons rfl rfl (.nil _))

theorem quietRun_unsent (r : PrimaryRadioInterface) (tx : MacFrame) (request : Bytes) :
    QuietRun irq ⟨r, .send tx request .flush⟩ (sentCalls false) (exchangeReturns ⟨r, .send tx request .recovering⟩ .sendFailure) :=
  .cons rfl rfl (.cons rfl rfl (.nil _))

theorem quietRun_resetSent (r : PrimaryRadioInterface) (request : Bytes) :
    QuietRun irq ⟨r, .resetSend request .deadline⟩ (sentCalls true) ⟨r, .resetReceive .startListening⟩ :=
  .cons rfl rfl (.cons rfl rfl (.nil _))

theorem quietRun_resetUnsent (r : PrimaryRadioInterface) (request : Bytes) :
    QuietRun irq ⟨r, .resetSend request .flush⟩ (sentCalls false) (resetFails ⟨r, .resetSend request .recovering⟩) :=
  .cons rfl rfl (.cons rfl rfl (.nil _))

theorem quietRun_ready (r : PrimaryRadioInterface) (tx : MacFrame) :
    QuietRun irq ⟨r, .receive tx .startListening⟩ readyCalls ⟨r, .receive tx .read⟩ := by
  cases irq <;> exact .cons rfl rfl (.cons rfl rfl (.cons rfl rfl (.nil _)))

theorem quietRun_timeout (r : PrimaryRadioInterface) (tx : MacFrame) :
    ∃ phase, QuietRun irq ⟨r, .receive tx .startListening⟩ timeoutCalls (completeExchange ⟨r, phase⟩ tx none) := by
  cases irq <;> exact ⟨_, .cons rfl rfl (.cons rfl rfl (.cons rfl rfl (.cons rfl rfl (.nil _))))⟩

theorem quietRun_resetReady (r : PrimaryRadioInterface) :
    QuietRun irq ⟨r, .resetReceive .startListening⟩ readyCalls ⟨r, .resetReceive .read⟩ := by
  cases irq <;> exact .cons rfl rfl (.cons rfl rfl (.cons rfl rfl (.nil _)))

theorem quietRun_resetTimeout (r : PrimaryRadioInterface) :
    ∃ phase, QuietRun irq ⟨r, .resetReceive .startListening⟩ timeoutCalls (resetFails ⟨r, phase⟩) := by
  cases irq <;> exact ⟨_, .cons rfl rfl (.cons rfl rfl (.cons rfl rfl (.cons rfl rfl (.nil _))))⟩

end CoordinatorThread

namespace PeerThread
variable {irq : Bool}

def QuietRun (irq : Bool) (s : PeerThread) (calls : List DriverCall) (t : PeerThread) : Prop :=
  Machine.Run (fun s call => s.step irq (.call call)) (fun _ call => call.quiet = true) s calls t

theorem quietRun_ready (irq : Bool) (r : SecondaryRadioInterface) :
    ∃ calls, QuietRun irq ⟨r, .receive .startListening⟩ calls ⟨r, .receive .read⟩ := by
  cases irq with
  | true => exact ⟨[.startListening, .available true], .cons rfl rfl (.cons rfl rfl (.nil _))⟩
  | false => exact ⟨readyCalls, .cons rfl rfl (.cons rfl rfl (.cons rfl rfl (.nil _)))⟩

theorem quietRun_replied (r : SecondaryRadioInterface) (request response : Bytes) :
    ∃ calls, QuietRun irq ⟨r, .send request response .deadline⟩ calls ⟨r, .receive .startListening⟩ := by
  have hsent : QuietRun irq ⟨r, .send request response .deadline⟩ (sentCalls true)
      (sent ⟨r, .send request response (.standBy kTxStandbyTimeoutUs)⟩ request) := .cons rfl rfl (.cons rfl rfl (.nil _))
  rcases sent_cases r (.send request response (.standBy kTxStandbyTimeoutUs)) request with heq | heq <;> rw [heq] at hsent
  · exact ⟨_, hsent⟩
  · exact ⟨_, hsent.concat (e := .timeNowUs 0) rfl rfl⟩

end PeerThread

/-! ### The two loops -/

/-- Where the coordinator's loop is in a state of `Link`. -/
def Phase.thread : Phase → CoordinatorPhase
  | .top => .top
  | .exchange tx => .receive tx .startListening
  | .reset => .resetReceive .startListening

/-- A state of `Link`, with the loops just before a call of `Receive` or at the coordinator's top. -/
def Link.threaded (L : Link) : ThreadedLink where
  coord := ⟨L.coord, L.phase.thread⟩
  peer := ⟨L.peer, .receive .startListening⟩
  toPeer := L.toPeer.map (·.packet)
  toCoord := L.toCoord.map (·.packet)
  coordPushed := L.coordPushed
  peerPushed := L.peerPushed

/-- The packets on their way have the size that the radio transmits. -/
structure Link.Sized (L : Link) : Prop where
  toPeer : ∀ request ∈ L.toPeer, request.packet.length = kMaxPacketSize
  toCoord : ∀ reply ∈ L.toCoord, reply.packet.length = kMaxPacketSize

namespace ThreadedLink
variable {s t u : ThreadedLink} {coord : CoordinatorThread} {peer : PeerThread} {calls : List DriverCall} {e : ThreadEvent}
  {air : List Bytes × List Bytes} {irq irq' lost : Bool} {flushed : Nat}

def Reaches (irq irq' : Bool) (s t : ThreadedLink) : Prop := ∃ es, Machine.Run (step irq irq') (fun _ _ => True) s es t

theorem Reaches.trans (h : Reaches irq irq' s t) (h' : Reaches irq irq' t u) : Reaches irq irq' s u := by
  obtain ⟨es, h⟩ := h
  obtain ⟨fs, h'⟩ := h'
  exact ⟨es ++ fs, h.append h'⟩

theorem reaches_call {call : DriverCall} (h : s.coord.step irq (.call call) = some coord)
    (hair : call.onAir s.toPeer s.toCoord lost flushed = some air) : Reaches irq irq' s { s with coord, toPeer := air.1, toCoord := air.2 } := by
  refine ⟨[.coord (.call call) lost flushed], .cons trivial ?_ (.nil _)⟩
  simp only [step, h, ThreadEvent.onAir, hair, Option.bind_some, Option.map_some, ThreadEvent.pushed, List.append_nil]

theorem reaches_writeCall {request : Bytes} {ok : Bool} (h : s.coord.step irq (.call (.write request ok)) = some coord) (lost : Bool) :
    Reaches irq irq' s { s with coord, toPeer := if lost then s.toPeer else s.toPeer ++ [request] } := by
  have hair : (DriverCall.write request ok).onAir s.toPeer s.toCoord lost 0 =
      some (if lost then s.toPeer else s.toPeer ++ [request], s.toCoord) := rfl
  exact reaches_call h hair

theorem reaches_readCall {packet : Bytes} {rest : List Bytes} (h : s.coord.step irq (.call (.read packet)) = some coord)
    (harriving : s.toCoord = packet :: rest) : Reaches irq irq' s { s with coord, toCoord := rest } := by
  have hair : (DriverCall.read packet).onAir s.toPeer s.toCoord false 0 = some (s.toPeer, rest) := by
    simp [DriverCall.onAir, harriving]
  exact reaches_call h hair

theorem reaches_flushCall (h : s.coord.step irq (.call .flushRx) = some coord) (flushed : Nat) :
    Reaches irq irq' s { s with coord, toCoord := s.toCoord.drop flushed } := by
  have hair : DriverCall.flushRx.onAir s.toPeer s.toCoord false flushed = some (s.toPeer, s.toCoord.drop flushed) := rfl
  exact reaches_call h hair

/-- The loop composes a frame, or its `TunnelThread` reads packets. -/
theorem reaches_reads (h : s.coord.step irq e = some coord) (he : ∀ call, e ≠ .call call) :
    Reaches irq irq' s { s with coord, coordPushed := s.coordPushed ++ e.pushed } := by
  refine ⟨[.coord e false 0], .cons trivial ?_ (.nil _)⟩
  cases e with
  | call call => exact absurd rfl (he call)
  | compose reads | tunnelThread reads => simp only [step, h, ThreadEvent.onAir, Option.bind_some, Option.map_some]

theorem reaches_quiet (h : s.coord.QuietRun irq calls coord) : Reaches irq irq' s { s with coord } := by
  generalize hcoord : s.coord = thread at h
  induction h generalizing s with
  | nil thread =>
    subst hcoord
    exact ⟨[], .nil s⟩
  | @cons thread next _ call _ hquiet hstep _ ih =>
    subst hcoord
    exact (reaches_call hstep (DriverCall.onAir_quiet hquiet s.toPeer s.toCoord)).trans (ih rfl)

/-! ### The coordinator's steps -/

variable {L M : Link} {nowUs laterUs : Nat} {radioOk : Bool} {reads : List Bytes}

/-- `Send` up to and with its `write`, where the loop is at `sending phase` for each phase of it. -/
theorem reaches_write {request : Bytes} {r : PrimaryRadioInterface} {sending : SendPhase → CoordinatorPhase}
    (hlength : request.length = kMaxPacketSize)
    (hsending : ∀ phase next call, sendStep request phase call = some next → (∀ result, next ≠ .returned result) →
      CoordinatorThread.step irq ⟨r, sending phase⟩ (.call call) = some ⟨r, sending next⟩)
    (hcoord : s.coord = ⟨r, sending .stopListening⟩) (lost radioOk : Bool) :
    Reaches irq irq' s { s with
      coord := ⟨r, sending (if radioOk then .deadline else .flush)⟩
      toPeer := if lost then s.toPeer else s.toPeer ++ [request] } := by
  have hstop : s.coord.step irq (.call .stopListening) = some ⟨r, sending .write⟩ := by
    rw [hcoord]
    exact hsending _ _ _ (by simp [sendStep, hlength]) (by simp)
  have hwrite : CoordinatorThread.step irq ⟨r, sending .write⟩ (.call (.write request radioOk)) =
      some ⟨r, sending (if radioOk then .deadline else .flush)⟩ :=
    hsending _ _ _ (by simp [sendStep]) (by cases radioOk <;> simp)
  exact (reaches_call hstop (DriverCall.onAir_quiet rfl _ _)).trans (reaches_writeCall hwrite lost)

theorem reaches_send {u : PrimaryRadioInterface} {tx : MacFrame} {request : Bytes} (hphase : L.phase = .top) (hexchanges : L.coord.Exchanges)
    (hprepare : L.coord.setPollInterval.prepareRequest reads = (u, some (tx, request))) (nowUs : Nat) (lost radioOk : Bool) :
    Reaches irq irq' L.threaded (Link.threaded { L with
      coord := if radioOk then u else u.afterExchange .sendFailure nowUs
      toPeer := if lost then L.toPeer else L.toPeer ++ [⟨request, L.resetCalls⟩]
      coordPushed := L.coordPushed ++ reads.filter isValidIpPacket
      phase := if radioOk then .exchange tx else .top }) := by
  have hlength := encodeMacFrame_length (PrimaryRadioInterface.prepareRequest_encode hprepare)
  have hcoord : L.threaded.coord = ⟨L.coord, .top⟩ := by simp only [Link.threaded, hphase, Phase.thread]
  have hcompose : Reaches irq irq' L.threaded { L.threaded with coord := ⟨L.coord.setPollInterval, .compose⟩ } :=
    reaches_quiet (hcoord ▸ CoordinatorThread.quietRun_compose hexchanges)
  have hchosen : CoordinatorThread.step irq ⟨L.coord.setPollInterval, .compose⟩ (.compose reads) =
      some ⟨u, .send tx request .stopListening⟩ := by
    simp [CoordinatorThread.step, hprepare]
  have hwrite := (hcompose.trans (reaches_reads hchosen (by simp))).trans (reaches_write hlength CoordinatorThread.step_sending rfl lost radioOk)
  have htoPeer : (if lost then L.toPeer.map (·.packet) else L.toPeer.map (·.packet) ++ [request]) =
      (if lost then L.toPeer else L.toPeer ++ [⟨request, L.resetCalls⟩]).map (·.packet) := by
    cases lost <;> simp
  cases radioOk with
  | true =>
    have hsent := hwrite.trans (reaches_quiet (CoordinatorThread.quietRun_sent u tx request))
    simp only [Link.threaded, htoPeer] at hsent ⊢
    exact hsent
  | false =>
    obtain ⟨calls, hcalls⟩ := CoordinatorThread.quietRun_exchangeReturns u (.send tx request .recovering) .sendFailure nowUs
    have hunsent := (hwrite.trans (reaches_quiet (CoordinatorThread.quietRun_unsent u tx request))).trans (reaches_quiet hcalls)
    simp only [Link.threaded, htoPeer] at hunsent ⊢
    exact hunsent

theorem reaches_sendFails {u : PrimaryRadioInterface} (hphase : L.phase = .top) (hexchanges : L.coord.Exchanges)
    (hprepare : L.coord.setPollInterval.prepareRequest reads = (u, none)) (nowUs : Nat) :
    Reaches irq irq' L.threaded (Link.threaded { L with
      coord := u.afterExchange .protocolFailure nowUs
      coordPushed := L.coordPushed ++ reads.filter isValidIpPacket }) := by
  have hcoord : L.threaded.coord = ⟨L.coord, .top⟩ := by simp only [Link.threaded, hphase, Phase.thread]
  have hcompose : Reaches irq irq' L.threaded { L.threaded with coord := ⟨L.coord.setPollInterval, .compose⟩ } :=
    reaches_quiet (hcoord ▸ CoordinatorThread.quietRun_compose hexchanges)
  have hchosen : CoordinatorThread.step irq ⟨L.coord.setPollInterval, .compose⟩ (.compose reads) =
      some (CoordinatorThread.exchangeReturns ⟨u, .compose⟩ .protocolFailure) := by
    simp [CoordinatorThread.step, hprepare]
  obtain ⟨calls, hcalls⟩ := CoordinatorThread.quietRun_exchangeReturns u .compose .protocolFailure nowUs
  have hfails := (hcompose.trans (reaches_reads hchosen (by simp))).trans (reaches_quiet hcalls)
  simp only [Link.threaded, hphase] at hfails ⊢
  exact hfails

/-- `Receive` with a packet that arrives. -/
theorem reaches_received {tx : MacFrame} {packet : Bytes} {toCoord : List InFlight} (hphase : L.phase = .exchange tx)
    (hlength : packet.length = kMaxPacketSize) (hqueue : L.toCoord.map (·.packet) = packet :: toCoord.map (·.packet)) (nowUs : Nat) :
    Reaches irq irq' L.threaded (Link.threaded { L with
      coord := (L.coord.completeExchange tx (some packet)).1.afterExchange (L.coord.completeExchange tx (some packet)).2 nowUs
      toCoord
      phase := .top }) := by
  have hcoord : L.threaded.coord = ⟨L.coord, .receive tx .startListening⟩ := by simp only [Link.threaded, hphase, Phase.thread]
  have hready : Reaches irq irq' L.threaded { L.threaded with coord := ⟨L.coord, .receive tx .read⟩ } :=
    reaches_quiet (hcoord ▸ CoordinatorThread.quietRun_ready L.coord tx)
  have hread : CoordinatorThread.step irq ⟨L.coord, .receive tx .read⟩ (.call (.read packet)) =
      some (CoordinatorThread.completeExchange ⟨L.coord, .receive tx .read⟩ tx (some packet)) := by
    simp [CoordinatorThread.step, receiveStep, hlength]
  obtain ⟨calls, hcalls⟩ := CoordinatorThread.quietRun_completeExchange L.coord (.receive tx .read) tx (some packet) nowUs
  exact (hready.trans (reaches_readCall hread hqueue)).trans (reaches_quiet hcalls)

theorem reaches_timeout {tx : MacFrame} (hphase : L.phase = .exchange tx) (nowUs : Nat) :
    Reaches irq irq' L.threaded (Link.threaded { L with
      coord := (L.coord.completeExchange tx none).1.afterExchange (L.coord.completeExchange tx none).2 nowUs
      phase := .top }) := by
  have hcoord : L.threaded.coord = ⟨L.coord, .receive tx .startListening⟩ := by simp only [Link.threaded, hphase, Phase.thread]
  obtain ⟨phase, htimeout⟩ := CoordinatorThread.quietRun_timeout L.coord tx
  obtain ⟨calls, hcalls⟩ := CoordinatorThread.quietRun_completeExchange L.coord phase tx none nowUs
  have hreturns : Reaches irq irq' L.threaded { L.threaded with coord := CoordinatorThread.completeExchange ⟨L.coord, phase⟩ tx none } :=
    reaches_quiet (hcoord ▸ htimeout)
  exact hreturns.trans (reaches_quiet hcalls)

theorem reaches_resetSend {request : Bytes} (hphase : L.phase = .top) (haction : L.coord.loopAction nowUs = .reset)
    (hencode : encodeMacFrame resetFrame = some request) (laterUs flushed : Nat) (lost radioOk : Bool) :
    Reaches irq irq' L.threaded (Link.threaded { L with
      coord := if radioOk then L.coord.setPollInterval.beginConnectionReset
        else L.coord.setPollInterval.beginConnectionReset.resetFailed laterUs
      toPeer := if lost then L.toPeer else L.toPeer ++ [⟨request, L.resetCalls + 1⟩]
      toCoord := L.toCoord.drop flushed
      resetCalls := L.resetCalls + 1
      phase := if radioOk then .reset else .top }) := by
  have hcoord : L.threaded.coord = ⟨L.coord, .top⟩ := by simp only [Link.threaded, hphase, Phase.thread]
  obtain ⟨calls, hcalls⟩ := CoordinatorThread.quietRun_flush haction
  have hflush : Reaches irq irq' L.threaded { L.threaded with coord := ⟨L.coord.setPollInterval, .flushRx⟩ } := reaches_quiet (hcoord ▸ hcalls)
  have hflushRx : CoordinatorThread.step irq ⟨L.coord.setPollInterval, .flushRx⟩ (.call .flushRx) =
      some ⟨L.coord.setPollInterval, .flushTx⟩ := rfl
  have hbegin : CoordinatorThread.step irq ⟨L.coord.setPollInterval, .flushTx⟩ (.call .flushTx) =
      some ⟨L.coord.setPollInterval.beginConnectionReset, .resetSend request .stopListening⟩ := by
    simp [CoordinatorThread.step, hencode]
  have hflushed := (hflush.trans (reaches_flushCall hflushRx flushed)).trans (reaches_call hbegin (DriverCall.onAir_quiet rfl _ _))
  have hwrite := hflushed.trans
    (reaches_write (encodeMacFrame_length hencode) CoordinatorThread.step_resetSending rfl lost radioOk)
  have htoPeer : (if lost then L.toPeer.map (·.packet) else L.toPeer.map (·.packet) ++ [request]) =
      (if lost then L.toPeer else L.toPeer ++ [⟨request, L.resetCalls + 1⟩]).map (·.packet) := by
    cases lost <;> simp
  cases radioOk with
  | true =>
    have hsent := hwrite.trans (reaches_quiet (CoordinatorThread.quietRun_resetSent _ request))
    simp only [Link.threaded, htoPeer, ← List.map_drop] at hsent ⊢
    exact hsent
  | false =>
    obtain ⟨calls, hcalls⟩ := CoordinatorThread.quietRun_resetFails L.coord.setPollInterval.beginConnectionReset
      (.resetSend request .recovering) laterUs
    have hunsent := (hwrite.trans (reaches_quiet (CoordinatorThread.quietRun_resetUnsent _ request))).trans (reaches_quiet hcalls)
    simp only [Link.threaded, htoPeer, ← List.map_drop] at hunsent ⊢
    exact hunsent

/-- `Receive` of a `ConnectionReset`, with a packet that arrives. -/
theorem reaches_resetReceived {packet : Bytes} {toCoord : List InFlight} (hphase : L.phase = .reset)
    (hlength : packet.length = kMaxPacketSize) (hqueue : L.toCoord.map (·.packet) = packet :: toCoord.map (·.packet)) (nowUs flushed : Nat) :
    Reaches irq irq' L.threaded (Link.threaded (if PrimaryRadioInterface.confirmsReset packet then
        { L with coord := L.coord.resetSucceeded, toCoord := toCoord.drop flushed, phase := .top }
      else { L with coord := L.coord.resetFailed nowUs, toCoord, phase := .top })) := by
  have hcoord : L.threaded.coord = ⟨L.coord, .resetReceive .startListening⟩ := by simp only [Link.threaded, hphase, Phase.thread]
  have hready : Reaches irq irq' L.threaded { L.threaded with coord := ⟨L.coord, .resetReceive .read⟩ } :=
    reaches_quiet (hcoord ▸ CoordinatorThread.quietRun_resetReady L.coord)
  cases hconfirms : PrimaryRadioInterface.confirmsReset packet with
  | true =>
    have hread : CoordinatorThread.step irq ⟨L.coord, .resetReceive .read⟩ (.call (.read packet)) = some ⟨L.coord, .confirmedFlushRx⟩ := by
      simp [CoordinatorThread.step, receiveStep, hlength, hconfirms]
    have hflushRx : CoordinatorThread.step irq ⟨L.coord, .confirmedFlushRx⟩ (.call .flushRx) = some ⟨L.coord, .confirmedFlushTx⟩ := rfl
    have hflushTx : CoordinatorThread.step irq ⟨L.coord, .confirmedFlushTx⟩ (.call .flushTx) = some ⟨L.coord.resetSucceeded, .top⟩ := rfl
    have hdone := ((hready.trans (reaches_readCall hread hqueue)).trans (reaches_flushCall hflushRx flushed)).trans
      (reaches_call hflushTx (DriverCall.onAir_quiet rfl _ _))
    simp only [Link.threaded, if_true, ← List.map_drop] at hdone ⊢
    exact hdone
  | false =>
    have hread : CoordinatorThread.step irq ⟨L.coord, .resetReceive .read⟩ (.call (.read packet)) =
        some (CoordinatorThread.resetFails ⟨L.coord, .resetReceive .read⟩) := by
      simp [CoordinatorThread.step, receiveStep, hlength, hconfirms]
    obtain ⟨calls, hcalls⟩ := CoordinatorThread.quietRun_resetFails L.coord (.resetReceive .read) nowUs
    exact (hready.trans (reaches_readCall hread hqueue)).trans (reaches_quiet hcalls)

theorem reaches_resetTimeout (hphase : L.phase = .reset) (nowUs : Nat) :
    Reaches irq irq' L.threaded (Link.threaded { L with coord := L.coord.resetFailed nowUs, phase := .top }) := by
  have hcoord : L.threaded.coord = ⟨L.coord, .resetReceive .startListening⟩ := by simp only [Link.threaded, hphase, Phase.thread]
  obtain ⟨phase, htimeout⟩ := CoordinatorThread.quietRun_resetTimeout L.coord
  obtain ⟨calls, hcalls⟩ := CoordinatorThread.quietRun_resetFails L.coord phase nowUs
  have hfails : Reaches irq irq' L.threaded { L.threaded with coord := CoordinatorThread.resetFails ⟨L.coord, phase⟩ } :=
    reaches_quiet (hcoord ▸ htimeout)
  exact hfails.trans (reaches_quiet hcalls)

/-! ### The peer's step -/

theorem reaches_peerCall {call : DriverCall} (h : s.peer.step irq' (.call call) = some peer)
    (hair : call.onAir s.toCoord s.toPeer lost flushed = some air) : Reaches irq irq' s { s with peer, toCoord := air.1, toPeer := air.2 } := by
  refine ⟨[.peer (.call call) lost flushed], .cons trivial ?_ (.nil _)⟩
  simp only [step, h, ThreadEvent.onAir, hair, Option.bind_some, Option.map_some, ThreadEvent.pushed, List.append_nil]

theorem reaches_peerReads (h : s.peer.step irq' e = some peer) (he : ∀ call, e ≠ .call call) :
    Reaches irq irq' s { s with peer, peerPushed := s.peerPushed ++ e.pushed } := by
  refine ⟨[.peer e false 0], .cons trivial ?_ (.nil _)⟩
  cases e with
  | call call => exact absurd rfl (he call)
  | compose reads | tunnelThread reads => simp only [step, h, ThreadEvent.onAir, Option.bind_some, Option.map_some]

theorem reaches_peerQuiet (h : s.peer.QuietRun irq' calls peer) : Reaches irq irq' s { s with peer } := by
  generalize hpeer : s.peer = thread at h
  induction h generalizing s with
  | nil thread =>
    subst hpeer
    exact ⟨[], .nil s⟩
  | cons hquiet hstep _ ih =>
    subst hpeer
    exact (reaches_peerCall hstep (DriverCall.onAir_quiet hquiet s.toCoord s.toPeer)).trans (ih rfl)

/-- `Receive` of a request, until it is handled. -/
theorem reaches_requested {request : Bytes} {rest : List Bytes} {r : SecondaryRadioInterface} (hlength : request.length = kMaxPacketSize)
    (hpeer : s.peer = ⟨r, .receive .startListening⟩) (harriving : s.toPeer = request :: rest) :
    Reaches irq irq' s { s with peer := ⟨r, .handle request⟩, toPeer := rest } := by
  obtain ⟨calls, hcalls⟩ := PeerThread.quietRun_ready irq' r
  have hready : Reaches irq irq' s { s with peer := ⟨r, .receive .read⟩ } := reaches_peerQuiet (hpeer ▸ hcalls)
  have hread : PeerThread.step irq' ⟨r, .receive .read⟩ (.call (.read request)) = some ⟨r, .handle request⟩ := by
    simp [PeerThread.step, receiveStep, hlength]
  have hair : (DriverCall.read request).onAir s.toCoord s.toPeer false 0 = some (s.toCoord, rest) := by
    simp [DriverCall.onAir, harriving]
  exact hready.trans (reaches_peerCall (s := { s with peer := ⟨r, .receive .read⟩ }) hread hair)

/-- `Send` of a reply, whose outcome only a counter keeps. -/
theorem reaches_replied {request response : Bytes} {r : SecondaryRadioInterface} (hlength : response.length = kMaxPacketSize)
    (hpeer : s.peer = ⟨r, .send request response .stopListening⟩) (lost : Bool) :
    Reaches irq irq' s { s with
      peer := ⟨r, .receive .startListening⟩
      toCoord := if lost then s.toCoord else s.toCoord ++ [response] } := by
  have hstop : s.peer.step irq' (.call .stopListening) = some ⟨r, .send request response .write⟩ := by
    simp [hpeer, PeerThread.step, sendStep, hlength]
  have hwrite : PeerThread.step irq' ⟨r, .send request response .write⟩ (.call (.write response true)) =
      some ⟨r, .send request response .deadline⟩ := by
    simp [PeerThread.step, sendStep]
  have hair : (DriverCall.write response true).onAir s.toCoord s.toPeer lost 0 =
      some (if lost then s.toCoord else s.toCoord ++ [response], s.toPeer) := rfl
  obtain ⟨calls, hcalls⟩ := PeerThread.quietRun_replied r request response
  have hstopped : Reaches irq irq' s { s with peer := ⟨r, .send request response .write⟩ } :=
    reaches_peerCall hstop (DriverCall.onAir_quiet rfl _ _)
  exact (hstopped.trans (reaches_peerCall (s := { s with peer := ⟨r, .send request response .write⟩ }) hwrite hair)).trans
    (reaches_peerQuiet hcalls)

/-- A pass of the peer's loop. -/
theorem reaches_handle {request : InFlight} {toPeer : List InFlight} {u : SecondaryRadioInterface} {reply : Option Bytes} {call : Nat}
    (hqueue : L.toPeer = request :: toPeer) (hlength : request.packet.length = kMaxPacketSize)
    (hhandle : L.peer.handleRequest request.packet reads = (u, reply)) (lost : Bool) :
    Reaches irq irq' L.threaded (Link.threaded { L with
      peer := u
      toPeer
      toCoord := if lost then L.toCoord else L.toCoord ++ reply.toList.map (⟨·, call⟩)
      peerPushed := L.peerPushed ++ reads.filter isValidIpPacket
      peerCall := call }) := by
  have harriving : L.threaded.toPeer = request.packet :: toPeer.map (·.packet) := by
    simp only [Link.threaded, hqueue, List.map_cons]
  have hrequested : Reaches irq irq' L.threaded
      { L.threaded with peer := ⟨L.peer, .handle request.packet⟩, toPeer := toPeer.map (·.packet) } :=
    reaches_requested hlength rfl harriving
  cases reply with
  | none =>
    have hignored : PeerThread.step irq' ⟨L.peer, .handle request.packet⟩ (.compose reads) = some ⟨u, .receive .startListening⟩ := by
      simp [PeerThread.step, hhandle]
    have hdone := hrequested.trans (reaches_peerReads hignored (by simp))
    have htoCoord : (if lost then L.toCoord else L.toCoord ++ (none : Option Bytes).toList.map (⟨·, call⟩)) = L.toCoord := by
      cases lost <;> simp
    rw [htoCoord]
    exact hdone
  | some response =>
    obtain ⟨tx, hencode⟩ := SecondaryRadioInterface.handleRequest_encode hhandle
    have hanswered : PeerThread.step irq' ⟨L.peer, .handle request.packet⟩ (.compose reads) =
        some ⟨u, .send request.packet response .stopListening⟩ := by
      simp [PeerThread.step, hhandle]
    have hdone := (hrequested.trans (reaches_peerReads hanswered (by simp))).trans
      (reaches_replied (encodeMacFrame_length hencode) rfl lost)
    have htoCoord : (if lost then L.toCoord.map (·.packet) else L.toCoord.map (·.packet) ++ [response]) =
        (if lost then L.toCoord else L.toCoord ++ (some response).toList.map (⟨·, call⟩)).map (·.packet) := by
      cases lost <;> simp
    simp only [Link.threaded, htoCoord] at hdone ⊢
    exact hdone

end ThreadedLink

/-! ### Steps and runs of Link -/

namespace Link
variable {L M : Link} {nowUs : Nat} {irq irq' : Bool}

/-- Adding a packet of the right size to a queue, or losing it. -/
theorem sized_append {queue : List InFlight} {p : InFlight} (h : ∀ q ∈ queue, q.packet.length = kMaxPacketSize)
    (hp : p.packet.length = kMaxPacketSize) (lost : Bool) :
    ∀ q ∈ (if lost then queue else queue ++ [p]), q.packet.length = kMaxPacketSize := by
  intro q hq
  cases lost with
  | true => exact h q hq
  | false =>
    rcases List.mem_append.mp hq with hq | hq
    · exact h q hq
    · rw [List.mem_singleton.mp hq]
      exact hp

/-- The rest of a pass, with the packet that arrives first. -/
theorem threaded_receive {e : Option ExchangeResult} (hsized : L.Sized) (h : L.receive = some (M, e)) :
    L.threaded.Reaches irq irq' (M.settle nowUs e).threaded ∧ (M.settle nowUs e).Sized := by
  unfold Link.receive at h
  split at h
  · rename_i tx reply toCoord hphase hcoord
    cases h
    obtain ⟨hreply, hrest⟩ := List.forall_mem_cons.mp (hcoord ▸ hsized.toCoord)
    have hqueue : L.toCoord.map (·.packet) = reply.packet :: toCoord.map (·.packet) := by simp only [hcoord, List.map_cons]
    exact ⟨ThreadedLink.reaches_received hphase hreply hqueue nowUs, hsized.toPeer, hrest⟩
  · cases h

theorem threaded_timeout {e : Option ExchangeResult} (hsized : L.Sized) (h : L.timeout = some (M, e)) :
    L.threaded.Reaches irq irq' (M.settle nowUs e).threaded ∧ (M.settle nowUs e).Sized := by
  unfold Link.timeout at h
  split at h
  · rename_i tx hphase
    cases h
    exact ⟨ThreadedLink.reaches_timeout hphase nowUs, hsized.toPeer, hsized.toCoord⟩
  · cases h

theorem threaded_handle {reads : List Bytes} {lost : Bool} (hsized : L.Sized)
    (h : L.step (.exchange nowUs (.handle reads lost)) = some M) : L.threaded.Reaches irq irq' M.threaded ∧ M.Sized := by
  cases hqueue : L.toPeer with
  | nil => simp [step, enter, exchangeStep, Link.handle, hqueue] at h
  | cons request toPeer =>
    obtain ⟨hrequest, hrest⟩ := List.forall_mem_cons.mp (hqueue ▸ hsized.toPeer)
    rcases hhandle : L.peer.handleRequest request.packet reads with ⟨u, reply⟩
    obtain ⟨call, heq⟩ := step_handleRequest hqueue hhandle nowUs lost
    rw [heq] at h
    cases h
    refine ⟨ThreadedLink.reaches_handle hqueue hrequest hhandle lost, hrest, ?_⟩
    cases reply with
    | none =>
      have hnone : (if lost then L.toCoord else L.toCoord ++ (none : Option Bytes).toList.map (⟨·, call⟩)) = L.toCoord := by
        cases lost <;> simp
      simp only [hnone]
      exact hsized.toCoord
    | some response =>
      obtain ⟨tx, hencode⟩ := SecondaryRadioInterface.handleRequest_encode hhandle
      exact sized_append hsized.toCoord (encodeMacFrame_length hencode) lost

theorem threaded_send {reads : List Bytes} {lost radioOk : Bool} (hsized : L.Sized)
    (h : L.step (.exchange nowUs (.send reads lost radioOk)) = some M) : L.threaded.Reaches irq irq' M.threaded ∧ M.Sized := by
  obtain ⟨hphase, hexchanges⟩ := exchanges_of_send h
  rcases hprepare : L.coord.setPollInterval.prepareRequest reads with ⟨u, chosen⟩
  cases chosen with
  | none =>
    rw [step_send_fails hphase hexchanges hprepare nowUs lost radioOk] at h
    cases h
    exact ⟨ThreadedLink.reaches_sendFails hphase hexchanges hprepare nowUs, hsized.toPeer, hsized.toCoord⟩
  | some chosen =>
    obtain ⟨tx, request⟩ := chosen
    rw [step_send hphase hexchanges hprepare nowUs lost radioOk] at h
    cases h
    have hlength := encodeMacFrame_length (PrimaryRadioInterface.prepareRequest_encode hprepare)
    exact ⟨ThreadedLink.reaches_send hphase hexchanges hprepare nowUs lost radioOk, sized_append hsized.toPeer hlength lost,
      hsized.toCoord⟩

theorem threaded_resetSend {laterUs flushed : Nat} {lost radioOk : Bool} (hsized : L.Sized)
    (h : L.step (.resetSend nowUs laterUs flushed lost radioOk) = some M) : L.threaded.Reaches irq irq' M.threaded ∧ M.Sized := by
  obtain ⟨hphase, haction, -⟩ := resetSend_spec h
  obtain ⟨request, hencode, -⟩ := exists_encode_resetFrame
  rw [step_resetSend hphase haction hencode laterUs flushed lost radioOk] at h
  cases h
  exact ⟨ThreadedLink.reaches_resetSend hphase haction hencode laterUs flushed lost radioOk,
    sized_append hsized.toPeer (encodeMacFrame_length hencode) lost, fun reply hreply => hsized.toCoord reply (List.mem_of_mem_drop hreply)⟩

theorem threaded_resetReceive {flushed : Nat} (hsized : L.Sized) (h : L.step (.resetReceive nowUs flushed) = some M) :
    L.threaded.Reaches irq irq' M.threaded ∧ M.Sized := by
  obtain ⟨hphase, reply, toCoord, hcoord, rfl⟩ := resetReceive_spec h
  obtain ⟨hreply, hrest⟩ := List.forall_mem_cons.mp (hcoord ▸ hsized.toCoord)
  have hqueue : L.toCoord.map (·.packet) = reply.packet :: toCoord.map (·.packet) := by simp only [hcoord, List.map_cons]
  refine ⟨ThreadedLink.reaches_resetReceived hphase hreply hqueue nowUs flushed, ?_⟩
  split
  · exact ⟨hsized.toPeer, fun p hp => hrest p (List.mem_of_mem_drop hp)⟩
  · exact ⟨hsized.toPeer, hrest⟩

/-- The calls of the two loops do what a step of `Link` does. -/
theorem threaded_step {e : Event} (hsized : L.Sized) (hstep : L.step e = some M) : L.threaded.Reaches irq irq' M.threaded ∧ M.Sized := by
  cases e with
  | exchange nowUs x =>
    cases x with
    | coordReads reads =>
      cases hstep
      have hreads : L.threaded.coord.step irq (.tunnelThread reads) = some ⟨L.coord.pushed reads, L.phase.thread⟩ := rfl
      exact ⟨ThreadedLink.reaches_reads hreads (by simp), hsized.toPeer, hsized.toCoord⟩
    | peerReads reads =>
      cases hstep
      have hreads : L.threaded.peer.step irq' (.tunnelThread reads) =
          some ⟨{ L.peer with tx := L.peer.tx.tunnelThread reads }, .receive .startListening⟩ := rfl
      exact ⟨ThreadedLink.reaches_peerReads hreads (by simp), hsized.toPeer, hsized.toCoord⟩
    | send reads lost radioOk => exact threaded_send hsized hstep
    | handle reads lost => exact threaded_handle hsized hstep
    | receive =>
      obtain ⟨s, u, result, henter, hexchange, rfl⟩ := step_exchange hstep
      cases henter
      exact threaded_receive hsized hexchange
    | timeout =>
      obtain ⟨s, u, result, henter, hexchange, rfl⟩ := step_exchange hstep
      cases henter
      exact threaded_timeout hsized hexchange
  | resetSend nowUs laterUs flushed lost radioOk => exact threaded_resetSend hsized hstep
  | resetReceive nowUs flushed => exact threaded_resetReceive hsized hstep
  | resetTimeout nowUs =>
    obtain ⟨hphase, rfl⟩ := resetTimeout_spec hstep
    exact ⟨ThreadedLink.reaches_resetTimeout hphase nowUs, hsized.toPeer, hsized.toCoord⟩

/-- A run of `Link` is what calls of the two loops do. -/
theorem threaded_run {es : List Event} (h : L.Run es M) (hsized : L.Sized) : L.threaded.Reaches irq irq' M.threaded := by
  induction h with
  | nil => exact ⟨[], .nil _⟩
  | cons _ hstep _ ih =>
    obtain ⟨hreaches, hsized⟩ := threaded_step hsized hstep
    exact hreaches.trans (ih hsized)

end Link

/-- Every run of `Link` is one of calls of the two loops, with or without an `irq_line_`: `Link` can do
    nothing that the loops cannot. -/
theorem ThreadedLink.realizes_link {pollIntervalUs : Nat} {peer : SecondaryRadioInterface} {ls : List Event} {L : Link}
    (h : (Link.initial pollIntervalUs peer).Run ls L) (irq irq' : Bool) :
    ∃ es, Machine.Run (step irq irq') (fun _ _ => True) (initial pollIntervalUs peer) es L.threaded :=
  Link.threaded_run h ⟨by simp [Link.initial], by simp [Link.initial]⟩

theorem ThreadedLink.realizes_link_late_answer :
    ∃ L es, (Link.initial 100 {}).Run Link.lateAnswer L ∧ L.phase = .exchange { type := .pending } ∧
      Machine.Run (step true false) (fun _ _ => True) (initial 100 {}) es L.threaded := by
  have hexec : (Machine.exec Link.step (fun _ _ => True) (Link.initial 100 {}) Link.lateAnswer).map (·.phase) =
      some (.exchange { type := .pending }) := by decide +kernel
  obtain ⟨L, hL, hphase⟩ := Option.map_eq_some_iff.mp hexec
  obtain ⟨es, hes⟩ := realizes_link (.of_exec hL) true false
  exact ⟨L, es, .of_exec hL, hphase, hes⟩

end Nerfnet
