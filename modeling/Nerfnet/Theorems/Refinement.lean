import Nerfnet.ThreadedLink
import Nerfnet.Theorems.Driver
import Nerfnet.Theorems.Schedule

/-! # The link call by call refines the link

`Link` takes a request from the choice of its frame to the end of `Send` in one step, and a pass of the
peer's loop in another one. Whatever calls come in between, a run of `ThreadedLink` is a run of `Link`.
The peer handles a request in `Link` when it writes its reply. The coordinator sends in `Link` when it
writes the packet; as the peer may answer before `Send` returns, the runs for both outcomes of `Send` are
kept until then. -/

namespace Nerfnet

/-! ### Calls and the packets on their way -/

section
variable {irq lost : Bool} {timeoutUs flushed : Nat} {request : Bytes} {call : DriverCall} {sent arriving : List Bytes}
  {air : List Bytes × List Bytes}

def SendPhase.written : SendPhase → Bool
  | .stopListening | .write => false
  | _ => true

theorem sendStep_unwritten {phase next : SendPhase} (hlength : request.length = kMaxPacketSize) (hphase : phase.written = false)
    (hstep : sendStep request phase call = some next) (hair : call.onAir sent arriving lost flushed = some air) :
    (∀ result, next ≠ .returned result) ∧
      (next.written = false ∧ air = (sent, arriving) ∨
        next.written = true ∧ air = (if lost then sent else sent ++ [request], arriving)) := by
  cases phase <;> try contradiction
  · cases call <;> simp only [sendStep, reduceCtorEq, Option.some.injEq] at hstep
    rw [if_neg (Nat.not_lt.mpr (Nat.le_of_eq hlength))] at hstep
    subst hstep
    cases hair
    exact ⟨by simp, .inl ⟨rfl, rfl⟩⟩
  · cases call <;> simp only [sendStep, reduceCtorEq, Option.ite_none_right_eq_some, Option.some.injEq] at hstep
    rename_i packet ok
    obtain ⟨rfl, rfl⟩ := hstep
    cases hair
    cases ok <;> exact ⟨by simp, .inr ⟨rfl, rfl⟩⟩

theorem sendStep_written {phase next : SendPhase} (hphase : phase.written = true)
    (hstep : sendStep request phase call = some next) (hair : call.onAir sent arriving lost flushed = some air) :
    next.written = true ∧ air = (sent, arriving) := by
  cases phase <;> try contradiction
  all_goals
    cases call <;> simp only [sendStep, reduceCtorEq, Option.ite_none_right_eq_some, Option.some.injEq] at hstep
    cases hair
  case deadline => exact ⟨hstep ▸ rfl, rfl⟩
  case standBy deadlineUs ok => cases ok <;> exact ⟨hstep ▸ rfl, rfl⟩
  case expired deadlineUs nowUs =>
    subst hstep
    split <;> exact ⟨rfl, rfl⟩
  case sleeping => exact ⟨hstep.2 ▸ rfl, rfl⟩
  case flush => exact ⟨hstep ▸ rfl, rfl⟩
  case recovering => exact ⟨hstep.2 ▸ rfl, rfl⟩

/-- `Send` returns after it has written. -/
theorem returned_written {phase : SendPhase} {result : RequestResult} (hlength : request.length = kMaxPacketSize)
    (hstep : sendStep request phase call = some (.returned result)) (hair : call.onAir sent arriving lost flushed = some air) :
    phase.written = true ∧ air = (sent, arriving) := by
  cases hphase : phase.written
  · exact absurd rfl ((sendStep_unwritten hlength hphase hstep hair).1 result)
  · exact ⟨rfl, (sendStep_written hphase hstep hair).2⟩

/-- The packet that `Receive` has read. -/
def ReceivePhase.taken : ReceivePhase → List Bytes
  | .returned (some packet) => [packet]
  | _ => []

theorem waitStep_onAir {phase next : WaitPhase} (hstep : waitStep irq timeoutUs phase call = some next)
    (hair : call.onAir sent arriving lost flushed = some air) : air = (sent, arriving) := by
  cases phase <;> cases call <;> simp only [waitStep, reduceCtorEq] at hstep <;> exact (Option.some.inj hair).symm

theorem receiveStep_onAir {phase next : ReceivePhase} (hstep : receiveStep irq timeoutUs phase call = some next)
    (hair : call.onAir sent arriving lost flushed = some air) :
    phase.taken = [] ∧ air.1 = sent ∧ arriving = next.taken ++ air.2 := by
  cases phase with
  | startListening =>
    cases call <;> simp only [receiveStep, reduceCtorEq, Option.some.injEq] at hstep
    subst hstep
    cases hair
    exact ⟨rfl, rfl, rfl⟩
  | waiting phase =>
    simp only [receiveStep, Option.map_eq_some_iff] at hstep
    obtain ⟨waited, hwait, rfl⟩ := hstep
    obtain rfl := waitStep_onAir hwait hair
    refine ⟨rfl, rfl, ?_⟩
    cases waited with
    | returned result => by_cases hsuccess : result = .success <;> simp [hsuccess, ReceivePhase.taken]
    | _ => rfl
  | read =>
    cases call <;> simp only [receiveStep, reduceCtorEq, Option.ite_none_right_eq_some, Option.some.injEq] at hstep
    obtain ⟨-, rfl⟩ := hstep
    simp only [DriverCall.onAir, Option.ite_none_right_eq_some, Option.some.injEq] at hair
    obtain ⟨hhead, rfl⟩ := hair
    exact ⟨rfl, rfl, (List.cons_head?_tail hhead).symm⟩
  | returned response => cases call <;> simp [receiveStep] at hstep

end

/-! ### What TunnelThread reads in the meantime -/

namespace PrimaryRadioInterface
variable (s : PrimaryRadioInterface) (reads : List Bytes) (nowUs : Nat)

/-- The loop of a connected coordinator that needs no reset gets to `PerformExchange`. -/
def Exchanges (s : PrimaryRadioInterface) : Prop := s.disconnected = false ∧ s.connectionResetRequired = false

variable {s} in
theorem Exchanges.loopAction (h : s.Exchanges) (nowUs : Nat) : s.loopAction nowUs = .exchange := by
  simp [PrimaryRadioInterface.loopAction, h.1, h.2]

theorem setPollInterval_pushed : (s.pushed reads).setPollInterval = s.setPollInterval.pushed reads :=
  s.setPollInterval_tunnelThread reads

theorem beginConnectionReset_pushed : (s.pushed reads).beginConnectionReset = s.beginConnectionReset.pushed reads := rfl

theorem handleTransactionFailure_pushed (failureType : FailureType) :
    (s.pushed reads).handleTransactionFailure failureType nowUs = (s.handleTransactionFailure failureType nowUs).pushed reads := by
  cases failureType <;> simp only [handleTransactionFailure] <;> rw [apply_ite (pushed · reads)] <;> rfl

theorem afterExchange_pushed (result : ExchangeResult) :
    (s.pushed reads).afterExchange result nowUs = (s.afterExchange result nowUs).pushed reads := by
  cases result with
  | success => rfl
  | sendFailure => exact s.handleTransactionFailure_pushed reads nowUs .send
  | timeoutFailure => exact s.handleTransactionFailure_pushed reads nowUs .timeout
  | protocolFailure => exact s.handleTransactionFailure_pushed reads nowUs .protocol

theorem resetFailed_pushed : (s.pushed reads).resetFailed nowUs = (s.resetFailed nowUs).pushed reads := by
  cases h : s.disconnected
  · rw [resetFailed_of_connected h, resetFailed_of_connected (s := s.pushed reads) h]
    exact s.handleTransactionFailure_pushed reads nowUs .protocol
  · rw [resetFailed_of_disconnected h, resetFailed_of_disconnected (s := s.pushed reads) h]
    rfl

end PrimaryRadioInterface

/-! ### The two levels -/

/-- The peer's loop is ahead of the peer in `Link` by the packets `ahead`, which it has read, and by the
    packets `pushes`, which `TunnelThread` has pushed, while it holds a request that it has not answered. -/
def PeerThread.Follows (s : PeerThread) (peer : SecondaryRadioInterface) (ahead pushes : List Bytes) : Prop :=
  match s.phase with
  | .receive phase => s.radio = peer ∧ ahead = phase.taken ∧ pushes = []
  | .handle request => s.radio = peer ∧ ahead = [request] ∧ pushes = []
  | .send request response phase =>
    if phase.written then s.radio = peer ∧ ahead = [] ∧ pushes = []
    else response.length = kMaxPacketSize ∧ ahead = [request] ∧ ∃ reads later u,
      peer.handleRequest request reads = (u, some response) ∧ s.radio = { u with tx := u.tx.tunnelThread later } ∧
        pushes = reads.filter isValidIpPacket ++ later.filter isValidIpPacket
  | .statistics => s.radio = peer ∧ ahead = [] ∧ pushes = []

/-- The two peers are the same, or the loop holds a reply that it has not written. -/
theorem PeerThread.Follows.cases {r peer : SecondaryRadioInterface} {phase : PeerPhase} {ahead pushes : List Bytes}
    (h : Follows ⟨r, phase⟩ peer ahead pushes) :
    (r = peer ∧ pushes = [] ∧ ∀ u, Follows ⟨u, phase⟩ u ahead []) ∨
      ∃ request response phase', phase = .send request response phase' ∧ phase'.written = false := by
  cases phase with
  | send request response phase' =>
    cases hwritten : phase'.written
    · exact .inr ⟨request, response, phase', rfl, hwritten⟩
    · simp only [Follows, hwritten, if_true] at h ⊢
      exact .inl ⟨h.1, h.2.2, fun u => ⟨trivial, h.2.1, trivial⟩⟩
  | _ => exact .inl ⟨h.1, h.2.2, fun u => ⟨rfl, h.2.1, rfl⟩⟩

/-- `L` agrees with `s`, apart from the coordinator, but for the packets that the two loops are ahead by. -/
structure ThreadedLink.Matches (s : ThreadedLink) (L : Link) (ahead pushes ahead' pushes' : List Bytes) : Prop where
  toCoord : L.toCoord.map (·.packet) = ahead ++ s.toCoord
  coordPushed : L.coordPushed ++ pushes = s.coordPushed
  toPeer : L.toPeer.map (·.packet) = ahead' ++ s.toPeer
  peerPushed : L.peerPushed ++ pushes' = s.peerPushed
  peer : s.peer.Follows L.peer ahead' pushes'

/-- A run of `Link` from `L₀` leads to the coordinator `coord`, with everything else as in `s`. -/
def ThreadedLink.Covers (s : ThreadedLink) (L₀ : Link) (ahead pushes : List Bytes) (phase : Phase) (coord : PrimaryRadioInterface) :
    Prop :=
  ∃ es L ahead' pushes', L₀.Run es L ∧ L.phase = phase ∧ L.coord = coord ∧ s.Matches L ahead pushes ahead' pushes'

namespace Link
variable {s : Link}

theorem step_coordReads (nowUs : Nat) (reads : List Bytes) :
    s.step (.exchange nowUs (.coordReads reads)) =
      some { s with coord := s.coord.pushed reads, coordPushed := s.coordPushed ++ reads.filter isValidIpPacket } := rfl

theorem step_peerReads (nowUs : Nat) (reads : List Bytes) :
    s.step (.exchange nowUs (.peerReads reads)) =
      some { s with
        peer := { s.peer with tx := s.peer.tx.tunnelThread reads }
        peerPushed := s.peerPushed ++ reads.filter isValidIpPacket } := rfl

/-- The peer handles the oldest request. -/
theorem step_handleRequest {requests : List InFlight} {request : InFlight} {reads : List Bytes} {reply : Option Bytes}
    {u : SecondaryRadioInterface} (hqueue : s.toPeer = request :: requests)
    (hhandle : s.peer.handleRequest request.packet reads = (u, reply)) (nowUs : Nat) (lost : Bool) :
    ∃ call, s.step (.exchange nowUs (.handle reads lost)) = some { s with
      peer := u
      toPeer := requests
      toCoord := if lost then s.toCoord else s.toCoord ++ reply.toList.map (⟨·, call⟩)
      peerPushed := s.peerPushed ++ reads.filter isValidIpPacket
      peerCall := call } := by
  refine ⟨if isReset request.packet then request.call else s.peerCall, ?_⟩
  cases reply <;> cases lost <;>
    simp [step, enter, exchangeStep, Link.handle, hqueue, hhandle, settle]

/-- `PerformExchange` up to the end of `Send`. -/
theorem step_send {u : PrimaryRadioInterface} {tx : MacFrame} {request : Bytes} {reads : List Bytes} (hphase : s.phase = .top)
    (hexchanges : s.coord.Exchanges) (hprepare : s.coord.setPollInterval.prepareRequest reads = (u, some (tx, request)))
    (nowUs : Nat) (lost radioOk : Bool) :
    s.step (.exchange nowUs (.send reads lost radioOk)) = some { s with
      coord := if radioOk then u else u.afterExchange .sendFailure nowUs
      toPeer := if lost then s.toPeer else s.toPeer ++ [⟨request, s.resetCalls⟩]
      coordPushed := s.coordPushed ++ reads.filter isValidIpPacket
      phase := if radioOk then .exchange tx else .top } := by
  have hsend := send_of_encode (PrimaryRadioInterface.prepareRequest_encode hprepare) radioOk
  cases radioOk <;> cases lost <;>
    simp [step, enter, hexchanges.loopAction, exchangeStep, Link.send, hphase, hprepare, hsend, settle]

theorem step_send_fails {u : PrimaryRadioInterface} {reads : List Bytes} (hphase : s.phase = .top) (hexchanges : s.coord.Exchanges)
    (hprepare : s.coord.setPollInterval.prepareRequest reads = (u, none)) (nowUs : Nat) (lost radioOk : Bool) :
    s.step (.exchange nowUs (.send reads lost radioOk)) = some { s with
      coord := u.afterExchange .protocolFailure nowUs
      coordPushed := s.coordPushed ++ reads.filter isValidIpPacket } := by
  simp [step, enter, hexchanges.loopAction, exchangeStep, Link.send, hphase, hprepare, settle]

/-- What a `send` needs. -/
theorem exchanges_of_send {nowUs : Nat} {reads : List Bytes} {lost radioOk : Bool} {t : Link}
    (h : s.step (.exchange nowUs (.send reads lost radioOk)) = some t) : s.phase = .top ∧ s.coord.Exchanges := by
  obtain ⟨s', u, result, henter, hexchange, -⟩ := step_exchange h
  simp only [enter] at henter
  split at henter
  · rename_i haction
    cases henter
    simp only [exchangeStep, Link.send] at hexchange
    split at hexchange
    · cases hexchange
    · rename_i hphase
      refine ⟨not_not.mp hphase, ?_, PrimaryRadioInterface.loopAction_exchange haction⟩
      unfold PrimaryRadioInterface.loopAction at haction
      split at haction
      · split at haction <;> cases haction
      · rename_i hconnected
        exact eq_false_of_ne_true hconnected
  · cases henter

/-- The rest of `PerformExchange`, with the oldest packet that arrives or with none. -/
theorem step_complete {tx : MacFrame} {response : Option Bytes} {rest : List Bytes} (hphase : s.phase = .exchange tx)
    (hqueue : s.toCoord.map (·.packet) = response.toList ++ rest) (nowUs : Nat) :
    ∃ e toCoord, toCoord.map (·.packet) = rest ∧ s.step e = some { s with
      coord := (s.coord.completeExchange tx response).1.afterExchange (s.coord.completeExchange tx response).2 nowUs
      toCoord
      phase := .top } := by
  cases response with
  | none =>
    refine ⟨.exchange nowUs .timeout, s.toCoord, hqueue, ?_⟩
    simp [step, enter, exchangeStep, Link.timeout, hphase, settle]
  | some packet =>
    obtain ⟨reply, toCoord, hcoord, rfl, hrest⟩ := List.map_eq_cons_iff.mp hqueue
    refine ⟨.exchange nowUs .receive, toCoord, hrest, ?_⟩
    simp [step, enter, exchangeStep, Link.receive, hphase, hcoord, settle]

/-- `ConnectionReset` up to the end of `Send`. -/
theorem step_resetSend {request : Bytes} {nowUs : Nat} (hphase : s.phase = .top) (haction : s.coord.loopAction nowUs = .reset)
    (hencode : encodeMacFrame resetFrame = some request) (laterUs flushed : Nat) (lost radioOk : Bool) :
    s.step (.resetSend nowUs laterUs flushed lost radioOk) = some { s with
      coord := if radioOk then s.coord.setPollInterval.beginConnectionReset
        else s.coord.setPollInterval.beginConnectionReset.resetFailed laterUs
      toPeer := if lost then s.toPeer else s.toPeer ++ [⟨request, s.resetCalls + 1⟩]
      toCoord := s.toCoord.drop flushed
      resetCalls := s.resetCalls + 1
      phase := if radioOk then .reset else .top } := by
  cases radioOk <;> cases lost <;>
    simp [step, resetSend, hphase, haction, hencode, send_of_encode hencode]

/-- A `ConnectionReset` call that fails. -/
theorem step_resetFails {response : Option Bytes} {rest : List Bytes} (hphase : s.phase = .reset)
    (hqueue : s.toCoord.map (·.packet) = response.toList ++ rest)
    (hrefused : response.any PrimaryRadioInterface.confirmsReset = false) (nowUs : Nat) :
    ∃ e toCoord, toCoord.map (·.packet) = rest ∧ s.step e = some { s with coord := s.coord.resetFailed nowUs, toCoord, phase := .top } := by
  cases response with
  | none =>
    refine ⟨.resetTimeout nowUs, s.toCoord, hqueue, ?_⟩
    simp [step, resetTimeout, hphase]
  | some packet =>
    obtain ⟨reply, toCoord, hcoord, rfl, hrest⟩ := List.map_eq_cons_iff.mp hqueue
    refine ⟨.resetReceive nowUs 0, toCoord, hrest, ?_⟩
    rw [Option.any_some] at hrefused
    simp [step, resetReceive, hphase, hcoord, hrefused]

/-- A `ConnectionReset` call that succeeds. -/
theorem step_resetSucceeds {response : Bytes} {flushed rest : List Bytes} (hphase : s.phase = .reset)
    (hqueue : s.toCoord.map (·.packet) = response :: flushed ++ rest) (hconfirms : PrimaryRadioInterface.confirmsReset response = true) :
    ∃ e toCoord, toCoord.map (·.packet) = rest ∧ s.step e = some { s with coord := s.coord.resetSucceeded, toCoord, phase := .top } := by
  obtain ⟨reply, toCoord, hcoord, rfl, hrest⟩ := List.map_eq_cons_iff.mp hqueue
  refine ⟨.resetReceive 0 flushed.length, toCoord.drop flushed.length, ?_, ?_⟩
  · rw [List.map_drop, hrest]
    exact List.drop_left
  · simp [step, resetReceive, hphase, hcoord, hconfirms]

end Link

namespace ThreadedLink
variable {irq irq' lost : Bool} {s t : ThreadedLink} {L₀ L : Link} {ahead pushes ahead' pushes' : List Bytes} {phase : Phase}
  {coord : PrimaryRadioInterface} {flushed : Nat}

/-- What the peer's loop does, while the coordinator does nothing. -/
theorem Covers.peer {e : ThreadEvent} {peer : PeerThread} {air : List Bytes × List Bytes}
    (h : s.Covers L₀ ahead pushes phase coord) (hstep : PeerThread.Step irq s.peer e peer)
    (hair : e.onAir s.toCoord s.toPeer lost flushed = some air) :
    Covers { s with peer, toCoord := air.1, toPeer := air.2, peerPushed := s.peerPushed ++ e.pushed } L₀ ahead pushes phase coord := by
  obtain ⟨es, L, ahead', pushes', hrun, hphase, hcoord, hmatches⟩ := h
  obtain ⟨htoCoord, hcoordPushed, htoPeer, hpeerPushed, hpeer⟩ := hmatches
  obtain ⟨coordinator, thread, toPeer, toCoord, coordPushed, peerPushed⟩ := s
  cases hstep with
  | tunnelThread r phase' reads =>
    cases hair
    rcases hpeer.cases with ⟨rfl, rfl, hfollows⟩ | ⟨request, response, phase', rfl, hunwritten⟩
    · refine ⟨_, _, ahead', [], hrun.concat trivial (Link.step_peerReads 0 reads), hphase, hcoord, htoCoord, hcoordPushed, htoPeer, ?_,
        hfollows _⟩
      rw [← hpeerPushed, List.append_nil, List.append_nil]
      rfl
    · refine ⟨es, L, ahead', pushes' ++ reads.filter isValidIpPacket, hrun, hphase, hcoord, htoCoord, hcoordPushed, htoPeer, ?_, ?_⟩
      · rw [← hpeerPushed, List.append_assoc]
        rfl
      · simp only [PeerThread.Follows, hunwritten, Bool.false_eq_true, if_false] at hpeer ⊢
        obtain ⟨hlength, rfl, earlier, later, u, hhandle, rfl, rfl⟩ := hpeer
        refine ⟨hlength, rfl, earlier, later ++ reads, u, hhandle, ?_, ?_⟩
        · rw [← TxState.tunnelThread_append]
        · rw [List.filter_append, List.append_assoc]
  | receive r hreceive | received r hreceive | notReceived r hreceive =>
    obtain ⟨hnone, hsent, htaken⟩ := receiveStep_onAir hreceive hair
    obtain ⟨rfl, rfl, rfl⟩ := hpeer
    rw [hnone, List.nil_append] at htoPeer
    have htoPeer := htoPeer.trans htaken
    exact ⟨es, L, _, [], hrun, hphase, hcoord, hsent ▸ htoCoord, hcoordPushed, htoPeer,
      hpeerPushed.trans (List.append_nil _).symm, rfl, rfl, rfl⟩
  | ignored hhandle =>
    cases hair
    obtain ⟨rfl, rfl, rfl⟩ := hpeer
    obtain ⟨r, requests, hqueue, rfl, hrest⟩ := List.map_eq_cons_iff.mp htoPeer
    obtain ⟨call, hstep⟩ := Link.step_handleRequest hqueue hhandle 0 true
    refine ⟨_, _, [], [], hrun.concat trivial hstep, hphase, hcoord, htoCoord, hcoordPushed, hrest, ?_, rfl, rfl, rfl⟩
    rw [← hpeerPushed, List.append_nil, List.append_nil]
    rfl
  | answered hhandle =>
    cases hair
    obtain ⟨rfl, rfl, rfl⟩ := hpeer
    obtain ⟨tx, hencode⟩ := SecondaryRadioInterface.handleRequest_encode hhandle
    refine ⟨es, L, _, _, hrun, hphase, hcoord, htoCoord, hcoordPushed, htoPeer, ?_, encodeMacFrame_length hencode, rfl, _, [], _,
      hhandle, ?_, rfl⟩
    · rw [← hpeerPushed, List.append_nil]
      simp [ThreadEvent.pushed]
    · rw [TxState.tunnelThread_nil]
  | @send r request response phase' next call hsend =>
    cases hwritten : phase'.written
    · simp only [PeerThread.Follows, hwritten, Bool.false_eq_true, if_false] at hpeer
      obtain ⟨hlength, rfl, reads, later, u, hhandle, rfl, rfl⟩ := hpeer
      obtain ⟨-, ⟨hnext, rfl⟩ | ⟨hnext, rfl⟩⟩ := sendStep_unwritten hlength hwritten hsend hair
      · refine ⟨es, L, _, _, hrun, hphase, hcoord, htoCoord, hcoordPushed, htoPeer, hpeerPushed.trans (List.append_nil _).symm, ?_⟩
        simp only [PeerThread.Follows, hnext, Bool.false_eq_true, if_false]
        exact ⟨hlength, trivial, reads, later, u, hhandle, rfl, rfl⟩
      · obtain ⟨r, requests, hqueue, rfl, hrest⟩ := List.map_eq_cons_iff.mp htoPeer
        obtain ⟨number, hstep⟩ := Link.step_handleRequest hqueue hhandle 0 lost
        refine ⟨_, _, [], [], (hrun.concat trivial hstep).concat trivial (Link.step_peerReads 0 later), hphase, hcoord, ?_,
          hcoordPushed, hrest, ?_, ?_⟩
        · cases lost
          · simp only [Bool.false_eq_true, if_false, List.map_append, htoCoord, List.append_assoc]
            rfl
          · exact htoCoord
        · rw [← hpeerPushed, List.append_nil, ← List.append_assoc]
          exact (List.append_nil _).symm
        · simp only [PeerThread.Follows, hnext, if_true]
          exact ⟨trivial, trivial, trivial⟩
    · obtain ⟨hnext, rfl⟩ := sendStep_written hwritten hsend hair
      simp only [PeerThread.Follows, hwritten, if_true] at hpeer
      obtain ⟨rfl, rfl, rfl⟩ := hpeer
      refine ⟨es, L, [], [], hrun, hphase, hcoord, htoCoord, hcoordPushed, htoPeer, hpeerPushed.trans (List.append_nil _).symm, ?_⟩
      simp only [PeerThread.Follows, hnext, if_true]
      exact ⟨trivial, trivial, trivial⟩
  | @sent r request response phase' call result hsend =>
    cases hwritten : phase'.written
    · simp only [PeerThread.Follows, hwritten, Bool.false_eq_true, if_false] at hpeer
      exact absurd rfl ((sendStep_unwritten hpeer.1 hwritten hsend hair).1 result)
    · obtain ⟨-, rfl⟩ := sendStep_written hwritten hsend hair
      simp only [PeerThread.Follows, hwritten, if_true] at hpeer
      obtain ⟨rfl, rfl, rfl⟩ := hpeer
      refine ⟨es, L, [], [], hrun, hphase, hcoord, htoCoord, hcoordPushed, htoPeer, hpeerPushed.trans (List.append_nil _).symm, ?_⟩
      rcases PeerThread.sent_cases L.peer (.send request response phase') request with heq | heq <;> rw [heq] <;> exact ⟨rfl, rfl, rfl⟩
  | statistics r nowUs =>
    cases hair
    obtain ⟨rfl, rfl, rfl⟩ := hpeer
    exact ⟨es, L, [], [], hrun, hphase, hcoord, htoCoord, hcoordPushed, htoPeer, hpeerPushed.trans (List.append_nil _).symm,
      rfl, rfl, rfl⟩

/-! ### What the coordinator's loop does -/

/-- The coordinator has taken `taken` from the packets that arrive, and `Link` has not. -/
theorem Covers.take {taken rest : List Bytes} (h : s.Covers L₀ ahead pushes phase coord) (harriving : s.toCoord = taken ++ rest) :
    Covers { s with toCoord := rest } L₀ (ahead ++ taken) pushes phase coord := by
  obtain ⟨es, L, ahead', pushes', hrun, hphase, hcoord, hmatches⟩ := h
  refine ⟨es, L, ahead', pushes', hrun, hphase, hcoord, ?_, hmatches.coordPushed, hmatches.toPeer, hmatches.peerPushed, hmatches.peer⟩
  rw [hmatches.toCoord, harriving, List.append_assoc]

/-- `TunnelThread` pushes on the coordinator, in `Link` too. -/
theorem Covers.pushed (h : s.Covers L₀ ahead [] phase coord) (reads : List Bytes) :
    Covers { s with coordPushed := s.coordPushed ++ reads.filter isValidIpPacket } L₀ ahead [] phase (coord.pushed reads) := by
  obtain ⟨es, L, ahead', pushes', hrun, hphase, rfl, hmatches⟩ := h
  refine ⟨_, _, ahead', pushes', hrun.concat trivial (Link.step_coordReads 0 reads), hphase, rfl, hmatches.toCoord, ?_, hmatches.toPeer,
    hmatches.peerPushed, hmatches.peer⟩
  rw [← hmatches.coordPushed, List.append_nil, List.append_nil]

/-- `TunnelThread` pushes on the coordinator, in `Link` later. -/
theorem Covers.pushLater (h : s.Covers L₀ ahead pushes phase coord) (reads : List Bytes) :
    Covers { s with coordPushed := s.coordPushed ++ reads } L₀ ahead (pushes ++ reads) phase coord := by
  obtain ⟨es, L, ahead', pushes', hrun, hphase, hcoord, hmatches⟩ := h
  refine ⟨es, L, ahead', pushes', hrun, hphase, hcoord, hmatches.toCoord, ?_, hmatches.toPeer, hmatches.peerPushed, hmatches.peer⟩
  rw [← hmatches.coordPushed, List.append_assoc]

/-- `write` of a request: the runs for both outcomes of `Send`. -/
theorem Covers.send {u : PrimaryRadioInterface} {tx : MacFrame} {request : Bytes} {reads later : List Bytes}
    (h : s.Covers L₀ [] (reads.filter isValidIpPacket ++ later.filter isValidIpPacket) .top coord) (hexchanges : coord.Exchanges)
    (hprepare : coord.setPollInterval.prepareRequest reads = (u, some (tx, request))) (lost : Bool) :
    Covers { s with toPeer := if lost then s.toPeer else s.toPeer ++ [request] } L₀ [] [] (.exchange tx) (u.pushed later) ∧
      ∀ nowUs, Covers { s with toPeer := if lost then s.toPeer else s.toPeer ++ [request] } L₀ [] [] .top
        ((u.pushed later).afterExchange .sendFailure nowUs) := by
  obtain ⟨es, L, ahead', pushes', hrun, hphase, rfl, hmatches⟩ := h
  have hboth (nowUs : Nat) (radioOk : Bool) : Covers { s with toPeer := if lost then s.toPeer else s.toPeer ++ [request] } L₀ [] []
      (if radioOk then .exchange tx else .top) ((if radioOk then u else u.afterExchange .sendFailure nowUs).pushed later) := by
    refine ⟨_, _, ahead', pushes', (hrun.concat trivial (Link.step_send hphase hexchanges hprepare nowUs lost radioOk)).concat trivial
      (Link.step_coordReads 0 later), rfl, rfl, hmatches.toCoord, ?_, ?_, hmatches.peerPushed, hmatches.peer⟩
    · rw [← hmatches.coordPushed, List.append_nil, ← List.append_assoc]
    · cases lost
      · simp only [Bool.false_eq_true, if_false, List.map_append, hmatches.toPeer, List.append_assoc]
        rfl
      · exact hmatches.toPeer
  refine ⟨hboth 0 true, fun nowUs => ?_⟩
  rw [PrimaryRadioInterface.afterExchange_pushed]
  exact hboth nowUs false

/-- `write` of a Reset. What `flush_rx` has taken is taken in `Link` now. -/
theorem Covers.resetSend {request : Bytes} {nowUs : Nat} (h : s.Covers L₀ ahead [] .top coord)
    (haction : coord.loopAction nowUs = .reset) (hencode : encodeMacFrame resetFrame = some request) (lost : Bool) :
    Covers { s with toPeer := if lost then s.toPeer else s.toPeer ++ [request] } L₀ [] [] .reset
        coord.setPollInterval.beginConnectionReset ∧
      ∀ laterUs, Covers { s with toPeer := if lost then s.toPeer else s.toPeer ++ [request] } L₀ [] [] .top
        (coord.setPollInterval.beginConnectionReset.resetFailed laterUs) := by
  obtain ⟨es, L, ahead', pushes', hrun, hphase, rfl, hmatches⟩ := h
  have hboth (laterUs : Nat) (radioOk : Bool) : Covers { s with toPeer := if lost then s.toPeer else s.toPeer ++ [request] } L₀ [] []
      (if radioOk then .reset else .top) (if radioOk then L.coord.setPollInterval.beginConnectionReset
        else L.coord.setPollInterval.beginConnectionReset.resetFailed laterUs) := by
    refine ⟨_, _, ahead', pushes', hrun.concat trivial (Link.step_resetSend hphase haction hencode laterUs ahead.length lost radioOk),
      rfl, rfl, ?_, hmatches.coordPushed, ?_, hmatches.peerPushed, hmatches.peer⟩
    · rw [List.map_drop, hmatches.toCoord]
      exact List.drop_left
    · cases lost
      · simp only [Bool.false_eq_true, if_false, List.map_append, hmatches.toPeer, List.append_assoc]
        rfl
      · exact hmatches.toPeer
  exact ⟨hboth 0 true, fun laterUs => hboth laterUs false⟩

/-- The end of `PerformExchange` and of the `switch` over its result. -/
theorem Covers.complete {tx : MacFrame} {response : Option Bytes} (h : s.Covers L₀ response.toList [] (.exchange tx) coord)
    (nowUs : Nat) :
    s.Covers L₀ [] [] .top ((coord.completeExchange tx response).1.afterExchange (coord.completeExchange tx response).2 nowUs) := by
  obtain ⟨es, L, ahead', pushes', hrun, hphase, rfl, hmatches⟩ := h
  obtain ⟨e, toCoord, hrest, hstep⟩ := Link.step_complete hphase hmatches.toCoord nowUs
  exact ⟨_, _, ahead', pushes', hrun.concat trivial hstep, rfl, rfl, hrest, hmatches.coordPushed, hmatches.toPeer, hmatches.peerPushed,
    hmatches.peer⟩

theorem Covers.sendFails {u : PrimaryRadioInterface} {reads : List Bytes} (h : s.Covers L₀ [] [] .top coord)
    (hexchanges : coord.Exchanges) (hprepare : coord.setPollInterval.prepareRequest reads = (u, none)) (nowUs : Nat) :
    Covers { s with coordPushed := s.coordPushed ++ reads.filter isValidIpPacket } L₀ [] [] .top
      (u.afterExchange .protocolFailure nowUs) := by
  obtain ⟨es, L, ahead', pushes', hrun, hphase, rfl, hmatches⟩ := h
  refine ⟨_, _, ahead', pushes', hrun.concat trivial (Link.step_send_fails hphase hexchanges hprepare nowUs false true), hphase, rfl,
    hmatches.toCoord, ?_, hmatches.toPeer, hmatches.peerPushed, hmatches.peer⟩
  rw [← hmatches.coordPushed, List.append_nil, List.append_nil]

theorem Covers.resetFails {response : Option Bytes} (h : s.Covers L₀ response.toList [] .reset coord)
    (hrefused : response.any PrimaryRadioInterface.confirmsReset = false) (nowUs : Nat) :
    s.Covers L₀ [] [] .top (coord.resetFailed nowUs) := by
  obtain ⟨es, L, ahead', pushes', hrun, hphase, rfl, hmatches⟩ := h
  obtain ⟨e, toCoord, hrest, hstep⟩ := Link.step_resetFails hphase hmatches.toCoord hrefused nowUs
  exact ⟨_, _, ahead', pushes', hrun.concat trivial hstep, rfl, rfl, hrest, hmatches.coordPushed, hmatches.toPeer, hmatches.peerPushed,
    hmatches.peer⟩

/-- Here too, what `flush_rx` has taken is taken now. -/
theorem Covers.resetSucceeds {response : Bytes} {flushed : List Bytes} (h : s.Covers L₀ (response :: flushed) [] .reset coord)
    (hconfirms : PrimaryRadioInterface.confirmsReset response = true) : s.Covers L₀ [] [] .top coord.resetSucceeded := by
  obtain ⟨es, L, ahead', pushes', hrun, hphase, rfl, hmatches⟩ := h
  obtain ⟨e, toCoord, hrest, hstep⟩ := Link.step_resetSucceeds hphase hmatches.toCoord hconfirms
  exact ⟨_, _, ahead', pushes', hrun.concat trivial hstep, rfl, rfl, hrest, hmatches.coordPushed, hmatches.toPeer, hmatches.peerPushed,
    hmatches.peer⟩

end ThreadedLink

/-- What `Link` has done by now for a coordinator's loop: `covers ahead pushes phase coord` says that it
    has come to `phase` and `coord`, while the loop is ahead by these packets. -/
def CoordinatorThread.Follows (covers : List Bytes → List Bytes → Phase → PrimaryRadioInterface → Prop) (s : CoordinatorThread) : Prop :=
  match s.phase with
  | .top | .retryWait | .statistics => covers [] [] .top s.radio
  | .pollSleep => ∃ c, s.radio = c.setPollInterval ∧ c.disconnected = false ∧ covers [] [] .top c
  | .flushRx => ∃ c nowUs, s.radio = c.setPollInterval ∧ c.loopAction nowUs = .reset ∧ covers [] [] .top c
  | .flushTx => ∃ c nowUs ahead, s.radio = c.setPollInterval ∧ c.loopAction nowUs = .reset ∧ covers ahead [] .top c
  | .resetSend request phase =>
    encodeMacFrame resetFrame = some request ∧
      if phase.written then covers [] [] .reset s.radio ∧ ∀ nowUs, covers [] [] .top (s.radio.resetFailed nowUs)
      else ∃ c nowUs ahead, s.radio = c.setPollInterval.beginConnectionReset ∧ c.loopAction nowUs = .reset ∧ covers ahead [] .top c
  | .resetReceive phase => covers phase.taken [] .reset s.radio
  | .confirmedFlushRx => ∃ response, PrimaryRadioInterface.confirmsReset response = true ∧ covers [response] [] .reset s.radio
  | .confirmedFlushTx =>
    ∃ response flushed, PrimaryRadioInterface.confirmsReset response = true ∧ covers (response :: flushed) [] .reset s.radio
  | .resetFailure => ∀ nowUs, covers [] [] .top (s.radio.resetFailed nowUs)
  | .compose => ∃ c, s.radio = c.setPollInterval ∧ c.Exchanges ∧ covers [] [] .top c
  | .send tx request phase =>
    encodeMacFrame tx = some request ∧
      if phase.written then covers [] [] (.exchange tx) s.radio ∧ ∀ nowUs, covers [] [] .top (s.radio.afterExchange .sendFailure nowUs)
      else ∃ c u reads later, s.radio = u.pushed later ∧ c.Exchanges ∧ c.setPollInterval.prepareRequest reads = (u, some (tx, request)) ∧
        covers [] (reads.filter isValidIpPacket ++ later.filter isValidIpPacket) .top c
  | .receive tx phase => covers phase.taken [] (.exchange tx) s.radio
  | .gap => ∀ nowUs, covers [] [] .top (s.radio.afterExchange .success nowUs)
  | .failure result => ∀ nowUs, covers [] [] .top (s.radio.afterExchange result nowUs)

namespace CoordinatorThread
variable {irq : Bool} {covers covers' : List Bytes → List Bytes → Phase → PrimaryRadioInterface → Prop} {r : PrimaryRadioInterface}
  {phase : CoordinatorPhase}

theorem Follows.pushed {reads : List Bytes}
    (hpushed : ∀ ahead phase c, covers ahead [] phase c → covers' ahead [] phase (c.pushed reads))
    (hlater : ∀ ahead pushes phase c, covers ahead pushes phase c →
      covers' ahead (pushes ++ reads.filter isValidIpPacket) phase c)
    (h : Follows covers ⟨r, phase⟩) : Follows covers' ⟨r.pushed reads, phase⟩ := by
  cases phase with
  | top | retryWait | statistics => exact hpushed _ _ _ h
  | pollSleep =>
    obtain ⟨c, rfl, hconnected, hcovers⟩ := h
    exact ⟨c.pushed reads, (c.setPollInterval_pushed reads).symm, hconnected, hpushed _ _ _ hcovers⟩
  | flushRx =>
    obtain ⟨c, nowUs, rfl, haction, hcovers⟩ := h
    exact ⟨c.pushed reads, nowUs, (c.setPollInterval_pushed reads).symm, haction, hpushed _ _ _ hcovers⟩
  | flushTx =>
    obtain ⟨c, nowUs, ahead, rfl, haction, hcovers⟩ := h
    exact ⟨c.pushed reads, nowUs, ahead, (c.setPollInterval_pushed reads).symm, haction, hpushed _ _ _ hcovers⟩
  | resetSend request phase =>
    refine ⟨h.1, ?_⟩
    have h := h.2
    cases hwritten : phase.written <;> simp only [hwritten, Bool.false_eq_true, if_false, if_true] at h ⊢
    · obtain ⟨c, nowUs, ahead, rfl, haction, hcovers⟩ := h
      refine ⟨c.pushed reads, nowUs, ahead, ?_, haction, hpushed _ _ _ hcovers⟩
      rw [PrimaryRadioInterface.setPollInterval_pushed, PrimaryRadioInterface.beginConnectionReset_pushed]
    · refine ⟨hpushed _ _ _ h.1, fun nowUs => ?_⟩
      rw [PrimaryRadioInterface.resetFailed_pushed]
      exact hpushed _ _ _ (h.2 nowUs)
  | resetReceive phase => exact hpushed _ _ _ h
  | confirmedFlushRx =>
    obtain ⟨response, hconfirms, hcovers⟩ := h
    exact ⟨response, hconfirms, hpushed _ _ _ hcovers⟩
  | confirmedFlushTx =>
    obtain ⟨response, flushed, hconfirms, hcovers⟩ := h
    exact ⟨response, flushed, hconfirms, hpushed _ _ _ hcovers⟩
  | resetFailure =>
    intro nowUs
    rw [PrimaryRadioInterface.resetFailed_pushed]
    exact hpushed _ _ _ (h nowUs)
  | compose =>
    obtain ⟨c, rfl, hexchanges, hcovers⟩ := h
    exact ⟨c.pushed reads, (c.setPollInterval_pushed reads).symm, hexchanges, hpushed _ _ _ hcovers⟩
  | send tx request phase =>
    refine ⟨h.1, ?_⟩
    have h := h.2
    cases hwritten : phase.written <;> simp only [hwritten, Bool.false_eq_true, if_false, if_true] at h ⊢
    · obtain ⟨c, u, earlier, later, rfl, hexchanges, hprepare, hcovers⟩ := h
      refine ⟨c, u, earlier, later ++ reads, u.pushed_append later reads, hexchanges, hprepare, ?_⟩
      rw [List.filter_append, ← List.append_assoc]
      exact hlater _ _ _ _ hcovers
    · refine ⟨hpushed _ _ _ h.1, fun nowUs => ?_⟩
      rw [PrimaryRadioInterface.afterExchange_pushed]
      exact hpushed _ _ _ (h.2 nowUs)
  | receive tx phase => exact hpushed _ _ _ h
  | gap | failure result =>
    intro nowUs
    rw [PrimaryRadioInterface.afterExchange_pushed]
    exact hpushed _ _ _ (h nowUs)

/-- Only what `Link` has done by now counts. -/
theorem Follows.mono (hcovers : ∀ ahead pushes phase c, covers ahead pushes phase c → covers' ahead pushes phase c)
    (h : Follows covers ⟨r, phase⟩) : Follows covers' ⟨r, phase⟩ := by
  have hpushed : Follows covers' ⟨r.pushed [], phase⟩ := h.pushed
    (fun ahead phase c hc => by rw [PrimaryRadioInterface.pushed_nil]; exact hcovers _ _ _ _ hc)
    (fun ahead pushes phase c hc => by rw [List.filter_nil, List.append_nil]; exact hcovers _ _ _ _ hc)
  rwa [PrimaryRadioInterface.pushed_nil] at hpushed

/-- `PerformExchange` returns, and the loop looks at the clock at once or in the next call. -/
theorem exchangeReturns_follows {result : ExchangeResult} (h : ∀ nowUs, covers [] [] .top (r.afterExchange result nowUs)) :
    (exchangeReturns ⟨r, phase⟩ result).Follows covers := by
  rcases exchangeReturns_cases r phase result with heq | heq <;> rw [heq]
  · exact h
  · exact h 0

theorem resetFails_follows (h : ∀ nowUs, covers [] [] .top (r.resetFailed nowUs)) : (resetFails ⟨r, phase⟩).Follows covers := by
  rcases resetFails_cases r phase with heq | heq <;> rw [heq]
  · exact h
  · exact h 0

theorem completeExchange_follows {tx : MacFrame} {response : Option Bytes}
    (h : ∀ nowUs, covers [] [] .top ((r.completeExchange tx response).1.afterExchange (r.completeExchange tx response).2 nowUs)) :
    (completeExchange ⟨r, phase⟩ tx response).Follows covers := by
  rcases completeExchange_cases r phase tx response with ⟨heq, hsuccess⟩ | heq <;> rw [heq]
  · rw [hsuccess] at h
    exact h
  · exact exchangeReturns_follows h

end CoordinatorThread

namespace ThreadedLink
variable {irq irq' lost : Bool} {s t : ThreadedLink} {L₀ : Link} {flushed : Nat} {air : List Bytes × List Bytes}

theorem covers_receive (taken : List Bytes) {phase next : ReceivePhase} {call : DriverCall} {r : PrimaryRadioInterface} {linkPhase : Phase}
    (h : s.Covers L₀ phase.taken [] linkPhase r) (hreceive : receiveStep irq kResponseTimeoutUs phase call = some next)
    (hair : call.onAir s.toPeer s.toCoord lost flushed = some air) (htaken : next.taken = taken) :
    Covers { s with toPeer := air.1, toCoord := air.2 } L₀ taken [] linkPhase r := by
  obtain ⟨hnone, hsent, harriving⟩ := receiveStep_onAir hreceive hair
  rw [hnone] at h
  rw [hsent, ← htaken]
  exact h.take harriving

/-- What the coordinator's loop does in a call, while the peer does nothing. -/
theorem follows_call {call : DriverCall} {thread next : CoordinatorThread} (h : thread.Follows (s.Covers L₀))
    (hstep : CoordinatorThread.Step irq thread (.call call) next) (hair : call.onAir s.toPeer s.toCoord lost flushed = some air) :
    next.Follows (Covers { s with toPeer := air.1, toCoord := air.2 } L₀) := by
  cases hstep with
  | wait | waited | statistics =>
    cases hair
    exact h
  | retry haction hdisconnected =>
    cases hair
    refine ⟨_, _, ?_, haction, h⟩
    rw [PrimaryRadioInterface.setPollInterval, if_pos hdisconnected]
  | poll r nowUs hconnected =>
    cases hair
    exact ⟨r, rfl, hconnected, h⟩
  | polled r =>
    cases hair
    obtain ⟨c, rfl, hconnected, hcovers⟩ := h
    have hrequired : c.setPollInterval.connectionResetRequired = c.connectionResetRequired := c.setPollInterval_keeps.connectionResetRequired
    cases hreset : c.connectionResetRequired <;> rw [hrequired, hreset]
    · exact ⟨c, rfl, ⟨hconnected, hreset⟩, hcovers⟩
    · refine ⟨c, 0, rfl, ?_, hcovers⟩
      simp [PrimaryRadioInterface.loopAction, hconnected, hreset]
  | flushRx r =>
    cases hair
    obtain ⟨c, nowUs, rfl, haction, hcovers⟩ := h
    exact ⟨c, nowUs, _, rfl, haction, hcovers.take (List.take_append_drop flushed s.toCoord).symm⟩
  | flushTx r hencode =>
    cases hair
    obtain ⟨c, nowUs, ahead, rfl, haction, hcovers⟩ := h
    refine ⟨hencode, ?_⟩
    rw [if_neg (by decide)]
    exact ⟨c, nowUs, ahead, rfl, haction, hcovers⟩
  | @resetSend r request phase next call hsend =>
    obtain ⟨hencode, h⟩ := h
    refine ⟨hencode, ?_⟩
    cases hwritten : phase.written <;> simp only [hwritten, Bool.false_eq_true, if_false, if_true] at h
    · obtain ⟨c, nowUs, ahead, rfl, haction, hcovers⟩ := h
      obtain ⟨-, ⟨hnext, rfl⟩ | ⟨hnext, rfl⟩⟩ := sendStep_unwritten (encodeMacFrame_length hencode) hwritten hsend hair <;>
        simp only [hnext, Bool.false_eq_true, if_false, if_true]
      · exact ⟨c, nowUs, ahead, rfl, haction, hcovers⟩
      · exact hcovers.resetSend haction hencode lost
    · obtain ⟨hnext, rfl⟩ := sendStep_written hwritten hsend hair
      rw [if_pos hnext]
      exact h
  | @resetSent r request phase call hsend =>
    obtain ⟨hencode, h⟩ := h
    obtain ⟨hwritten, rfl⟩ := returned_written (encodeMacFrame_length hencode) hsend hair
    rw [if_pos hwritten] at h
    exact h.1
  | @resetUnsent r request phase call result hsend hresult =>
    obtain ⟨hencode, h⟩ := h
    obtain ⟨hwritten, rfl⟩ := returned_written (encodeMacFrame_length hencode) hsend hair
    rw [if_pos hwritten] at h
    exact CoordinatorThread.resetFails_follows h.2
  | resetReceive r hreceive => exact covers_receive _ h hreceive hair rfl
  | resetConfirmed r hreceive hconfirms => exact ⟨_, hconfirms, covers_receive _ h hreceive hair rfl⟩
  | @resetRefused r phase call response hreceive hrefused =>
    have hcovers := covers_receive response.toList h hreceive hair (by cases response <;> rfl)
    exact CoordinatorThread.resetFails_follows (hcovers.resetFails hrefused)
  | confirmedFlushRx r =>
    cases hair
    obtain ⟨response, hconfirms, hcovers⟩ := h
    exact ⟨response, _, hconfirms, hcovers.take (List.take_append_drop flushed s.toCoord).symm⟩
  | confirmedFlushTx r =>
    cases hair
    obtain ⟨response, taken, hconfirms, hcovers⟩ := h
    exact hcovers.resetSucceeds hconfirms
  | resetFailure r nowUs =>
    cases hair
    exact h nowUs
  | @send r tx request phase next call hsend =>
    obtain ⟨hencode, h⟩ := h
    refine ⟨hencode, ?_⟩
    cases hwritten : phase.written <;> simp only [hwritten, Bool.false_eq_true, if_false, if_true] at h
    · obtain ⟨c, u, reads, later, rfl, hexchanges, hprepare, hcovers⟩ := h
      obtain ⟨-, ⟨hnext, rfl⟩ | ⟨hnext, rfl⟩⟩ := sendStep_unwritten (encodeMacFrame_length hencode) hwritten hsend hair <;>
        simp only [hnext, Bool.false_eq_true, if_false, if_true]
      · exact ⟨c, u, reads, later, rfl, hexchanges, hprepare, hcovers⟩
      · exact hcovers.send hexchanges hprepare lost
    · obtain ⟨hnext, rfl⟩ := sendStep_written hwritten hsend hair
      rw [if_pos hnext]
      exact h
  | @sent r tx request phase call hsend =>
    obtain ⟨hencode, h⟩ := h
    obtain ⟨hwritten, rfl⟩ := returned_written (encodeMacFrame_length hencode) hsend hair
    rw [if_pos hwritten] at h
    exact h.1
  | @unsent r tx request phase call result hsend hresult =>
    obtain ⟨hencode, h⟩ := h
    obtain ⟨hwritten, rfl⟩ := returned_written (encodeMacFrame_length hencode) hsend hair
    rw [if_pos hwritten] at h
    exact CoordinatorThread.exchangeReturns_follows h.2
  | receive r tx hreceive => exact covers_receive _ h hreceive hair rfl
  | @received r tx phase call response hreceive =>
    have hcovers := covers_receive response.toList h hreceive hair (by cases response <;> rfl)
    exact CoordinatorThread.completeExchange_follows hcovers.complete
  | gap r =>
    cases hair
    exact CoordinatorThread.exchangeReturns_follows h
  | failure r result nowUs =>
    cases hair
    exact h nowUs

/-- What the coordinator's loop does without a call, and what its `TunnelThread` does. -/
theorem follows_reads {e : ThreadEvent} {thread next : CoordinatorThread} (h : thread.Follows (s.Covers L₀))
    (hstep : CoordinatorThread.Step irq thread e next) (hcall : ∀ call, e ≠ .call call) :
    next.Follows (Covers { s with coordPushed := s.coordPushed ++ e.pushed } L₀) := by
  cases hstep with
  | tunnelThread r phase reads => exact h.pushed (fun _ _ _ hc => hc.pushed reads) fun _ _ _ _ hc => hc.pushLater _
  | composeFails hprepare =>
    obtain ⟨c, rfl, hexchanges, hcovers⟩ := h
    exact CoordinatorThread.exchangeReturns_follows (hcovers.sendFails hexchanges hprepare)
  | @compose r u reads tx request hprepare =>
    obtain ⟨c, rfl, hexchanges, hcovers⟩ := h
    refine ⟨PrimaryRadioInterface.prepareRequest_encode hprepare, ?_⟩
    rw [if_neg (by decide)]
    refine ⟨c, u, reads, [], u.pushed_nil.symm, hexchanges, hprepare, ?_⟩
    rw [List.filter_nil, List.append_nil]
    exact hcovers.pushLater _
  | _ => exact absurd rfl (hcall _)

/-- `Link` covers what the loop of the coordinator has done, whatever the peer's loop is ahead by. -/
def Refines (s : ThreadedLink) (L₀ : Link) : Prop := s.coord.Follows (s.Covers L₀)

/-- `Covers` is not about the coordinator's loop. -/
theorem Covers.anyCoord {ahead pushes : List Bytes} {phase : Phase} {c : PrimaryRadioInterface} (h : s.Covers L₀ ahead pushes phase c)
    (coord : CoordinatorThread) : Covers { s with coord } L₀ ahead pushes phase c := by
  obtain ⟨es, L, ahead', pushes', hrun, hphase, hcoord, hmatches⟩ := h
  exact ⟨es, L, ahead', pushes', hrun, hphase, hcoord, hmatches.toCoord, hmatches.coordPushed, hmatches.toPeer, hmatches.peerPushed,
    hmatches.peer⟩

theorem refines_step {e : ThreadedEvent} (h : s.Refines L₀) (hstep : s.step irq irq' e = some t) : t.Refines L₀ := by
  cases e with
  | coord e lost flushed =>
    obtain ⟨coord, hcoord, hstep⟩ := Option.bind_eq_some_iff.mp hstep
    obtain ⟨air, hair, rfl⟩ := Option.map_eq_some_iff.mp hstep
    have hcoord := CoordinatorThread.step_cases hcoord
    have hfollows : coord.Follows
        (Covers { s with toPeer := air.1, toCoord := air.2, coordPushed := s.coordPushed ++ e.pushed } L₀) := by
      cases e with
      | call call =>
        rw [show s.coordPushed ++ (ThreadEvent.call call).pushed = s.coordPushed from List.append_nil _]
        exact follows_call h hcoord hair
      | compose reads | tunnelThread reads =>
        cases hair
        exact follows_reads h hcoord (by simp)
    exact hfollows.mono fun _ _ _ _ hc => hc.anyCoord coord
  | peer e lost flushed =>
    obtain ⟨peer, hpeer, hstep⟩ := Option.bind_eq_some_iff.mp hstep
    obtain ⟨air, hair, rfl⟩ := Option.map_eq_some_iff.mp hstep
    exact CoordinatorThread.Follows.mono (fun _ _ _ _ hc => hc.peer (PeerThread.step_cases hpeer) hair) h

variable {es : List ThreadedEvent} {pollIntervalUs : Nat} {peer : SecondaryRadioInterface}

/-- Whatever the interleaving of the calls, and whatever they return, the loops have only done what `Link`
    does: where both of them are between two passes, a run of `Link` has come to the same state. -/
theorem refines_link (hrun : Machine.Run (step irq irq') (fun _ _ => True) (initial pollIntervalUs peer) es s)
    (hcoord : s.coord.phase = .top) (hpeer : s.peer.phase = .receive .startListening) :
    ∃ ls L, (Link.initial pollIntervalUs peer).Run ls L ∧ L.phase = .top ∧ L.coord = s.coord.radio ∧ L.peer = s.peer.radio ∧
      L.toPeer.map (·.packet) = s.toPeer ∧ L.toCoord.map (·.packet) = s.toCoord ∧ L.coordPushed = s.coordPushed ∧
      L.peerPushed = s.peerPushed := by
  have hstart : (initial pollIntervalUs peer).Refines (Link.initial pollIntervalUs peer) :=
    ⟨[], _, [], [], .nil _, rfl, rfl, rfl, rfl, rfl, rfl, rfl, rfl, rfl⟩
  have hrefines : s.Refines (Link.initial pollIntervalUs peer) :=
    Machine.Run.invariant (P := fun s => s.Refines (Link.initial pollIntervalUs peer)) (fun _ _ _ hs _ hstep => refines_step hs hstep)
      hrun hstart
  rw [Refines, CoordinatorThread.Follows, hcoord] at hrefines
  obtain ⟨ls, L, ahead', pushes', hlink, hphase, hradio, hmatches⟩ := hrefines
  have hfollows := hmatches.peer
  rw [PeerThread.Follows, hpeer] at hfollows
  obtain ⟨hpeerRadio, rfl, rfl⟩ := hfollows
  exact ⟨ls, L, hlink, hphase, hradio, hpeerRadio.symm, hmatches.toPeer, hmatches.toCoord,
    (List.append_nil _).symm.trans hmatches.coordPushed, (List.append_nil _).symm.trans hmatches.peerPushed⟩

/-- A reset in which the peer answers before the coordinator's `Send` returns. -/
def answeredWithinSend (packet : Bytes) : List ThreadedEvent :=
  ([.timeNowUs 0, .sleepUs kActivePollIntervalUs, .flushRx, .flushTx, .stopListening, .write packet true].map
      fun call => .coord (.call call) false 0) ++
    ([.call .startListening, .call (.timeNowUs 0), .call (.available true), .call (.read packet), .compose [[]],
      .call .stopListening, .call (.write packet true), .call (.timeNowUs 1), .call (.txStandBy true)].map fun e => .peer e false 0) ++
    ([.timeNowUs 1500, .txStandBy true, .startListening, .timeNowUs 2000, .available true, .read packet, .flushRx, .flushTx].map
      fun call => .coord (.call call) false 0)

theorem refines_link_answered_within_send :
    ∃ packet s ls L, Machine.Run (step false false) (fun _ _ => True) (initial 100 {}) (answeredWithinSend packet) s ∧
      (Link.initial 100 {}).Run ls L ∧ L.phase = .top ∧ L.coord = s.coord.radio ∧ L.peer = s.peer.radio ∧
      s.coord.radio.connectionResetRequired = false := by
  obtain ⟨packet, hencode, -⟩ := exists_encode_resetFrame
  have hexec : ((encodeMacFrame resetFrame).bind fun packet => (Machine.exec (step false false) (fun _ _ => True) (initial 100 {})
      (answeredWithinSend packet)).map fun s => (s.coord.phase, s.peer.phase, s.coord.radio.connectionResetRequired)) =
      some (.top, .receive .startListening, false) := by
    decide +kernel
  rw [hencode] at hexec
  obtain ⟨s, hs, hstate⟩ := Option.map_eq_some_iff.mp hexec
  obtain ⟨hcoord, hstate⟩ := Prod.mk.inj hstate
  obtain ⟨hpeer, hrequired⟩ := Prod.mk.inj hstate
  obtain ⟨ls, L, hlink, hphase, hradio, hpeerRadio, -⟩ := refines_link (.of_exec hs) hcoord hpeer
  exact ⟨packet, s, ls, L, .of_exec hs, hlink, hphase, hradio, hpeerRadio, hrequired⟩

end ThreadedLink

end Nerfnet
