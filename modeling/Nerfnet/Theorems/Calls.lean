import Nerfnet.Theorems.Projection
import Nerfnet.Threads

/-! # The steps of the two loops, call by call

What a step of `CoordinatorThread` or of `PeerThread` can be, one case for each place in the source. -/

namespace Nerfnet

/-! ### The coordinator -/

namespace CoordinatorThread
variable {irq : Bool}

inductive Step (irq : Bool) : CoordinatorThread → ThreadEvent → CoordinatorThread → Prop
  | tunnelThread (r : PrimaryRadioInterface) (phase : CoordinatorPhase) (reads : List Bytes) :
      Step irq ⟨r, phase⟩ (.tunnelThread reads) ⟨r.pushed reads, phase⟩
  | wait {r : PrimaryRadioInterface} {nowUs : Nat} : r.loopAction nowUs = .wait →
      Step irq ⟨r, .top⟩ (.call (.timeNowUs nowUs)) ⟨r, .retryWait⟩
  | retry {r : PrimaryRadioInterface} {nowUs : Nat} : r.loopAction nowUs = .reset → r.disconnected = true →
      Step irq ⟨r, .top⟩ (.call (.timeNowUs nowUs)) ⟨r, .flushRx⟩
  | poll (r : PrimaryRadioInterface) (nowUs : Nat) : r.disconnected = false →
      Step irq ⟨r, .top⟩ (.call (.timeNowUs nowUs)) ⟨r.setPollInterval, .pollSleep⟩
  | waited (r : PrimaryRadioInterface) : Step irq ⟨r, .retryWait⟩ (.call (.sleepUs kDisconnectedSleepSliceUs)) ⟨r, .top⟩
  | polled (r : PrimaryRadioInterface) :
      Step irq ⟨r, .pollSleep⟩ (.call (.sleepUs r.currentPollIntervalUs))
        ⟨r, if r.connectionResetRequired then .flushRx else .compose⟩
  | flushRx (r : PrimaryRadioInterface) : Step irq ⟨r, .flushRx⟩ (.call .flushRx) ⟨r, .flushTx⟩
  | flushTx (r : PrimaryRadioInterface) {request : Bytes} : encodeMacFrame resetFrame = some request →
      Step irq ⟨r, .flushTx⟩ (.call .flushTx) ⟨r.beginConnectionReset, .resetSend request .stopListening⟩
  | resetSend (r : PrimaryRadioInterface) (request : Bytes) {phase next : SendPhase} {call : DriverCall} :
      sendStep request phase call = some next →
      Step irq ⟨r, .resetSend request phase⟩ (.call call) ⟨r, .resetSend request next⟩
  | resetSent (r : PrimaryRadioInterface) (request : Bytes) {phase : SendPhase} {call : DriverCall} :
      sendStep request phase call = some (.returned .success) →
      Step irq ⟨r, .resetSend request phase⟩ (.call call) ⟨r, .resetReceive .startListening⟩
  | resetUnsent (r : PrimaryRadioInterface) (request : Bytes) {phase : SendPhase} {call : DriverCall} {result : RequestResult} :
      sendStep request phase call = some (.returned result) → result ≠ .success →
      Step irq ⟨r, .resetSend request phase⟩ (.call call) (resetFails ⟨r, .resetSend request phase⟩)
  | resetReceive (r : PrimaryRadioInterface) {phase next : ReceivePhase} {call : DriverCall} :
      receiveStep irq kResponseTimeoutUs phase call = some next →
      Step irq ⟨r, .resetReceive phase⟩ (.call call) ⟨r, .resetReceive next⟩
  | resetConfirmed (r : PrimaryRadioInterface) {phase : ReceivePhase} {call : DriverCall} {response : Bytes} :
      receiveStep irq kResponseTimeoutUs phase call = some (.returned (some response)) →
      PrimaryRadioInterface.confirmsReset response = true →
      Step irq ⟨r, .resetReceive phase⟩ (.call call) ⟨r, .confirmedFlushRx⟩
  | resetRefused (r : PrimaryRadioInterface) {phase : ReceivePhase} {call : DriverCall} {response : Option Bytes} :
      receiveStep irq kResponseTimeoutUs phase call = some (.returned response) →
      response.any PrimaryRadioInterface.confirmsReset = false →
      Step irq ⟨r, .resetReceive phase⟩ (.call call) (resetFails ⟨r, .resetReceive phase⟩)
  | confirmedFlushRx (r : PrimaryRadioInterface) :
      Step irq ⟨r, .confirmedFlushRx⟩ (.call .flushRx) ⟨r, .confirmedFlushTx⟩
  | confirmedFlushTx (r : PrimaryRadioInterface) :
      Step irq ⟨r, .confirmedFlushTx⟩ (.call .flushTx) ⟨r.resetSucceeded, .top⟩
  | resetFailure (r : PrimaryRadioInterface) (nowUs : Nat) :
      Step irq ⟨r, .resetFailure⟩ (.call (.timeNowUs nowUs)) ⟨r.resetFailed nowUs, .top⟩
  | composeFails {r u : PrimaryRadioInterface} {reads : List Bytes} : r.prepareRequest reads = (u, none) →
      Step irq ⟨r, .compose⟩ (.compose reads) (exchangeReturns ⟨u, .compose⟩ .protocolFailure)
  | compose {r u : PrimaryRadioInterface} {reads : List Bytes} {tx : MacFrame} {request : Bytes} :
      r.prepareRequest reads = (u, some (tx, request)) →
      Step irq ⟨r, .compose⟩ (.compose reads) ⟨u, .send tx request .stopListening⟩
  | send (r : PrimaryRadioInterface) (tx : MacFrame) (request : Bytes) {phase next : SendPhase} {call : DriverCall} :
      sendStep request phase call = some next →
      Step irq ⟨r, .send tx request phase⟩ (.call call) ⟨r, .send tx request next⟩
  | sent (r : PrimaryRadioInterface) (tx : MacFrame) (request : Bytes) {phase : SendPhase} {call : DriverCall} :
      sendStep request phase call = some (.returned .success) →
      Step irq ⟨r, .send tx request phase⟩ (.call call) ⟨r, .receive tx .startListening⟩
  | unsent (r : PrimaryRadioInterface) (tx : MacFrame) (request : Bytes) {phase : SendPhase} {call : DriverCall}
      {result : RequestResult} : sendStep request phase call = some (.returned result) → result ≠ .success →
      Step irq ⟨r, .send tx request phase⟩ (.call call) (exchangeReturns ⟨r, .send tx request phase⟩ .sendFailure)
  | receive (r : PrimaryRadioInterface) (tx : MacFrame) {phase next : ReceivePhase} {call : DriverCall} :
      receiveStep irq kResponseTimeoutUs phase call = some next →
      Step irq ⟨r, .receive tx phase⟩ (.call call) ⟨r, .receive tx next⟩
  | received (r : PrimaryRadioInterface) (tx : MacFrame) {phase : ReceivePhase} {call : DriverCall} {response : Option Bytes} :
      receiveStep irq kResponseTimeoutUs phase call = some (.returned response) →
      Step irq ⟨r, .receive tx phase⟩ (.call call) (completeExchange ⟨r, .receive tx phase⟩ tx response)
  | gap (r : PrimaryRadioInterface) :
      Step irq ⟨r, .gap⟩ (.call (.sleepUs kPostDataExchangeGapUs)) (exchangeReturns ⟨r, .gap⟩ .success)
  | failure (r : PrimaryRadioInterface) (result : ExchangeResult) (nowUs : Nat) :
      Step irq ⟨r, .failure result⟩ (.call (.timeNowUs nowUs)) ⟨r.afterExchange result nowUs, .statistics⟩
  | statistics (r : PrimaryRadioInterface) (nowUs : Nat) :
      Step irq ⟨r, .statistics⟩ (.call (.timeNowUs nowUs)) ⟨r, .top⟩

/-- Where the loop goes on after a failed `ConnectionReset`. -/
theorem resetFails_cases (r : PrimaryRadioInterface) (phase : CoordinatorPhase) :
    resetFails ⟨r, phase⟩ = ⟨r, .resetFailure⟩ ∨ resetFails ⟨r, phase⟩ = ⟨r.resetFailed 0, .top⟩ := by
  unfold resetFails
  split
  · exact .inl rfl
  · exact .inr rfl

/-- Where the loop goes on after `PerformExchange`. -/
theorem exchangeReturns_cases (r : PrimaryRadioInterface) (phase : CoordinatorPhase) (result : ExchangeResult) :
    exchangeReturns ⟨r, phase⟩ result = ⟨r, .failure result⟩ ∨
      exchangeReturns ⟨r, phase⟩ result = ⟨r.afterExchange result 0, .statistics⟩ := by
  unfold exchangeReturns
  split
  · exact .inl rfl
  · exact .inr rfl

/-- `PerformExchange` sleeps only before it returns a success. -/
theorem completeExchange_cases (r : PrimaryRadioInterface) (phase : CoordinatorPhase) (tx : MacFrame) (response : Option Bytes) :
    completeExchange ⟨r, phase⟩ tx response = ⟨(r.completeExchange tx response).1, .gap⟩ ∧
        (r.completeExchange tx response).2 = .success ∨
      completeExchange ⟨r, phase⟩ tx response =
        exchangeReturns ⟨(r.completeExchange tx response).1, phase⟩ (r.completeExchange tx response).2 := by
  simp only [completeExchange]
  split
  · rename_i hgap
    exact .inl ⟨rfl, hgap.1⟩
  · exact .inr rfl

theorem step_top {r : PrimaryRadioInterface} {call : DriverCall} {t : CoordinatorThread}
    (h : step irq ⟨r, .top⟩ (.call call) = some t) : Step irq ⟨r, .top⟩ (.call call) t := by
  cases call <;> simp only [step, reduceCtorEq] at h
  rename_i nowUs
  cases hdisconnected : r.disconnected
  · simp only [hdisconnected, Bool.false_eq_true, if_false, Option.some.injEq] at h
    exact h ▸ .poll r nowUs hdisconnected
  · simp only [hdisconnected, if_true] at h
    by_cases hearly : nowUs < r.nextRetryTimeUs
    · rw [if_pos hearly] at h
      cases h
      exact .wait (by rw [PrimaryRadioInterface.loopAction, if_pos hdisconnected, if_pos hearly])
    · rw [if_neg hearly] at h
      cases h
      exact .retry (by rw [PrimaryRadioInterface.loopAction, if_pos hdisconnected, if_neg hearly]) hdisconnected

/-- The steps within `ConnectionReset`. -/
theorem step_resetSend {r : PrimaryRadioInterface} {request : Bytes} {phase : SendPhase} {call : DriverCall} {t : CoordinatorThread}
    (h : step irq ⟨r, .resetSend request phase⟩ (.call call) = some t) : Step irq ⟨r, .resetSend request phase⟩ (.call call) t := by
  simp only [step, Option.map_eq_some_iff] at h
  obtain ⟨next, hsend, rfl⟩ := h
  cases next with
  | returned result =>
    by_cases hresult : result = .success
    · subst hresult
      exact .resetSent r request hsend
    · simp only [if_neg hresult]
      exact .resetUnsent r request hsend hresult
  | _ => exact .resetSend r request hsend

theorem step_resetReceive {r : PrimaryRadioInterface} {phase : ReceivePhase} {call : DriverCall} {t : CoordinatorThread}
    (h : step irq ⟨r, .resetReceive phase⟩ (.call call) = some t) : Step irq ⟨r, .resetReceive phase⟩ (.call call) t := by
  simp only [step, Option.map_eq_some_iff] at h
  obtain ⟨next, hreceive, rfl⟩ := h
  cases next with
  | returned response =>
    cases response with
    | none => exact .resetRefused r hreceive rfl
    | some response =>
      cases hconfirms : PrimaryRadioInterface.confirmsReset response
      · simp only [hconfirms, Bool.false_eq_true, if_false]
        exact .resetRefused r hreceive hconfirms
      · simp only [hconfirms, if_true]
        exact .resetConfirmed r hreceive hconfirms
  | _ => exact .resetReceive r hreceive

/-- The steps within `PerformExchange`. -/
theorem step_send {r : PrimaryRadioInterface} {tx : MacFrame} {request : Bytes} {phase : SendPhase} {call : DriverCall}
    {t : CoordinatorThread} (h : step irq ⟨r, .send tx request phase⟩ (.call call) = some t) :
    Step irq ⟨r, .send tx request phase⟩ (.call call) t := by
  simp only [step, Option.map_eq_some_iff] at h
  obtain ⟨next, hsend, rfl⟩ := h
  cases next with
  | returned result =>
    by_cases hresult : result = .success
    · subst hresult
      exact .sent r tx request hsend
    · simp only [if_neg hresult]
      exact .unsent r tx request hsend hresult
  | _ => exact .send r tx request hsend

theorem step_receive {r : PrimaryRadioInterface} {tx : MacFrame} {phase : ReceivePhase} {call : DriverCall} {t : CoordinatorThread}
    (h : step irq ⟨r, .receive tx phase⟩ (.call call) = some t) : Step irq ⟨r, .receive tx phase⟩ (.call call) t := by
  simp only [step, Option.map_eq_some_iff] at h
  obtain ⟨next, hreceive, rfl⟩ := h
  cases next with
  | returned response => exact .received r tx hreceive
  | _ => exact .receive r tx hreceive

theorem step_compose {r : PrimaryRadioInterface} {reads : List Bytes} {t : CoordinatorThread}
    (h : step irq ⟨r, .compose⟩ (.compose reads) = some t) : Step irq ⟨r, .compose⟩ (.compose reads) t := by
  simp only [step] at h
  split at h
  · rename_i u hprepare
    cases h
    exact .composeFails hprepare
  · rename_i u tx request hprepare
    cases h
    exact .compose hprepare

theorem step_cases {s t : CoordinatorThread} {e : ThreadEvent} (h : s.step irq e = some t) : Step irq s e t := by
  obtain ⟨r, phase⟩ := s
  cases e with
  | tunnelThread reads =>
    cases h
    exact .tunnelThread r phase reads
  | compose reads =>
    cases phase <;> try contradiction
    exact step_compose h
  | call call =>
    cases phase with
    | top => exact step_top h
    | resetSend request phase => exact step_resetSend h
    | resetReceive phase => exact step_resetReceive h
    | send tx request phase => exact step_send h
    | receive tx phase => exact step_receive h
    | retryWait =>
      cases call <;> simp only [step, reduceCtorEq, Option.ite_none_right_eq_some, Option.some.injEq] at h
      obtain ⟨rfl, rfl⟩ := h
      exact .waited r
    | pollSleep =>
      cases call <;> simp only [step, reduceCtorEq, Option.ite_none_right_eq_some, Option.some.injEq] at h
      obtain ⟨rfl, rfl⟩ := h
      exact .polled r
    | flushRx =>
      cases call <;> simp only [step, reduceCtorEq, Option.some.injEq] at h
      exact h ▸ .flushRx r
    | flushTx =>
      obtain ⟨request, hencode, -⟩ := exists_encode_resetFrame
      cases call <;> simp only [step, hencode, reduceCtorEq, Option.some.injEq] at h
      exact h ▸ .flushTx r hencode
    | confirmedFlushRx =>
      cases call <;> simp only [step, reduceCtorEq, Option.some.injEq] at h
      exact h ▸ .confirmedFlushRx r
    | confirmedFlushTx =>
      cases call <;> simp only [step, reduceCtorEq, Option.some.injEq] at h
      exact h ▸ .confirmedFlushTx r
    | resetFailure =>
      cases call <;> simp only [step, reduceCtorEq, Option.some.injEq] at h
      exact h ▸ .resetFailure r _
    | compose => cases call <;> simp only [step, reduceCtorEq] at h
    | gap =>
      cases call <;> simp only [step, reduceCtorEq, Option.ite_none_right_eq_some, Option.some.injEq] at h
      obtain ⟨rfl, rfl⟩ := h
      exact .gap r
    | failure result =>
      cases call <;> simp only [step, reduceCtorEq, Option.some.injEq] at h
      exact h ▸ .failure r result _
    | statistics =>
      cases call <;> simp only [step, reduceCtorEq, Option.some.injEq] at h
      exact h ▸ .statistics r _

end CoordinatorThread

/-! ### The peer -/

namespace PeerThread
variable {irq : Bool}

inductive Step (irq : Bool) : PeerThread → ThreadEvent → PeerThread → Prop
  | tunnelThread (r : SecondaryRadioInterface) (phase : PeerPhase) (reads : List Bytes) :
      Step irq ⟨r, phase⟩ (.tunnelThread reads) ⟨{ r with tx := r.tx.tunnelThread reads }, phase⟩
  | receive (r : SecondaryRadioInterface) {phase next : ReceivePhase} {call : DriverCall} :
      receiveStep irq 0 phase call = some next → Step irq ⟨r, .receive phase⟩ (.call call) ⟨r, .receive next⟩
  | received (r : SecondaryRadioInterface) {phase : ReceivePhase} {call : DriverCall} {request : Bytes} :
      receiveStep irq 0 phase call = some (.returned (some request)) →
      Step irq ⟨r, .receive phase⟩ (.call call) ⟨r, .handle request⟩
  | notReceived (r : SecondaryRadioInterface) {phase : ReceivePhase} {call : DriverCall} :
      receiveStep irq 0 phase call = some (.returned none) →
      Step irq ⟨r, .receive phase⟩ (.call call) ⟨r, .receive .startListening⟩
  | ignored {r u : SecondaryRadioInterface} {request : Bytes} {reads : List Bytes} :
      r.handleRequest request reads = (u, none) →
      Step irq ⟨r, .handle request⟩ (.compose reads) ⟨u, .receive .startListening⟩
  | answered {r u : SecondaryRadioInterface} {request response : Bytes} {reads : List Bytes} :
      r.handleRequest request reads = (u, some response) →
      Step irq ⟨r, .handle request⟩ (.compose reads) ⟨u, .send request response .stopListening⟩
  | send (r : SecondaryRadioInterface) (request response : Bytes) {phase next : SendPhase} {call : DriverCall} :
      sendStep response phase call = some next →
      Step irq ⟨r, .send request response phase⟩ (.call call) ⟨r, .send request response next⟩
  | sent (r : SecondaryRadioInterface) (request response : Bytes) {phase : SendPhase} {call : DriverCall} {result : RequestResult} :
      sendStep response phase call = some (.returned result) →
      Step irq ⟨r, .send request response phase⟩ (.call call) (sent ⟨r, .send request response phase⟩ request)
  | statistics (r : SecondaryRadioInterface) (nowUs : Nat) :
      Step irq ⟨r, .statistics⟩ (.call (.timeNowUs nowUs)) ⟨r, .receive .startListening⟩

/-- Where the loop goes on after `Send`. -/
theorem sent_cases (r : SecondaryRadioInterface) (phase : PeerPhase) (request : Bytes) :
    sent ⟨r, phase⟩ request = ⟨r, .receive .startListening⟩ ∨ sent ⟨r, phase⟩ request = ⟨r, .statistics⟩ := by
  unfold sent
  split
  · exact .inl rfl
  · exact .inr rfl

theorem step_cases {s t : PeerThread} {e : ThreadEvent} (h : s.step irq e = some t) : Step irq s e t := by
  obtain ⟨r, phase⟩ := s
  cases e with
  | tunnelThread reads =>
    cases h
    exact .tunnelThread r phase reads
  | compose reads =>
    cases phase <;> try contradiction
    simp only [step] at h
    split at h
    · rename_i u hhandle
      cases h
      exact .ignored hhandle
    · rename_i u response hhandle
      cases h
      exact .answered hhandle
  | call call =>
    cases phase with
    | receive phase =>
      simp only [step, Option.map_eq_some_iff] at h
      obtain ⟨next, hreceive, rfl⟩ := h
      cases next with
      | returned response =>
        cases response with
        | none => exact .notReceived r hreceive
        | some request => exact .received r hreceive
      | _ => exact .receive r hreceive
    | handle request => cases call <;> simp only [step, reduceCtorEq] at h
    | send request response phase =>
      simp only [step, Option.map_eq_some_iff] at h
      obtain ⟨next, hsend, rfl⟩ := h
      cases next with
      | returned result => exact .sent r request response hsend
      | _ => exact .send r request response hsend
    | statistics =>
      cases call <;> simp only [step, reduceCtorEq, Option.some.injEq] at h
      exact h ▸ .statistics r _

end PeerThread

end Nerfnet
