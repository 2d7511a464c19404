import Nerfnet.PrimaryRadioInterface
import Nerfnet.RadioDriver
import Nerfnet.SecondaryRadioInterface

/-! # The two loops, call by call

`Run` of each role with the calls of `Send` and `Receive`, its delays and its looks at the clock, while
`TunnelThread` reads packets at any time. What a loop computes between two calls belongs to the call
before it, apart from the frame that it composes: in the meantime the lock is released once. -/

namespace Nerfnet

def kPostDataExchangeGapUs : Nat := 250

/-- The loop itself has the number. -/
def kDisconnectedSleepSliceUs : Nat := 1000

/-- What `ConnectionReset` and `PerformExchange` wait for a response. -/
def kResponseTimeoutUs : Nat := 100000

/-- `compose` chooses and encodes a frame; `reads` are what `TunnelThread` reads while it does. -/
inductive ThreadEvent where
  | call (call : DriverCall)
  | compose (reads : List Bytes)
  | tunnelThread (reads : List Bytes)
  deriving DecidableEq

/-! ### The coordinator -/

inductive CoordinatorPhase where
  | top
  | retryWait
  | pollSleep
  | flushRx
  | flushTx
  | resetSend (request : Bytes) (phase : SendPhase)
  | resetReceive (phase : ReceivePhase)
  | confirmedFlushRx
  | confirmedFlushTx
  | resetFailure
  | compose
  | send (tx : MacFrame) (request : Bytes) (phase : SendPhase)
  | receive (tx : MacFrame) (phase : ReceivePhase)
  | gap
  | failure (result : ExchangeResult)
  | statistics
  deriving DecidableEq

structure CoordinatorThread where
  radio : PrimaryRadioInterface
  phase : CoordinatorPhase := .top
  deriving DecidableEq

namespace CoordinatorThread

/-- `ConnectionReset` has returned false. A connected coordinator looks at the clock only if the failure
    disconnects it. -/
def resetFails (s : CoordinatorThread) : CoordinatorThread :=
  if s.radio.disconnected ∨ (s.radio.resetFailed 0).disconnected then { s with phase := .resetFailure }
  else { radio := s.radio.resetFailed 0 }

/-- The `switch` over the result of `PerformExchange`. It looks at the clock if a failure disconnects. -/
def exchangeReturns (s : CoordinatorThread) (result : ExchangeResult) : CoordinatorThread :=
  if (s.radio.afterExchange result 0).disconnected then { s with phase := .failure result }
  else { radio := s.radio.afterExchange result 0, phase := .statistics }

/-- The end of `PerformExchange`, with what `Receive` has left in `response`. -/
def completeExchange (s : CoordinatorThread) (tx : MacFrame) (response : Option Bytes) : CoordinatorThread :=
  let completed := s.radio.completeExchange tx response
  let s := { s with radio := completed.1 }
  let rxIsData := (response.bind decodeMacFrame).any fun rx => rx.type == .data
  if completed.2 = .success ∧ (tx.type = .data ∨ rxIsData) then { s with phase := .gap }
  else s.exchangeReturns completed.2

def step (irq : Bool) (s : CoordinatorThread) : ThreadEvent → Option CoordinatorThread
  | .tunnelThread reads => some { s with radio := { s.radio with tx := s.radio.tx.tunnelThread reads } }
  | .compose reads =>
    match s.phase with
    | .compose =>
      match s.radio.prepareRequest reads with
      | (radio, none) => some (exchangeReturns { s with radio } .protocolFailure)
      | (radio, some (tx, request)) => some { radio, phase := .send tx request .stopListening }
    | _ => none
  | .call call =>
    match s.phase, call with
    | .top, .timeNowUs nowUs =>
      if s.radio.disconnected then
        if nowUs < s.radio.nextRetryTimeUs then some { s with phase := .retryWait } else some { s with phase := .flushRx }
      else some { radio := s.radio.setPollInterval, phase := .pollSleep }
    | .retryWait, .sleepUs delay => if delay = kDisconnectedSleepSliceUs then some { s with phase := .top } else none
    | .pollSleep, .sleepUs delay =>
      if delay = s.radio.currentPollIntervalUs then
        some { s with phase := if s.radio.connectionResetRequired then .flushRx else .compose }
      else none
    | .flushRx, .flushRx => some { s with phase := .flushTx }
    | .flushTx, .flushTx =>
      let s := { s with radio := s.radio.beginConnectionReset }
      match encodeMacFrame resetFrame with
      | none => some s.resetFails
      | some request => some { s with phase := .resetSend request .stopListening }
    | .resetSend request phase, call =>
      (sendStep request phase call).map fun next =>
        match next with
        | .returned result => if result = .success then { s with phase := .resetReceive .startListening } else s.resetFails
        | next => { s with phase := .resetSend request next }
    | .resetReceive phase, call =>
      (receiveStep irq kResponseTimeoutUs phase call).map fun next =>
        match next with
        | .returned (some response) =>
          if PrimaryRadioInterface.confirmsReset response then { s with phase := .confirmedFlushRx } else s.resetFails
        | .returned none => s.resetFails
        | next => { s with phase := .resetReceive next }
    | .confirmedFlushRx, .flushRx => some { s with phase := .confirmedFlushTx }
    | .confirmedFlushTx, .flushTx => some { radio := s.radio.resetSucceeded }
    | .resetFailure, .timeNowUs nowUs => some { radio := s.radio.resetFailed nowUs }
    | .send tx request phase, call =>
      (sendStep request phase call).map fun next =>
        match next with
        | .returned result => if result = .success then { s with phase := .receive tx .startListening } else s.exchangeReturns .sendFailure
        | next => { s with phase := .send tx request next }
    | .receive tx phase, call =>
      (receiveStep irq kResponseTimeoutUs phase call).map fun next =>
        match next with
        | .returned response => s.completeExchange tx response
        | next => { s with phase := .receive tx next }
    | .gap, .sleepUs delay => if delay = kPostDataExchangeGapUs then some (s.exchangeReturns .success) else none
    | .failure result, .timeNowUs nowUs => some { radio := s.radio.afterExchange result nowUs, phase := .statistics }
    | .statistics, .timeNowUs _ => some { s with phase := .top }
    | _, _ => none

end CoordinatorThread

/-! ### The peer -/

inductive PeerPhase where
  | receive (phase : ReceivePhase)
  | handle (request : Bytes)
  | send (request response : Bytes) (phase : SendPhase)
  | statistics
  deriving DecidableEq

structure PeerThread where
  radio : SecondaryRadioInterface
  phase : PeerPhase := .receive .startListening
  deriving DecidableEq

namespace PeerThread

/-- After a Reset the loop goes on at once. -/
def sent (s : PeerThread) (request : Bytes) : PeerThread :=
  if (decodeMacFrame request).any fun rx => rx.type == .reset then { radio := s.radio }
  else { s with phase := .statistics }

def step (irq : Bool) (s : PeerThread) : ThreadEvent → Option PeerThread
  | .tunnelThread reads => some { s with radio := { s.radio with tx := s.radio.tx.tunnelThread reads } }
  | .compose reads =>
    match s.phase with
    | .handle request =>
      match s.radio.handleRequest request reads with
      | (radio, none) => some { radio }
      | (radio, some response) => some { radio, phase := .send request response .stopListening }
    | _ => none
  | .call call =>
    match s.phase, call with
    | .receive phase, call =>
      (receiveStep irq 0 phase call).map fun next =>
        match next with
        | .returned (some request) => { s with phase := .handle request }
        | .returned none => { s with phase := .receive .startListening }
        | next => { s with phase := .receive next }
    | .send request response phase, call =>
      (sendStep response phase call).map fun next =>
        match next with
        | .returned _ => s.sent request
        | next => { s with phase := .send request response next }
    | .statistics, .timeNowUs _ => some { radio := s.radio }
    | _, _ => none

end PeerThread

end Nerfnet
