import Nerfnet.RadioInterface

/-! # Send and Receive, call by call

`Send`, `RecoverAfterTransmitFailure`, `Receive` and `WaitForRxReady` of `nerfnet/net/radio_interface.cc`
as they call the radio driver, the GPIO library and the clock. Where a function stands is the call that
it makes next, so a step is that call with what it returns, and `none` says that the function makes
another call there. -/

namespace Nerfnet

def kTxStandbyTimeoutUs : Nat := 20000
def kTxFailureRecoveryGapUs : Nat := 200

/-- The delay between two looks at the radio, in `Send` and in `WaitForRxReady`. -/
def kPollSleepUs : Nat := 50

structure Timespec where
  sec : Nat
  nsec : Nat
  deriving DecidableEq

/-- `gpiod_line_event_wait`: an event, the timeout, or an error with `errno == EINTR` or another one. -/
inductive EventWait where
  | event
  | timedOut
  | interrupted
  | failed
  deriving DecidableEq

/-- `gpiod_line_event_read`. -/
inductive EventRead where
  | ok
  | interrupted
  | failed
  deriving DecidableEq

/-- A call, with what it returns or the bytes that it reads. -/
inductive DriverCall where
  | startListening
  | stopListening
  | write (packet : Bytes) (ok : Bool)
  | txStandBy (ok : Bool)
  | available (ready : Bool)
  | read (packet : Bytes)
  | flushTx
  | flushRx
  | lineEventWait (timeout : Option Timespec) (result : EventWait)
  | lineEventRead (result : EventRead)
  | timeNowUs (nowUs : Nat)
  | sleepUs (delay : Nat)
  deriving DecidableEq

/-! ### Send -/

inductive SendPhase where
  | stopListening
  | write
  | deadline
  | standBy (deadlineUs : Nat)
  | expired (deadlineUs : Nat)
  | sleeping (deadlineUs : Nat)
  | flush
  | recovering
  | returned (result : RequestResult)
  deriving DecidableEq

def sendStep (request : Bytes) : SendPhase → DriverCall → Option SendPhase
  | .stopListening, .stopListening =>
    some (if kMaxPacketSize < request.length then .returned .malformed else .write)
  | .write, .write packet ok => if packet = request then some (if ok then .deadline else .flush) else none
  | .deadline, .timeNowUs nowUs => some (.standBy (nowUs + kTxStandbyTimeoutUs))
  | .standBy deadlineUs, .txStandBy ok => some (if ok then .returned .success else .expired deadlineUs)
  | .expired deadlineUs, .timeNowUs nowUs => some (if deadlineUs ≤ nowUs then .flush else .sleeping deadlineUs)
  | .sleeping deadlineUs, .sleepUs delay => if delay = kPollSleepUs then some (.standBy deadlineUs) else none
  | .flush, .flushTx => some .recovering
  | .recovering, .sleepUs delay =>
    if delay = kTxFailureRecoveryGapUs then some (.returned .transmitError) else none
  | _, _ => none

/-! ### WaitForRxReady -/

/-- The first four are those of the polling loop, the next ones those of the loop on `irq_line_`. -/
inductive WaitPhase where
  | start
  | poll (startUs : Nat)
  | expired (startUs : Nat)
  | sleeping (startUs : Nat)
  | test (deadlineUs : Nat)
  | remaining (deadlineUs : Nat)
  | eventWait (deadlineUs : Nat) (timeout : Option Timespec)
  | eventRead (deadlineUs : Nat)
  | returned (result : RequestResult)
  deriving DecidableEq

/-- Without a timeout the loop on `irq_line_` never looks at the clock. -/
def waitStart (irq : Bool) (timeoutUs : Nat) : WaitPhase := if irq ∧ timeoutUs = 0 then .test 0 else .start

def remainingTime (remainingUs : Nat) : Timespec := ⟨remainingUs / 1000000, remainingUs % 1000000 * 1000⟩

def waitStep (irq : Bool) (timeoutUs : Nat) : WaitPhase → DriverCall → Option WaitPhase
  | .start, .timeNowUs nowUs => some (if irq then .test (nowUs + timeoutUs) else .poll nowUs)
  | .poll startUs, .available ready =>
    some (if ready then .returned .success else if timeoutUs ≠ 0 then .expired startUs else .sleeping startUs)
  | .expired startUs, .timeNowUs nowUs =>
    some (if startUs + timeoutUs < nowUs then .returned .timeout else .sleeping startUs)
  | .sleeping startUs, .sleepUs delay => if delay = kPollSleepUs then some (.poll startUs) else none
  | .test deadlineUs, .available ready =>
    some (if ready then .returned .success
      else if deadlineUs ≠ 0 then .remaining deadlineUs else .eventWait deadlineUs none)
  | .remaining deadlineUs, .timeNowUs nowUs =>
    some (if deadlineUs ≤ nowUs then .returned .timeout
      else .eventWait deadlineUs (some (remainingTime (deadlineUs - nowUs))))
  | .eventWait deadlineUs timeout, .lineEventWait timeout' result =>
    if timeout' = timeout then
      some (match result with
        | .interrupted => .test deadlineUs
        | .failed | .timedOut => .returned .timeout
        | .event => .eventRead deadlineUs)
    else none
  | .eventRead deadlineUs, .lineEventRead result =>
    some (match result with
      | .ok | .interrupted => .test deadlineUs
      | .failed => .returned .timeout)
  | _, _ => none

/-! ### Receive -/

/-- The response is `none` where `Receive` returns what `WaitForRxReady` does. -/
inductive ReceivePhase where
  | startListening
  | waiting (phase : WaitPhase)
  | read
  | returned (response : Option Bytes)
  deriving DecidableEq

/-- `response` is a buffer of `kMaxPacketSize` bytes wherever `Receive` is called. -/
def receiveStep (irq : Bool) (timeoutUs : Nat) : ReceivePhase → DriverCall → Option ReceivePhase
  | .startListening, .startListening => some (.waiting (waitStart irq timeoutUs))
  | .waiting phase, call =>
    (waitStep irq timeoutUs phase call).map fun next =>
      match next with
      | .returned result => if result = .success then .read else .returned none
      | next => .waiting next
  | .read, .read packet => if packet.length = kMaxPacketSize then some (.returned (some packet)) else none
  | _, _ => none

end Nerfnet
