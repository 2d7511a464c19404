import Nerfnet.RadioInterface

/-! # PrimaryRadioInterface

The coordinator of `nerfnet/net/primary_radio_interface.cc`. `PerformExchange` and `ConnectionReset`
are split where they use the radio: what they do up to `Send`, and what they do with the outcome.
Counters and texts that only the log reads are left out. -/

namespace Nerfnet

inductive CoordinatorState where
  | resetSync
  | idle
  | issueGrant
  | activeRx
  deriving DecidableEq

inductive FailureType where
  | send
  | timeout
  | protocol
  deriving DecidableEq

inductive ExchangeResult where
  | success
  | sendFailure
  | timeoutFailure
  | protocolFailure
  deriving DecidableEq

def kDefaultBurstGrant : UInt8 := 3
def kIdlePollIntervalUs : Nat := 20000
def kActivePollIntervalUs : Nat := 1000
def kFairDataBurstLimit : UInt8 := 2
def kDisconnectFailureThreshold : Nat := 5
def kInitialDisconnectBackoffUs : Nat := 100000
def kMaxDisconnectBackoffUs : Nat := 1000000

/-- The initial values are those of the constructor, for the given `poll_interval_us`. -/
structure PrimaryRadioInterface extends RadioInterface where
  currentPollIntervalUs : Nat
  pollFailCount : Nat := 0
  sendFailStreak : Nat := 0
  timeoutFailStreak : Nat := 0
  disconnected : Bool := false
  disconnectBackoffUs : Nat := kInitialDisconnectBackoffUs
  nextRetryTimeUs : Nat := 0
  state : CoordinatorState := .resetSync
  connectionResetRequired : Bool := true
  peerHasPending : Bool := false
  lastTxWasData : Bool := false
  peerGrantBudget : UInt8 := 0
  consecutiveLocalDataFrames : UInt8 := 0
  deriving DecidableEq

namespace PrimaryRadioInterface

/-! ### PerformExchange -/

/-- `ChooseCoordinatorTxFrame`. The lock is released between the test for local data and
    `BuildNextDataFrameLocked`; `reads` are what `TunnelThread` reads there. -/
def chooseCoordinatorTxFrame (s : PrimaryRadioInterface) (reads : List Bytes) :
    PrimaryRadioInterface × Option MacFrame :=
  let tx : MacFrame := { ack := s.rx.ackSeq }
  let localHasData := s.tx.localHasData
  let s := { s with tx := s.tx.tunnelThread reads }
  match s.state with
  | .resetSync =>
    ({ s with lastTxWasData := false }, some { tx with type := .reset, pending := 0, arg := 0 })
  | .issueGrant | .activeRx =>
    ({ s with lastTxWasData := false },
      some { tx with type := .grant, pending := if localHasData then 1 else 0, arg := kDefaultBurstGrant })
  | .idle =>
    if localHasData then
      if s.peerHasPending ∧ kFairDataBurstLimit ≤ s.consecutiveLocalDataFrames then
        ({ s with lastTxWasData := false }, some { tx with type := .grant, pending := 1, arg := kDefaultBurstGrant })
      else
        match s.buildNextDataFrameLocked with
        | (r, none) => ({ s with toRadioInterface := r }, none)
        | (r, some tx) =>
          ({ s with toRadioInterface := r, lastTxWasData := true }, some { tx with pending := 1 })
    else
      ({ s with lastTxWasData := false }, some { tx with type := .pending, pending := 0, arg := 0 })

def applyPeerResponse (s : PrimaryRadioInterface) (rx : MacFrame) : PrimaryRadioInterface × Bool :=
  let s := { s with tx := s.tx.commitAckLocked rx.ack }
  let consumed := if rx.type = .data then s.rx.consumeDataFrameLocked rx else (s.rx, true)
  let s := { s with rx := consumed.1 }
  if !consumed.2 then (s, false)
  else
    let s := { s with peerHasPending := rx.pending != 0 }
    match rx.type with
    | .ack => ({ s with state := if s.peerHasPending then .issueGrant else .idle }, true)
    | .pending => ({ s with state := .issueGrant }, true)
    | .data => ({ s with state := if s.peerHasPending then .activeRx else .idle }, true)
    | _ => (s, false)

/-- `PerformExchange` up to `Send`: the frame and its packet, or `none` for a protocol failure. -/
def prepareRequest (s : PrimaryRadioInterface) (reads : List Bytes) :
    PrimaryRadioInterface × Option (MacFrame × Bytes) :=
  match s.chooseCoordinatorTxFrame reads with
  | (s, none) => (s, none)
  | (s, some tx) => (s, (encodeMacFrame tx).map fun request => (tx, request))

/-- `PerformExchange` after a successful `Send` of `tx`: `response` is what `Receive` read, or `none`
    for its timeout. -/
def completeExchange (s : PrimaryRadioInterface) (tx : MacFrame) (response : Option Bytes) :
    PrimaryRadioInterface × ExchangeResult :=
  match response with
  | none => (s, .timeoutFailure)
  | some packet =>
    match decodeMacFrame packet with
    | none => (s, .protocolFailure)
    | some rx =>
      let applied := s.applyPeerResponse rx
      let s := applied.1
      let consecutive :=
        if applied.2 then
          if tx.type = .data ∧ rx.type ≠ .data then .ofNat (min (s.consecutiveLocalDataFrames.toNat + 1) 255)
          else if tx.type ≠ .data ∨ rx.type = .data then 0
          else s.consecutiveLocalDataFrames
        else 0
      ({ s with consecutiveLocalDataFrames := consecutive }, if applied.2 then .success else .protocolFailure)

/-! ### ConnectionReset -/

/-- `ConnectionReset` up to `Send`, apart from the radio's queues. -/
def beginConnectionReset (s : PrimaryRadioInterface) : PrimaryRadioInterface :=
  { s with
    toRadioInterface := s.resetLocked
    peerHasPending := false
    peerGrantBudget := 0
    lastTxWasData := false
    consecutiveLocalDataFrames := 0 }

/-- Whether `ConnectionReset` returns true on what `Receive` read. -/
def confirmsReset (response : Bytes) : Bool :=
  match decodeMacFrame response with
  | none => false
  | some rx => rx.type == .reset

/-! ### Run -/

def handleTransactionFailure (s : PrimaryRadioInterface) (failureType : FailureType) (nowUs : Nat) :
    PrimaryRadioInterface :=
  let s :=
    match failureType with
    | .send => { s with sendFailStreak := s.sendFailStreak + 1, timeoutFailStreak := 0 }
    | .timeout => { s with timeoutFailStreak := s.timeoutFailStreak + 1, sendFailStreak := 0 }
    | .protocol => { s with sendFailStreak := s.sendFailStreak + 1, timeoutFailStreak := s.timeoutFailStreak + 1 }
  let combinedFailStreak := s.sendFailStreak + s.timeoutFailStreak
  let s := { s with pollFailCount := combinedFailStreak }
  if kDisconnectFailureThreshold ≤ s.sendFailStreak ∨ kDisconnectFailureThreshold + 2 ≤ s.timeoutFailStreak ∨
      kDisconnectFailureThreshold + 3 ≤ combinedFailStreak then
    { s with
      disconnected := true
      connectionResetRequired := true
      state := .resetSync
      nextRetryTimeUs := nowUs + s.disconnectBackoffUs }
  else { s with currentPollIntervalUs := min (s.currentPollIntervalUs * 2) 1000000 }

/-- What the body of the loop of `Run` does next. -/
inductive LoopAction where
  | wait
  | reset
  | exchange
  deriving DecidableEq

def loopAction (s : PrimaryRadioInterface) (nowUs : Nat) : LoopAction :=
  if s.disconnected then if nowUs < s.nextRetryTimeUs then .wait else .reset
  else if s.connectionResetRequired then .reset
  else .exchange

/-- The loop sets the poll interval before every reset or exchange of a connected coordinator. -/
def setPollInterval (s : PrimaryRadioInterface) : PrimaryRadioInterface :=
  if s.disconnected then s
  else if s.state = .idle ∧ !s.peerHasPending then { s with currentPollIntervalUs := kIdlePollIntervalUs }
  else { s with currentPollIntervalUs := kActivePollIntervalUs }

/-- The two branches of the loop after `ConnectionReset` has returned false. -/
def resetFailed (s : PrimaryRadioInterface) (nowUs : Nat) : PrimaryRadioInterface :=
  if s.disconnected then
    { s with
      nextRetryTimeUs := nowUs + s.disconnectBackoffUs
      disconnectBackoffUs := min (s.disconnectBackoffUs * 2) kMaxDisconnectBackoffUs }
  else s.handleTransactionFailure .protocol nowUs

/-- The two branches of the loop after `ConnectionReset` has returned true: they make the same
    assignments. -/
def resetSucceeded (s : PrimaryRadioInterface) : PrimaryRadioInterface :=
  { s with
    disconnected := false
    connectionResetRequired := false
    pollFailCount := 0
    sendFailStreak := 0
    timeoutFailStreak := 0
    disconnectBackoffUs := kInitialDisconnectBackoffUs
    nextRetryTimeUs := 0
    state := .idle }

/-- The `switch` of the loop over the result of `PerformExchange`. -/
def afterExchange (s : PrimaryRadioInterface) (result : ExchangeResult) (nowUs : Nat) : PrimaryRadioInterface :=
  match result with
  | .success =>
    { s with
      pollFailCount := 0
      sendFailStreak := 0
      timeoutFailStreak := 0
      disconnected := false
      disconnectBackoffUs := kInitialDisconnectBackoffUs
      nextRetryTimeUs := 0 }
  | .sendFailure => s.handleTransactionFailure .send nowUs
  | .timeoutFailure => s.handleTransactionFailure .timeout nowUs
  | .protocolFailure => s.handleTransactionFailure .protocol nowUs

end PrimaryRadioInterface

end Nerfnet
