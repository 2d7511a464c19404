import Nerfnet.RadioInterface

/-! # SecondaryRadioInterface

The peer of `nerfnet/net/secondary_radio_interface.cc`. Its `Run` loop handles one request at a time. A
failing `Send` is only counted, and the counters are left out. -/

namespace Nerfnet

structure SecondaryRadioInterface extends RadioInterface where
  grantBudget : UInt8 := 0
  grantedToSend : Bool := false
  deriving DecidableEq

namespace SecondaryRadioInterface

/-- `HandleReset`: the state it leaves and the packet it sends. -/
def handleReset (s : SecondaryRadioInterface) : SecondaryRadioInterface × Option Bytes :=
  ({ s with toRadioInterface := s.resetLocked, grantedToSend := false, grantBudget := 0 },
    encodeMacFrame resetFrame)

def applyCoordinatorRequest (s : SecondaryRadioInterface) (request : MacFrame) : SecondaryRadioInterface × Bool :=
  let s := { s with tx := s.tx.commitAckLocked request.ack }
  match request.type with
  | .data =>
    let consumed := s.rx.consumeDataFrameLocked request
    let s := { s with rx := consumed.1 }
    if !consumed.2 then (s, false) else ({ s with grantedToSend := false, grantBudget := 0 }, true)
  | .grant => ({ s with grantBudget := request.arg, grantedToSend := decide (0 < request.arg) }, true)
  | .pending => ({ s with grantedToSend := false, grantBudget := 0 }, true)
  | .ack => ({ s with grantedToSend := false, grantBudget := 0 }, true)
  | _ => (s, false)

/-- `ChoosePeerResponse`. The lock is released between the test for local data and
    `BuildNextDataFrameLocked`; `reads` are what `TunnelThread` reads there. -/
def choosePeerResponse (s : SecondaryRadioInterface) (reads : List Bytes) :
    SecondaryRadioInterface × Option MacFrame :=
  let tx : MacFrame := { ack := s.rx.ackSeq }
  let localHasData := s.tx.localHasData
  let s := { s with tx := s.tx.tunnelThread reads }
  let tx := { tx with pending := if localHasData then 1 else 0 }
  if s.grantedToSend ∧ 0 < s.grantBudget ∧ localHasData then
    match s.buildNextDataFrameLocked with
    | (r, none) => ({ s with toRadioInterface := r }, none)
    | (r, some tx) =>
      let grantBudget := s.grantBudget - 1
      let grantedToSend := if grantBudget = 0 then false else s.grantedToSend
      ({ s with toRadioInterface := r, grantBudget, grantedToSend }, some { tx with pending := 1 })
  else if localHasData then (s, some { tx with type := .pending, seq := 0, arg := 0 })
  else (s, some { tx with type := .ack, seq := 0, arg := 0 })

/-- One pass of the loop of `Run`: the state it leaves and the packet that goes to `Send`. `reads` are
    what `TunnelThread` reads while the request is handled. -/
def handleRequest (s : SecondaryRadioInterface) (request : Bytes) (reads : List Bytes) :
    SecondaryRadioInterface × Option Bytes :=
  match decodeMacFrame request with
  | none => ({ s with tx := s.tx.tunnelThread reads }, none)
  | some rx =>
    if rx.type = .reset then
      let handled := s.handleReset
      ({ handled.1 with tx := handled.1.tx.tunnelThread reads }, handled.2)
    else
      match s.applyCoordinatorRequest rx with
      | (s, false) => ({ s with tx := s.tx.tunnelThread reads }, none)
      | (s, true) =>
        match s.choosePeerResponse reads with
        | (s, none) => (s, none)
        | (s, some tx) => (s, encodeMacFrame tx)

end SecondaryRadioInterface

end Nerfnet
