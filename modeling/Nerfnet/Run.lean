import Nerfnet.Library.Machine
import Nerfnet.PrimaryRadioInterface
import Nerfnet.SecondaryRadioInterface

/-! # The two loops

The loop of `Run` of each role by itself, with a radio on which anything may arrive. A pass of the loop
is given what it meets: the clock, what `TunnelThread` reads, whether the radio reports success, and
what `Receive` reads. -/

namespace Nerfnet

namespace PrimaryRadioInterface

/-- One pass of the loop through `PerformExchange`, and what happens during it: what `TunnelThread`
    reads before `Send` and after it, whether the radio reports success, and what `Receive` reads. -/
structure Attempt where
  nowUs : Nat := 0
  reads : List Bytes := []
  radioOk : Bool := true
  later : List Bytes := []
  response : Option Bytes := none

def performExchange (s : PrimaryRadioInterface) (a : Attempt) : PrimaryRadioInterface × ExchangeResult :=
  match s.prepareRequest a.reads with
  | (s, none) => (s, .protocolFailure)
  | (s, some (tx, request)) =>
    if RadioInterface.send request a.radioOk ≠ .success then (s, .sendFailure)
    else completeExchange { s with tx := s.tx.tunnelThread a.later } tx a.response

/-- `ConnectionReset`, apart from the radio's queues. -/
def connectionReset (s : PrimaryRadioInterface) (a : Attempt) : PrimaryRadioInterface × Bool :=
  let s := s.beginConnectionReset
  match encodeMacFrame resetFrame with
  | none => (s, false)
  | some request =>
    if RadioInterface.send request a.radioOk ≠ .success then (s, false)
    else
      let s := { s with tx := s.tx.tunnelThread a.later }
      match a.response with
      | none => (s, false)
      | some response => (s, confirmsReset response)

/-- Any pass of the loop: `before` is what `TunnelThread` reads until `PerformExchange` or
    `ConnectionReset` is called, and `laterUs` is the time when it has returned. -/
structure Pass extends Attempt where
  before : List Bytes := []
  laterUs : Nat := 0

def loopPass (s : PrimaryRadioInterface) (p : Pass) : PrimaryRadioInterface :=
  let s := { s with tx := s.tx.tunnelThread p.before }
  match s.loopAction p.nowUs with
  | .wait => s
  | .reset =>
    let reset := s.setPollInterval.connectionReset p.toAttempt
    if reset.2 then reset.1.resetSucceeded else reset.1.resetFailed p.laterUs
  | .exchange =>
    let exchanged := s.setPollInterval.performExchange p.toAttempt
    exchanged.1.afterExchange exchanged.2 p.laterUs

/-- Passes that all meet what `ok` allows. -/
def Runs (ok : Pass → Prop) (s : PrimaryRadioInterface) (ps : List Pass) (t : PrimaryRadioInterface) : Prop :=
  Machine.Run (fun s p => some (s.loopPass p)) (fun _ p => ok p) s ps t

end PrimaryRadioInterface

namespace SecondaryRadioInterface

/-- One pass of the loop: what `TunnelThread` reads while `Receive` waits, what `Receive` reads, and what
    `TunnelThread` reads while the request is handled. -/
structure Pass where
  before : List Bytes := []
  request : Bytes
  reads : List Bytes := []

/-- The state that a pass leaves and the packet that goes to `Send`. -/
def loopPass (s : SecondaryRadioInterface) (p : Pass) : SecondaryRadioInterface × Option Bytes :=
  handleRequest { s with tx := s.tx.tunnelThread p.before } p.request p.reads

def Runs (s : SecondaryRadioInterface) (ps : List Pass) (t : SecondaryRadioInterface) : Prop :=
  Machine.Run (fun s p => some (s.loopPass p).1) (fun _ _ => True) s ps t

end SecondaryRadioInterface

end Nerfnet
