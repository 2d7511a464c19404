import Nerfnet.RadioInterface

/-! # TunnelThread

`TunnelThread` of `nerfnet/net/radio_interface.cc` with its waiting, beside whatever the loop of a role
does under `read_buffer_mutex_`. Each step takes the lock once or not at all, so a run is an
interleaving of the two threads. -/

namespace Nerfnet

def kMaxBufferedFrames : Nat := 1024

/-- Where `TunnelThread` is: at the test of `running_`, in `read` or on the way to the lock, in the inner
    loop before `GetReadBufferSize`, there with a queue that is too long, or at its end. -/
inductive TunnelPhase where
  | test
  | reading
  | sizing
  | full
  | ended
  deriving DecidableEq

structure ThreadedRadio extends RadioInterface where
  running : Bool := true
  phase : TunnelPhase := .test
  deriving DecidableEq

/-- A step of `TunnelThread`, with the bytes that a call of `read` returns (`none` if it fails), the
    destructor's `running_ = false`, or a function that a role calls under the lock. -/
inductive LockEvent where
  | tunnelThread (packet : Option Bytes)
  | stop
  | buildNextDataFrame
  | commitAck (ackSeq : UInt8)
  | consumeDataFrame (frame : MacFrame)
  | reset

namespace ThreadedRadio

def getReadBufferSize (s : ThreadedRadio) : Nat := s.tx.readBuffer.length

def tunnelThreadStep (s : ThreadedRadio) (packet : Option Bytes) : Option ThreadedRadio :=
  match s.phase with
  | .test => some { s with phase := if s.running then .reading else .ended }
  | .reading =>
    match packet with
    | none => some { s with phase := .test }
    | some packet =>
      if !isValidIpPacket packet then some { s with phase := .test }
      else some { s with tx := { s.tx with readBuffer := s.tx.readBuffer ++ [packet] }, phase := .sizing }
  | .sizing => some { s with phase := if kMaxBufferedFrames < s.getReadBufferSize then .full else .test }
  | .full => some { s with phase := if s.running then .sizing else .test }
  | .ended => none

def step (s : ThreadedRadio) : LockEvent → Option ThreadedRadio
  | .tunnelThread packet => s.tunnelThreadStep packet
  | .stop => some { s with running := false }
  | .buildNextDataFrame => some { s with toRadioInterface := s.buildNextDataFrameLocked.1 }
  | .commitAck ackSeq => some { s with tx := s.tx.commitAckLocked ackSeq }
  | .consumeDataFrame frame => some { s with rx := (s.rx.consumeDataFrameLocked frame).1 }
  | .reset => some { s with toRadioInterface := s.resetLocked }

end ThreadedRadio

end Nerfnet
