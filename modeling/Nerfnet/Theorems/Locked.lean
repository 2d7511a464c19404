import Mathlib.Logic.Relation
import Nerfnet.Theorems.Transmit

/-! # What happens under the lock

The fields that `TunnelThread` and the loop of a role share change only under `read_buffer_mutex_`, in
one of five ways (`LockStep`). Both roles are made of these steps, so what every step keeps holds for
both, wherever `TunnelThread` gets the lock in between. -/

namespace Nerfnet

inductive LockStep : RadioInterface → RadioInterface → Prop
  | push (r : RadioInterface) (packet : Bytes) : isValidIpPacket packet = true →
      LockStep r { r with tx := { r.tx with readBuffer := r.tx.readBuffer ++ [packet] } }
  | build (r : RadioInterface) : LockStep r r.buildNextDataFrameLocked.1
  | commitAck (r : RadioInterface) (ackSeq : UInt8) : LockStep r { r with tx := r.tx.commitAckLocked ackSeq }
  | consume (r : RadioInterface) (frame : MacFrame) : LockStep r { r with rx := (r.rx.consumeDataFrameLocked frame).1 }
  | reset (r : RadioInterface) : LockStep r r.resetLocked

/-- Any number of steps under the lock. -/
abbrev LockSteps : RadioInterface → RadioInterface → Prop := Relation.ReflTransGen LockStep

section LockSteps
variable {r r' : RadioInterface}

/-- Building a frame changes the fragment in flight, and only if there is none. -/
theorem buildNextDataFrameLocked_wf (hwf : r.tx.Wf) : r.buildNextDataFrameLocked.1.tx.Wf := by
  cases hdata : r.tx.localHasData with
  | true =>
    obtain ⟨tx, frame, hbuild, -, -, hoffers⟩ := buildNextDataFrameLocked_spec hwf hdata
    rw [hbuild]
    exact hoffers.wf
  | false =>
    have hempty : r.tx.readBuffer = [] := by
      by_contra hne
      rw [hwf.localHasData.mpr hne] at hdata
      cases hdata
    have hidle : r.tx.txInFlight = false := by
      simp only [TxState.localHasData, Bool.or_eq_false_iff] at hdata
      exact hdata.1
    simpa [RadioInterface.buildNextDataFrameLocked, hidle, hempty] using hwf

theorem buildNextDataFrameLocked_rx (r : RadioInterface) : r.buildNextDataFrameLocked.1.rx = r.rx := by
  simp only [RadioInterface.buildNextDataFrameLocked]
  split
  · rfl
  · split <;> rfl

theorem buildNextDataFrameLocked_type (r : RadioInterface) :
    ∀ frame, r.buildNextDataFrameLocked.2 = some frame → frame.type = .data := by
  simp only [RadioInterface.buildNextDataFrameLocked]
  split
  · simp
  · split <;> simp

theorem tunnelThread_singleton {tx : TxState} {packet : Bytes} (hvalid : isValidIpPacket packet = true) :
    tx.tunnelThread [packet] = { tx with readBuffer := tx.readBuffer ++ [packet] } := by
  simp [TxState.tunnelThread, hvalid]

theorem LockStep.wf (h : LockStep r r') (hwf : r.tx.Wf) : r'.tx.Wf := by
  cases h with
  | push packet hvalid =>
    rw [← tunnelThread_singleton hvalid]
    exact hwf.tunnelThread [packet]
  | build => exact buildNextDataFrameLocked_wf hwf
  | commitAck ackSeq => exact hwf.commitAckLocked ackSeq
  | consume frame => exact hwf
  | reset => exact TxState.wf_resetLocked r.tx

theorem LockSteps.wf (h : LockSteps r r') (hwf : r.tx.Wf) : r'.tx.Wf := by
  induction h with
  | refl => exact hwf
  | tail _ hstep ih => exact hstep.wf ih

theorem lockSteps_tunnelThread (r : RadioInterface) (reads : List Bytes) :
    LockSteps r { r with tx := r.tx.tunnelThread reads } := by
  induction reads generalizing r with
  | nil =>
    have hsame : r.tx.tunnelThread [] = r.tx := by simp [TxState.tunnelThread]
    rw [hsame]
  | cons packet reads ih =>
    cases hvalid : isValidIpPacket packet with
    | true =>
      have hpush := ih { r with tx := { r.tx with readBuffer := r.tx.readBuffer ++ [packet] } }
      simp only [TxState.tunnelThread, List.append_assoc, List.singleton_append] at hpush
      simp only [TxState.tunnelThread, List.filter_cons_of_pos hvalid]
      exact .head (.push r packet hvalid) hpush
    | false =>
      have hdrop := ih r
      simp only [TxState.tunnelThread] at hdrop ⊢
      rwa [List.filter_cons_of_neg (by simp [hvalid])]

end LockSteps

end Nerfnet
