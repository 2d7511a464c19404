import Nerfnet.Library.Interruptions
import Nerfnet.Theorems.Resets

/-! # What a reset costs

The exact conditions of `Resets` are about what every reset finds. Whatever it finds, a reset costs a
direction at most one packet, and the first one costs nothing. -/

namespace Nerfnet
namespace Link
variable {s t : Link} {e : Event} {es : List Event} {n : ℕ} {v w : Transfer.State UInt8}

/-- The link beside the number of `ConnectionReset` calls that have returned true. -/
def counting (s : Link × ℕ) (e : Event) : Option (Link × ℕ) :=
  (s.1.step e).map fun t => (t, s.2 + if completesReset s.1 e then 1 else 0)

/-! ### A direction -/

/-- Before the first session everything that has been pushed is queued, and nothing is written. -/
structure Untouched (v : Transfer.State UInt8) : Prop where
  queue : v.queue = v.pushed
  written : v.written = []
  valid : ∀ packet ∈ v.pushed, isValidIpPacket packet = true

/-- A direction in the sessions after the first one began with a queue of whole packets. -/
def TracksAfter (n : ℕ) (v : Transfer.State UInt8) : Prop :=
  ∃ queue, (∀ packet ∈ queue, isValidIpPacket packet = true) ∧
    Transfer.ReachAfter kMaxPayloadSize isValidIpPacket (Transfer.start queue []) n v

/-- Between two sessions only the queue and the written packets count. -/
def InterruptedAfter (n : ℕ) (v : Transfer.State UInt8) : Prop := ∃ buffer ahead, TracksAfter n { v with buffer, ahead }

theorem Untouched.queued (h : Untouched v) (hq : Queued v.pushed v.queue v.written w.pushed w.queue w.written) : Untouched w := by
  obtain ⟨⟨packets, hvalid, hpushed, hqueue⟩, hwritten⟩ := hq
  refine ⟨?_, hwritten.trans h.written, fun packet hp => ?_⟩
  · rw [hqueue, hpushed, h.queue]
  · rw [hpushed] at hp
    rcases List.mem_append.mp hp with hp | hp
    · exact h.valid packet hp
    · exact hvalid packet hp

theorem Untouched.reset (h : Untouched v) : TracksAfter 0 v.reset := by
  have hstart : v.reset = Transfer.start v.pushed [] := by
    rw [Transfer.State.reset, h.queue, h.written, Transfer.start]
  rw [hstart]
  exact ⟨v.pushed, h.valid, .init⟩

theorem TracksAfter.moves (h : TracksAfter n v)
    (hmoves : Relation.ReflTransGen (Transfer.Step kMaxPayloadSize isValidIpPacket) v w) : TracksAfter n w := by
  obtain ⟨queue, hvalid, h⟩ := h
  exact ⟨queue, hvalid, h.moves hmoves⟩

theorem TracksAfter.interrupted (h : TracksAfter n v) : InterruptedAfter n v := ⟨v.buffer, v.ahead, h⟩

theorem InterruptedAfter.queued (h : InterruptedAfter n v) (hq : Queued v.pushed v.queue v.written w.pushed w.queue w.written) :
    InterruptedAfter n w := by
  obtain ⟨buffer, ahead, h⟩ := h
  obtain ⟨⟨packets, hvalid, hpushed, hqueue⟩, hwritten⟩ := hq
  refine ⟨buffer, ahead, ?_⟩
  have hpush := h.moves (Transfer.steps_pushAll _ hvalid)
  rwa [hpushed, hqueue, hwritten]

theorem InterruptedAfter.reset (h : InterruptedAfter n v) : TracksAfter (n + 1) v.reset := by
  obtain ⟨buffer, ahead, queue, hvalid, h⟩ := h
  exact ⟨queue, hvalid, h.reset⟩

theorem Untouched.allBut (h : Untouched v) : Transfer.AllBut 0 v.pushed v.queue v.written := by
  rw [h.queue, h.written]
  exact .untouched v.pushed

theorem InterruptedAfter.allBut (h : InterruptedAfter n v) : Transfer.AllBut n v.pushed v.queue v.written := by
  obtain ⟨buffer, ahead, queue, hvalid, h⟩ := h
  exact Transfer.ReachAfter.allBut (s := { v with buffer, ahead }) hvalid h

/-! ### Both directions -/

/-- What a run has come to after a number of resets: `Resets.Traced` for any reset. -/
inductive Counted (s : Link) : ℕ → Prop
  | starting : s.Resetting → Untouched s.coordView → Untouched s.peerView → Counted s 0
  | session {n : ℕ} : s.coord.Ready → s.InSession → TracksAfter n s.coordView → TracksAfter n s.peerView → Counted s (n + 1)
  | between {n : ℕ} : s.Resetting → InterruptedAfter n s.coordView → InterruptedAfter n s.peerView → Counted s (n + 1)

theorem completesReset_eq_false (h : s.phase ≠ .reset) : completesReset s e = false := by
  unfold completesReset
  split
  · exact absurd ‹_› h
  · rfl

/-- A reset does not touch the queues. -/
theorem nonemptyPackets_reset (h : s.NonemptyPackets) (hcoord : t.coordView = s.coordView.reset)
    (hpeer : t.peerView = s.peerView.reset) : t.NonemptyPackets := by
  have hqueue : t.coord.tx.readBuffer = s.coord.tx.readBuffer := congrArg Transfer.State.queue hcoord
  have hqueue' : t.peer.tx.readBuffer = s.peer.tx.readBuffer := congrArg Transfer.State.queue hpeer
  exact ⟨hqueue ▸ h.coord, hqueue' ▸ h.peer⟩

/-- A reset that succeeds is over. -/
theorem Resetting.completesReset_eq_false (ht : t.Resetting) (hstep : s.step e = some t) : completesReset s e = false := by
  unfold completesReset
  split
  · rename_i hphase hcoord
    obtain ⟨-, reply, toCoord, hcoord', rfl⟩ := resetReceive_spec hstep
    obtain ⟨rfl, -⟩ := List.cons.inj (hcoord.symm.trans hcoord')
    by_contra hconfirms
    have hrequired := ht.required
    rw [if_pos (eq_true_of_ne_false hconfirms)] at hrequired
    cases hrequired
  · rfl

theorem Counted.step (h : s.Counted n) (hne : s.NonemptyPackets) (hown : OwnExchange s e) (hstep : s.step e = some t) :
    t.NonemptyPackets ∧ t.Counted (n + if completesReset s e then 1 else 0) := by
  cases h with
  | starting hresetting hcoord hpeer =>
    rcases hresetting.step hown hstep with ⟨ht, hpaused⟩ | ⟨hcompletes, hready, ht, hcoord', hpeer'⟩
    · rw [ht.completesReset_eq_false hstep]
      exact ⟨hpaused.nonemptyPackets hne, .starting ht (hcoord.queued hpaused.coord) (hpeer.queued hpaused.peer)⟩
    · rw [hcompletes]
      exact ⟨nonemptyPackets_reset hne hcoord' hpeer', .session hready ht (hcoord' ▸ hcoord.reset) (hpeer' ▸ hpeer.reset)⟩
  | session hready hsession hcoord hpeer =>
    rw [Link.completesReset_eq_false hsession.phase]
    rcases hsession.step hready hown hstep with ⟨ht, hpaused⟩ | ⟨hready', ht, hmoved⟩
    · exact ⟨hpaused.nonemptyPackets hne,
        .between ht (hcoord.interrupted.queued hpaused.coord) (hpeer.interrupted.queued hpaused.peer)⟩
    · have hmoved := hmoved hne
      exact ⟨hmoved.nonemptyPackets hne, .session hready' ht (hcoord.moves hmoved.coord) (hpeer.moves hmoved.peer)⟩
  | between hresetting hcoord hpeer =>
    rcases hresetting.step hown hstep with ⟨ht, hpaused⟩ | ⟨hcompletes, hready, ht, hcoord', hpeer'⟩
    · rw [ht.completesReset_eq_false hstep]
      exact ⟨hpaused.nonemptyPackets hne, .between ht (hcoord.queued hpaused.coord) (hpeer.queued hpaused.peer)⟩
    · rw [hcompletes]
      exact ⟨nonemptyPackets_reset hne hcoord' hpeer', .session hready ht (hcoord' ▸ hcoord.reset) (hpeer' ▸ hpeer.reset)⟩

theorem Counted.allBut (h : s.Counted n) :
    Transfer.AllBut (n - 1) s.coordPushed s.coord.tx.readBuffer s.peer.rx.tunnel ∧
      Transfer.AllBut (n - 1) s.peerPushed s.peer.tx.readBuffer s.coord.rx.tunnel := by
  cases h with
  | starting hresetting hcoord hpeer => exact ⟨hcoord.allBut, hpeer.allBut⟩
  | session hready hsession hcoord hpeer => exact ⟨hcoord.interrupted.allBut, hpeer.interrupted.allBut⟩
  | between hresetting hcoord hpeer => exact ⟨hcoord.allBut, hpeer.allBut⟩

theorem counted_initial (pollIntervalUs : ℕ) : (initial pollIntervalUs {}).Counted 0 :=
  .starting (synchronised_initial _ _) ⟨rfl, rfl, nofun⟩ ⟨rfl, rfl, nofun⟩

/-- Whatever the resets find: all but one for each successful reset after the first of the packets that have
    left a queue have been written in order; and all but as many of the written packets are these, or the
    packet at the front, which has been delivered and not yet acknowledged. -/
theorem resets_cost {pollIntervalUs : ℕ}
    (hrun : Machine.Run counting (fun s e => OwnExchange s.1 e) (initial pollIntervalUs {}, 0) es (s, n)) :
    Transfer.AllBut (n - 1) s.coordPushed s.coord.tx.readBuffer s.peer.rx.tunnel ∧
      Transfer.AllBut (n - 1) s.peerPushed s.peer.tx.readBuffer s.coord.rx.tunnel := by
  have hcounted : s.NonemptyPackets ∧ s.Counted n :=
    hrun.invariant (P := fun s => s.1.NonemptyPackets ∧ s.1.Counted s.2) (fun s e t hs hown hstep => by
      obtain ⟨u, hu, rfl⟩ := Option.map_eq_some_iff.mp hstep
      exact hs.2.step hs.1 hown hu) ⟨⟨nofun, nofun⟩, counted_initial pollIntervalUs⟩
  exact hcounted.2.allBut

/-- The bound is met: the second reset loses a packet of two fragments. -/
theorem resets_cost_two_fragments :
    ∃ s, Machine.Run counting (fun s e => OwnExchange s.1 e) (initial 100 {}, 0) (cutByReset [twoFragments]) (s, 2) ∧
      removedPackets s.coordPushed s.coord.tx.readBuffer = [twoFragments] ∧ s.peer.rx.tunnel = [] ∧
      Transfer.AllBut 1 s.coordPushed s.coord.tx.readBuffer s.peer.rx.tunnel := by
  have hexec : (Machine.exec counting (fun s e => OwnExchange s.1 e) (initial 100 {}, 0) (cutByReset [twoFragments])).map
      (fun s => (removedPackets s.1.coordPushed s.1.coord.tx.readBuffer, s.1.peer.rx.tunnel, s.2)) =
      some ([twoFragments], [], 2) := by decide +kernel
  obtain ⟨⟨s, n⟩, hs, hstate⟩ := Option.map_eq_some_iff.mp hexec
  obtain ⟨hremoved, hstate⟩ := Prod.mk.inj hstate
  obtain ⟨hwritten, rfl⟩ := Prod.mk.inj hstate
  exact ⟨s, .of_exec hs, hremoved, hwritten, (resets_cost (.of_exec hs)).1⟩

end Link
end Nerfnet
