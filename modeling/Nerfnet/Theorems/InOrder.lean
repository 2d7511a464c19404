import Nerfnet.Theorems.Exchange

/-! # Delivery within a session

Within a session every packet is delivered exactly once and in order, whatever is lost and however
late the replies are read. -/

namespace Nerfnet
namespace Link
variable {s t : Link} {es : List ExchangeEvent} {coord : PrimaryRadioInterface} {peer : SecondaryRadioInterface}

/-- Any events of exchanges, with late and lost packets. -/
def SessionRun (s : Link) (es : List ExchangeEvent) (t : Link) : Prop :=
  Machine.Run sessionStep (fun _ _ => True) s es t

/-- What a state within a session has, besides the packets that moved. -/
structure Synced (s : Link) : Prop where
  live : s.Live
  state : s.coord.state ≠ .resetSync
  idle : s.coord.state = .idle → s.coord.peerHasPending = false
  nonempty : s.NonemptyPackets

theorem Synced.exchangeStep {e : ExchangeEvent} {result : Option ExchangeResult} (h : s.Synced)
    (hstep : s.exchangeStep e = some (t, result)) : t.Synced ∧ s.Moved t := by
  obtain ⟨hlive, -, hmoved⟩ := h.live.exchangeStep (fun _ => h.state) hstep
  have hmoved := hmoved h.nonempty
  obtain ⟨requests, replies, hs⟩ := h.live
  exact ⟨⟨hlive, (exchangeStep_frame hstep).keeps.state h.state, hs.exchangeStep_idle (fun _ => h.state) hstep h.idle,
    hmoved.nonemptyPackets h.nonempty⟩, hmoved⟩

theorem Synced.sessionStep {e : ExchangeEvent} (h : s.Synced) (hstep : s.sessionStep e = some t) : t.Synced ∧ s.Moved t := by
  obtain ⟨⟨u, result⟩, hexchange, rfl⟩ := Option.map_eq_some_iff.mp hstep
  exact h.exchangeStep hexchange

theorem Synced.sessionRun (h : s.Synced) (hrun : s.SessionRun es t) : t.Synced ∧ s.Moved t :=
  Machine.Run.invariant (P := fun u => u.Synced ∧ s.Moved u)
    (fun _ _ _ hu _ hstep => by
      obtain ⟨hsynced, hmoved⟩ := hu.1.sessionStep hstep
      exact ⟨hsynced, hu.2.trans hmoved⟩)
    hrun ⟨h, .refl s⟩

theorem synced_afterReset (hcoord : ∀ packet ∈ coord.tx.readBuffer, packet ≠ [])
    (hpeer : ∀ packet ∈ peer.tx.readBuffer, packet ≠ []) : (afterReset coord peer).Synced where
  live := live_afterReset coord peer
  state := by simp [afterReset, PrimaryRadioInterface.resetSucceeded]
  idle _ := rfl
  nonempty := ⟨hcoord, hpeer⟩

/-- Of the packets `queued` at the start of the session and then `pushed`, the receiver has written
    after `before` exactly the first ones, once and in order: all that have left the sender's queue
    (`left` is what it still holds), and at most one more, whose acknowledgement is outstanding. -/
def DeliveredInOrder (queued pushed left before written : List Bytes) : Prop :=
  ∃ j, Transfer.removed (queued ++ pushed) left ≤ j ∧ j ≤ Transfer.removed (queued ++ pushed) left + 1 ∧
    written = before ++ (queued ++ pushed).take j

/-- The moves of a direction that starts with nothing on its way, as a run of `Transfer`. -/
theorem reach_of_moves {tx : TxState} {rx : RxState} {v : Transfer.State UInt8} {queued before : List Bytes}
    (hstart : view [] tx rx = ⟨[], queued, [], before, false⟩) (hmoves : Moves (view [] tx rx) v) :
    Transfer.Reach kMaxPayloadSize isValidIpPacket (fun _ _ _ => False) (Transfer.start queued before) (v.withEarlier queued) := by
  refine Transfer.Reach.init.moves ?_
  have hlift : Moves ((view [] tx rx).withEarlier queued) (v.withEarlier queued) :=
    hmoves.lift _ fun _ _ hstep => hstep.withEarlier
  rw [hstart] at hlift
  simpa only [Transfer.start, Transfer.State.withEarlier, List.append_nil] using hlift

theorem deliveredInOrder_of_moves {tx : TxState} {rx : RxState} {v : Transfer.State UInt8} {queued before : List Bytes}
    (hstart : view [] tx rx = ⟨[], queued, [], before, false⟩)
    (hvalid : ∀ packet ∈ queued, isValidIpPacket packet = true) (hmoves : Moves (view [] tx rx) v) :
    DeliveredInOrder queued v.pushed v.queue before v.written :=
  (reach_of_moves hstart hmoves).in_order hvalid

/-- In every state of every run of a session, and in both directions, delivery is exactly once and in
    order. -/
theorem delivered_in_order (hcoord : ∀ packet ∈ coord.tx.readBuffer, isValidIpPacket packet = true)
    (hpeer : ∀ packet ∈ peer.tx.readBuffer, isValidIpPacket packet = true)
    (hrun : (afterReset coord peer).SessionRun es t) :
    DeliveredInOrder coord.tx.readBuffer t.coordPushed t.coord.tx.readBuffer peer.rx.tunnel t.peer.rx.tunnel ∧
      DeliveredInOrder peer.tx.readBuffer t.peerPushed t.peer.tx.readBuffer coord.rx.tunnel t.coord.rx.tunnel := by
  obtain ⟨-, hmoved⟩ := (synced_afterReset (fun p hp => ne_nil_of_valid (hcoord p hp)) fun p hp => ne_nil_of_valid (hpeer p hp)).sessionRun hrun
  exact ⟨deliveredInOrder_of_moves rfl hcoord hmoved.coord, deliveredInOrder_of_moves rfl hpeer hmoved.peer⟩

/-- The acknowledgement of a packet comes late, so the packet is sent once more. -/
def lateReply : List ExchangeEvent :=
  [.send [] false true, .handle [] false, .timeout, .send [ipv4Packet 2 []] false true, .handle [ipv4Packet 3 []] false, .receive]

theorem delivered_in_order_late_reply :
    ∃ t, (afterReset { currentPollIntervalUs := 0, tx := { readBuffer := [ipv4Packet 1 []] } } {}).SessionRun lateReply t ∧
      t.peer.rx.tunnel = [ipv4Packet 1 []] ∧
      DeliveredInOrder [ipv4Packet 1 []] t.coordPushed t.coord.tx.readBuffer [] t.peer.rx.tunnel := by
  have hexec : (Machine.exec sessionStep (fun _ _ => True)
      (afterReset { currentPollIntervalUs := 0, tx := { readBuffer := [ipv4Packet 1 []] } } {}) lateReply).map
      (·.peer.rx.tunnel) = some [ipv4Packet 1 []] := by decide +kernel
  obtain ⟨t, ht, hwritten⟩ := Option.map_eq_some_iff.mp hexec
  exact ⟨t, .of_exec ht, hwritten, (delivered_in_order (by decide +kernel) (by decide) (.of_exec ht)).1⟩

end Link
end Nerfnet
