import Nerfnet.Theorems.Handshake

/-! # Packets across resets

Over whole runs each direction is a run of `Transfer`: the exchanges of a session move its packets, and
a reset that succeeds empties the receiver's buffer and forgets the fragment in flight. `CommitAckLocked`
erases a packet fragment by fragment, so a reset can find the packet at the front cut; what the three
results need is what each successful reset finds there. -/

namespace Nerfnet
namespace Link
variable {s t : Link} {e : Event} {es : List Event}

/-- What a reset finds of a direction: the pushed packets, the sender's queue and the packets that the
    receiver has written. -/
abbrev Finding := List Bytes → List Bytes → List Bytes → Prop

/-- Every reset that succeeds finds both directions as `ok` says. -/
def ResetsFind (ok : Finding) (s : Link) (e : Event) : Prop :=
  OwnExchange s e ∧ (completesReset s e = true →
    ok s.coordPushed s.coord.tx.readBuffer s.peer.rx.tunnel ∧ ok s.peerPushed s.peer.tx.readBuffer s.coord.rx.tunnel)

instance (ok : Finding) [∀ pushed queue written, Decidable (ok pushed queue written)] (s : Link) (e : Event) :
    Decidable (ResetsFind ok s e) :=
  inferInstanceAs (Decidable (_ ∧ _))

def ResetRun (ok : Finding) (s : Link) (es : List Event) (t : Link) : Prop := Machine.Run Link.step (ResetsFind ok) s es t

/-- The same with a condition of its own on the coordinator's packets and on the peer's. -/
def ResetsFindEach (coordOk peerOk : Finding) (s : Link) (e : Event) : Prop :=
  OwnExchange s e ∧ (completesReset s e = true →
    coordOk s.coordPushed s.coord.tx.readBuffer s.peer.rx.tunnel ∧ peerOk s.peerPushed s.peer.tx.readBuffer s.coord.rx.tunnel)

instance (coordOk peerOk : Finding) [∀ pushed queue written, Decidable (coordOk pushed queue written)]
    [∀ pushed queue written, Decidable (peerOk pushed queue written)] (s : Link) (e : Event) :
    Decidable (ResetsFindEach coordOk peerOk s e) :=
  inferInstanceAs (Decidable (_ ∧ _))

def ResetRunEach (coordOk peerOk : Finding) (s : Link) (es : List Event) (t : Link) : Prop :=
  Machine.Run Link.step (ResetsFindEach coordOk peerOk) s es t

/-! ### Refinement -/

def Tracks (ok : Finding) (v : Transfer.State UInt8) : Prop :=
  Transfer.Reach kMaxPayloadSize isValidIpPacket ok (Transfer.start [] []) v

/-- Between two sessions only the queue and the written packets count. -/
def Interrupted (ok : Finding) (v : Transfer.State UInt8) : Prop := ∃ buffer ahead, Tracks ok { v with buffer, ahead }

structure Traced (coordOk peerOk : Finding) (s : Link) : Prop where
  nonempty : s.NonemptyPackets
  tracks : (s.coord.Ready ∧ s.InSession ∧ Tracks coordOk s.coordView ∧ Tracks peerOk s.peerView) ∨
    (s.Resetting ∧ Interrupted coordOk s.coordView ∧ Interrupted peerOk s.peerView)

section
variable {ok coordOk peerOk : Finding} {v w : Transfer.State UInt8}

theorem Tracks.interrupted (h : Tracks ok v) : Interrupted ok v := ⟨v.buffer, v.ahead, h⟩

theorem Interrupted.queued (h : Interrupted ok v) (hq : Queued v.pushed v.queue v.written w.pushed w.queue w.written) :
    Interrupted ok w := by
  obtain ⟨buffer, ahead, h⟩ := h
  obtain ⟨⟨packets, hvalid, hpushed, hqueue⟩, hwritten⟩ := hq
  refine ⟨buffer, ahead, ?_⟩
  have hpush := h.moves (Transfer.steps_pushAll _ hvalid)
  rwa [Tracks, hpushed, hqueue, hwritten]

theorem Interrupted.reset (h : Interrupted ok v) (hok : ok v.pushed v.queue v.written) : Tracks ok v.reset := by
  obtain ⟨buffer, ahead, h⟩ := h
  exact Transfer.Reach.reset (s := { v with buffer, ahead }) h hok

theorem Interrupted.written (h : Interrupted ok v) :
    ∃ v', Tracks ok v' ∧ v'.pushed = v.pushed ∧ v'.queue = v.queue ∧ v'.written = v.written := by
  obtain ⟨buffer, ahead, h⟩ := h
  exact ⟨_, h, rfl, rfl, rfl⟩

theorem Paused.nonemptyPackets (h : s.Paused t) (hs : s.NonemptyPackets) : t.NonemptyPackets := by
  have hqueue : ∀ {queue packets : List Bytes}, (∀ p ∈ queue, p ≠ []) → (∀ p ∈ packets, isValidIpPacket p = true) →
      ∀ p ∈ queue ++ packets, p ≠ [] := fun hne hvalid p hp => by
    rcases List.mem_append.mp hp with hp | hp
    · exact hne p hp
    · exact ne_nil_of_valid (hvalid p hp)
  obtain ⟨⟨⟨_, hvalid, -, hcoord⟩, -⟩, ⟨⟨_, hvalid', -, hpeer⟩, -⟩⟩ := h
  exact ⟨hcoord ▸ hqueue hs.coord hvalid, hpeer ▸ hqueue hs.peer hvalid'⟩

theorem Traced.step (h : s.Traced coordOk peerOk) (hok : ResetsFindEach coordOk peerOk s e) (hstep : s.step e = some t) :
    t.Traced coordOk peerOk := by
  rcases h with ⟨hne, ⟨hready, hsession, hcoord, hpeer⟩ | ⟨hresetting, hcoord, hpeer⟩⟩
  · rcases hsession.step hready hok.1 hstep with ⟨ht, hpaused⟩ | ⟨hready', ht, hmoved⟩
    · exact ⟨hpaused.nonemptyPackets hne,
        Or.inr ⟨ht, hcoord.interrupted.queued hpaused.coord, hpeer.interrupted.queued hpaused.peer⟩⟩
    · have hmoved := hmoved hne
      exact ⟨hmoved.nonemptyPackets hne, Or.inl ⟨hready', ht, hcoord.moves hmoved.coord, hpeer.moves hmoved.peer⟩⟩
  · rcases hresetting.step hok.1 hstep with ⟨ht, hpaused⟩ | ⟨hcompletes, hready', ht, hcoord', hpeer'⟩
    · exact ⟨hpaused.nonemptyPackets hne, Or.inr ⟨ht, hcoord.queued hpaused.coord, hpeer.queued hpaused.peer⟩⟩
    · obtain ⟨hfindCoord, hfindPeer⟩ := hok.2 hcompletes
      refine ⟨⟨?_, ?_⟩, Or.inl ⟨hready', ht, hcoord' ▸ hcoord.reset hfindCoord, hpeer' ▸ hpeer.reset hfindPeer⟩⟩
      · have hqueue : t.coord.tx.readBuffer = s.coord.tx.readBuffer := congrArg Transfer.State.queue hcoord'
        exact hqueue ▸ hne.coord
      · have hqueue : t.peer.tx.readBuffer = s.peer.tx.readBuffer := congrArg Transfer.State.queue hpeer'
        exact hqueue ▸ hne.peer

theorem traced_initial (pollIntervalUs : Nat) : (initial pollIntervalUs {}).Traced coordOk peerOk where
  nonempty := ⟨nofun, nofun⟩
  tracks := Or.inr ⟨synchronised_initial _ _, ⟨[], false, .init⟩, ⟨[], false, .init⟩⟩

/-- In every run each direction refines `Transfer`, as far as its queue and its tunnel go. -/
theorem ResetRunEach.tracks {pollIntervalUs : Nat} (hrun : ResetRunEach coordOk peerOk (initial pollIntervalUs {}) es s) :
    (∃ v, Tracks coordOk v ∧ v.pushed = s.coordPushed ∧ v.queue = s.coord.tx.readBuffer ∧ v.written = s.peer.rx.tunnel) ∧
      ∃ v, Tracks peerOk v ∧ v.pushed = s.peerPushed ∧ v.queue = s.peer.tx.readBuffer ∧ v.written = s.coord.rx.tunnel := by
  have htraced : s.Traced coordOk peerOk :=
    Machine.Run.invariant (fun _ _ _ h hok hstep => h.step hok hstep) hrun (traced_initial pollIntervalUs)
  rcases htraced.tracks with ⟨-, -, hcoord, hpeer⟩ | ⟨-, hcoord, hpeer⟩
  · exact ⟨hcoord.interrupted.written, hpeer.interrupted.written⟩
  · exact ⟨hcoord.written, hpeer.written⟩

theorem ResetRun.each (hrun : ResetRun ok s es t) : ResetRunEach ok ok s es t := hrun

end

/-! ### What is written has been pushed -/

/-- A `ConnectionReset` round in which nothing is lost. -/
def resetRound (nowUs : Nat) : List Event :=
  [.resetSend nowUs nowUs 0 false true, .exchange nowUs (.handle [] false), .resetReceive nowUs 0]

/-- An exchange in which nothing is lost. -/
def exchangeRound (nowUs : Nat) : List Event :=
  [.exchange nowUs (.send [] false true), .exchange nowUs (.handle [] false), .exchange nowUs .receive]

/-- As many failing `Send` calls as it takes to disconnect, and the round that connects again. -/
def reconnect (nowUs : Nat) : List Event :=
  List.replicate kDisconnectFailureThreshold (.exchange nowUs (.send [] true false)) ++ resetRound (nowUs + kMaxDisconnectBackoffUs)

/-- Packets are pushed, a fragment is acknowledged, and then the coordinator loses the connection. -/
def cutByReset (packets : List Bytes) : List Event :=
  resetRound 0 ++ [.exchange 0 (.coordReads packets)] ++ exchangeRound 0 ++ reconnect 0 ++ exchangeRound kMaxDisconnectBackoffUs

def Intact : Finding := fun pushed queue _ => Transfer.FrontIntact isValidIpPacket pushed queue

instance (pushed queue written : List Bytes) : Decidable (Intact pushed queue written) :=
  inferInstanceAs (Decidable (Transfer.FrontIntact _ _ _))

/-- If every successful reset finds the front of both queues intact, only pushed packets are written. -/
theorem written_pushed {pollIntervalUs : Nat} (hrun : ResetRun Intact (initial pollIntervalUs {}) es s) :
    (∀ packet ∈ s.peer.rx.tunnel, packet ∈ s.coordPushed) ∧ ∀ packet ∈ s.coord.rx.tunnel, packet ∈ s.peerPushed := by
  have hmem : ∀ {v : Transfer.State UInt8}, Tracks Intact v → ∀ packet ∈ v.written, packet ∈ v.pushed :=
    fun hv => hv.written_mem fun _ _ _ hok => hok
  obtain ⟨⟨v, hv, hpushed, -, hwritten⟩, w, hw, hpushed', -, hwritten'⟩ := hrun.each.tracks
  exact ⟨hpushed ▸ hwritten ▸ hmem hv, hpushed' ▸ hwritten' ▸ hmem hw⟩

/-- The reset comes between two packets. -/
theorem written_pushed_two_packets :
    ∃ s, ResetRun Intact (initial 100 {}) (cutByReset [ipv4Packet 1 [], ipv4Packet 2 []]) s ∧
      s.peer.rx.tunnel = [ipv4Packet 1 [], ipv4Packet 2 []] ∧ ∀ packet ∈ s.peer.rx.tunnel, packet ∈ s.coordPushed := by
  have hexec : (Machine.exec step (ResetsFind Intact) (initial 100 {}) (cutByReset [ipv4Packet 1 [], ipv4Packet 2 []])).map
      (·.peer.rx.tunnel) = some [ipv4Packet 1 [], ipv4Packet 2 []] := by decide +kernel
  obtain ⟨s, hs, hwritten⟩ := Option.map_eq_some_iff.mp hexec
  exact ⟨s, .of_exec hs, hwritten, (written_pushed (.of_exec hs)).1⟩

/-- The bytes behind the first fragment of this packet are themselves an IPv4 packet. -/
def nestedPacket : Bytes := ipv4Packet 1 (List.replicate 7 0 ++ ipv4Packet 2 [])

/-- A reset after the first fragment: the rest of the packet is written as a packet of its own. -/
theorem tail_written : ¬ ∀ es s, (initial 100 {}).OwnRun es s → ∀ packet ∈ s.peer.rx.tunnel, packet ∈ s.coordPushed := by
  intro h
  have hexec : (Machine.exec step OwnExchange (initial 100 {}) (cutByReset [nestedPacket])).map
      (fun s => (s.peer.rx.tunnel, s.coordPushed)) = some ([ipv4Packet 2 []], [nestedPacket]) := by decide +kernel
  obtain ⟨s, hs, hstate⟩ := Option.map_eq_some_iff.mp hexec
  obtain ⟨hwritten, hpushed⟩ := Prod.mk.inj hstate
  have hmem := h _ s (.of_exec hs) (ipv4Packet 2 []) (by rw [hwritten]; exact List.mem_singleton_self _)
  rw [hpushed] at hmem
  exact absurd hmem (by decide +kernel)

/-! ### What is removed has been written -/

def Accounted : Finding := fun pushed queue written => Transfer.FrontAccounted pushed queue written

instance (pushed queue written : List Bytes) : Decidable (Accounted pushed queue written) :=
  inferInstanceAs (Decidable (Transfer.FrontAccounted _ _ _))

/-- The packets that `CommitAckLocked` has removed from the queue. -/
def removedPackets (pushed queue : List Bytes) : List Bytes := pushed.take (Transfer.removed pushed queue)

/-- If every successful reset finds the front of both queues whole, or already written, no packet is
    removed before it is written. -/
theorem removed_written {pollIntervalUs : Nat} (hrun : ResetRun Accounted (initial pollIntervalUs {}) es s) :
    (removedPackets s.coordPushed s.coord.tx.readBuffer).Sublist s.peer.rx.tunnel ∧
      (removedPackets s.peerPushed s.peer.tx.readBuffer).Sublist s.coord.rx.tunnel := by
  have hsub : ∀ {v : Transfer.State UInt8}, Tracks Accounted v → (removedPackets v.pushed v.queue).Sublist v.written :=
    fun hv => hv.removed_sublist (fun _ _ _ hok => hok) (by simp)
  obtain ⟨⟨v, hv, hpushed, hqueue, hwritten⟩, w, hw, hpushed', hqueue', hwritten'⟩ := hrun.each.tracks
  exact ⟨hpushed ▸ hqueue ▸ hwritten ▸ hsub hv, hpushed' ▸ hqueue' ▸ hwritten' ▸ hsub hw⟩

theorem removed_written_two_packets :
    ∃ s, ResetRun Accounted (initial 100 {}) (cutByReset [ipv4Packet 1 [], ipv4Packet 2 []]) s ∧
      s.coord.tx.readBuffer = [] ∧ (removedPackets s.coordPushed s.coord.tx.readBuffer).Sublist s.peer.rx.tunnel := by
  have hexec : (Machine.exec step (ResetsFind Accounted) (initial 100 {}) (cutByReset [ipv4Packet 1 [], ipv4Packet 2 []])).map
      (·.coord.tx.readBuffer) = some [] := by decide +kernel
  obtain ⟨s, hs, hqueue⟩ := Option.map_eq_some_iff.mp hexec
  exact ⟨s, .of_exec hs, hqueue, (removed_written (.of_exec hs)).1⟩

/-- A packet of two fragments. -/
def twoFragments : Bytes := ipv4Packet 1 (List.replicate 27 0)

/-- A reset after the first fragment: the rest of the packet is acknowledged and nothing is written. -/
theorem removed_unwritten :
    ¬ ∀ es s, (initial 100 {}).OwnRun es s →
      ∀ packet ∈ removedPackets s.coordPushed s.coord.tx.readBuffer, packet ∈ s.peer.rx.tunnel := by
  intro h
  have hexec : (Machine.exec step OwnExchange (initial 100 {}) (cutByReset [twoFragments])).map
      (fun s => (removedPackets s.coordPushed s.coord.tx.readBuffer, s.peer.rx.tunnel)) = some ([twoFragments], []) := by
    decide +kernel
  obtain ⟨s, hs, hstate⟩ := Option.map_eq_some_iff.mp hexec
  obtain ⟨hremoved, hwritten⟩ := Prod.mk.inj hstate
  have hmem := h _ s (.of_exec hs) twoFragments (by rw [hremoved]; exact List.mem_singleton_self _)
  rw [hwritten] at hmem
  cases hmem

/-! ### What is written once -/

def Fresh : Finding := fun pushed queue written => Transfer.FrontFresh isValidIpPacket pushed queue written

instance (pushed queue written : List Bytes) : Decidable (Fresh pushed queue written) :=
  inferInstanceAs (Decidable (Transfer.FrontFresh _ _ _ _))

/-- Nothing is asked of what a reset finds. -/
def Unconstrained : Finding := fun _ _ _ => True

instance (pushed queue written : List Bytes) : Decidable (Unconstrained pushed queue written) := inferInstanceAs (Decidable True)

/-- If no successful reset finds a packet at the front of one side's queue that has been written, or the
    rest of a packet that passes the check, distinct packets of that side are written at most once. What
    the resets find on the other side does not matter. -/
theorem written_once {pollIntervalUs : Nat} :
    (∀ es s, ResetRunEach Fresh Unconstrained (initial pollIntervalUs {}) es s → s.coordPushed.Nodup → s.peer.rx.tunnel.Nodup) ∧
    (∀ es s, ResetRunEach Unconstrained Fresh (initial pollIntervalUs {}) es s → s.peerPushed.Nodup → s.coord.rx.tunnel.Nodup) := by
  have hnodup : ∀ {v : Transfer.State UInt8}, Tracks Fresh v → v.pushed.Nodup → v.written.Nodup :=
    fun hv => hv.written_nodup fun _ _ _ hok => hok
  constructor
  · intro es s hrun
    obtain ⟨⟨v, hv, hpushed, -, hwritten⟩, -⟩ := hrun.tracks
    exact hpushed ▸ hwritten ▸ hnodup hv
  · intro es s hrun
    obtain ⟨-, w, hw, hpushed, -, hwritten⟩ := hrun.tracks
    exact hpushed ▸ hwritten ▸ hnodup hw

/-- The coordinator loses the connection before it acknowledges the peer's packet, and has a packet left. -/
def unacknowledgedPeer : List Event :=
  resetRound 0 ++ [.exchange 0 (.coordReads [ipv4Packet 1 [], ipv4Packet 3 []]), .exchange 0 (.peerReads [ipv4Packet 2 []])] ++
    exchangeRound 0 ++ exchangeRound 0 ++ reconnect 0 ++ (List.replicate 3 (exchangeRound kMaxDisconnectBackoffUs)).flatten

/-- The peer's packet is written twice, those of the coordinator once each. -/
theorem written_once_unacknowledged_peer :
    ∃ s, ResetRunEach Fresh Unconstrained (initial 100 {}) unacknowledgedPeer s ∧
      s.coord.rx.tunnel = [ipv4Packet 2 [], ipv4Packet 2 []] ∧ s.peer.rx.tunnel = [ipv4Packet 1 [], ipv4Packet 3 []] ∧
      s.peer.rx.tunnel.Nodup := by
  have hexec : (Machine.exec step (ResetsFindEach Fresh Unconstrained) (initial 100 {}) unacknowledgedPeer).map
      (fun s => (s.coord.rx.tunnel, s.peer.rx.tunnel, s.coordPushed)) =
        some ([ipv4Packet 2 [], ipv4Packet 2 []], [ipv4Packet 1 [], ipv4Packet 3 []], [ipv4Packet 1 [], ipv4Packet 3 []]) := by
    decide +kernel
  obtain ⟨s, hs, hstate⟩ := Option.map_eq_some_iff.mp hexec
  obtain ⟨htwice, hstate⟩ := Prod.mk.inj hstate
  obtain ⟨hwritten, hpushed⟩ := Prod.mk.inj hstate
  exact ⟨s, .of_exec hs, htwice, hwritten, written_once.1 _ s (.of_exec hs) (by rw [hpushed]; decide +kernel)⟩

/-- The acknowledgement of a packet is lost, and the coordinator loses the connection. -/
def lostAck (packet : Bytes) : List Event :=
  resetRound 0 ++ [.exchange 0 (.coordReads [packet]), .exchange 0 (.send [] false true), .exchange 0 (.handle [] true),
    .exchange 0 .timeout] ++ reconnect 0 ++ exchangeRound kMaxDisconnectBackoffUs

theorem written_twice : ¬ ∀ es s, (initial 100 {}).OwnRun es s → s.coordPushed.Nodup → s.peer.rx.tunnel.Nodup := by
  intro h
  have hexec : (Machine.exec step OwnExchange (initial 100 {}) (lostAck (ipv4Packet 1 []))).map
      (fun s => (s.peer.rx.tunnel, s.coordPushed)) = some ([ipv4Packet 1 [], ipv4Packet 1 []], [ipv4Packet 1 []]) := by
    decide +kernel
  obtain ⟨s, hs, hstate⟩ := Option.map_eq_some_iff.mp hexec
  obtain ⟨hwritten, hpushed⟩ := Prod.mk.inj hstate
  have hnodup := h _ s (.of_exec hs) (by rw [hpushed]; exact List.nodup_singleton _)
  rw [hwritten] at hnodup
  exact absurd hnodup (by decide +kernel)

end Link
end Nerfnet
