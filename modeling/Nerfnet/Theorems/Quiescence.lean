import Nerfnet.Theorems.Lockstep

/-! # Draining the queues

Once nothing is lost and nothing is pushed, every exchange retires or uncovers work: what is left to do
is counted by `Load.rank`, and every exchange takes one from it. -/

namespace Nerfnet
namespace Link
variable {s t : Link}

/-- An exchange in which nothing is lost and nothing is pushed. -/
def exchangeOnce (s : Link) : Option (Link × Option ExchangeResult) :=
  (s.exchangeStep (.send [] false true)).bind fun s =>
    (s.1.exchangeStep (.handle [] false)).bind fun s => s.1.exchangeStep .receive

/-- `n` such exchanges, each of them with `Success`. -/
def exchanges : ℕ → Link → Option Link
  | 0, s => some s
  | n + 1, s =>
    match s.exchangeOnce with
    | some (t, some .success) => exchanges n t
    | _ => none

def fragmentCount (queue : List Bytes) : ℕ := Transfer.fragments kMaxPayloadSize queue

/-- Nothing is left to do. -/
structure Quiescent (s : Link) : Prop where
  queues : s.coord.tx.readBuffer = [] ∧ s.peer.tx.readBuffer = []
  inFlight : s.coord.tx.txInFlight = false ∧ s.peer.tx.txInFlight = false
  buffers : s.coord.rx.frameBuffer = [] ∧ s.peer.rx.frameBuffer = []
  idle : s.coord.state = .idle
  peerHasPending : s.coord.peerHasPending = false

/-! ### The work that is left -/

/-- Whether the coordinator grants, and the fragments of both queues. -/
structure Load where
  granting : Bool
  coord : ℕ
  coordAhead : Bool
  peer : ℕ
  peerAhead : Bool

namespace Load

/-- A fragment that is accepted but not acknowledged is one of the queue. -/
structure Wf (l : Load) : Prop where
  coord : l.coordAhead = true → 0 < l.coord
  peer : l.peerAhead = true → 0 < l.peer

/-- The fragments that have not been accepted. -/
def rest (fragments : ℕ) (ahead : Bool) : ℕ := if ahead then fragments - 1 else fragments

@[simp] theorem rest_false (n : ℕ) : rest n false = n := rfl
@[simp] theorem rest_true (n : ℕ) : rest n true = n - 1 := rfl

theorem rest_le (n : ℕ) (ahead : Bool) : rest n ahead ≤ n := by
  unfold rest
  split <;> omega

/-- What an exchange does: the request acknowledges the peer's fragment, a coordinator that does not
    grant sends a fragment of its own, and the peer sends one if it is granted. -/
def next (l : Load) : Load where
  granting := 0 < rest l.peer l.peerAhead
  coord := rest l.coord (l.coordAhead || (!l.granting && 0 < l.coord))
  coordAhead := false
  peer := rest l.peer l.peerAhead
  peerAhead := l.granting && 0 < rest l.peer l.peerAhead

/-- The number of exchanges until nothing is left to do: a coordinator that grants has to be told that
    the peer is done, and an idle one that the peer is not. -/
def rank (l : Load) : ℕ :=
  if l.granting then rest l.peer l.peerAhead + 1 + rest l.coord l.coordAhead
  else if 0 < rest l.peer l.peerAhead then rest l.peer l.peerAhead + l.coord + (if l.coord = 0 then 2 else 1)
  else if l.coord = 0 then l.peer
  else l.coord

theorem rank_le (l : Load) : l.rank ≤ l.coord + l.peer + 2 := by
  have hcoord := rest_le l.coord l.coordAhead
  have hpeer := rest_le l.peer l.peerAhead
  unfold rank
  split_ifs <;> omega

theorem rank_eq_zero {l : Load} (h : l.rank = 0) : l.granting = false ∧ l.coord = 0 ∧ l.peer = 0 := by
  unfold rank at h
  split_ifs at h with hgranting hpeer hcoord hcoord'
  all_goals first
    | omega
    | exact ⟨by simpa using hgranting, by omega, by omega⟩

theorem Wf.rank_next {l : Load} (h : l.Wf) : l.next.rank = l.rank - 1 := by
  obtain ⟨granting, coord, coordAhead, peer, peerAhead⟩ := l
  have hcoord : coord = 0 → coordAhead = false := fun h0 => by
    by_contra ha
    exact absurd (h.coord (by simpa using ha)) (by simp [h0])
  have hpeer : rest peer peerAhead = 0 → peer ≤ 1 := by
    unfold rest
    split <;> omega
  generalize hunsent : rest peer peerAhead = unsent at hpeer
  cases granting with
  | true =>
    by_cases hu : 0 < unsent
    · simp [next, rank, hunsent, hu]
      omega
    · simp [next, rank, hunsent, Nat.eq_zero_of_not_pos hu]
      omega
  | false =>
    by_cases hu : 0 < unsent
    · by_cases hc : coord = 0
      · simp [next, rank, hunsent, hu, hc, hcoord hc]
      · simp [next, rank, hunsent, hu, hc, Nat.pos_of_ne_zero hc]
        omega
    · have hu := Nat.eq_zero_of_not_pos hu
      by_cases hc : coord = 0
      · simp [next, rank, hunsent, hu, hc, hcoord hc]
        omega
      · simp [next, rank, hunsent, hu, hc, Nat.pos_of_ne_zero hc]
        omega

end Load

def load (s : Link) : Load where
  granting := s.coord.state ≠ .idle
  coord := fragmentCount s.coord.tx.readBuffer
  coordAhead := s.coordAhead
  peer := fragmentCount s.peer.tx.readBuffer
  peerAhead := s.peerAhead

theorem fragmentCount_eq_zero {queue : List Bytes} (h : ∀ packet ∈ queue, packet ≠ []) : fragmentCount queue = 0 ↔ queue = [] :=
  Transfer.fragments_eq_zero (by decide) h

theorem queue_ne_nil_of_ahead {tx : TxState} {rx : RxState} (hwf : tx.Wf) (h : ahead tx rx = true) : tx.readBuffer ≠ [] := by
  obtain ⟨-, current, rest, hq, -⟩ := hwf.inFlight (Bool.and_eq_true_iff.mp h).1
  simp [hq]

theorem fragmentCount_confirmed {queue : List Bytes} (ahead : Bool) (h : ∀ packet ∈ queue, packet ≠ [])
    (hne : ahead = true → queue ≠ []) : fragmentCount (confirmed queue ahead) = Load.rest (fragmentCount queue) ahead := by
  cases ahead with
  | false => rfl
  | true =>
    have := Transfer.fragments_dropFragment (k := kMaxPayloadSize) (by decide) (hne rfl) h
    simp only [confirmed, if_true, Load.rest_true, fragmentCount]
    omega

theorem Synced.load_wf (h : s.Synced) : s.load.Wf where
  coord ha := Nat.pos_of_ne_zero fun h0 =>
    queue_ne_nil_of_ahead h.live.wf.1 ha ((fragmentCount_eq_zero h.nonempty.coord).mp h0)
  peer ha := Nat.pos_of_ne_zero fun h0 =>
    queue_ne_nil_of_ahead h.live.wf.2 ha ((fragmentCount_eq_zero h.nonempty.peer).mp h0)

theorem Synced.localHasData (h : s.Synced) : s.coord.tx.localHasData = true ↔ 0 < s.load.coord := by
  rw [h.live.wf.1.localHasData, Nat.pos_iff_ne_zero]
  exact not_congr (fragmentCount_eq_zero h.nonempty.coord).symm

/-- In a session the test for a fair burst never decides: an idle coordinator knows of no pending data. -/
theorem Synced.nextFrameType (h : s.Synced) :
    s.coord.nextFrameType = if s.load.granting then .grant else if 0 < s.load.coord then .data else .pending := by
  unfold PrimaryRadioInterface.nextFrameType
  by_cases hidle : s.coord.state = .idle
  · have hpending := h.idle hidle
    by_cases hdata : s.coord.tx.localHasData = true
    · simp [load, hidle, hpending, hdata]
      exact fun h0 => absurd (h.localHasData.mp hdata) (by simp [load, h0])
    · have h0 : ¬0 < s.load.coord := mt h.localHasData.mpr hdata
      simp [hidle, hdata, load] at h0 ⊢
      simp [h0]
  · simp [load, hidle]

/-! ### An exchange -/

theorem AtRest.send_isSome (h : s.AtRest) : ∃ u, s.exchangeStep (.send [] false true) = some u := by
  simp only [exchangeStep, Link.send, h.phase]
  rw [if_neg (by simp)]
  split
  · exact ⟨_, rfl⟩
  · split <;> exact ⟨_, rfl⟩

theorem Requested.handle_isSome {tx : MacFrame} (h : s.Requested tx) : ∃ u, s.exchangeStep (.handle [] false) = some u := by
  have htoPeer := h.session.toPeer
  simp only [exchangeStep, Link.handle]
  split
  · rename_i hnil
    rw [hnil] at htoPeer
    cases htoPeer
  · exact ⟨_, rfl⟩

theorem Replied.receive_isSome {tx rx : MacFrame} (h : s.Replied tx rx) : ∃ u, s.exchangeStep .receive = some u := by
  have htoCoord := h.session.toCoord
  simp only [exchangeStep, Link.receive, h.phase]
  split
  · exact ⟨_, rfl⟩
  · rename_i hnone
    cases hcoord : s.toCoord with
    | nil =>
      rw [hcoord] at htoCoord
      cases htoCoord
    | cons reply rest => exact absurd hcoord (hnone tx reply rest rfl)

/-- The request and the reply of an exchange, as the load decides them. -/
theorem Synced.sends_data (h : s.Synced) {tx : MacFrame} (htype : tx.type = s.coord.nextFrameType) :
    decide (tx.type = .data) = (!s.load.granting && decide (0 < s.load.coord)) := by
  rw [htype, h.nextFrameType]
  cases s.load.granting <;> by_cases hpos : 0 < s.load.coord <;> simp [hpos]

theorem Synced.sends_grant (h : s.Synced) {tx : MacFrame} (htype : tx.type = s.coord.nextFrameType) :
    decide (tx.type = .grant) = s.load.granting := by
  rw [htype, h.nextFrameType]
  cases s.load.granting <;> by_cases hpos : 0 < s.load.coord <;> simp [hpos]

/-- An exchange without losses succeeds and does to the load what `Load.next` says. -/
theorem AtRest.exchangeOnce (h : s.AtRest) (hs : s.Synced) :
    ∃ t, s.exchangeOnce = some (t, some .success) ∧ t.AtRest ∧ t.Synced ∧ s.Moved t ∧ t.load = s.load.next ∧
      t.coordPushed = s.coordPushed ∧ t.peerPushed = s.peerPushed := by
  obtain ⟨⟨u, result₁⟩, hsend⟩ := h.send_isSome
  obtain ⟨tx, hu, htype, huQueue, huAhead, huPeer, huPeerAhead⟩ := h.send hs.state hsend
  obtain ⟨hus, hmoved₁⟩ := hs.exchangeStep hsend
  obtain ⟨⟨v, result₂⟩, hhandle⟩ := hu.handle_isSome
  obtain ⟨rx, hv, hrtype, hpending, hvQueue, hvCoord, hvCoordAhead⟩ := hu.handle hhandle
  obtain ⟨hvs, hmoved₂⟩ := hus.exchangeStep hhandle
  obtain ⟨⟨t, result₃⟩, hreceive⟩ := hv.receive_isSome
  obtain ⟨ht, rfl, htState, htQueue, htAhead, htPeer, htPeerAhead⟩ := hv.receive hreceive
  obtain ⟨hts, hmoved₃⟩ := hvs.exchangeStep hreceive
  have hcoordPushed : t.coordPushed = s.coordPushed := by
    rw [(exchangeStep_frame hreceive).coordPushed, (exchangeStep_frame hhandle).coordPushed,
      (exchangeStep_frame hsend).coordPushed]
    simp [ExchangeEvent.coordTunnel]
  have hpeerPushed : t.peerPushed = s.peerPushed := by
    rw [(exchangeStep_frame hreceive).peerPushed, (exchangeStep_frame hhandle).peerPushed, (exchangeStep_frame hsend).peerPushed]
    simp [ExchangeEvent.peerTunnel]
  rw [List.filter_nil, List.append_nil] at huQueue hvQueue
  rw [huPeer, huPeerAhead] at hrtype hpending hvQueue
  -- What the peer has when it looks for data decides on its reply.
  have hpeerCount := fragmentCount_confirmed s.peerAhead hs.nonempty.peer (queue_ne_nil_of_ahead hs.live.wf.2)
  have hempty : confirmed s.peer.tx.readBuffer s.peerAhead = [] ↔ Load.rest s.load.peer s.load.peerAhead = 0 := by
    rw [← hvQueue, ← fragmentCount_eq_zero hvs.nonempty.peer, hvQueue, hpeerCount]
    rfl
  have hcoordCount : fragmentCount t.coord.tx.readBuffer =
      Load.rest s.load.coord (s.load.coordAhead || (!s.load.granting && decide (0 < s.load.coord))) := by
    rw [htQueue, hvCoord, huQueue, hvCoordAhead, huAhead, Bool.or_comm, hs.sends_data htype]
    refine fragmentCount_confirmed _ hs.nonempty.coord fun hor => ?_
    rcases Bool.or_eq_true_iff.mp hor with ha | hd
    · exact queue_ne_nil_of_ahead hs.live.wf.1 ha
    · have hpos : 0 < s.load.coord := by
        simp only [Bool.and_eq_true, decide_eq_true_eq] at hd
        exact hd.2
      exact mt (fragmentCount_eq_zero hs.nonempty.coord).mpr (Nat.pos_iff_ne_zero.mp hpos)
  refine ⟨t, ?_, ht, hts, hmoved₁.trans (hmoved₂.trans hmoved₃), ?_,
    hcoordPushed, hpeerPushed⟩
  · simp only [Link.exchangeOnce, hsend, Option.bind_some, hhandle, hreceive]
  · have hgranting : decide (t.coord.state ≠ .idle) = decide (0 < Load.rest s.load.peer s.load.peerAhead) := by
      have hzero : rx.pending = 0 ↔ Load.rest s.load.peer s.load.peerAhead = 0 := by
        rw [hpending, ← hempty]
        split <;> simp_all
      rw [htState, decide_eq_decide, Nat.pos_iff_ne_zero]
      exact not_congr ((PrimaryRadioInterface.replyState_idle_iff hv.pending).trans hzero)
    have hpeerAhead : t.peerAhead = (s.load.granting && decide (0 < Load.rest s.load.peer s.load.peerAhead)) := by
      rw [htPeerAhead, ← hs.sends_grant htype, hrtype]
      by_cases hq : confirmed s.peer.tx.readBuffer s.peerAhead = []
      · simp [hq, hempty.mp hq]
      · have hpos := Nat.pos_of_ne_zero (mt hempty.mpr hq)
        by_cases hg : tx.type = .grant <;> simp [hq, hpos, hg]
    simp only [load, Load.next, Load.mk.injEq]
    exact ⟨hgranting, hcoordCount, htAhead, by rw [htPeer, hvQueue, hpeerCount], hpeerAhead⟩

/-- Every number of exchanges without losses can be made, and each takes one from what is left. -/
theorem AtRest.exchanges (h : s.AtRest) (hs : s.Synced) (m : ℕ) :
    ∃ t, Link.exchanges m s = some t ∧ t.Synced ∧ s.Moved t ∧ t.load.rank = s.load.rank - m ∧
      t.coordPushed = s.coordPushed ∧ t.peerPushed = s.peerPushed := by
  induction m generalizing s with
  | zero => exact ⟨s, rfl, hs, .refl s, rfl, rfl, rfl⟩
  | succ m ih =>
    obtain ⟨u, hexchange, hu, hus, hmoved, hload, hcoord, hpeer⟩ := h.exchangeOnce hs
    obtain ⟨t, ht, hts, hmoved', hrank, hcoord', hpeer'⟩ := ih hu hus
    refine ⟨t, ?_, hts, hmoved.trans hmoved', ?_, hcoord'.trans hcoord, hpeer'.trans hpeer⟩
    · simp only [Link.exchanges, hexchange, ht]
    · rw [hrank, hload, hs.load_wf.rank_next]
      omega

/-- A queue that is empty has been delivered as a whole. -/
theorem DeliveredInOrder.complete {queued pushed before written : List Bytes}
    (h : DeliveredInOrder queued pushed [] before written) : written = before ++ (queued ++ pushed) := by
  obtain ⟨j, hlow, -, rfl⟩ := h
  rw [List.take_of_length_le hlow]

theorem Synced.quiescent {coord : PrimaryRadioInterface} {peer : SecondaryRadioInterface} (h : s.Synced)
    (hmoved : (afterReset coord peer).Moved s) (hrank : s.load.rank = 0) : s.Quiescent := by
  obtain ⟨hgranting, hcoordCount, hpeerCount⟩ := Load.rank_eq_zero hrank
  have hcoord := (fragmentCount_eq_zero h.nonempty.coord).mp hcoordCount
  have hpeer := (fragmentCount_eq_zero h.nonempty.peer).mp hpeerCount
  have hidle : s.coord.state = .idle := by simpa [load] using hgranting
  have hflight : ∀ {tx : TxState}, tx.Wf → tx.readBuffer = [] → tx.txInFlight = false := fun hwf hq => by
    by_contra hf
    obtain ⟨-, current, rest, hq', -⟩ := hwf.inFlight (by simpa using hf)
    rw [hq] at hq'
    cases hq'
  exact {
    queues := ⟨hcoord, hpeer⟩
    inFlight := ⟨hflight h.live.wf.1 hcoord, hflight h.live.wf.2 hpeer⟩
    buffers := ⟨(reach_of_moves rfl hmoved.peer).buffer_eq_nil hpeer, (reach_of_moves rfl hmoved.coord).buffer_eq_nil hcoord⟩
    idle := hidle
    peerHasPending := h.idle hidle }

/-- From every state of a session with nothing on its way, exchanges without losses all succeed, and
    soon nothing is left to do and every packet has been written. -/
theorem reaches_quiescence {coord : PrimaryRadioInterface} {peer : SecondaryRadioInterface} {es : List ExchangeEvent}
    (hcoord : ∀ packet ∈ coord.tx.readBuffer, isValidIpPacket packet = true)
    (hpeer : ∀ packet ∈ peer.tx.readBuffer, isValidIpPacket packet = true)
    (hrun : (afterReset coord peer).SessionRun es s) (hphase : s.phase = .top) (hempty : s.toPeer = [] ∧ s.toCoord = []) :
    ∃ n ≤ fragmentCount s.coord.tx.readBuffer + fragmentCount s.peer.tx.readBuffer + 2, ∀ m ≥ n, ∃ t,
      exchanges m s = some t ∧ t.Quiescent ∧
        t.peer.rx.tunnel = peer.rx.tunnel ++ (coord.tx.readBuffer ++ s.coordPushed) ∧
        t.coord.rx.tunnel = coord.rx.tunnel ++ (peer.tx.readBuffer ++ s.peerPushed) := by
  obtain ⟨hs, hmoved⟩ := (synced_afterReset (fun p hp => ne_nil_of_valid (hcoord p hp))
    fun p hp => ne_nil_of_valid (hpeer p hp)).sessionRun hrun
  have hrest : s.AtRest := by
    obtain ⟨requests, replies, hsession⟩ := hs.live
    have htoPeer := hsession.toPeer
    have htoCoord := hsession.toCoord
    rw [hempty.1] at htoPeer
    rw [hempty.2] at htoCoord
    cases htoPeer
    cases htoCoord
    exact ⟨hsession, hphase⟩
  refine ⟨s.load.rank, s.load.rank_le, fun m hm => ?_⟩
  obtain ⟨t, ht, hts, hmoved', hrank, hcoordPushed, hpeerPushed⟩ := hrest.exchanges hs m
  have hmoved := hmoved.trans hmoved'
  have hquiescent := hts.quiescent hmoved (by omega)
  have hdelivered := deliveredInOrder_of_moves rfl hcoord hmoved.coord
  have hdelivered' := deliveredInOrder_of_moves rfl hpeer hmoved.peer
  simp only [coordView, peerView, view, hquiescent.queues.1, hquiescent.queues.2] at hdelivered hdelivered'
  exact ⟨t, ht, hquiescent, hcoordPushed ▸ hdelivered.complete, hpeerPushed ▸ hdelivered'.complete⟩

/-- Both sides have data, and an acknowledgement has been lost. -/
theorem reaches_quiescence_lost_ack :
    ∃ s, (afterReset { currentPollIntervalUs := 0, tx := { readBuffer := [ipv4Packet 1 [1]] } } {}).SessionRun
        [.send [] false true, .handle [ipv4Packet 2 []] true, .timeout] s ∧
      ∃ n ≤ 4, ∀ m ≥ n, ∃ t, exchanges m s = some t ∧ t.Quiescent ∧ t.peer.rx.tunnel = [ipv4Packet 1 [1]] ∧
        t.coord.rx.tunnel = [ipv4Packet 2 []] := by
  have hexec : (Machine.exec sessionStep (fun _ _ => True)
      (afterReset { currentPollIntervalUs := 0, tx := { readBuffer := [ipv4Packet 1 [1]] } } {})
      [.send [] false true, .handle [ipv4Packet 2 []] true, .timeout]).map
      (fun s => ((s.phase, s.toPeer, s.toCoord), s.coordPushed, s.peerPushed,
        fragmentCount s.coord.tx.readBuffer + fragmentCount s.peer.tx.readBuffer + 2)) =
      some ((.top, [], []), [], [ipv4Packet 2 []], 4) := by decide +kernel
  obtain ⟨s, hs, hstate⟩ := Option.map_eq_some_iff.mp hexec
  simp only [Prod.mk.injEq] at hstate
  obtain ⟨⟨hphase, htoPeer, htoCoord⟩, hcoordPushed, hpeerPushed, hcount⟩ := hstate
  obtain ⟨n, hn, h⟩ := reaches_quiescence (by decide +kernel) (by decide) (.of_exec hs) hphase ⟨htoPeer, htoCoord⟩
  rw [hcoordPushed, hpeerPushed] at h
  exact ⟨s, .of_exec hs, n, hcount ▸ hn, h⟩

end Link
end Nerfnet
