import Nerfnet.Theorems.Receive
import Nerfnet.Theorems.Sound

/-! # What a reset keeps out of the new session

Frames carry no session, and `ConnectionReset` takes any Reset for its answer. What separates two
sessions is the order of the FIFOs: once a call is answered by the peer's reply to its own Reset, or as
long as everything older on its way is a Reset (`Fenced`), no older reply is accepted again. -/

namespace Nerfnet

/-- A pass on a Reset is answered with a Reset. -/
theorem SecondaryRadioInterface.handleRequest_reset {s : SecondaryRadioInterface} {packet : Bytes} (reads : List Bytes)
    (h : Link.isReset packet = true) : ∃ reply, (s.handleRequest packet reads).2 = some reply ∧
      decodeMacFrame reply = some resetFrame := by
  obtain ⟨reply, hencode, hdecode⟩ := exists_encode_resetFrame
  refine ⟨reply, ?_, hdecode⟩
  unfold Link.isReset at h
  split at h
  · cases h
  · rename_i request hrequest
    simp only [handleRequest, hrequest, if_pos (beq_iff_eq.mp h)]
    exact hencode

/-- The coordinator rejects a Reset, and its acknowledgement retires nothing. -/
theorem PrimaryRadioInterface.applyPeerResponse_resetFrame {s : PrimaryRadioInterface} (hwf : s.tx.Wf) :
    (s.applyPeerResponse resetFrame).2 = false ∧ (s.applyPeerResponse resetFrame).1.tx = s.tx := by
  have hack : s.tx.commitAckLocked resetFrame.ack = s.tx :=
    TxState.commitAckLocked_of_ne fun hf h => hwf.seq_ne_zero hf h.symm
  rcases s.applyPeerResponse_spec resetFrame with ⟨r, ok, habsorb, ⟨-, htype, -⟩ | ⟨-, happly⟩⟩
  · cases htype
  · rw [happly]
    exact ⟨rfl, habsorb.tx.trans hack⟩

namespace Link
variable {s t u : Link} {e : Event} {es fs : List Event} {call : Nat}

/-- What a step does to what is on its way: the coordinator's side sends and takes packets, or the peer
    handles its oldest request. -/
inductive QueueStep (s t : Link) : Prop
  | coordinator (sent : List InFlight) : t.toPeer = s.toPeer ++ sent → (∀ request ∈ sent, request.call = t.resetCalls) →
      s.resetCalls ≤ t.resetCalls → t.toCoord.Sublist s.toCoord → t.peerCall = s.peerCall → QueueStep s t
  | peer (request : InFlight) (replies : List InFlight) : s.toPeer = request :: t.toPeer →
      t.peerCall = (if isReset request.packet then request.call else s.peerCall) → t.toCoord = s.toCoord ++ replies →
      (∀ reply ∈ replies, reply.call = t.peerCall ∧ (isReset request.packet = true → decodeMacFrame reply.packet = some resetFrame)) →
      t.resetCalls = s.resetCalls → QueueStep s t

/-- A step that leaves everything on its way alone. -/
theorem QueueStep.stay (hpeer : t.toPeer = s.toPeer) (hcoord : t.toCoord.Sublist s.toCoord) (hcall : t.peerCall = s.peerCall)
    (hcalls : t.resetCalls = s.resetCalls) : QueueStep s t :=
  .coordinator [] (by rw [hpeer, List.append_nil]) nofun hcalls.symm.le hcoord hcall

theorem handle_queueStep {reads : List Bytes} {lost : Bool} {result : Option ExchangeResult}
    (hstep : s.handle reads lost = some (t, result)) : QueueStep s t := by
  obtain ⟨request, toPeer, peerCall, hpeer, hcall, rfl, -⟩ := handle_cases hstep
  refine .peer request _ hpeer hcall rfl (fun reply hreply => ?_) rfl
  split at hreply
  · cases hreply
  · obtain ⟨packet, hpacket, rfl⟩ := Option.map_eq_some_iff.mp (Option.mem_toList.mp hreply)
    refine ⟨rfl, fun hreset => ?_⟩
    obtain ⟨packet', hpacket', hdecode⟩ := SecondaryRadioInterface.handleRequest_reset (s := s.peer) reads hreset
    obtain rfl : packet = packet' := Option.some.inj (hpacket.symm.trans hpacket')
    exact hdecode

theorem exchangeStep_queueStep {x : ExchangeEvent} {result : Option ExchangeResult}
    (hstep : s.exchangeStep x = some (t, result)) : QueueStep s t := by
  cases x with
  | coordReads reads | peerReads reads =>
    cases hstep
    exact .stay rfl (.refl _) rfl rfl
  | send reads lost radioOk =>
    obtain ⟨-, sent, phase, hcalls, rfl, -⟩ := send_cases hstep
    exact .coordinator sent rfl hcalls le_rfl (.refl _) rfl
  | receive =>
    obtain ⟨tx, reply, toCoord, -, hcoord, rfl, -⟩ := receive_cases hstep
    exact .stay rfl (hcoord ▸ List.sublist_cons_self _ _) rfl rfl
  | timeout =>
    obtain ⟨tx, -, rfl, -⟩ := timeout_cases hstep
    exact .stay rfl (.refl _) rfl rfl
  | handle reads lost => exact handle_queueStep hstep

theorem step_queueStep (hstep : s.step e = some t) : QueueStep s t := by
  cases e with
  | exchange nowUs x =>
    obtain ⟨s', u, result, henter, hexchange, rfl⟩ := step_exchange hstep
    have hloop := (enter_spec henter).1
    have hsettle := settle_loopOnly u nowUs result
    rw [hsettle.eq]
    have hqueues := exchangeStep_queueStep hexchange
    rw [hloop.eq] at hqueues
    cases hqueues with
    | coordinator sent hpeer hsent hcalls hcoord hcall => exact .coordinator sent hpeer hsent hcalls hcoord hcall
    | peer request replies hpeer hcall hcoord hreplies hcalls => exact .peer request replies hpeer hcall hcoord hreplies hcalls
  | resetSend nowUs laterUs flushed lost radioOk =>
    obtain ⟨-, -, request, -, rfl⟩ := resetSend_spec hstep
    cases lost with
    | true => exact .coordinator [] (List.append_nil _).symm (by simp) (Nat.le_succ _) (List.drop_sublist _ _) rfl
    | false => exact .coordinator [_] rfl (by simp) (Nat.le_succ _) (List.drop_sublist _ _) rfl
  | resetReceive nowUs flushed =>
    obtain ⟨-, reply, toCoord, hcoord, rfl⟩ := resetReceive_spec hstep
    have hsub : toCoord.Sublist s.toCoord := hcoord ▸ List.sublist_cons_self _ _
    split
    · exact .stay rfl ((List.drop_sublist _ _).trans hsub) rfl rfl
    · exact .stay rfl hsub rfl rfl
  | resetTimeout nowUs =>
    obtain ⟨-, rfl⟩ := resetTimeout_spec hstep
    exact .stay rfl (.refl _) rfl rfl

/-! ### The order of the calls -/

/-- What is on its way is in the order of the calls it was composed after. -/
structure Ordered (s : Link) : Prop where
  toCoord : s.toCoord.Pairwise fun r r' => r.call ≤ r'.call
  replies : ∀ reply ∈ s.toCoord, reply.call ≤ s.peerCall
  toPeer : s.toPeer.Pairwise fun r r' => r.call ≤ r'.call
  requests : ∀ request ∈ s.toPeer, s.peerCall ≤ request.call ∧ request.call ≤ s.resetCalls
  peer : s.peerCall ≤ s.resetCalls

theorem QueueStep.ordered (h : QueueStep s t) (hs : s.Ordered) : t.Ordered := by
  cases h with
  | coordinator sent hpeer hsent hcalls hcoord hcall =>
    have hmem : ∀ request ∈ s.toPeer, s.peerCall ≤ request.call ∧ request.call ≤ t.resetCalls := fun request hr =>
      ⟨(hs.requests request hr).1, (hs.requests request hr).2.trans hcalls⟩
    refine ⟨hs.toCoord.sublist hcoord, fun reply hr => hcall ▸ hs.replies reply (hcoord.subset hr), ?_, ?_, ?_⟩
    · rw [hpeer]
      refine List.pairwise_append.mpr ⟨hs.toPeer, ?_, ?_⟩
      · exact List.pairwise_of_forall_mem_list fun r hr r' hr' => by rw [hsent r hr, hsent r' hr']
      · intro r hr r' hr'
        rw [hsent r' hr']
        exact (hmem r hr).2
    · intro request hr
      rw [hpeer] at hr
      rw [hcall]
      rcases List.mem_append.mp hr with hr | hr
      · exact hmem request hr
      · rw [hsent request hr]
        exact ⟨hs.peer.trans hcalls, le_rfl⟩
    · rw [hcall]
      exact hs.peer.trans hcalls
  | peer request replies hpeer hcall hcoord hreplies hcalls =>
    have hhead := hs.requests request (by rw [hpeer]; exact List.mem_cons_self)
    have horder := hs.toPeer
    rw [hpeer] at horder
    obtain ⟨hfirst, horder⟩ := List.pairwise_cons.mp horder
    have hmono : s.peerCall ≤ t.peerCall ∧ t.peerCall ≤ request.call := by
      rw [hcall]
      split
      · exact ⟨hhead.1, le_rfl⟩
      · exact ⟨le_rfl, hhead.1⟩
    refine ⟨?_, ?_, horder, ?_, ?_⟩
    · rw [hcoord]
      refine List.pairwise_append.mpr ⟨hs.toCoord, ?_, ?_⟩
      · exact List.pairwise_of_forall_mem_list fun r hr r' hr' => by rw [(hreplies r hr).1, (hreplies r' hr').1]
      · intro r hr r' hr'
        rw [(hreplies r' hr').1]
        exact (hs.replies r hr).trans hmono.1
    · intro reply hr
      rw [hcoord] at hr
      rcases List.mem_append.mp hr with hr | hr
      · exact (hs.replies reply hr).trans hmono.1
      · exact (hreplies reply hr).1.le
    · intro r hr
      have hmem := hs.requests r (by rw [hpeer]; exact List.mem_cons_of_mem _ hr)
      exact ⟨hmono.2.trans (hfirst r hr), hcalls ▸ hmem.2⟩
    · rw [hcalls]
      exact hmono.2.trans hhead.2

/-- The peer never goes back to an earlier call. -/
theorem QueueStep.peerCall_le (h : QueueStep s t) (hs : s.Ordered) : s.peerCall ≤ t.peerCall := by
  cases h with
  | coordinator _ _ _ _ _ hcall => exact hcall.ge
  | peer request replies hpeer hcall =>
    rw [hcall]
    split
    · exact (hs.requests request (by rw [hpeer]; exact List.mem_cons_self)).1
    · exact le_rfl

theorem Run.ordered (hrun : s.Run es t) (hs : s.Ordered) : t.Ordered :=
  Machine.Run.invariant (fun _ _ _ h _ hstep => (step_queueStep hstep).ordered h) hrun hs

theorem ordered_initial (pollIntervalUs : Nat) (peer : SecondaryRadioInterface) : (initial pollIntervalUs peer).Ordered :=
  ⟨.nil, nofun, .nil, nofun, le_rfl⟩

/-! ### The fence -/

/-- The peer has handled the Reset of the call or of a later one, or nothing but Resets is on its way in
    front of such a Reset. -/
def PeerFenced (call : Nat) (s : Link) : Prop :=
  call ≤ s.peerCall ∨ ∃ earlier reset later, s.toPeer = earlier ++ reset :: later ∧
    (∀ request ∈ earlier, isReset request.packet = true) ∧ isReset reset.packet = true ∧ call ≤ reset.call

/-- Of what the peer composes before it has handled the call's Reset, only Resets are still to come. -/
structure Fenced (call : Nat) (s : Link) : Prop where
  replies : ∀ reply ∈ s.toCoord, reply.call < call → decodeMacFrame reply.packet = some resetFrame
  peer : s.PeerFenced call

theorem QueueStep.fenced (h : QueueStep s t) (hordered : s.Ordered) (hs : s.Fenced call) : t.Fenced call := by
  have hmono := h.peerCall_le hordered
  cases h with
  | coordinator sent hpeer _ _ hcoord hcall =>
    refine ⟨fun reply hr => hs.replies reply (hcoord.subset hr), ?_⟩
    rcases hs.peer with hknown | ⟨earlier, reset, later, hqueue, hearlier, hreset, hle⟩
    · exact Or.inl (hknown.trans hmono)
    · exact Or.inr ⟨earlier, reset, later ++ sent, by rw [hpeer, hqueue, List.append_assoc, List.cons_append], hearlier,
        hreset, hle⟩
  | peer request replies hpeer hcall hcoord hreplies =>
    -- The reply is composed after the call's Reset, or it answers a Reset in front of it.
    have hcase : (call ≤ t.peerCall ∨ isReset request.packet = true) ∧ t.PeerFenced call := by
      rcases hs.peer with hknown | ⟨earlier, reset, later, hqueue, hearlier, hreset, hle⟩
      · exact ⟨Or.inl (hknown.trans hmono), Or.inl (hknown.trans hmono)⟩
      · rw [hpeer] at hqueue
        cases earlier with
        | nil =>
          obtain ⟨rfl, -⟩ := List.cons.inj hqueue
          rw [hreset, if_pos rfl] at hcall
          exact ⟨Or.inr hreset, Or.inl (hcall ▸ hle)⟩
        | cons r earlier =>
          obtain ⟨rfl, hrest⟩ := List.cons.inj hqueue
          exact ⟨Or.inr (hearlier _ List.mem_cons_self), Or.inr ⟨earlier, reset, later, hrest,
            fun r hr => hearlier r (List.mem_cons_of_mem _ hr), hreset, hle⟩⟩
    refine ⟨?_, hcase.2⟩
    intro reply hr hlt
    rw [hcoord] at hr
    rcases List.mem_append.mp hr with hr | hr
    · exact hs.replies reply hr hlt
    · obtain ⟨hreply, hdecode⟩ := hreplies reply hr
      rcases hcase.1 with hknown | hreset
      · omega
      · exact hdecode hreset

theorem Run.fenced (hrun : s.Run es t) (hordered : s.Ordered) (hs : s.Fenced call) : t.Fenced call :=
  (Machine.Run.invariant (P := fun u : Link => u.Ordered ∧ u.Fenced call)
    (fun _ _ _ h _ hstep => ⟨(step_queueStep hstep).ordered h.1, (step_queueStep hstep).fenced h.1 h.2⟩) hrun ⟨hordered, hs⟩).2

/-- Behind the reply to its own Reset nothing older is to come. -/
theorem Ordered.fenced {reply : InFlight} (h : s.Ordered) (hhead : reply ∈ s.toCoord.head?) (hcall : reply.call = s.resetCalls) :
    s.Fenced s.resetCalls := by
  obtain ⟨replies, hcoord⟩ := List.head?_eq_some_iff.mp hhead
  have horder := h.toCoord
  rw [hcoord] at horder
  refine ⟨?_, Or.inl (hcall ▸ h.replies reply (by rw [hcoord]; exact List.mem_cons_self))⟩
  intro r hr hlt
  rw [hcoord] at hr
  rcases List.mem_cons.mp hr with rfl | hr
  · omega
  · have := (List.pairwise_cons.mp horder).1 r hr
    omega

/-- A `ConnectionReset` call returns true, on the peer's reply to its own Reset or else with the fence
    standing. -/
structure SeparatingReset (s : Link) (e : Event) (t : Link) : Prop where
  done : completesReset s e = true
  fence : (∃ reply ∈ s.toCoord.head?, reply.call = s.resetCalls) ∨ t.Fenced s.resetCalls

/-- After such a call no reply that the peer composed before it handled the call's Reset is accepted, and
    no acknowledgement in one retires a fragment. -/
theorem no_reply_crosses_reset {pollIntervalUs : Nat} (hrun : (initial pollIntervalUs {}).Run es s)
    (hstep : s.step e = some t) (hreset : SeparatingReset s e t) (hrest : t.Run fs u) :
    ∀ reply replies rx, u.toCoord = reply :: replies → reply.call < s.resetCalls →
      decodeMacFrame reply.packet = some rx →
      (u.coord.applyPeerResponse rx).2 = false ∧ (u.coord.applyPeerResponse rx).1.tx = u.coord.tx := by
  intro reply replies rx hcoord hcall hdecode
  have hordered := hrun.ordered (ordered_initial pollIntervalUs {})
  have hqueues := step_queueStep hstep
  have ht : t.Fenced s.resetCalls := by
    rcases hreset.fence with ⟨own, hhead, hown⟩ | hfence
    · exact hqueues.fenced hordered (hordered.fenced hhead hown)
    · exact hfence
  have hu := hrest.fenced (hqueues.ordered hordered) ht
  have hsound := hrest.sound ((hrun.sound (sound_initial pollIntervalUs TxState.wf_init)).step hstep)
  have hanswer := hu.replies reply (by rw [hcoord]; exact List.mem_cons_self) hcall
  obtain rfl : rx = resetFrame := Option.some.inj (hdecode.symm.trans hanswer)
  exact PrimaryRadioInterface.applyPeerResponse_resetFrame hsound.coord

/-- A call whose answer comes too late. -/
def lateRound : List Event := [.resetSend 0 0 0 false true, .exchange 0 (.handle [] false), .resetTimeout 0]

/-- The third call returns true on the answer to the first one, and the answer to the second one is
    rejected later. -/
theorem no_reply_crosses_reset_third_call :
    ∃ s t u, (initial 100 {}).Run (lateRound ++ lateRound ++ [.resetSend 0 0 0 false true]) s ∧
      completesReset s (.resetReceive 0 0) = true ∧ s.step (.resetReceive 0 0) = some t ∧
      t.Run [.exchange 0 (.send [] true true)] u ∧
      ∃ reply rx, u.toCoord = [reply] ∧ reply.call < s.resetCalls ∧ decodeMacFrame reply.packet = some rx ∧
        (u.coord.applyPeerResponse rx).2 = false := by
  have hexec : ((Machine.exec Link.step (fun _ _ => True) (initial 100 {})
      (lateRound ++ lateRound ++ [.resetSend 0 0 0 false true])).bind fun s => (s.step (.resetReceive 0 0)).bind fun t =>
        (Machine.exec Link.step (fun _ _ => True) t [.exchange 0 (.send [] true true)]).map fun u =>
          ((completesReset s (.resetReceive 0 0), s.resetCalls),
            t.toCoord.map (fun reply => decide (decodeMacFrame reply.packet = some resetFrame)),
            t.toPeer.map (fun request => (isReset request.packet, request.call)), u.toCoord.map (·.call),
            decide (u.toCoord = t.toCoord))) = some ((true, 3), [true], [(true, 3)], [2], true) := by decide +kernel
  obtain ⟨s, hs, hexec⟩ := Option.bind_eq_some_iff.mp hexec
  obtain ⟨t, ht, hexec⟩ := Option.bind_eq_some_iff.mp hexec
  obtain ⟨u, hu, hstate⟩ := Option.map_eq_some_iff.mp hexec
  simp only [Prod.mk.injEq, List.map_eq_singleton_iff, decide_eq_true_eq] at hstate
  obtain ⟨⟨hdone, hcalls⟩, ⟨late, hlate, hanswer⟩, ⟨reset, hpeer, hreset, hcall⟩, ⟨reply, hreply, hold⟩, hsame⟩ := hstate
  have hfenced : t.Fenced s.resetCalls := by
    refine ⟨fun r hr _ => ?_, Or.inr ⟨[], reset, [], hpeer, by simp, hreset, (hcalls.trans hcall.symm).le⟩⟩
    rw [hlate] at hr
    rw [List.mem_singleton.mp hr]
    exact hanswer
  obtain rfl : reply = late := by
    rw [hreply, hlate] at hsame
    exact List.singleton_inj.mp hsame
  have hlt : reply.call < s.resetCalls := by omega
  exact ⟨s, t, u, .of_exec hs, hdone, ht, .of_exec hu, reply, resetFrame, hreply, hlt, hanswer,
    (no_reply_crosses_reset (.of_exec hs) ht ⟨hdone, Or.inr hfenced⟩ (.of_exec hu) reply [] resetFrame hreply hlt hanswer).1⟩

/-- The second call returns true on the answer to the first one. In the session that follows, the
    acknowledgement of a fragment is on its way behind the answer to the second call, on which the third
    call returns true. -/
def staleAck : List Event :=
  lateRound ++ [.resetSend 0 0 0 false true, .exchange 0 (.handle [] false), .resetReceive 0 0,
    .exchange 0 (.coordReads [ipv4Packet 1 []]), .exchange 0 (.send [] false true), .exchange 0 (.handle [] false),
    .exchange 0 .timeout] ++ List.replicate kDisconnectFailureThreshold (.exchange 0 (.send [] true false)) ++
  [.resetSend kInitialDisconnectBackoffUs 0 0 false true, .exchange 0 (.handle [] false)]

/-- The new session's first fragment is retired by the earlier session's acknowledgement, although it
    never reaches the peer. -/
theorem stale_ack_accepted :
    ¬ ∀ es s e t fs u, (initial 100 {}).Run es s → completesReset s e = true → s.step e = some t → t.Run fs u →
      ∀ reply replies rx, u.toCoord = reply :: replies → reply.call < s.resetCalls →
        decodeMacFrame reply.packet = some rx →
        (u.coord.applyPeerResponse rx).2 = false ∨ (u.coord.applyPeerResponse rx).1.tx = u.coord.tx := by
  intro h
  have hexec : ((Machine.exec Link.step (fun _ _ => True) (initial 100 {}) staleAck).bind fun s =>
      (s.step (.resetReceive 0 0)).bind fun t =>
        (Machine.exec Link.step (fun _ _ => True) t [.exchange 0 (.send [] true true)]).bind fun u =>
          u.toCoord.head?.bind fun reply => (decodeMacFrame reply.packet).map fun rx =>
            (completesReset s (.resetReceive 0 0), decide (reply.call < s.resetCalls), (u.coord.applyPeerResponse rx).2,
              decide ((u.coord.applyPeerResponse rx).1.tx = u.coord.tx))) = some (true, true, true, false) := by
    decide +kernel
  obtain ⟨s, hs, hexec⟩ := Option.bind_eq_some_iff.mp hexec
  obtain ⟨t, ht, hexec⟩ := Option.bind_eq_some_iff.mp hexec
  obtain ⟨u, hu, hexec⟩ := Option.bind_eq_some_iff.mp hexec
  obtain ⟨reply, hhead, hexec⟩ := Option.bind_eq_some_iff.mp hexec
  obtain ⟨rx, hdecode, hstate⟩ := Option.map_eq_some_iff.mp hexec
  simp only [Prod.mk.injEq, decide_eq_true_eq, decide_eq_false_iff_not] at hstate
  obtain ⟨hdone, hlt, haccepted, hretired⟩ := hstate
  obtain ⟨replies, hcoord⟩ := List.head?_eq_some_iff.mp hhead
  rcases h _ s _ t _ u (.of_exec hs) hdone ht (.of_exec hu) reply replies rx hcoord hlt hdecode with hrejected | hkept
  · cases haccepted.symm.trans hrejected
  · exact hretired hkept

end Link
end Nerfnet
