import Nerfnet.Run
import Nerfnet.Theorems.Exchange

/-! # What a pass of the loop does

Whatever arrives, a pass of the coordinator's loop waits, resets or makes an exchange (`Passed`), an
exchange applies a reply or fails without one (`Exchanged`), and a pass of the peer's loop resets,
answers or drops a request (`SecondaryRadioInterface.Handled`). -/

namespace Nerfnet

theorem Absorbs.lockSteps {r r' : RadioInterface} {frame : MacFrame} {ok : Bool} (h : Absorbs r r' frame ok) :
    LockSteps r r' ∧ r'.rx = (r.rx.consumeDataFrameLocked frame).1 := by
  have hrx : r'.rx = (r.rx.consumeDataFrameLocked frame).1 := by
    have hconsumed := congrArg Prod.fst h.rx
    split at hconsumed
    · exact hconsumed
    · rename_i htype
      simpa [RxState.consumeDataFrameLocked, htype] using hconsumed
  refine ⟨?_, hrx⟩
  obtain ⟨tx, rx⟩ := r'
  obtain rfl := h.tx
  obtain rfl := hrx
  exact .tail (.single (.commitAck r frame.ack)) (.consume _ frame)

namespace PrimaryRadioInterface
variable {s t : PrimaryRadioInterface} {a : Attempt} {p : Pass} {result : ExchangeResult}

/-! ### The coordinator -/

/-- Whatever its state is, the coordinator finds a frame to send. -/
theorem chooseCoordinatorTxFrame_composes (reads : List Bytes) (hwf : s.tx.Wf) :
    ∃ r wasData tx, s.chooseCoordinatorTxFrame reads =
      ({ s with toRadioInterface := r, lastTxWasData := wasData }, some tx) ∧ Composes (s.tunnelThread reads) r tx := by
  by_cases hstate : s.state = .resetSync
  · refine ⟨s.tunnelThread reads, false, { ack := s.rx.ackSeq, type := .reset }, ?_, ⟨rfl, rfl, Or.inl ⟨by simp, rfl, rfl⟩⟩⟩
    simp only [chooseCoordinatorTxFrame, hstate]
    rfl
  · obtain ⟨r, wasData, tx, hchoose, hcompose, -⟩ := chooseCoordinatorTxFrame_spec reads hwf hstate
    exact ⟨r, wasData, tx, hchoose, hcompose⟩

/-- The frame that the exchange applies, if it gets that far. -/
def Attempt.reply (a : Attempt) : Option MacFrame := if a.radioOk then a.response.bind decodeMacFrame else none

/-- What an exchange can do: it fails without a reply, or it applies one and accepts or rejects it. -/
inductive Exchanged (s : PrimaryRadioInterface) (a : Attempt) : PrimaryRadioInterface → ExchangeResult → Prop
  | unanswered (r : RadioInterface) (wasData : Bool) (result : ExchangeResult) :
      LockSteps s.toRadioInterface r → r.rx = s.rx → a.reply = none → result ≠ .success →
      Exchanged s a { s with toRadioInterface := r, lastTxWasData := wasData } result
  | accepted (r : RadioInterface) (wasData : Bool) (consecutive : UInt8) (rx : MacFrame) :
      LockSteps s.toRadioInterface r → r.rx = (s.rx.consumeDataFrameLocked rx).1 → a.reply = some rx → rx.type.isReply = true →
      ¬(rx.type = .data ∧ s.rx.Rejects rx.seq) →
      Exchanged s a { s with
        toRadioInterface := r
        lastTxWasData := wasData
        peerHasPending := rx.pending != 0
        state := replyState rx
        consecutiveLocalDataFrames := consecutive } .success
  | rejected (r : RadioInterface) (wasData : Bool) (rx : MacFrame) :
      LockSteps s.toRadioInterface r → r.rx = (s.rx.consumeDataFrameLocked rx).1 → a.reply = some rx →
      (rx.type = .data ∧ s.rx.Rejects rx.seq) ∨ rx.type.isReply = false →
      Exchanged s a { s with
        toRadioInterface := r
        lastTxWasData := wasData
        peerHasPending := s.rejectedPending rx
        consecutiveLocalDataFrames := 0 } .protocolFailure

theorem completeExchange_exchanged (r : RadioInterface) (wasData : Bool) (tx : MacFrame) (hsteps : LockSteps s.toRadioInterface r)
    (hrx : r.rx = s.rx) (hok : a.radioOk = true) :
    Exchanged s a (completeExchange { s with toRadioInterface := r, lastTxWasData := wasData } tx a.response).1
      (completeExchange { s with toRadioInterface := r, lastTxWasData := wasData } tx a.response).2 := by
  have hreply : a.reply = a.response.bind decodeMacFrame := by rw [Attempt.reply, if_pos hok]
  unfold completeExchange
  split
  · rename_i hresponse
    exact .unanswered r wasData _ hsteps hrx (by rw [hreply, hresponse]; rfl) (by simp)
  · rename_i packet hresponse
    split
    · rename_i hdecode
      exact .unanswered r wasData _ hsteps hrx (by rw [hreply, hresponse]; exact hdecode) (by simp)
    · rename_i rx hdecode
      have hrx' : a.reply = some rx := by
        rw [hreply, hresponse]
        exact hdecode
      rcases applyPeerResponse_spec { s with toRadioInterface := r, lastTxWasData := wasData } rx with
        ⟨r', ok, habsorb, ⟨hok, htype, happly⟩ | ⟨hbad, happly⟩⟩ <;>
        obtain ⟨hsteps', hconsumed⟩ := habsorb.lockSteps <;>
        have hrejects := habsorb.ok_eq_false_iff <;>
        rw [hrx] at hconsumed hrejects <;>
        simp only [happly]
      · refine .accepted r' wasData _ rx (hsteps.trans hsteps') hconsumed hrx' htype fun hbad => ?_
        cases hok.symm.trans (hrejects.mpr hbad)
      · exact .rejected r' wasData rx (hsteps.trans hsteps') hconsumed hrx' (hbad.imp_left hrejects.mp)

theorem performExchange_exchanged (hwf : s.tx.Wf) (a : Attempt) :
    Exchanged s a (s.performExchange a).1 (s.performExchange a).2 := by
  obtain ⟨r, wasData, frame, hchoose, hsteps, hrx⟩ := s.chooseCoordinatorTxFrame_eq a.reads
  obtain ⟨r', wasData', tx, hchoose', hcompose⟩ := chooseCoordinatorTxFrame_composes a.reads hwf
  obtain ⟨heq, rfl⟩ := Prod.mk.inj (hchoose.symm.trans hchoose')
  obtain rfl : r = r' := congrArg (·.toRadioInterface) heq
  obtain ⟨request, hencode, -⟩ := exists_encode hcompose.wellFormed
  simp only [performExchange, prepareRequest, hchoose, hencode, Option.map_some, send_of_encode hencode]
  cases hok : a.radioOk with
  | false => exact .unanswered r wasData _ hsteps hrx (by simp [Attempt.reply, hok]) (by simp)
  | true =>
    have hpush := lockSteps_tunnelThread r a.later
    exact completeExchange_exchanged _ wasData tx (hsteps.trans hpush) hrx hok

/-- What `TunnelThread` reads before an exchange belongs to it. -/
theorem Exchanged.of_pushed {reads : List Bytes} (h : Exchanged { s with tx := s.tx.tunnelThread reads } a t result) :
    Exchanged s a t result := by
  have hpush := lockSteps_tunnelThread s.toRadioInterface reads
  cases h with
  | unanswered r wasData result hsteps hrx hreply hresult =>
    exact .unanswered r wasData result (hpush.trans hsteps) hrx hreply hresult
  | accepted r wasData consecutive rx hsteps hrx hreply htype hnot =>
    exact .accepted r wasData consecutive rx (hpush.trans hsteps) hrx hreply htype hnot
  | rejected r wasData rx hsteps hrx hreply htype =>
    exact .rejected r wasData rx (hpush.trans hsteps) hrx hreply htype

/-- What `ConnectionReset` leaves, and what it needs to succeed. -/
theorem connectionReset_spec (s : PrimaryRadioInterface) (a : Attempt) :
    ∃ r, (s.connectionReset a).1 = { s.beginConnectionReset with toRadioInterface := r } ∧
      LockSteps s.toRadioInterface r ∧ r.rx = s.rx.resetRxAssemblyLocked := by
  have hreset : LockSteps s.toRadioInterface s.resetLocked := .single (.reset _)
  have hpush := hreset.trans (lockSteps_tunnelThread s.resetLocked a.later)
  unfold connectionReset
  dsimp only
  split
  · exact ⟨_, rfl, hreset, rfl⟩
  · split
    · exact ⟨_, rfl, hreset, rfl⟩
    · split
      · exact ⟨_, rfl, hpush, rfl⟩
      · exact ⟨_, rfl, hpush, rfl⟩

/-- What a pass of the loop can do. -/
inductive Passed (s : PrimaryRadioInterface) (p : Pass) : PrimaryRadioInterface → Prop
  | waited (r : RadioInterface) : s.loopAction p.nowUs = .wait → LockSteps s.toRadioInterface r → r.rx = s.rx →
      Passed s p { s with toRadioInterface := r }
  | resetSucceeded (r : RadioInterface) : s.loopAction p.nowUs = .reset → LockSteps s.toRadioInterface r →
      r.rx = s.rx.resetRxAssemblyLocked →
      Passed s p (resetSucceeded { s.setPollInterval.beginConnectionReset with toRadioInterface := r })
  | resetFailed (r : RadioInterface) : s.loopAction p.nowUs = .reset → LockSteps s.toRadioInterface r →
      r.rx = s.rx.resetRxAssemblyLocked →
      Passed s p (resetFailed { s.setPollInterval.beginConnectionReset with toRadioInterface := r } p.laterUs)
  | exchanged (t : PrimaryRadioInterface) (result : ExchangeResult) : s.loopAction p.nowUs = .exchange →
      Exchanged s.setPollInterval p.toAttempt t result → Passed s p (t.afterExchange result p.laterUs)

theorem setPollInterval_tunnelThread (s : PrimaryRadioInterface) (reads : List Bytes) :
    setPollInterval { s with tx := s.tx.tunnelThread reads } =
      { s.setPollInterval with tx := s.setPollInterval.tx.tunnelThread reads } := by
  simp only [setPollInterval]
  split_ifs <;> rfl

/-- The exchange of a pass. -/
def exchange (s : PrimaryRadioInterface) (p : Pass) : PrimaryRadioInterface × ExchangeResult :=
  (setPollInterval { s with tx := s.tx.tunnelThread p.before }).performExchange p.toAttempt

theorem exchange_exchanged (hwf : s.tx.Wf) (p : Pass) :
    Exchanged s.setPollInterval p.toAttempt (s.exchange p).1 (s.exchange p).2 := by
  unfold exchange
  rw [setPollInterval_tunnelThread]
  refine Exchanged.of_pushed (performExchange_exchanged ?_ _)
  simp only [setPollInterval_toRadioInterface]
  exact hwf.tunnelThread p.before

theorem loopPass_of_exchange (haction : s.loopAction p.nowUs = .exchange) :
    s.loopPass p = (s.exchange p).1.afterExchange (s.exchange p).2 p.laterUs := by
  have haction' : loopAction { s with tx := s.tx.tunnelThread p.before } p.nowUs = .exchange := haction
  simp only [loopPass, haction', exchange]

theorem loopPass_passed (hwf : s.tx.Wf) (p : Pass) : Passed s p (s.loopPass p) := by
  have hpush := lockSteps_tunnelThread s.toRadioInterface p.before
  have haction : loopAction { s with tx := s.tx.tunnelThread p.before } p.nowUs = s.loopAction p.nowUs := rfl
  cases hloop : s.loopAction p.nowUs with
  | wait =>
    simp only [loopPass, haction, hloop]
    exact .waited _ hloop hpush rfl
  | reset =>
    simp only [loopPass, haction, hloop, setPollInterval_tunnelThread]
    obtain ⟨r, hreset, hsteps, hrx⟩ :=
      connectionReset_spec { s.setPollInterval with tx := s.setPollInterval.tx.tunnelThread p.before } p.toAttempt
    simp only [setPollInterval_toRadioInterface] at hsteps hrx
    rw [hreset]
    split
    · exact .resetSucceeded r hloop (hpush.trans hsteps) hrx
    · exact .resetFailed r hloop (hpush.trans hsteps) hrx
  | exchange =>
    rw [loopPass_of_exchange hloop]
    exact .exchanged _ _ hloop (exchange_exchanged hwf p)

/-- A pass changes the shared fields only under the lock. -/
theorem Passed.lockSteps (h : Passed s p t) : LockSteps s.toRadioInterface t.toRadioInterface := by
  cases h with
  | waited r _ hsteps => exact hsteps
  | resetSucceeded r _ hsteps => exact hsteps
  | resetFailed r _ hsteps =>
    rw [resetFailed_toRadioInterface]
    exact hsteps
  | exchanged t result _ h =>
    have hsame := s.setPollInterval_toRadioInterface
    rw [afterExchange_toRadioInterface]
    cases h with
    | unanswered r wasData result hsteps => exact hsame ▸ hsteps
    | accepted r wasData consecutive rx hsteps => exact hsame ▸ hsteps
    | rejected r wasData rx hsteps => exact hsame ▸ hsteps

/-- What every pass keeps while the TX fields are well-formed, a run keeps. -/
theorem Runs.invariant {ok : Pass → Prop} {P : PrimaryRadioInterface → Prop} {ps : List Pass}
    (hstep : ∀ s p t, P s → ok p → Passed s p t → P t) (h : Runs ok s ps t) (hwf : s.tx.Wf) (hs : P s) : t.tx.Wf ∧ P t := by
  refine Machine.Run.invariant (P := fun s => s.tx.Wf ∧ P s) (fun s p t hs hp hpass => ?_) h ⟨hwf, hs⟩
  have hpassed : Passed s p t := Option.some.inj hpass ▸ loopPass_passed hs.1 p
  exact ⟨hpassed.lockSteps.wf hs.1, hstep s p t hs.2 hp hpassed⟩

theorem Runs.wf {ok : Pass → Prop} {ps : List Pass} (h : Runs ok s ps t) (hwf : s.tx.Wf) : t.tx.Wf :=
  (Runs.invariant (P := fun _ => True) (fun _ _ _ _ _ _ => trivial) h hwf trivial).1

/-- The session starts, and the pass meets nothing else. -/
def resetPass : Pass := { response := encodeMacFrame resetFrame }

end PrimaryRadioInterface

/-! ### The peer -/

/-- The kinds of frames that the peer composes. -/
def MacFrame.FromPeer (tx : MacFrame) : Prop :=
  (tx.type = .ack ∧ tx.pending = 0) ∨ ((tx.type = .pending ∨ tx.type = .data) ∧ tx.pending = 1) ∨
    (tx.type = .reset ∧ tx.pending = 0)

namespace SecondaryRadioInterface
variable {s : SecondaryRadioInterface} {request : Bytes}

/-- The peer announces data exactly if it has some. -/
theorem fromPeer_of_nextReplyType {tx : MacFrame} (htype : tx.type = s.nextReplyType)
    (hpending : tx.pending = if s.tx.localHasData then 1 else 0) : tx.FromPeer := by
  unfold nextReplyType at htype
  split at htype
  · rename_i hgrant
    exact Or.inr (Or.inl ⟨Or.inr htype, by rw [hpending, if_pos hgrant.2.2]⟩)
  · split at htype
    · rename_i hdata
      exact Or.inr (Or.inl ⟨Or.inl htype, by rw [hpending, if_pos hdata]⟩)
    · rename_i hdata
      exact Or.inl ⟨htype, by rw [hpending, if_neg hdata]⟩

/-- What the answer `tx` to the request `rx` leaves of the grant: a DATA frame takes one credit of the
    Grant that it answers. -/
def Answers (rx tx : MacFrame) (grantBudget : UInt8) (grantedToSend : Bool) : Prop :=
  (tx.type = .data ∧ rx.type = .grant ∧ 0 < rx.arg ∧ grantBudget = rx.arg - 1 ∧ grantedToSend = decide (rx.arg - 1 ≠ 0)) ∨
    (tx.type ≠ .data ∧ grantBudget = (if rx.type = .grant then rx.arg else 0) ∧
      grantedToSend = decide (rx.type = .grant ∧ 0 < rx.arg))

/-- What a pass can do with a request. -/
inductive Handled (s : SecondaryRadioInterface) (request : Bytes) : SecondaryRadioInterface → Option Bytes → Prop
  | dropped (r : RadioInterface) : LockSteps s.toRadioInterface r → r.rx = s.rx → decodeMacFrame request = none →
      Handled s request { s with toRadioInterface := r } none
  | reset (r : RadioInterface) (rx : MacFrame) (reply : Bytes) : LockSteps s.toRadioInterface r →
      r.rx = s.rx.resetRxAssemblyLocked → decodeMacFrame request = some rx → rx.type = .reset →
      decodeMacFrame reply = some resetFrame → Handled s request { toRadioInterface := r } (some reply)
  | rejected (r : RadioInterface) (rx : MacFrame) : LockSteps s.toRadioInterface r →
      r.rx = (s.rx.consumeDataFrameLocked rx).1 → decodeMacFrame request = some rx → rx.type ≠ .reset →
      (rx.type = .data ∧ s.rx.Rejects rx.seq) ∨ rx.type.isRequest = false →
      Handled s request { s with toRadioInterface := r } none
  | answered (r : RadioInterface) (rx tx : MacFrame) (reply : Bytes) (grantBudget : UInt8) (grantedToSend : Bool) :
      LockSteps s.toRadioInterface r → r.rx = (s.rx.consumeDataFrameLocked rx).1 → decodeMacFrame request = some rx →
      rx.type ≠ .reset → ¬(rx.type = .data ∧ s.rx.Rejects rx.seq) → rx.type.isRequest = true →
      decodeMacFrame reply = some tx → tx.FromPeer → Answers rx tx grantBudget grantedToSend →
      Handled s request { toRadioInterface := r, grantBudget, grantedToSend } (some reply)

/-- Choosing a reply takes the lock twice, and a DATA frame takes a credit. -/
theorem choosePeerResponse_eq (s : SecondaryRadioInterface) (reads : List Bytes) :
    ∃ r, (s.choosePeerResponse reads).1.toRadioInterface = r ∧ LockSteps s.toRadioInterface r ∧ r.rx = s.rx ∧
      ∀ tx, (s.choosePeerResponse reads).2 = some tx →
        (tx.type = .data ∧ s.grantedToSend = true ∧ 0 < s.grantBudget ∧ (s.choosePeerResponse reads).1 = {
          toRadioInterface := r
          grantBudget := s.grantBudget - 1
          grantedToSend := if s.grantBudget - 1 = 0 then false else s.grantedToSend }) ∨
        (tx.type ≠ .data ∧ (s.choosePeerResponse reads).1 = { s with toRadioInterface := r }) := by
  have hpush := lockSteps_tunnelThread s.toRadioInterface reads
  unfold choosePeerResponse
  dsimp only
  split
  · rename_i hgrant
    have hbuild := hpush.tail (.build _)
    have hrx := buildNextDataFrameLocked_rx { s.toRadioInterface with tx := s.tx.tunnelThread reads }
    have htype := buildNextDataFrameLocked_type { s.toRadioInterface with tx := s.tx.tunnelThread reads }
    split
    · rename_i heq
      simp only [heq] at hbuild hrx
      exact ⟨_, rfl, hbuild, hrx, by simp⟩
    · rename_i r frame heq
      simp only [heq] at hbuild hrx htype
      refine ⟨_, rfl, hbuild, hrx, fun tx htx => Or.inl ?_⟩
      cases htx
      exact ⟨htype frame rfl, hgrant.1, hgrant.2.1, rfl⟩
  · split
    all_goals
      refine ⟨_, rfl, hpush, rfl, fun tx htx => Or.inr ?_⟩
      cases htx
      exact ⟨by simp, rfl⟩

theorem handleRequest_handled (hwf : s.tx.Wf) (request : Bytes) (reads : List Bytes) :
    Handled s request (s.handleRequest request reads).1 (s.handleRequest request reads).2 := by
  unfold handleRequest
  split
  · rename_i hdecode
    exact .dropped _ (lockSteps_tunnelThread _ reads) rfl hdecode
  · rename_i rx hdecode
    split
    · rename_i htype
      obtain ⟨reply, hencode, hreply⟩ := exists_encode_resetFrame
      simp only [handleReset, hencode]
      exact .reset _ rx reply (.head (.reset _) (lockSteps_tunnelThread _ reads)) rfl hdecode htype hreply
    · rename_i htype
      rcases s.applyCoordinatorRequest_spec rx with ⟨r, ok, habsorb, ⟨hok, hrequest, happly⟩ | ⟨hbad, happly⟩⟩ <;>
        obtain ⟨hsteps, hrx⟩ := habsorb.lockSteps <;>
        have hrejects := habsorb.ok_eq_false_iff <;>
        simp only [happly]
      · obtain ⟨r', b, g, tx, hchoose, hcompose, hnext, hpending⟩ :=
          choosePeerResponse_spec (s := granted r rx) reads (habsorb.wf hwf)
        obtain ⟨reply, hencode, hreply⟩ := exists_encode hcompose.wellFormed
        obtain ⟨r'', hr'', hsteps', hrx', hcase⟩ := choosePeerResponse_eq (granted r rx) reads
        rw [hchoose] at hr'' hcase
        obtain rfl : r' = r'' := hr''
        simp only [hchoose, hencode]
        have hnot : ¬(rx.type = .data ∧ s.rx.Rejects rx.seq) := fun hbad => by cases hok.symm.trans (hrejects.mpr hbad)
        refine .answered r' rx tx reply b g (hsteps.trans hsteps') (hrx'.trans hrx) hdecode htype hnot hrequest hreply
          (fromPeer_of_nextReplyType hnext hpending) ?_
        rcases hcase tx rfl with ⟨hdata, hgranted, -, heq⟩ | ⟨hdata, heq⟩
        · obtain ⟨htype', harg⟩ : rx.type = .grant ∧ 0 < rx.arg := of_decide_eq_true hgranted
          have hb : b = rx.arg - 1 := by
            have := congrArg (·.grantBudget) heq
            simpa [granted, htype'] using this
          have hg : g = decide (rx.arg - 1 ≠ 0) := by
            have := congrArg (·.grantedToSend) heq
            simp only [hgranted] at this
            rw [this]
            by_cases hzero : rx.arg - 1 = 0 <;> simp [granted, htype', hzero]
          exact Or.inl ⟨hdata, htype', harg, hb, hg⟩
        · exact Or.inr ⟨hdata, congrArg (·.grantBudget) heq, congrArg (·.grantedToSend) heq⟩
      · exact .rejected _ rx (hsteps.trans (lockSteps_tunnelThread _ reads)) hrx hdecode htype (hbad.imp_left hrejects.mp)

/-- What a pass does with its request; what `TunnelThread` reads before belongs to it. -/
theorem loopPass_handled (hwf : s.tx.Wf) (p : Pass) : Handled s p.request (s.loopPass p).1 (s.loopPass p).2 := by
  have hpush := lockSteps_tunnelThread s.toRadioInterface p.before
  have hhandled := handleRequest_handled (s := { s with tx := s.tx.tunnelThread p.before }) (hwf.tunnelThread p.before) p.request
    p.reads
  unfold loopPass
  generalize (handleRequest { s with tx := s.tx.tunnelThread p.before } p.request p.reads).1 = t at hhandled ⊢
  generalize (handleRequest { s with tx := s.tx.tunnelThread p.before } p.request p.reads).2 = reply at hhandled ⊢
  cases hhandled with
  | dropped r hsteps hrx hdecode => exact .dropped r (hpush.trans hsteps) hrx hdecode
  | reset r rx reply hsteps hrx hdecode htype hreply => exact .reset r rx reply (hpush.trans hsteps) hrx hdecode htype hreply
  | rejected r rx hsteps hrx hdecode htype hbad => exact .rejected r rx (hpush.trans hsteps) hrx hdecode htype hbad
  | answered r rx tx reply b g hsteps hrx hdecode htype hnot hrequest hreply hfrom hanswers =>
    exact .answered r rx tx reply b g (hpush.trans hsteps) hrx hdecode htype hnot hrequest hreply hfrom hanswers

theorem Handled.lockSteps {t : SecondaryRadioInterface} {reply : Option Bytes} (h : Handled s request t reply) :
    LockSteps s.toRadioInterface t.toRadioInterface := by
  cases h with
  | dropped r hsteps => exact hsteps
  | reset r rx reply hsteps => exact hsteps
  | rejected r rx hsteps => exact hsteps
  | answered r rx tx reply b g hsteps => exact hsteps

/-- What every pass keeps while the TX fields are well-formed, a run keeps. -/
theorem Runs.invariant {t : SecondaryRadioInterface} {P : SecondaryRadioInterface → Prop} {ps : List Pass}
    (hstep : ∀ s (p : Pass) t reply, P s → Handled s p.request t reply → P t) (h : Runs s ps t) (hwf : s.tx.Wf) (hs : P s) :
    t.tx.Wf ∧ P t := by
  refine Machine.Run.invariant (P := fun s => s.tx.Wf ∧ P s) (fun s p t hs _ hpass => ?_) h ⟨hwf, hs⟩
  have hhandled : Handled s p.request t (s.loopPass p).2 := by
    rw [← Option.some.inj hpass]
    exact loopPass_handled hs.1 p
  exact ⟨hhandled.lockSteps.wf hs.1, hstep s p t _ hs.2 hhandled⟩

theorem Runs.wf {t : SecondaryRadioInterface} {ps : List Pass} (h : Runs s ps t) (hwf : s.tx.Wf) : t.tx.Wf :=
  (Runs.invariant (P := fun _ => True) (fun _ _ _ _ _ _ => trivial) h hwf trivial).1

end SecondaryRadioInterface

end Nerfnet
