import Nerfnet.Theorems.Calls

/-! # What the radio driver is asked

`RadioMode` says what the driver and the GPIO library ask of their caller. Both loops keep to it,
whatever the calls return. -/

namespace Nerfnet

/-- The driver between two calls: whether it listens, whether `available` has reported a packet that has
    not been read, or that there is none since the last event, whether the TX FIFO may hold a packet, and
    whether the GPIO line has reported an event. -/
structure RadioMode where
  listening : Bool := false
  ready : Bool := false
  looked : Bool := false
  loaded : Bool := false
  event : Bool := false
  deriving DecidableEq

/-- The call is made as it has to be: a packet of full size is written when the radio does not listen and
    the FIFO is empty; what `available` has reported is read; and the line is waited for where there is
    one, with no packet that its last event was about left unseen, without a timeout only if `blocking`. -/
def RadioMode.Allows (irq blocking : Bool) (m : RadioMode) : DriverCall → Prop
  | .write packet _ => m.listening = false ∧ m.loaded = false ∧ packet.length = kMaxPacketSize
  | .txStandBy _ => m.listening = false ∧ m.loaded = true
  | .available _ => m.listening = true
  | .read packet => m.listening = true ∧ m.ready = true ∧ packet.length = kMaxPacketSize
  | .lineEventWait timeout _ =>
    irq = true ∧ m.listening = true ∧ m.looked = true ∧ timeout.isNone = blocking ∧ ∀ time ∈ timeout, time.nsec < 1000000000
  | .lineEventRead _ => irq = true ∧ m.event = true
  | _ => True

def RadioMode.after (m : RadioMode) : DriverCall → RadioMode
  | .startListening => { m with listening := true, ready := false, looked := false }
  | .stopListening => { m with listening := false, ready := false, looked := false }
  | .write _ _ => { m with loaded := true }
  | .txStandBy ok => { m with loaded := !ok }
  | .flushTx => { m with loaded := false }
  | .flushRx => { m with ready := false }
  | .available ready => { m with ready, looked := !ready }
  | .read _ => { m with ready := false }
  | .lineEventWait _ result => { m with event := result == .event, looked := false }
  | .lineEventRead _ => { m with event := false }
  | _ => m

/-- The calls are all made as they have to be. -/
def RadioMode.Accepts (irq blocking : Bool) (m : RadioMode) (calls : List DriverCall) (m' : RadioMode) : Prop :=
  Machine.Run (fun m call => some (RadioMode.after m call)) (RadioMode.Allows irq blocking) m calls m'

/-! ### Send and Receive -/

section
variable {irq blocking : Bool} {timeoutUs : Nat} {m : RadioMode} {request : Bytes} {call : DriverCall}

/-- The FIFO holds the request from `write` until it is sent or flushed. -/
def SendPhase.Fits (m : RadioMode) : SendPhase → Prop
  | .write => m.listening = false ∧ m.loaded = false
  | .deadline | .standBy _ | .expired _ | .sleeping _ => m.listening = false ∧ m.loaded = true
  | .flush => m.listening = false
  | .stopListening | .recovering | .returned _ => m.loaded = false

theorem sendStep_allowed {phase next : SendPhase} (hlength : request.length = kMaxPacketSize) (h : phase.Fits m)
    (hstep : sendStep request phase call = some next) : m.Allows irq blocking call ∧ next.Fits (m.after call) := by
  cases phase <;> cases call <;> simp only [sendStep, reduceCtorEq, Option.ite_none_right_eq_some, Option.some.injEq] at hstep
  case stopListening.stopListening =>
    rw [if_neg (Nat.not_lt.mpr (Nat.le_of_eq hlength))] at hstep
    subst hstep
    exact ⟨trivial, rfl, h⟩
  case write.write packet ok =>
    obtain ⟨rfl, rfl⟩ := hstep
    refine ⟨⟨h.1, h.2, hlength⟩, ?_⟩
    cases ok
    · exact h.1
    · exact ⟨h.1, rfl⟩
  case deadline.timeNowUs nowUs =>
    subst hstep
    exact ⟨trivial, h⟩
  case standBy.txStandBy deadlineUs ok =>
    subst hstep
    cases ok
    · exact ⟨h, h.1, rfl⟩
    · exact ⟨h, rfl⟩
  case expired.timeNowUs deadlineUs nowUs =>
    subst hstep
    refine ⟨trivial, ?_⟩
    split
    · exact h.1
    · exact h
  case sleeping.sleepUs deadlineUs delay =>
    obtain ⟨-, rfl⟩ := hstep
    exact ⟨trivial, h⟩
  case flush.flushTx =>
    subst hstep
    exact ⟨trivial, rfl⟩
  case recovering.sleepUs delay =>
    obtain ⟨-, rfl⟩ := hstep
    exact ⟨trivial, h⟩

/-- The radio listens while `WaitForRxReady` waits, and the loop on the line has a deadline where there is
    a timeout. -/
def WaitPhase.Fits (irq : Bool) (timeoutUs : Nat) (m : RadioMode) (phase : WaitPhase) : Prop :=
  m.listening = true ∧ m.loaded = false ∧
    match phase with
    | .start => irq = true → timeoutUs ≠ 0
    | .test deadlineUs => irq = true ∧ (deadlineUs = 0 ↔ timeoutUs = 0)
    | .remaining deadlineUs => irq = true ∧ (deadlineUs = 0 ↔ timeoutUs = 0) ∧ m.looked = true
    | .eventWait deadlineUs timeout => irq = true ∧ (deadlineUs = 0 ↔ timeoutUs = 0) ∧ m.looked = true ∧
        timeout.isNone = decide (timeoutUs = 0) ∧ ∀ time ∈ timeout, time.nsec < 1000000000
    | .eventRead deadlineUs => irq = true ∧ (deadlineUs = 0 ↔ timeoutUs = 0) ∧ m.event = true
    | .returned result => result = .success → m.ready = true
    | _ => True

theorem waitStart_fits (hlistening : m.listening = true) (hloaded : m.loaded = false) :
    (waitStart irq timeoutUs).Fits irq timeoutUs m := by
  unfold waitStart
  split
  · rename_i hirq
    exact ⟨hlistening, hloaded, hirq.1, iff_of_true rfl hirq.2⟩
  · rename_i hirq
    exact ⟨hlistening, hloaded, fun hline hzero => hirq ⟨hline, hzero⟩⟩

theorem waitStep_allowed {phase next : WaitPhase} (h : phase.Fits irq timeoutUs m)
    (hstep : waitStep irq timeoutUs phase call = some next) :
    m.Allows irq (decide (timeoutUs = 0)) call ∧ next.Fits irq timeoutUs (m.after call) := by
  obtain ⟨hlistening, hloaded, h⟩ := h
  cases phase <;> cases call <;> simp only [waitStep, reduceCtorEq, Option.ite_none_right_eq_some, Option.some.injEq] at hstep
  case start.timeNowUs nowUs =>
    subst hstep
    refine ⟨trivial, hlistening, hloaded, ?_⟩
    by_cases hirq : irq = true
    · have hpos := h hirq
      rw [if_pos hirq]
      exact ⟨hirq, by omega⟩
    · rw [if_neg hirq]
      trivial
  case poll.available startUs ready =>
    subst hstep
    refine ⟨hlistening, hlistening, hloaded, ?_⟩
    split_ifs <;> simp_all [RadioMode.after]
  case expired.timeNowUs startUs nowUs =>
    subst hstep
    refine ⟨trivial, hlistening, hloaded, ?_⟩
    split_ifs <;> simp
  case sleeping.sleepUs startUs delay =>
    obtain ⟨-, rfl⟩ := hstep
    exact ⟨trivial, hlistening, hloaded, trivial⟩
  case test.available deadlineUs ready =>
    subst hstep
    refine ⟨hlistening, hlistening, hloaded, ?_⟩
    split_ifs <;> simp_all [RadioMode.after]
  case remaining.timeNowUs deadlineUs nowUs =>
    subst hstep
    refine ⟨trivial, hlistening, hloaded, ?_⟩
    by_cases hexpired : deadlineUs ≤ nowUs
    · rw [if_pos hexpired]
      exact fun hsuccess => RequestResult.noConfusion hsuccess
    · rw [if_neg hexpired]
      have htimeout : timeoutUs ≠ 0 := fun hzero => hexpired (by rw [h.2.1.mpr hzero]; exact Nat.zero_le nowUs)
      refine ⟨h.1, h.2.1, h.2.2, (decide_eq_false htimeout).symm, fun time htime => ?_⟩
      obtain rfl := Option.mem_some_iff.mp htime
      have hrest := Nat.mod_lt (deadlineUs - nowUs) (show 0 < 1000000 by decide)
      show (deadlineUs - nowUs) % 1000000 * 1000 < 1000000000
      omega
  case eventWait.lineEventWait deadlineUs timeout timeout' result =>
    obtain ⟨rfl, rfl⟩ := hstep
    refine ⟨⟨h.1, hlistening, h.2.2⟩, hlistening, hloaded, ?_⟩
    cases result <;> simp [RadioMode.after, h.1, h.2.1]
  case eventRead.lineEventRead deadlineUs result =>
    subst hstep
    refine ⟨⟨h.1, h.2.2⟩, hlistening, hloaded, ?_⟩
    cases result <;> simp [h.1, h.2.1]

/-- The radio listens from `startListening` until the response is read. -/
def ReceivePhase.Fits (irq : Bool) (timeoutUs : Nat) (m : RadioMode) : ReceivePhase → Prop
  | .waiting phase => phase.Fits irq timeoutUs m
  | .read => m.listening = true ∧ m.loaded = false ∧ m.ready = true
  | .startListening | .returned _ => m.loaded = false

theorem receiveStep_allowed {phase next : ReceivePhase} (h : phase.Fits irq timeoutUs m)
    (hstep : receiveStep irq timeoutUs phase call = some next) :
    m.Allows irq (decide (timeoutUs = 0)) call ∧ next.Fits irq timeoutUs (m.after call) := by
  cases phase with
  | startListening =>
    cases call <;> simp only [receiveStep, reduceCtorEq, Option.some.injEq] at hstep
    subst hstep
    exact ⟨trivial, waitStart_fits rfl h⟩
  | waiting phase =>
    simp only [receiveStep, Option.map_eq_some_iff] at hstep
    obtain ⟨waited, hwait, rfl⟩ := hstep
    obtain ⟨hallowed, hfits⟩ := waitStep_allowed h hwait
    refine ⟨hallowed, ?_⟩
    cases waited with
    | returned result =>
      obtain ⟨hlistening, hloaded, hready⟩ := hfits
      by_cases hsuccess : result = .success
      · simp only [if_pos hsuccess]
        exact ⟨hlistening, hloaded, hready hsuccess⟩
      · simp only [if_neg hsuccess]
        exact hloaded
    | _ => exact hfits
  | read =>
    cases call <;> simp only [receiveStep, reduceCtorEq, Option.ite_none_right_eq_some, Option.some.injEq] at hstep
    obtain ⟨hlength, rfl⟩ := hstep
    exact ⟨⟨h.1, h.2.2, hlength⟩, h.2.1⟩
  | returned response => cases call <;> simp [receiveStep] at hstep

end

/-! ### The coordinator -/

theorem PrimaryRadioInterface.prepareRequest_encode {s u : PrimaryRadioInterface} {reads : List Bytes} {tx : MacFrame}
    {request : Bytes} (h : s.prepareRequest reads = (u, some (tx, request))) : encodeMacFrame tx = some request := by
  unfold prepareRequest at h
  split at h
  · cases h
  · obtain ⟨tx', hencode, heq⟩ := Option.map_eq_some_iff.mp (congrArg (·.2) h)
    cases heq
    exact hencode

/-- The calls of the loop itself. -/
def ThreadEvent.calls : ThreadEvent → List DriverCall
  | .call driverCall => [driverCall]
  | .compose _ | .tunnelThread _ => []

namespace CoordinatorThread
variable {irq : Bool} {s t : CoordinatorThread} {m : RadioMode}

/-- The radio is as `Send` and `Receive` want it there. Between them its FIFO is empty. -/
def Fits (irq : Bool) (s : CoordinatorThread) (m : RadioMode) : Prop :=
  match s.phase with
  | .resetSend request phase | .send _ request phase => request.length = kMaxPacketSize ∧ phase.Fits m
  | .resetReceive phase | .receive _ phase => phase.Fits irq kResponseTimeoutUs m
  | _ => m.loaded = false

theorem resetFails_fits {r : PrimaryRadioInterface} {phase : CoordinatorPhase} (h : m.loaded = false) :
    (resetFails ⟨r, phase⟩).Fits irq m := by
  rcases resetFails_cases r phase with heq | heq <;> rw [heq] <;> exact h

theorem exchangeReturns_fits {r : PrimaryRadioInterface} {phase : CoordinatorPhase} {result : ExchangeResult}
    (h : m.loaded = false) : (exchangeReturns ⟨r, phase⟩ result).Fits irq m := by
  rcases exchangeReturns_cases r phase result with heq | heq <;> rw [heq] <;> exact h

theorem completeExchange_fits {r : PrimaryRadioInterface} {phase : CoordinatorPhase} {tx : MacFrame} {response : Option Bytes}
    (h : m.loaded = false) : (completeExchange ⟨r, phase⟩ tx response).Fits irq m := by
  rcases completeExchange_cases r phase tx response with ⟨heq, -⟩ | heq <;> rw [heq]
  · exact h
  · exact exchangeReturns_fits h

theorem step_allowed {e : ThreadEvent} (h : s.Fits irq m) (hstep : Step irq s e t) :
    ∃ m', m.Accepts irq false e.calls m' ∧ t.Fits irq m' := by
  have hcall {call : DriverCall} (hallowed : m.Allows irq false call) (hfits : t.Fits irq (m.after call)) :
      ∃ m', m.Accepts irq false [call] m' ∧ t.Fits irq m' := ⟨_, .cons hallowed rfl (.nil _), hfits⟩
  have hsilent (hfits : t.Fits irq m) : ∃ m', m.Accepts irq false [] m' ∧ t.Fits irq m' := ⟨m, .nil m, hfits⟩
  cases hstep with
  | tunnelThread r phase reads => exact hsilent h
  | composeFails hprepare => exact hsilent (exchangeReturns_fits h)
  | compose hprepare =>
    exact hsilent ⟨encodeMacFrame_length (PrimaryRadioInterface.prepareRequest_encode hprepare), h⟩
  | resetSend r request hsend =>
    obtain ⟨hallowed, hfits⟩ := sendStep_allowed h.1 h.2 hsend
    exact hcall hallowed ⟨h.1, hfits⟩
  | resetSent r request hsend =>
    obtain ⟨hallowed, hfits⟩ := sendStep_allowed h.1 h.2 hsend
    exact hcall hallowed hfits
  | resetUnsent r request hsend =>
    obtain ⟨hallowed, hfits⟩ := sendStep_allowed h.1 h.2 hsend
    exact hcall hallowed (resetFails_fits hfits)
  | resetReceive r hreceive =>
    obtain ⟨hallowed, hfits⟩ := receiveStep_allowed h hreceive
    exact hcall hallowed hfits
  | resetConfirmed r hreceive =>
    obtain ⟨hallowed, hfits⟩ := receiveStep_allowed h hreceive
    exact hcall hallowed hfits
  | resetRefused r hreceive =>
    obtain ⟨hallowed, hfits⟩ := receiveStep_allowed h hreceive
    exact hcall hallowed (resetFails_fits hfits)
  | send r tx request hsend =>
    obtain ⟨hallowed, hfits⟩ := sendStep_allowed h.1 h.2 hsend
    exact hcall hallowed ⟨h.1, hfits⟩
  | sent r tx request hsend =>
    obtain ⟨hallowed, hfits⟩ := sendStep_allowed h.1 h.2 hsend
    exact hcall hallowed hfits
  | unsent r tx request hsend =>
    obtain ⟨hallowed, hfits⟩ := sendStep_allowed h.1 h.2 hsend
    exact hcall hallowed (exchangeReturns_fits hfits)
  | receive r tx hreceive =>
    obtain ⟨hallowed, hfits⟩ := receiveStep_allowed h hreceive
    exact hcall hallowed hfits
  | received r tx hreceive =>
    obtain ⟨hallowed, hfits⟩ := receiveStep_allowed h hreceive
    exact hcall hallowed (completeExchange_fits hfits)
  | flushTx r hencode => exact hcall trivial ⟨encodeMacFrame_length hencode, rfl⟩
  | polled r =>
    refine hcall trivial ?_
    cases r.connectionResetRequired <;> exact h
  | gap r => exact hcall trivial (exchangeReturns_fits h)
  | confirmedFlushTx r => exact hcall trivial rfl
  | _ => exact hcall trivial h

theorem run_allowed {r : PrimaryRadioInterface} {es : List ThreadEvent}
    (h : Machine.Run (step irq) (fun _ _ => True) { radio := r } es t) :
    ∃ m, RadioMode.Accepts irq false {} (es.flatMap ThreadEvent.calls) m ∧ t.Fits irq m := by
  have hstart : Fits irq { radio := r } {} := rfl
  exact h.simulates (fun _ _ _ _ hfits _ hstep => step_allowed hfits (step_cases hstep)) hstart

/-- Whatever its calls return, the loop makes each of them as it has to be made, waits for the line only
    with a timeout, and is back at its top with an empty FIFO. -/
theorem coordinator_keeps_to_driver {r : PrimaryRadioInterface} {es : List ThreadEvent}
    (h : Machine.Run (step irq) (fun _ _ => True) { radio := r } es t) :
    ∃ m, RadioMode.Accepts irq false {} (es.flatMap ThreadEvent.calls) m ∧ (t.phase = .top → m.loaded = false) := by
  obtain ⟨m, haccepts, hfits⟩ := run_allowed h
  refine ⟨m, haccepts, fun htop => ?_⟩
  rw [Fits, htop] at hfits
  exact hfits

/-- A `ConnectionReset` on a radio with a line. -/
def confirmedReset (packet : Bytes) : List ThreadEvent :=
  [.timeNowUs 0, .sleepUs kActivePollIntervalUs, .flushRx, .flushTx, .stopListening, .write packet true, .timeNowUs 1500,
    .txStandBy true, .startListening, .timeNowUs 2000, .available false, .timeNowUs 2500,
    .lineEventWait (some ⟨0, 99500000⟩) .event, .lineEventRead .ok, .available true, .read packet, .flushRx, .flushTx].map .call

theorem confirmedReset_run :
    ∃ packet t, Machine.Run (step true) (fun _ _ => True) { radio := { currentPollIntervalUs := 100 } } (confirmedReset packet) t ∧
      t.phase = .top ∧ t.radio.state = .idle := by
  obtain ⟨packet, hencode, -⟩ := exists_encode_resetFrame
  have hexec : ((encodeMacFrame resetFrame).bind fun packet => (Machine.exec (step true) (fun _ _ => True)
      { radio := { currentPollIntervalUs := 100 } } (confirmedReset packet)).map fun t => (t.phase, t.radio.state)) =
      some (.top, .idle) := by
    decide +kernel
  rw [hencode] at hexec
  obtain ⟨t, ht, hstate⟩ := Option.map_eq_some_iff.mp hexec
  obtain ⟨htop, hidle⟩ := Prod.mk.inj hstate
  exact ⟨packet, t, .of_exec ht, htop, hidle⟩

theorem coordinator_keeps_to_driver_reset :
    ∃ packet t m, Machine.Run (step true) (fun _ _ => True) { radio := { currentPollIntervalUs := 100 } }
        (confirmedReset packet) t ∧ t.phase = .top ∧ t.radio.state = .idle ∧
      RadioMode.Accepts true false {} ((confirmedReset packet).flatMap ThreadEvent.calls) m ∧ m.loaded = false := by
  obtain ⟨packet, t, hrun, htop, hidle⟩ := confirmedReset_run
  obtain ⟨m, haccepts, hempty⟩ := coordinator_keeps_to_driver hrun
  exact ⟨packet, t, m, hrun, htop, hidle, haccepts, hempty htop⟩

end CoordinatorThread

/-! ### The peer -/

theorem SecondaryRadioInterface.handleRequest_encode {s u : SecondaryRadioInterface} {request response : Bytes}
    {reads : List Bytes} (h : s.handleRequest request reads = (u, some response)) : ∃ tx, encodeMacFrame tx = some response := by
  unfold handleRequest at h
  split at h
  · cases h
  · split at h
    · exact ⟨resetFrame, congrArg (·.2) h⟩
    · split at h
      · cases h
      · split at h
        · cases h
        · rename_i tx hchoose
          exact ⟨tx, congrArg (·.2) h⟩

namespace PeerThread
variable {irq : Bool} {s t : PeerThread} {m : RadioMode}

def Fits (irq : Bool) (s : PeerThread) (m : RadioMode) : Prop :=
  match s.phase with
  | .receive phase => phase.Fits irq 0 m
  | .send _ response phase => response.length = kMaxPacketSize ∧ phase.Fits m
  | _ => m.loaded = false

theorem step_allowed {e : ThreadEvent} (h : s.Fits irq m) (hstep : Step irq s e t) :
    ∃ m', m.Accepts irq true e.calls m' ∧ t.Fits irq m' := by
  have hcall {call : DriverCall} (hallowed : m.Allows irq true call) (hfits : t.Fits irq (m.after call)) :
      ∃ m', m.Accepts irq true [call] m' ∧ t.Fits irq m' := ⟨_, .cons hallowed rfl (.nil _), hfits⟩
  have hsilent (hfits : t.Fits irq m) : ∃ m', m.Accepts irq true [] m' ∧ t.Fits irq m' := ⟨m, .nil m, hfits⟩
  cases hstep with
  | tunnelThread r phase reads => exact hsilent h
  | receive r hreceive | received r hreceive | notReceived r hreceive =>
    obtain ⟨hallowed, hfits⟩ := receiveStep_allowed h hreceive
    exact hcall hallowed hfits
  | ignored hhandle => exact hsilent h
  | answered hhandle =>
    obtain ⟨tx, hencode⟩ := SecondaryRadioInterface.handleRequest_encode hhandle
    exact hsilent ⟨encodeMacFrame_length hencode, h⟩
  | send r request response hsend =>
    obtain ⟨hallowed, hfits⟩ := sendStep_allowed h.1 h.2 hsend
    exact hcall hallowed ⟨h.1, hfits⟩
  | @sent r request response phase call result hsend =>
    obtain ⟨hallowed, hfits⟩ := sendStep_allowed h.1 h.2 hsend
    refine hcall hallowed ?_
    rcases sent_cases r (.send request response phase) request with heq | heq <;> rw [heq] <;> exact hfits
  | statistics r nowUs => exact hcall trivial h

theorem run_allowed {r : SecondaryRadioInterface} {es : List ThreadEvent}
    (h : Machine.Run (step irq) (fun _ _ => True) { radio := r } es t) :
    ∃ m, RadioMode.Accepts irq true {} (es.flatMap ThreadEvent.calls) m ∧ t.Fits irq m := by
  have hstart : Fits irq { radio := r } {} := rfl
  exact h.simulates (fun _ _ _ _ hfits _ hstep => step_allowed hfits (step_cases hstep)) hstart

/-- The same of the peer, which waits for the line without a timeout. -/
theorem peer_keeps_to_driver {r : SecondaryRadioInterface} {es : List ThreadEvent}
    (h : Machine.Run (step irq) (fun _ _ => True) { radio := r } es t) :
    ∃ m, RadioMode.Accepts irq true {} (es.flatMap ThreadEvent.calls) m ∧
      (t.phase = .receive .startListening → m.loaded = false) := by
  obtain ⟨m, haccepts, hfits⟩ := run_allowed h
  refine ⟨m, haccepts, fun hreceive => ?_⟩
  rw [Fits, hreceive] at hfits
  exact hfits

/-- A Reset arrives, and the reply is not sent within the time of `txStandBy`. -/
def unsentReply (packet : Bytes) : List ThreadEvent :=
  ([.startListening, .available false, .lineEventWait none .interrupted, .available false, .lineEventWait none .event,
    .lineEventRead .ok, .available true, .read packet].map .call) ++ [.compose []] ++
  ([.stopListening, .write packet true, .timeNowUs 1000, .txStandBy false, .timeNowUs 21000, .flushTx,
    .sleepUs kTxFailureRecoveryGapUs].map .call)

theorem peer_keeps_to_driver_unsent :
    ∃ packet t m, Machine.Run (step true) (fun _ _ => True) { radio := {} } (unsentReply packet) t ∧
      t.phase = .receive .startListening ∧
      RadioMode.Accepts true true {} ((unsentReply packet).flatMap ThreadEvent.calls) m ∧ m.loaded = false := by
  obtain ⟨packet, hencode, -⟩ := exists_encode_resetFrame
  have hexec : ((encodeMacFrame resetFrame).bind fun packet => (Machine.exec (step true) (fun _ _ => True)
      { radio := {} } (unsentReply packet)).map PeerThread.phase) = some (.receive .startListening) := by
    decide +kernel
  rw [hencode] at hexec
  obtain ⟨t, ht, hphase⟩ := Option.map_eq_some_iff.mp hexec
  obtain ⟨m, haccepts, hempty⟩ := peer_keeps_to_driver (.of_exec ht)
  exact ⟨packet, t, m, .of_exec ht, hphase, haccepts, hempty hphase⟩

end PeerThread

end Nerfnet
