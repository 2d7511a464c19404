import Nerfnet.Theorems.Passes

/-! # Data under a grant

The peer's credits survive what it rejects, but they are used only in the pass of the loop that
received them: every accepted request sets them anew. -/

namespace Nerfnet

namespace SecondaryRadioInterface
variable {s t : SecondaryRadioInterface} {p : Pass} {ps : List Pass}

/-- The peer may send exactly while it has credits. -/
def CreditsAgree (s : SecondaryRadioInterface) : Prop := s.grantedToSend = true ↔ 0 < s.grantBudget

theorem creditsAgree_granted (r : RadioInterface) (rx : MacFrame) : (granted r rx).CreditsAgree := by
  by_cases htype : rx.type = .grant <;> simp [CreditsAgree, granted, htype]

theorem CreditsAgree.handled {request : Bytes} {reply : Option Bytes} (h : s.CreditsAgree) (hhandled : Handled s request t reply) :
    t.CreditsAgree := by
  cases hhandled with
  | dropped r => exact h
  | reset r rx reply => simp [CreditsAgree]
  | rejected r rx => exact h
  | answered r rx tx reply b g _ _ _ _ _ _ _ _ hanswers =>
    rcases hanswers with ⟨-, -, -, rfl, rfl⟩ | ⟨-, rfl, rfl⟩
    · simp [CreditsAgree, UInt8.pos_iff_ne_zero]
    · exact creditsAgree_granted r rx

/-- Requests and what the peer transmits in reply, pass by pass. -/
def transcript (s : SecondaryRadioInterface) : List Pass → List (Option MacFrame × Option MacFrame)
  | [] => []
  | p :: ps => (decodeMacFrame p.request, (s.loopPass p).2.bind decodeMacFrame) :: transcript (s.loopPass p).1 ps

def isGrant (e : Option MacFrame × Option MacFrame) : Bool := e.1.any (·.type == .grant)

def sendsData (e : Option MacFrame × Option MacFrame) : Bool := e.2.any (·.type == .data)

/-- A DATA frame is the reply to a Grant with credits. -/
theorem Handled.sendsData {request : Bytes} {reply : Option Bytes} (h : Handled s request t reply)
    (hdata : sendsData (decodeMacFrame request, reply.bind decodeMacFrame) = true) :
    ∃ rx, decodeMacFrame request = some rx ∧ rx.type = .grant ∧ 0 < rx.arg := by
  cases h with
  | dropped | rejected => simp [SecondaryRadioInterface.sendsData] at hdata
  | reset r rx reply _ _ _ _ hreply => simp [SecondaryRadioInterface.sendsData, hreply, resetFrame] at hdata
  | answered r rx tx reply b g _ _ hdecode _ _ _ hreply _ hanswers =>
    simp only [SecondaryRadioInterface.sendsData, Option.bind_some, hreply, Option.any_some, beq_iff_eq] at hdata
    rcases hanswers with ⟨-, hgrant, harg, -⟩ | ⟨hnot, -⟩
    · exact ⟨rx, hdecode, hgrant, harg⟩
    · exact absurd hdata hnot

theorem transcript_sendsData (hwf : s.tx.Wf) (ps : List Pass) :
    ∀ e ∈ transcript s ps, sendsData e = true → ∃ rx, e.1 = some rx ∧ rx.type = .grant ∧ 0 < rx.arg := by
  induction ps generalizing s with
  | nil => simp [transcript]
  | cons p ps ih =>
    have hhandled := loopPass_handled hwf p
    intro e he hdata
    rcases List.mem_cons.mp he with rfl | he
    · exact hhandled.sendsData hdata
    · exact ih (hhandled.lockSteps.wf hwf) e he hdata

/-- Without a Grant no DATA frame is sent. -/
theorem no_data_without_grant {log : List (Option MacFrame × Option MacFrame)}
    (hlog : ∀ e ∈ log, sendsData e = true → ∃ rx, e.1 = some rx ∧ rx.type = .grant ∧ 0 < rx.arg)
    (hgrant : ∀ e ∈ log, isGrant e = false) : log.countP sendsData = 0 := by
  refine List.countP_eq_zero.mpr fun e he hdata => ?_
  obtain ⟨rx, hrx, htype, -⟩ := hlog e he hdata
  have := hgrant e he
  simp [isGrant, hrx, htype] at this

/-- Whatever the peer receives, it may send exactly while it has credits, at the top of the loop and when
    it chooses its reply; every DATA frame answers a Grant with credits and takes one of them. So in a
    stretch without a Grant no DATA frame is sent, and from one Grant to the next no more than it allows. -/
theorem data_needs_grant (ps : List Pass) :
    (∀ s, Runs {} ps s → s.CreditsAgree ∧ ∀ before rx peer, applyCoordinatorRequest { s with tx := s.tx.tunnelThread before } rx =
      (peer, true) → peer.CreditsAgree ∧ ∀ between reads tx t,
        choosePeerResponse { peer with tx := peer.tx.tunnelThread between } reads = (t, some tx) → tx.type = .data →
        0 < peer.grantBudget ∧ t.grantBudget.toNat + 1 = peer.grantBudget.toNat) ∧
    (∀ e ∈ transcript {} ps, sendsData e = true → ∃ rx, e.1 = some rx ∧ rx.type = .grant ∧ 0 < rx.arg) ∧
    (∀ stretch, stretch <:+: transcript {} ps → (∀ e ∈ stretch, isGrant e = false) → stretch.countP sendsData = 0) ∧
    ∀ rx reply stretch, (some rx, reply) :: stretch <:+: transcript {} ps → rx.type = .grant →
      (∀ e ∈ stretch, isGrant e = false) → ((some rx, reply) :: stretch).countP sendsData ≤ rx.arg.toNat := by
  have hlog := transcript_sendsData (s := {}) TxState.wf_init ps
  refine ⟨fun s hs => ⟨?_, fun before rx peer happly => ⟨?_, fun between reads tx t hchoose hdata => ?_⟩⟩, hlog, ?_, ?_⟩
  · exact (Runs.invariant (fun _ _ _ _ h hhandled => CreditsAgree.handled h hhandled) hs TxState.wf_init
      (by simp [CreditsAgree])).2
  · rcases applyCoordinatorRequest_spec { s with tx := s.tx.tunnelThread before } rx with ⟨r, ok, -, ⟨-, -, haccept⟩ | ⟨-, hreject⟩⟩
    · obtain rfl := (Prod.mk.inj (haccept.symm.trans happly)).1
      exact creditsAgree_granted r rx
    · cases (Prod.mk.inj (hreject.symm.trans happly)).2
  · obtain ⟨r, -, -, -, hcase⟩ := choosePeerResponse_eq { peer with tx := peer.tx.tunnelThread between } reads
    rw [hchoose] at hcase
    rcases hcase tx rfl with ⟨-, -, hbudget, rfl⟩ | ⟨hnot, -⟩
    · refine ⟨hbudget, ?_⟩
      have hpos : 1 ≤ peer.grantBudget.toNat := UInt8.lt_iff_toNat_lt.mp hbudget
      have hle : 1 ≤ peer.grantBudget := UInt8.le_iff_toNat_le.mpr hpos
      rw [UInt8.toNat_sub_of_le _ _ hle, UInt8.toNat_one]
      omega
    · exact absurd hdata hnot
  · intro stretch hpart hgrant
    exact no_data_without_grant (fun e he => hlog e (hpart.subset he)) hgrant
  · intro rx reply stretch hpart htype hgrant
    have hrest := no_data_without_grant (fun e he => hlog e (hpart.subset (List.mem_cons_of_mem _ he))) hgrant
    rw [List.countP_cons, hrest]
    split
    · rename_i hdata
      obtain ⟨rx', hrx, -, harg⟩ := hlog _ (hpart.subset List.mem_cons_self) hdata
      obtain rfl := Option.some.inj hrx
      have hpos : 1 ≤ rx.arg.toNat := UInt8.lt_iff_toNat_lt.mp harg
      omega
    · omega

end SecondaryRadioInterface
end Nerfnet
