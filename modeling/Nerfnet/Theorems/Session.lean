import Nerfnet.Theorems.Direction

/-! # Two parties in a session

The two directions between the parties share the frames: a frame on its way from the one to the other
carries a fragment of the one direction and an acknowledgement of the other (`Pair`). What a session
does to the packets of a direction are moves of `Transfer` (`view`). -/

namespace Nerfnet

/-! ### The packets of a direction -/

/-- A direction without its frames. -/
def view (pushed : List Bytes) (tx : TxState) (rx : RxState) : Transfer.State UInt8 where
  pushed := pushed
  queue := tx.readBuffer
  buffer := rx.frameBuffer
  written := rx.tunnel
  ahead := ahead tx rx

abbrev PacketStep : Transfer.State UInt8 → Transfer.State UInt8 → Prop := Transfer.Step kMaxPayloadSize isValidIpPacket

abbrev Moves : Transfer.State UInt8 → Transfer.State UInt8 → Prop := Relation.ReflTransGen PacketStep

section
variable {pushed : List Bytes} {tx : TxState} {rx : RxState} {forth back : List MacFrame} {frame : MacFrame}

theorem moves_tunnelThread (pushed : List Bytes) (tx : TxState) (rx : RxState) (reads : List Bytes) :
    Moves (view pushed tx rx) (view (pushed ++ reads.filter isValidIpPacket) (tx.tunnelThread reads) rx) :=
  Transfer.steps_pushAll (view pushed tx rx) fun _ hp => (List.mem_filter.mp hp).2

theorem Direction.commit_moves (h : Direction tx rx forth (frame :: back)) :
    Moves (view pushed tx rx) (view pushed (tx.commitAckLocked frame.ack) rx) := by
  rcases h.commit.2 with hsame | ⟨hahead, hcommit⟩
  · rw [hsame]
  · rw [hcommit]
    exact .single (.commit (s := view pushed tx rx) hahead)

theorem Direction.consume_moves (pushed : List Bytes) (h : Direction tx rx (frame :: forth) back) (htype : frame.type = .data)
    (hne : ∀ packet ∈ tx.readBuffer, packet ≠ []) :
    Moves (view pushed tx rx) (view pushed tx (rx.consumeDataFrameLocked frame).1) := by
  obtain ⟨rx', heq, -, -, hcase⟩ := h.consume htype
  rw [heq]
  rcases hcase with rfl | ⟨hbehind, hahead, rfl, harg, hpayload⟩
  · rfl
  · have hf : tx.txInFlight = true := (Bool.and_eq_true_iff.mp hahead).1
    obtain ⟨front, rest, hq, hfront, hlast⟩ := h.wf.fragment hf
    have harrive := rx.acceptDataFrame_arrive (hne front (by simp [hq])) (hpayload.trans hfront) (harg ▸ hlast)
    have hview : view pushed tx (rx.acceptDataFrame frame) = (view pushed tx rx).deliver kMaxPayloadSize isValidIpPacket front := by
      simp only [view, Transfer.State.deliver, ← harrive, hahead]
    rw [hview]
    exact .single (.deliver hbehind hq)

end

/-! ### Both directions -/

/-- `ab` are the frames on their way from `a` to `b`, and `ba` those from `b` to `a`. -/
structure Pair (a b : RadioInterface) (ab ba : List MacFrame) : Prop where
  forth : Direction a.tx b.rx ab ba
  back : Direction b.tx a.rx ba ab

section
variable {a a' b : RadioInterface} {ab ba : List MacFrame} {frame : MacFrame} {ok : Bool}

theorem Pair.symm (h : Pair a b ab ba) : Pair b a ba ab := ⟨h.back, h.forth⟩

theorem Pair.start (a b : RadioInterface) : Pair a.resetLocked b.resetLocked [] [] :=
  ⟨Direction.start a.tx b.rx, Direction.start b.tx a.rx⟩

theorem Pair.tunnelThread (h : Pair a b ab ba) (reads : List Bytes) : Pair (a.tunnelThread reads) b ab ba :=
  ⟨h.forth.tunnelThread reads, h.back⟩

/-- `a` sends a frame, which may be lost. -/
theorem Pair.compose (h : Pair a b ab ba) (hc : Composes a a' frame) :
    Pair a' b ab ba ∧ Pair a' b (ab ++ [frame]) ba := by
  obtain ⟨hlost, hsent, -⟩ := h.forth.compose hc
  refine ⟨⟨hlost, ?_⟩, hsent, ?_⟩
  · rw [hc.rx]
    exact h.back
  · rw [hc.rx]
    exact h.back.acknowledge hc.ack

theorem Pair.compose_view (pushed pushedBack : List Bytes) (h : Pair a b ab ba) (hc : Composes a a' frame) :
    view pushed a'.tx b.rx = view pushed a.tx b.rx ∧ view pushedBack b.tx a'.rx = view pushedBack b.tx a.rx := by
  have hahead := (h.forth.compose hc).2.2
  exact ⟨by simp only [view, hahead, hc.readBuffer], by rw [hc.rx]⟩

/-- `a` takes the oldest frame from `b`. It never rejects its data. -/
theorem Pair.absorb (h : Pair a b ab (frame :: ba)) (hc : Absorbs a a' frame ok) : ok = true ∧ Pair a' b ab ba := by
  have hforth := h.forth.commit.1
  have hrx := hc.rx
  rw [← hc.tx] at hforth
  by_cases htype : frame.type = .data
  · obtain ⟨rx', heq, hback, -⟩ := h.back.consume htype
    rw [if_pos htype, heq, Prod.mk.injEq] at hrx
    exact ⟨hrx.2, hforth, hrx.1 ▸ hback⟩
  · rw [if_neg htype, Prod.mk.injEq] at hrx
    exact ⟨hrx.2, hforth, hrx.1 ▸ h.back.skip htype⟩

theorem Pair.absorb_moves (pushed pushedBack : List Bytes) (h : Pair a b ab (frame :: ba)) (hc : Absorbs a a' frame ok)
    (hne : ∀ packet ∈ b.tx.readBuffer, packet ≠ []) :
    Moves (view pushed a.tx b.rx) (view pushed a'.tx b.rx) ∧
      Moves (view pushedBack b.tx a.rx) (view pushedBack b.tx a'.rx) := by
  have hrx := hc.rx
  refine ⟨hc.tx ▸ h.forth.commit_moves, ?_⟩
  by_cases htype : frame.type = .data
  · rw [if_pos htype] at hrx
    have hmoves := h.back.consume_moves pushedBack htype hne
    rw [← hrx] at hmoves
    exact hmoves
  · rw [if_neg htype, Prod.mk.injEq] at hrx
    rw [hrx.1]

end

end Nerfnet
