import Mathlib.Data.List.Basic

/-! # The ring of a stop-and-wait link

One direction of a stop-and-wait link numbers its items 1, 2, 3, … The sender has seen `acked` of them
acknowledged and offers item `acked + 1` when it is `armed`; the receiver has accepted `accepted` of
them. Both channels are FIFO and may lose what is sent: `data` lists the numbers of the items on their
way to the receiver and `acks` the numbers on their way back, the oldest first. Once around the ring
the numbers never fall: `acked`, the acknowledgements, `accepted`, the data, the item on offer. -/

structure StopAndWait (armed : Prop) (acked accepted : ℕ) (data acks : List ℕ) : Prop where
  lower : acked ≤ accepted
  upper : accepted ≤ acked + 1
  ahead : accepted = acked + 1 → armed
  data_sorted : data.Pairwise (· ≤ ·)
  data_pos : ∀ d ∈ data, 1 ≤ d
  data_lower : ∀ d ∈ data, accepted ≤ d
  data_upper : ∀ d ∈ data, d ≤ acked + 1
  data_armed : ∀ d ∈ data, d = acked + 1 → armed
  acks_sorted : acks.Pairwise (· ≤ ·)
  acks_lower : ∀ a ∈ acks, acked ≤ a
  acks_upper : ∀ a ∈ acks, a ≤ accepted

namespace StopAndWait
variable {armed armed' : Prop} {acked accepted n : ℕ} {data acks : List ℕ}

theorem start : StopAndWait False 0 0 [] [] := by
  constructor <;> simp

theorem congr (h : StopAndWait armed acked accepted data acks) (harmed : armed → armed') :
    StopAndWait armed' acked accepted data acks where
  lower := h.lower
  upper := h.upper
  ahead := harmed ∘ h.ahead
  data_sorted := h.data_sorted
  data_pos := h.data_pos
  data_lower := h.data_lower
  data_upper := h.data_upper
  data_armed d hd := harmed ∘ h.data_armed d hd
  acks_sorted := h.acks_sorted
  acks_lower := h.acks_lower
  acks_upper := h.acks_upper

/-- The sender offers its item once more. -/
theorem send (h : StopAndWait armed acked accepted data acks) (harmed : armed) :
    StopAndWait armed acked accepted (data ++ [acked + 1]) acks where
  lower := h.lower
  upper := h.upper
  ahead := h.ahead
  data_sorted := List.pairwise_append.mpr ⟨h.data_sorted, List.pairwise_singleton _ _,
    fun d hd _ hx => List.mem_singleton.mp hx ▸ h.data_upper d hd⟩
  data_pos d hd := by
    rcases List.mem_append.mp hd with hd | hd
    · exact h.data_pos d hd
    · simp [List.mem_singleton.mp hd]
  data_lower d hd := by
    rcases List.mem_append.mp hd with hd | hd
    · exact h.data_lower d hd
    · exact List.mem_singleton.mp hd ▸ h.upper
  data_upper d hd := by
    rcases List.mem_append.mp hd with hd | hd
    · exact h.data_upper d hd
    · exact Nat.le_of_eq (List.mem_singleton.mp hd)
  data_armed _ _ _ := harmed
  acks_sorted := h.acks_sorted
  acks_lower := h.acks_lower
  acks_upper := h.acks_upper

/-- The receiver acknowledges what it has accepted. -/
theorem acknowledge (h : StopAndWait armed acked accepted data acks) :
    StopAndWait armed acked accepted data (acks ++ [accepted]) where
  lower := h.lower
  upper := h.upper
  ahead := h.ahead
  data_sorted := h.data_sorted
  data_pos := h.data_pos
  data_lower := h.data_lower
  data_upper := h.data_upper
  data_armed := h.data_armed
  acks_sorted := List.pairwise_append.mpr ⟨h.acks_sorted, List.pairwise_singleton _ _,
    fun a ha _ hx => List.mem_singleton.mp hx ▸ h.acks_upper a ha⟩
  acks_lower a ha := by
    rcases List.mem_append.mp ha with ha | ha
    · exact h.acks_lower a ha
    · exact List.mem_singleton.mp ha ▸ h.lower
  acks_upper a ha := by
    rcases List.mem_append.mp ha with ha | ha
    · exact h.acks_upper a ha
    · exact Nat.le_of_eq (List.mem_singleton.mp ha)

/-- The oldest item on its way is a repetition of the last accepted one, or the next one. -/
theorem data_head (h : StopAndWait armed acked accepted (n :: data) acks) :
    n = accepted ∨ (n = accepted + 1 ∧ accepted = acked ∧ armed) := by
  have h1 := h.data_lower n List.mem_cons_self
  have h2 := h.data_upper n List.mem_cons_self
  have h3 := h.lower
  by_cases hn : n = accepted
  · exact Or.inl hn
  · exact Or.inr ⟨by omega, by omega, h.data_armed n List.mem_cons_self (by omega)⟩

/-- The receiver drops a repetition. -/
theorem skip (h : StopAndWait armed acked accepted (n :: data) acks) : StopAndWait armed acked accepted data acks where
  lower := h.lower
  upper := h.upper
  ahead := h.ahead
  data_sorted := (List.pairwise_cons.mp h.data_sorted).2
  data_pos d hd := h.data_pos d (List.mem_cons_of_mem _ hd)
  data_lower d hd := h.data_lower d (List.mem_cons_of_mem _ hd)
  data_upper d hd := h.data_upper d (List.mem_cons_of_mem _ hd)
  data_armed d hd := h.data_armed d (List.mem_cons_of_mem _ hd)
  acks_sorted := h.acks_sorted
  acks_lower := h.acks_lower
  acks_upper := h.acks_upper

/-- The receiver accepts the next item. -/
theorem accept (h : StopAndWait armed acked accepted ((accepted + 1) :: data) acks) :
    StopAndWait armed acked (accepted + 1) data acks where
  lower := Nat.le_succ_of_le h.lower
  upper := h.data_upper _ List.mem_cons_self
  ahead := h.data_armed _ List.mem_cons_self
  data_sorted := (List.pairwise_cons.mp h.data_sorted).2
  data_pos d hd := h.data_pos d (List.mem_cons_of_mem _ hd)
  data_lower := (List.pairwise_cons.mp h.data_sorted).1
  data_upper d hd := h.data_upper d (List.mem_cons_of_mem _ hd)
  data_armed d hd := h.data_armed d (List.mem_cons_of_mem _ hd)
  acks_sorted := h.acks_sorted
  acks_lower := h.acks_lower
  acks_upper a ha := Nat.le_succ_of_le (h.acks_upper a ha)

/-- The oldest acknowledgement on its way repeats the last one, or is for the item on offer, which the
    receiver has then accepted. -/
theorem acks_head (h : StopAndWait armed acked accepted data (n :: acks)) :
    n = acked ∨ (n = acked + 1 ∧ accepted = acked + 1 ∧ armed) := by
  have h1 := h.acks_lower n List.mem_cons_self
  have h2 := h.acks_upper n List.mem_cons_self
  have h3 := h.upper
  by_cases hn : n = acked
  · exact Or.inl hn
  · exact Or.inr ⟨by omega, by omega, h.ahead (by omega)⟩

/-- The sender drops an acknowledgement of an earlier item. -/
theorem skipAck (h : StopAndWait armed acked accepted data (n :: acks)) : StopAndWait armed acked accepted data acks where
  lower := h.lower
  upper := h.upper
  ahead := h.ahead
  data_sorted := h.data_sorted
  data_pos := h.data_pos
  data_lower := h.data_lower
  data_upper := h.data_upper
  data_armed := h.data_armed
  acks_sorted := (List.pairwise_cons.mp h.acks_sorted).2
  acks_lower a ha := h.acks_lower a (List.mem_cons_of_mem _ ha)
  acks_upper a ha := h.acks_upper a (List.mem_cons_of_mem _ ha)

/-- The sender retires the item on offer and offers nothing until it builds the next one. -/
theorem commit (h : StopAndWait armed acked accepted data ((acked + 1) :: acks)) :
    StopAndWait False (acked + 1) accepted data acks := by
  have heq : accepted = acked + 1 := Nat.le_antisymm h.upper (h.acks_upper _ List.mem_cons_self)
  exact {
    lower := Nat.le_of_eq heq.symm
    upper := by omega
    ahead := by omega
    data_sorted := h.data_sorted
    data_pos := h.data_pos
    data_lower := h.data_lower
    data_upper := fun d hd => Nat.le_succ_of_le (h.data_upper d hd)
    data_armed := fun d hd hd' => by
      have := h.data_upper d hd
      omega
    acks_sorted := (List.pairwise_cons.mp h.acks_sorted).2
    acks_lower := (List.pairwise_cons.mp h.acks_sorted).1
    acks_upper := fun a ha => h.acks_upper a (List.mem_cons_of_mem _ ha) }

end StopAndWait
