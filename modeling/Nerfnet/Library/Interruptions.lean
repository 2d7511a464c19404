import Nerfnet.Library.Transfer

/-! # What resets cost a transfer

A reset that cuts the packet at the front of the queue loses it or makes the receiver write its rest, and
one between the delivery of a last fragment and its commit makes the receiver write a packet twice. So a
reset costs at most one of the packets that leave the queue, and adds at most one to those that are
written. -/

namespace Transfer
variable {α : Type} {k n i base : ℕ} {valid : List α → Bool} {s t init : State α}
  {queue total written pushed kept : List (List α)}

/-- The states reached from `init` by steps and by a number of resets, whatever these find. -/
inductive ReachAfter (k : ℕ) (valid : List α → Bool) (init : State α) : ℕ → State α → Prop
  | init : ReachAfter k valid init 0 init
  | step {n : ℕ} {s t : State α} : ReachAfter k valid init n s → Step k valid s t → ReachAfter k valid init n t
  | reset {n : ℕ} {s : State α} : ReachAfter k valid init n s → ReachAfter k valid init (n + 1) s.reset

theorem ReachAfter.moves (h : ReachAfter k valid init n s) (hmoves : Relation.ReflTransGen (Step k valid) s t) :
    ReachAfter k valid init n t := by
  induction hmoves with
  | refl => exact h
  | tail _ hstep ih => exact ih.step hstep

/-- The packets in `kept` were pushed and written in this order, and all but `n` of the first `i` pushed
    packets, and all but `n` of the written ones, are among them. -/
structure Keeps (n i : ℕ) (pushed written kept : List (List α)) : Prop where
  pushed_sublist : kept.Sublist (pushed.take i)
  written_sublist : kept.Sublist written
  missing : i ≤ kept.length + n
  surplus : written.length ≤ kept.length + n

/-- Take the packets that have left the queue, and with them perhaps the one at its front, which may be
    written before it leaves: all but `n` of these have been written in order, and all but `n` of the written
    packets are these. -/
def AllBut (n : ℕ) (pushed queue written : List (List α)) : Prop :=
  ∃ i kept, removed pushed queue ≤ i ∧ i ≤ removed pushed queue + 1 ∧ Keeps n i pushed written kept

theorem AllBut.untouched (pushed : List (List α)) : AllBut 0 pushed pushed [] :=
  ⟨0, [], by simp [removed], Nat.zero_le _, List.nil_sublist _, List.nil_sublist _, Nat.le_refl 0, Nat.le_refl 0⟩

/-- The next packets are written as they were pushed. -/
theorem Keeps.append (h : Keeps n i pushed written kept) {m : ℕ} (hm : m ≤ (pushed.drop i).length) :
    Keeps n (i + m) pushed (written ++ (pushed.drop i).take m) (kept ++ (pushed.drop i).take m) where
  pushed_sublist := by
    rw [List.take_add]
    exact h.pushed_sublist.append (.refl _)
  written_sublist := h.written_sublist.append (.refl _)
  missing := by
    have := h.missing
    rw [List.length_append, List.length_take_of_le hm]
    omega
  surplus := by
    have := h.surplus
    rw [List.length_append, List.length_append, List.length_take_of_le hm]
    omega

/-- One more packet is lost, one more is written, or both. -/
theorem Keeps.cost (h : Keeps n i pushed written kept) {i' : ℕ} (extra : List (List α)) (hle : i ≤ i') (hone : i' ≤ i + 1)
    (hextra : extra.length ≤ 1) : Keeps (n + 1) i' pushed (written ++ extra) kept where
  pushed_sublist := h.pushed_sublist.trans (List.take_prefix_take_left hle).sublist
  written_sublist := h.written_sublist.trans (List.sublist_append_left _ _)
  missing := by
    have := h.missing
    omega
  surplus := by
    have := h.surplus
    rw [List.length_append]
    omega

theorem Keeps.pushed_append (h : Keeps n i pushed written kept) (packet : List α) : Keeps n i (pushed ++ [packet]) written kept where
  pushed_sublist := by
    rw [List.take_append]
    exact h.pushed_sublist.trans (List.sublist_append_left _ _)
  written_sublist := h.written_sublist
  missing := h.missing
  surplus := h.surplus

/-- A packet is pushed, and will be written. -/
theorem Keeps.push (h : Keeps n i pushed written kept) (hi : pushed.length ≤ i) (packet : List α) :
    Keeps n (pushed.length + 1) (pushed ++ [packet]) (written ++ [packet]) (kept ++ [packet]) where
  pushed_sublist := by
    rw [List.take_of_length_le (by simp)]
    exact (h.pushed_sublist.trans (List.take_sublist i pushed)).append (.refl _)
  written_sublist := h.written_sublist.append (.refl _)
  missing := by
    have := h.missing
    rw [List.length_append, List.length_singleton]
    omega
  surplus := by
    have := h.surplus
    rw [List.length_append, List.length_append, List.length_singleton]
    omega

/-- Whatever part of the session's packets is taken: the pushed packets up to it, or up to the next one
    where nothing is taken, are kept. -/
def SessionKeeps (valid : List α → Bool) (n base : ℕ) (total written pushed : List (List α)) : Prop :=
  ∀ j ≤ total.length, ∃ i kept, base + j ≤ i ∧ i ≤ base + j + 1 ∧ (0 < j → i = base + j) ∧
    Keeps n i pushed (written ++ (total.take j).filter valid) kept

theorem SessionKeeps.push (h : SessionKeeps valid n base total written pushed) (hal : Aligned base total pushed) {packet : List α}
    (hpacket : valid packet = true) : SessionKeeps valid n base (total ++ [packet]) written (pushed ++ [packet]) := by
  intro j hj
  rcases Nat.lt_or_ge total.length j with hlt | hle
  · obtain ⟨i, kept, hlo, hhi, -, hkeeps⟩ := h total.length (Nat.le_refl _)
    have hlength := hal.1
    rw [List.length_append, List.length_singleton] at hj
    have htake : (total ++ [packet]).take j = total ++ [packet] :=
      List.take_of_length_le (by rw [List.length_append, List.length_singleton]; omega)
    rw [List.take_length] at hkeeps
    rw [htake, List.filter_append, ← List.append_assoc, List.filter_singleton, hpacket, cond_true]
    exact ⟨pushed.length + 1, kept ++ [packet], by omega, by omega, by omega, hkeeps.push (by omega) packet⟩
  · obtain ⟨i, kept, hlo, hhi, hexact, hkeeps⟩ := h j hle
    rw [List.take_append_of_le_length hle]
    exact ⟨i, kept, hlo, hhi, hexact, hkeeps.pushed_append packet⟩

/-- What has been kept so far. -/
theorem SessionKeeps.allBut (h : SessionKeeps valid n base total written s.pushed) (hist : History k valid s base total written) :
    AllBut n s.pushed s.queue s.written := by
  obtain ⟨j, hlo, hhi, hwritten⟩ := hist.written_eq
  have hbase := hist.queue_aligned.2
  have hlength := hist.aligned.1
  have hremoved : removed s.pushed s.queue ≤ s.pushed.length := Nat.sub_le _ _
  obtain ⟨i, kept, hlo', hhi', hexact, hkeeps⟩ := h (min j total.length) (Nat.min_le_right _ _)
  have htake : total.take (min j total.length) = total.take j := by
    rw [← List.take_take, List.take_length]
  rw [htake, ← hwritten] at hkeeps
  rcases Nat.eq_zero_or_pos (min j total.length) with hzero | hpos
  · exact ⟨i, kept, by omega, by omega, hkeeps⟩
  · have := hexact hpos
    exact ⟨i, kept, by omega, by omega, hkeeps⟩

/-- A session that begins with a reset, at a cost of one. -/
theorem Keeps.reset (h : Keeps n i pushed written kept) (hal : Aligned base queue pushed) (hlo : base ≤ i) (hhi : i ≤ base + 1)
    (hvalid : ∀ p ∈ pushed, valid p = true) : SessionKeeps valid (n + 1) base queue written pushed := by
  intro j hj
  cases queue with
  | nil =>
    obtain rfl : j = 0 := Nat.le_zero.mp hj
    have hkeeps := h.cost [] (Nat.le_refl i) (Nat.le_succ i) (Nat.zero_le 1)
    exact ⟨i, kept, hlo, hhi, fun hpos => absurd hpos (Nat.lt_irrefl 0), hkeeps⟩
  | cons front rest =>
    have hrest : rest = pushed.drop (base + 1) := hal.2
    cases j with
    | zero =>
      have hkeeps := h.cost [] (Nat.le_refl i) (Nat.le_succ i) (Nat.zero_le 1)
      exact ⟨i, kept, hlo, hhi, fun hpos => absurd hpos (Nat.lt_irrefl 0), hkeeps⟩
    | succ m =>
      -- Only the front may be lost or written in part or twice: the packets behind it are whole.
      have hfront := h.cost ([front].filter valid) hhi (Nat.succ_le_succ hlo) (List.length_filter_le valid [front])
      have hm : m ≤ (pushed.drop (base + 1)).length := hrest ▸ Nat.le_of_succ_le_succ hj
      have hfilter : ((pushed.drop (base + 1)).take m).filter valid = (pushed.drop (base + 1)).take m :=
        List.filter_eq_self.mpr fun p hp => hvalid p (List.mem_of_mem_drop (List.mem_of_mem_take hp))
      have hsent : ((front :: rest).take (m + 1)).filter valid = [front].filter valid ++ (pushed.drop (base + 1)).take m := by
        rw [List.take_succ_cons, ← List.singleton_append, List.filter_append, hrest, hfilter]
      have hkeeps := hfront.append hm
      rw [List.append_assoc, ← hsent] at hkeeps
      exact ⟨base + 1 + m, _, by omega, by omega, fun _ => by omega, hkeeps⟩

theorem ReachAfter.sessionKeeps (hvalid : ∀ p ∈ queue, valid p = true) (h : ReachAfter k valid (start queue []) n s) :
    ∃ base total written, History k valid s base total written ∧ SessionKeeps valid n base total written s.pushed ∧
      ∀ p ∈ s.pushed, valid p = true := by
  induction h with
  | init =>
    refine ⟨0, queue, [], start_history queue [], fun j hj => ⟨j, queue.take j, by omega, by omega, fun _ => by omega, ?_⟩, hvalid⟩
    rw [List.filter_eq_self.mpr fun p hp => hvalid p (List.mem_of_mem_take hp), List.nil_append]
    exact ⟨.refl _, .refl _, by rw [List.length_take_of_le hj]; omega, Nat.le_refl _⟩
  | step _ hstep ih =>
    obtain ⟨base, total, written, ⟨⟨done, pre, hs⟩, hal⟩, hkeeps, hpushed⟩ := ih
    cases hstep with
    | push hpacket =>
      refine ⟨base, _, written, ⟨⟨done, pre, hs.push _⟩, hal.push _⟩, hkeeps.push hal hpacket, fun p hp => ?_⟩
      rcases List.mem_append.mp hp with hp | hp
      · exact hpushed p hp
      · rw [List.mem_singleton.mp hp, hpacket]
    | deliver hahead hq => exact ⟨base, total, written, ⟨⟨done, pre, hs.deliver hahead hq⟩, hal⟩, hkeeps, hpushed⟩
    | commit hahead => exact ⟨base, total, written, ⟨hs.commit hahead, hal⟩, hkeeps, hpushed⟩
  | reset _ ih =>
    obtain ⟨base, total, written, hist, hkeeps, hpushed⟩ := ih
    obtain ⟨i, kept, hlo, hhi, hkept⟩ := hkeeps.allBut hist
    exact ⟨_, _, _, ⟨⟨[], [], Session.fresh rfl rfl⟩, hist.queue_aligned.1⟩,
      hkept.reset hist.queue_aligned.1 hlo hhi hpushed, hpushed⟩

/-- A number of resets costs at most as many packets. -/
theorem ReachAfter.allBut (hvalid : ∀ p ∈ queue, valid p = true) (h : ReachAfter k valid (start queue []) n s) :
    AllBut n s.pushed s.queue s.written := by
  obtain ⟨base, total, written, hist, hkeeps, -⟩ := h.sessionKeeps hvalid
  exact hkeeps.allBut hist

end Transfer
