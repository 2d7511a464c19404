import Mathlib.Data.List.Basic
import Mathlib.Data.List.Nodup
import Mathlib.Logic.Relation

/-! # Moving a queue of packets fragment by fragment

What one direction of a stop-and-wait link is for: packets of items `α` are pushed into a queue, their
fragments of at most `k` items are delivered to a receiver one at a time, and the receiver joins them
and writes the packets that pass its check `valid`. A delivered fragment stays at the front of the
queue until it is committed (`ahead`), and only then the next one is delivered.

A reset forgets the receiver's buffer and which fragment was delivered, but not what was committed: it
may leave the front packet of the queue cut. -/

namespace Transfer
variable {α : Type}

structure State (α : Type) where
  pushed : List (List α)
  queue : List (List α)
  buffer : List α
  written : List (List α)
  ahead : Bool

/-- The queue without the first fragment of its front packet. -/
def dropFragment (k : ℕ) : List (List α) → List (List α)
  | [] => []
  | front :: rest => if front.length ≤ k then rest else front.drop k :: rest

/-- The buffer and the written packets after the first fragment of `front` arrived: the last fragment
    of a packet writes what has been joined, if it passes the check. -/
def arrive (k : ℕ) (valid : List α → Bool) (front : List α) (buffer : List α) (written : List (List α)) :
    List α × List (List α) :=
  if front.length ≤ k then ([], written ++ [buffer ++ front].filter valid)
  else (buffer ++ front.take k, written)

def State.push (s : State α) (packet : List α) : State α :=
  { s with pushed := s.pushed ++ [packet], queue := s.queue ++ [packet] }

def State.deliver (k : ℕ) (valid : List α → Bool) (s : State α) (front : List α) : State α :=
  let received := arrive k valid front s.buffer s.written
  { s with buffer := received.1, written := received.2, ahead := true }

def State.commit (k : ℕ) (s : State α) : State α :=
  { s with queue := dropFragment k s.queue, ahead := false }

def State.reset (s : State α) : State α := { s with buffer := [], ahead := false }

inductive Step (k : ℕ) (valid : List α → Bool) : State α → State α → Prop
  | push {s : State α} {packet : List α} : valid packet = true → Step k valid s (s.push packet)
  | deliver {s : State α} {front : List α} {rest : List (List α)} :
      s.ahead = false → s.queue = front :: rest → Step k valid s (s.deliver k valid front)
  | commit {s : State α} : s.ahead = true → Step k valid s (s.commit k)

/-- The states reached from `init` by steps and by resets that find the pushed packets, the queue and
    the written packets as `ok` says. -/
inductive Reach (k : ℕ) (valid : List α → Bool) (ok : List (List α) → List (List α) → List (List α) → Prop)
    (init : State α) : State α → Prop
  | init : Reach k valid ok init init
  | step {s t : State α} : Reach k valid ok init s → Step k valid s t → Reach k valid ok init t
  | reset {s : State α} : Reach k valid ok init s → ok s.pushed s.queue s.written → Reach k valid ok init s.reset

/-! ### Dropping a fragment -/

section DropFragment
variable {k : ℕ} {queue : List (List α)}

theorem dropFragment_nonempty (h : ∀ p ∈ queue, p ≠ []) : ∀ p ∈ dropFragment k queue, p ≠ [] := by
  intro p hp
  cases queue with
  | nil => cases hp
  | cons front rest =>
    simp only [dropFragment] at hp
    split at hp
    · exact h p (List.mem_cons_of_mem _ hp)
    · rcases List.mem_cons.mp hp with rfl | hp
      · exact List.ne_nil_of_length_pos (by rw [List.length_drop]; omega)
      · exact h p (List.mem_cons_of_mem _ hp)

theorem length_dropFragment_le (k : ℕ) (queue : List (List α)) : (dropFragment k queue).length ≤ queue.length := by
  cases queue with
  | nil => exact Nat.le_refl _
  | cons front rest =>
    simp only [dropFragment]
    split
    · exact Nat.le_succ _
    · exact Nat.le_refl _

/-- The dropped fragment is all that is missing. -/
theorem flatten_dropFragment (front : List α) (rest : List (List α)) :
    front.take k ++ (dropFragment k (front :: rest)).flatten = (front :: rest).flatten := by
  simp only [dropFragment]
  split
  · rename_i hle
    rw [List.take_of_length_le hle, List.flatten_cons]
  · rw [List.flatten_cons, List.flatten_cons, ← List.append_assoc, List.take_append_drop]

end DropFragment

/-! ### Counting fragments -/

/-- How many fragments a queue is sent in. -/
def fragments (k : ℕ) : List (List α) → ℕ
  | [] => 0
  | front :: rest => (front.length + (k - 1)) / k + fragments k rest

section Fragments
variable {k : ℕ} {queue : List (List α)}

@[simp] theorem fragments_nil : fragments k ([] : List (List α)) = 0 := rfl

@[simp] theorem fragments_cons (front : List α) (rest : List (List α)) :
    fragments k (front :: rest) = (front.length + (k - 1)) / k + fragments k rest := rfl

theorem fragments_append (queue queue' : List (List α)) : fragments k (queue ++ queue') = fragments k queue + fragments k queue' := by
  induction queue with
  | nil => simp
  | cons front rest ih =>
    rw [List.cons_append, fragments_cons, fragments_cons, ih, Nat.add_assoc]

theorem fragments_dropFragment (hk : 0 < k) (hne : queue ≠ []) (hqueue : ∀ p ∈ queue, p ≠ []) :
    fragments k (dropFragment k queue) + 1 = fragments k queue := by
  cases queue with
  | nil => exact absurd rfl hne
  | cons front rest =>
    have hpos : 0 < front.length := List.length_pos_iff.mpr (hqueue front List.mem_cons_self)
    simp only [dropFragment]
    split
    · rename_i hle
      have hone : (front.length + (k - 1)) / k = 1 := Nat.div_eq_of_lt_le (by omega) (by omega)
      rw [fragments_cons, hone, Nat.add_comm]
    · rename_i hlt
      have hsplit : front.length + (k - 1) = (front.length - k + (k - 1)) + k := by omega
      rw [fragments_cons, fragments_cons, List.length_drop, hsplit, Nat.add_div_right _ hk]
      omega

theorem fragments_eq_zero (hk : 0 < k) (hqueue : ∀ p ∈ queue, p ≠ []) : fragments k queue = 0 ↔ queue = [] := by
  constructor
  · intro h
    by_contra hne
    have := fragments_dropFragment hk hne hqueue
    omega
  · rintro rfl
    rfl

end Fragments

/-- The same state, when `earlier` had been pushed before. -/
def State.withEarlier (earlier : List (List α)) (s : State α) : State α := { s with pushed := earlier ++ s.pushed }

section Steps
variable {k : ℕ} {valid : List α → Bool} {s t u init : State α} {earlier : List (List α)}
  {ok : List (List α) → List (List α) → List (List α) → Prop}

theorem Step.withEarlier (h : Step k valid s t) : Step k valid (s.withEarlier earlier) (t.withEarlier earlier) := by
  cases h with
  | @push packet hvalid =>
    have hpush : (s.push packet).withEarlier earlier = (s.withEarlier earlier).push packet := by
      simp [State.push, State.withEarlier]
    rw [hpush]
    exact .push hvalid
  | deliver hahead hq => exact .deliver (s := s.withEarlier earlier) hahead hq
  | commit hahead => exact .commit (s := s.withEarlier earlier) hahead

/-- Where the check rejects the empty packet, no packet of the queue becomes empty. -/
theorem Step.queue_nonempty (hvalid : valid [] = false) (h : Step k valid s t) (hs : ∀ p ∈ s.queue, p ≠ []) :
    ∀ p ∈ t.queue, p ≠ [] := by
  cases h with
  | push hpacket =>
    intro p hp
    rcases List.mem_append.mp hp with hp | hp
    · exact hs p hp
    · rintro rfl
      rw [← List.mem_singleton.mp hp, hvalid] at hpacket
      cases hpacket
  | deliver hahead hq => exact hs
  | commit hahead => exact dropFragment_nonempty hs

theorem steps_pushAll (s : State α) {packets : List (List α)} (hvalid : ∀ p ∈ packets, valid p = true) :
    Relation.ReflTransGen (Step k valid) s { s with pushed := s.pushed ++ packets, queue := s.queue ++ packets } := by
  induction packets generalizing s with
  | nil => simpa only [List.append_nil] using .refl
  | cons packet packets ih =>
    have hrest := ih (s.push packet) fun p hp => hvalid p (List.mem_cons_of_mem _ hp)
    simp only [State.push, List.append_assoc, List.singleton_append] at hrest
    exact .head (.push (hvalid packet List.mem_cons_self)) hrest

theorem Reach.moves (h : Reach k valid ok init s) (hmoves : Relation.ReflTransGen (Step k valid) s t) :
    Reach k valid ok init t := by
  induction hmoves with
  | refl => exact h
  | tail _ hstep ih => exact ih.step hstep

end Steps

/-! ### A session

Between two resets the packets move in order: `total` are the packets queued at the start of the
session and pushed since, `done` those of them that left the queue, and `pre` is what was committed of
the packet at the front. -/

/-- The front packet with its committed part, and the packets behind it. -/
def join (pre : List α) : List (List α) → List (List α)
  | [] => []
  | front :: rest => (pre ++ front) :: rest

theorem join_length (pre : List α) (queue : List (List α)) : (join pre queue).length = queue.length := by
  cases queue <;> rfl

theorem join_tail (pre : List α) (queue : List (List α)) : (join pre queue).tail = queue.tail := by
  cases queue <;> rfl

structure Session (k : ℕ) (valid : List α → Bool) (s : State α) (total written : List (List α))
    (done : List (List α)) (pre : List α) : Prop where
  total_eq : total = done ++ join pre s.queue
  idle : s.queue = [] → pre = [] ∧ s.ahead = false
  behind : s.ahead = false → s.buffer = pre ∧ s.written = written ++ done.filter valid
  ahead : s.ahead = true → ∀ front rest, s.queue = front :: rest →
    (s.buffer, s.written) = arrive k valid front pre (written ++ done.filter valid)

section Session
variable {k : ℕ} {valid : List α → Bool} {s t : State α} {total written done : List (List α)} {pre packet : List α}

theorem Session.fresh (hbuffer : s.buffer = []) (hahead : s.ahead = false) : Session k valid s s.queue s.written [] [] where
  total_eq := by cases hq : s.queue <;> simp [join]
  idle _ := ⟨rfl, hahead⟩
  behind _ := ⟨hbuffer, by simp⟩
  ahead h := by rw [hahead] at h; cases h

theorem Session.push (h : Session k valid s total written done pre) (packet : List α) :
    Session k valid (s.push packet) (total ++ [packet]) written done pre where
  total_eq := by
    rw [h.total_eq]
    cases hq : s.queue with
    | nil => simp [State.push, hq, join, (h.idle hq).1]
    | cons front rest => simp [State.push, hq, join]
  idle hq := by simp [State.push] at hq
  behind := h.behind
  ahead hahead front rest hq := by
    cases hq' : s.queue with
    | nil =>
      have hnot := (h.idle hq').2
      simp only [State.push] at hahead
      rw [hnot] at hahead
      cases hahead
    | cons first others =>
      simp only [State.push, hq', List.cons_append, List.cons.injEq] at hq
      obtain ⟨rfl, -⟩ := hq
      exact h.ahead hahead first others hq'

theorem Session.deliver (h : Session k valid s total written done pre) {front : List α} {rest : List (List α)}
    (hahead : s.ahead = false) (hq : s.queue = front :: rest) :
    Session k valid (s.deliver k valid front) total written done pre where
  total_eq := h.total_eq
  idle hnil := by
    simp only [State.deliver] at hnil
    rw [hnil] at hq
    cases hq
  behind hnot := by cases hnot
  ahead _ first others hq' := by
    simp only [State.deliver] at hq' ⊢
    rw [hq] at hq'
    obtain ⟨rfl, -⟩ := List.cons.inj hq'
    obtain ⟨hbuffer, hwritten⟩ := h.behind hahead
    rw [hbuffer, hwritten]

theorem Session.commit (h : Session k valid s total written done pre) (hahead : s.ahead = true) :
    ∃ done' pre', Session k valid (s.commit k) total written done' pre' := by
  cases hq : s.queue with
  | nil =>
    rw [(h.idle hq).2] at hahead
    cases hahead
  | cons front rest =>
    have hview := h.ahead hahead front rest hq
    by_cases hle : front.length ≤ k
    · -- The last fragment: the packet leaves the queue.
      simp only [arrive, hle, if_true, Prod.mk.injEq] at hview
      refine ⟨done ++ [pre ++ front], [], ?_, ?_, ?_, ?_⟩
      · rw [h.total_eq, hq]
        cases rest <;> simp [State.commit, hq, dropFragment, hle, join]
      · exact fun _ => ⟨rfl, rfl⟩
      · exact fun _ => ⟨hview.1, by rw [State.commit, hview.2, List.filter_append, List.append_assoc]⟩
      · exact fun h => by cases h
    · simp only [arrive, hle, if_false, Prod.mk.injEq] at hview
      refine ⟨done, pre ++ front.take k, ?_, ?_, ?_, ?_⟩
      · rw [h.total_eq, hq]
        simp [State.commit, hq, dropFragment, hle, join]
      · exact fun hnil => by simp [State.commit, hq, dropFragment, hle] at hnil
      · exact fun _ => hview
      · exact fun h => by cases h

/-- The packets that left the queue, and perhaps the one at its front, have been written if valid. -/
theorem Session.written_eq (h : Session k valid s total written done pre) :
    ∃ j, done.length ≤ j ∧ j ≤ done.length + 1 ∧ s.written = written ++ (total.take j).filter valid := by
  have htake : total.take done.length = done := by rw [h.total_eq]; simp
  by_cases hahead : s.ahead = true
  · cases hq : s.queue with
    | nil =>
      rw [(h.idle hq).2] at hahead
      cases hahead
    | cons front rest =>
      have hview := h.ahead hahead front rest hq
      by_cases hle : front.length ≤ k
      · simp only [arrive, hle, if_true, Prod.mk.injEq] at hview
        refine ⟨done.length + 1, by omega, Nat.le_refl _, ?_⟩
        have : total.take (done.length + 1) = done ++ [pre ++ front] := by
          rw [h.total_eq, hq, List.take_length_add_append]
          rfl
        rw [hview.2, this, List.filter_append, List.append_assoc]
      · simp only [arrive, hle, if_false, Prod.mk.injEq] at hview
        exact ⟨done.length, Nat.le_refl _, by omega, by rw [hview.2, htake]⟩
  · exact ⟨done.length, Nat.le_refl _, by omega, by rw [(h.behind (by simpa using hahead)).2, htake]⟩

/-- Moves stay in the session, which takes the pushed packets. -/
theorem Session.moves (h : Session k valid s total written done pre) (hmoves : Relation.ReflTransGen (Step k valid) s t) :
    ∃ packets done' pre', t.pushed = s.pushed ++ packets ∧ Session k valid t (total ++ packets) written done' pre' := by
  induction hmoves with
  | refl => exact ⟨[], done, pre, by simp, by simpa using h⟩
  | tail _ hstep ih =>
    obtain ⟨packets, done', pre', hpushed, hs⟩ := ih
    cases hstep with
    | @push packet hvalid =>
      refine ⟨packets ++ [packet], done', pre', ?_, ?_⟩
      · rw [State.push, hpushed, List.append_assoc]
      · rw [← List.append_assoc]
        exact hs.push packet
    | deliver hahead hq => exact ⟨packets, done', pre', hpushed, hs.deliver hahead hq⟩
    | commit hahead =>
      obtain ⟨done', pre', hs⟩ := hs.commit hahead
      exact ⟨packets, done', pre', hpushed, hs⟩

/-- When the queue is empty, everything that was queued at the start or pushed since is written if valid. -/
theorem Session.drained (h : Session k valid s total written done pre) (hq : s.queue = []) :
    s.buffer = [] ∧ s.written = written ++ total.filter valid := by
  obtain ⟨hpre, hahead⟩ := h.idle hq
  obtain ⟨hbuffer, hwritten⟩ := h.behind hahead
  have htotal : total = done := by rw [h.total_eq, hq, join, List.append_nil]
  exact ⟨hbuffer.trans hpre, htotal ▸ hwritten⟩

theorem Session.length (h : Session k valid s total written done pre) :
    total.length = done.length + s.queue.length := by
  rw [h.total_eq, List.length_append, join_length]

end Session

/-! ### The history of resets

`total` is what the pushed packets are without the first `base` of them, except that its first packet
may be cut. -/

def Aligned (base : ℕ) (total pushed : List (List α)) : Prop :=
  total.length + base = pushed.length ∧ total.tail = pushed.drop (base + 1)

/-- A state within a session that began with `written` written. -/
structure History (k : ℕ) (valid : List α → Bool) (s : State α) (base : ℕ) (total written : List (List α)) : Prop where
  session : ∃ done pre, Session k valid s total written done pre
  aligned : Aligned base total s.pushed

/-- The packets that left the queue for good. -/
def removed (pushed queue : List (List α)) : ℕ := pushed.length - queue.length

section History
variable {k : ℕ} {valid : List α → Bool} {s t init : State α} {base : ℕ} {total written : List (List α)}
  {ok : List (List α) → List (List α) → List (List α) → Prop}

theorem Aligned.push {pushed : List (List α)} (h : Aligned base total pushed) (packet : List α) :
    Aligned base (total ++ [packet]) (pushed ++ [packet]) := by
  obtain ⟨hlen, htail⟩ := h
  refine ⟨by simp only [List.length_append]; omega, ?_⟩
  cases total with
  | nil =>
    simp only [List.length_nil] at hlen
    rw [List.drop_eq_nil_of_le (by simp only [List.length_append, List.length_singleton]; omega)]
    rfl
  | cons x xs =>
    simp only [List.length_cons] at hlen
    simp only [List.tail_cons] at htail
    rw [List.drop_append_of_le_length (by omega), ← htail]
    rfl

/-- What a session leaves in the queue is aligned with the packets that have not been removed. -/
theorem History.queue_aligned (h : History k valid s base total written) :
    Aligned (removed s.pushed s.queue) s.queue s.pushed ∧ base ≤ removed s.pushed s.queue := by
  obtain ⟨⟨done, pre, hs⟩, hlen, htail⟩ := h
  have hlength := hs.length
  have hbase : removed s.pushed s.queue = base + done.length := by unfold removed; omega
  refine ⟨⟨by unfold removed; omega, ?_⟩, by omega⟩
  have hdrop : s.queue.tail = total.tail.drop done.length := by
    rw [← join_tail pre, List.drop_tail, hs.total_eq, ← List.tail_drop, List.drop_left]
  rw [hbase, hdrop, htail, List.drop_drop, Nat.add_right_comm]

theorem History.written_eq (h : History k valid s base total written) :
    ∃ j, removed s.pushed s.queue ≤ base + j ∧ base + j ≤ removed s.pushed s.queue + 1 ∧
      s.written = written ++ (total.take j).filter valid := by
  obtain ⟨⟨done, pre, hs⟩, hlen, -⟩ := h
  obtain ⟨j, hlo, hhi, hw⟩ := hs.written_eq
  have hlength := hs.length
  exact ⟨j, by unfold removed; omega, by unfold removed; omega, hw⟩

/-- The induction over sessions: `P` says what holds of the start of the current session. -/
theorem Reach.history {P : ℕ → List (List α) → List (List α) → List (List α) → Prop}
    (hstart : History k valid init base total written) (hbase : P base total written init.pushed)
    (hpush : ∀ base total written pushed packet, P base total written pushed → Aligned base total pushed →
      valid packet = true → P base (total ++ [packet]) written (pushed ++ [packet]))
    (hreset : ∀ (s : State α) base total written, History k valid s base total written →
      P base total written s.pushed → ok s.pushed s.queue s.written →
      P (removed s.pushed s.queue) s.queue s.written s.pushed)
    (h : Reach k valid ok init s) :
    ∃ base total written, History k valid s base total written ∧ P base total written s.pushed := by
  induction h with
  | init => exact ⟨base, total, written, hstart, hbase⟩
  | step _ hstep ih =>
    obtain ⟨base, total, written, ⟨⟨done, pre, hs⟩, hal⟩, hP⟩ := ih
    cases hstep with
    | push hvalid =>
      exact ⟨base, _, written, ⟨⟨done, pre, hs.push _⟩, hal.push _⟩, hpush _ _ _ _ _ hP hal hvalid⟩
    | deliver hahead hq => exact ⟨base, total, written, ⟨⟨done, pre, hs.deliver hahead hq⟩, hal⟩, hP⟩
    | commit hahead => exact ⟨base, total, written, ⟨hs.commit hahead, hal⟩, hP⟩
  | reset _ hok ih =>
    obtain ⟨base, total, written, hist, hP⟩ := ih
    exact ⟨_, _, _, ⟨⟨[], [], Session.fresh rfl rfl⟩, hist.queue_aligned.1⟩, hreset _ _ _ _ hist hP hok⟩

end History

/-! ### What runs keep

All four results start from a queue of whole packets with nothing on its way. -/

def start (queue written : List (List α)) : State α := ⟨queue, queue, [], written, false⟩

section Results
variable {k : ℕ} {valid : List α → Bool} {s : State α} {queue written : List (List α)}
  {ok : List (List α) → List (List α) → List (List α) → Prop}

theorem start_history (queue written : List (List α)) :
    History k valid (start queue written) 0 queue written :=
  ⟨⟨[], [], Session.fresh rfl rfl⟩, rfl, (List.drop_one ..).symm⟩

/-- When the queue is empty the receiver waits for nothing. -/
theorem Reach.buffer_eq_nil (h : Reach k valid ok (start queue written) s) (hq : s.queue = []) : s.buffer = [] := by
  obtain ⟨base, total, w, ⟨⟨done, pre, hs⟩, -⟩, -⟩ := h.history (P := fun _ _ _ _ => True)
    (start_history queue written) trivial (fun _ _ _ _ _ _ _ _ => trivial) (fun _ _ _ _ _ _ _ => trivial)
  obtain ⟨rfl, hahead⟩ := hs.idle hq
  exact (hs.behind hahead).1

/-- Without resets the written packets are the pushed ones in order, up to the removed ones and perhaps
    the one whose last fragment has not been committed. -/
theorem Reach.in_order (hvalid : ∀ p ∈ queue, valid p = true)
    (h : Reach k valid (fun _ _ _ => False) (start queue written) s) :
    ∃ j, removed s.pushed s.queue ≤ j ∧ j ≤ removed s.pushed s.queue + 1 ∧
      s.written = written ++ s.pushed.take j := by
  obtain ⟨base, total, w, hist, rfl, rfl, rfl, hall⟩ := h.history
    (P := fun base total w pushed => base = 0 ∧ w = written ∧ total = pushed ∧ ∀ p ∈ total, valid p = true)
    (start_history queue written) ⟨rfl, rfl, rfl, hvalid⟩
    (fun base total w pushed packet hP _ hp => by
      obtain ⟨rfl, rfl, rfl, hall⟩ := hP
      refine ⟨rfl, rfl, rfl, fun q hq => ?_⟩
      rcases List.mem_append.mp hq with hq | hq
      · exact hall q hq
      · rw [List.mem_singleton.mp hq, hp])
    (fun _ _ _ _ _ _ hok => hok.elim)
  obtain ⟨j, hlo, hhi, hw⟩ := hist.written_eq
  refine ⟨j, by omega, by omega, ?_⟩
  rw [hw, List.filter_eq_self.mpr fun p hp => hall p (List.mem_of_mem_take hp)]

end Results

/-! ### What a reset finds at the front of the queue -/

/-- The packet at the front is whole: nothing of it has been committed. -/
def FrontWhole (pushed queue : List (List α)) : Prop := queue.head? = pushed[removed pushed queue]?

/-- What is left of the packet at the front is a pushed packet, or does not pass the check. -/
def FrontIntact (valid : List α → Bool) (pushed queue : List (List α)) : Prop :=
  ∀ front ∈ queue.head?, valid front = true → front ∈ pushed

/-- The packet at the front is whole, or it has been written like all packets before it. -/
def FrontAccounted (pushed queue written : List (List α)) : Prop :=
  FrontWhole pushed queue ∨ (pushed.take (removed pushed queue + 1)).Sublist written

/-- If what is left of the packet at the front passes the check, it is the whole packet and has not
    been written. -/
def FrontFresh (valid : List α → Bool) (pushed queue written : List (List α)) : Prop :=
  ∀ front ∈ queue.head?, valid front = true → FrontWhole pushed queue ∧ front ∉ written

instance [DecidableEq α] (pushed queue : List (List α)) : Decidable (FrontWhole pushed queue) :=
  inferInstanceAs (Decidable (_ = _))
instance [DecidableEq α] (valid : List α → Bool) (pushed queue : List (List α)) : Decidable (FrontIntact valid pushed queue) :=
  inferInstanceAs (Decidable (∀ front ∈ queue.head?, valid front = true → front ∈ pushed))
instance [DecidableEq α] (pushed queue written : List (List α)) : Decidable (FrontAccounted pushed queue written) :=
  inferInstanceAs (Decidable (_ ∨ _))
instance [DecidableEq α] (valid : List α → Bool) (pushed queue written : List (List α)) :
    Decidable (FrontFresh valid pushed queue written) :=
  inferInstanceAs (Decidable (∀ front ∈ queue.head?, valid front = true → FrontWhole pushed queue ∧ front ∉ written))

section Resets
variable {k : ℕ} {valid : List α → Bool} {s : State α} {queue : List (List α)}
  {ok : List (List α) → List (List α) → List (List α) → Prop}

theorem mem_of_tail {total pushed : List (List α)} {base : ℕ} (h : Aligned base total pushed) {p : List α}
    (hp : p ∈ total) : total.head? = some p ∨ p ∈ pushed := by
  cases total with
  | nil => cases hp
  | cons x xs =>
    rcases List.mem_cons.mp hp with rfl | hp
    · exact Or.inl rfl
    · refine Or.inr (List.mem_of_mem_drop (i := base + 1) ?_)
      rw [← h.2]
      exact hp

/-- If every reset finds the front intact, only pushed packets are written. -/
theorem Reach.written_mem (hok : ∀ pushed queue written, ok pushed queue written → FrontIntact valid pushed queue)
    (h : Reach k valid ok (start queue []) s) : ∀ p ∈ s.written, p ∈ s.pushed := by
  obtain ⟨base, total, w, hist, hw, htotal⟩ := h.history
    (P := fun _ total w pushed => (∀ p ∈ w, p ∈ pushed) ∧ ∀ p ∈ total, valid p = true → p ∈ pushed)
    (start_history queue []) ⟨by simp, fun p hp _ => hp⟩
    (fun base total w pushed packet hP _ _ => by
      refine ⟨fun p hp => List.mem_append_left _ (hP.1 p hp), fun p hp hval => ?_⟩
      rcases List.mem_append.mp hp with hp | hp
      · exact List.mem_append_left _ (hP.2 p hp hval)
      · exact List.mem_append_right _ hp)
    (fun s base total w hist hP hreset => by
      obtain ⟨j, -, -, hwritten⟩ := hist.written_eq
      refine ⟨fun p hp => ?_, fun p hp hval => ?_⟩
      · rw [hwritten] at hp
        rcases List.mem_append.mp hp with hp | hp
        · exact hP.1 p hp
        · exact hP.2 p (List.mem_of_mem_take (List.mem_filter.mp hp).1) (List.mem_filter.mp hp).2
      · rcases mem_of_tail hist.queue_aligned.1 hp with hhead | hp
        · exact hok _ _ _ hreset p hhead hval
        · exact hp)
  obtain ⟨j, -, -, hwritten⟩ := hist.written_eq
  intro p hp
  rw [hwritten] at hp
  rcases List.mem_append.mp hp with hp | hp
  · exact hw p hp
  · exact htotal p (List.mem_of_mem_take (List.mem_filter.mp hp).1) (List.mem_filter.mp hp).2

/-- Whatever part of the session's packets is taken, the pushed packets up to it have been written. -/
def Covered (valid : List α → Bool) (base : ℕ) (total written pushed : List (List α)) : Prop :=
  ∀ j ≤ total.length, (pushed.take (base + j)).Sublist (written ++ (total.take j).filter valid)

theorem History.removed_covered {base : ℕ} {total written : List (List α)} (h : History k valid s base total written)
    (hcov : Covered valid base total written s.pushed) :
    (s.pushed.take (removed s.pushed s.queue)).Sublist s.written := by
  obtain ⟨j, hlo, -, hwritten⟩ := h.written_eq
  have hle := h.queue_aligned.2
  have hlen := h.aligned.1
  have hsub := hcov (removed s.pushed s.queue - base) (by unfold removed; omega)
  rw [Nat.add_sub_cancel' hle] at hsub
  rw [hwritten]
  refine hsub.trans ((List.Sublist.refl written).append (List.Sublist.filter valid ?_))
  exact (List.take_prefix_take_left (by omega)).sublist

theorem Covered.push {base : ℕ} {total written pushed : List (List α)} (h : Covered valid base total written pushed)
    (hal : Aligned base total pushed) {packet : List α} (hp : valid packet = true) :
    Covered valid base (total ++ [packet]) written (pushed ++ [packet]) := by
  intro j hj
  have hlen := hal.1
  by_cases hj' : j ≤ total.length
  · rw [List.take_append_of_le_length (by omega), List.take_append_of_le_length hj']
    exact h j hj'
  · have hall := h total.length (Nat.le_refl _)
    rw [List.take_of_length_le (by omega), List.take_length] at hall
    simp only [List.length_append, List.length_singleton] at hj
    rw [List.take_of_length_le (by simp only [List.length_append, List.length_singleton]; omega),
      List.take_of_length_le (by simp only [List.length_append, List.length_singleton]; omega),
      List.filter_append, ← List.append_assoc]
    exact hall.append (by simp [hp])

/-- A session that begins with the front accounted for. -/
theorem Covered.reset {written pushed : List (List α)} (hal : Aligned (removed pushed queue) queue pushed)
    (hvalid : ∀ p ∈ pushed, valid p = true) (hremoved : (pushed.take (removed pushed queue)).Sublist written)
    (hfront : FrontAccounted pushed queue written) : Covered valid (removed pushed queue) queue written pushed := by
  generalize hbase : removed pushed queue = base at *
  intro j hj
  cases queue with
  | nil =>
    simp only [List.length_nil, Nat.le_zero] at hj
    simpa [hj] using hremoved
  | cons front rest =>
    have hfirst : (pushed.take (base + 1)).Sublist (written ++ [front].filter valid) := by
      rcases hfront with hwhole | hsub
      · rw [FrontWhole, List.head?_cons, hbase] at hwhole
        rw [List.take_add_one, ← hwhole]
        exact hremoved.append (by simp [hvalid front (List.mem_of_getElem? hwhole.symm)])
      · rw [hbase] at hsub
        exact hsub.trans (List.sublist_append_left _ _)
    cases j with
    | zero => simpa using hremoved
    | succ i =>
      -- The packets behind the front are whole, so the check passes them.
      have hrest : rest = pushed.drop (base + 1) := hal.2
      have hfilter : (rest.take i).filter valid = rest.take i :=
        List.filter_eq_self.mpr fun p hp =>
          hvalid p (List.mem_of_mem_drop (hrest ▸ List.mem_of_mem_take hp : p ∈ pushed.drop (base + 1)))
      have hsplit : pushed.take (base + (i + 1)) = pushed.take (base + 1) ++ rest.take i := by
        rw [hrest, ← List.take_add]
        congr 1
        omega
      rw [hsplit, List.take_succ_cons, List.filter_cons, hfilter]
      split
      · rename_i hv
        have := hfirst.append (List.Sublist.refl (rest.take i))
        simpa [hv] using this
      · rename_i hv
        have := hfirst.append (List.Sublist.refl (rest.take i))
        simpa [hv] using this

/-- If every reset finds the front accounted for, the packets removed from the queue have all been
    written, in order and as often as they were pushed. -/
theorem Reach.removed_sublist (hok : ∀ pushed queue written, ok pushed queue written → FrontAccounted pushed queue written)
    (hvalid : ∀ p ∈ queue, valid p = true) (h : Reach k valid ok (start queue []) s) :
    (s.pushed.take (removed s.pushed s.queue)).Sublist s.written := by
  obtain ⟨base, total, w, hist, hcov, -⟩ := h.history
    (P := fun base total w pushed => Covered valid base total w pushed ∧ ∀ p ∈ pushed, valid p = true)
    (start_history queue [])
    ⟨fun j _ => by
      simp only [start, Nat.zero_add, List.nil_append]
      rw [List.filter_eq_self.mpr fun p hp => hvalid p (List.mem_of_mem_take hp)], hvalid⟩
    (fun base total w pushed packet hP hal hp => by
      refine ⟨hP.1.push hal hp, fun p hmem => ?_⟩
      rcases List.mem_append.mp hmem with hmem | hmem
      · exact hP.2 p hmem
      · rw [List.mem_singleton.mp hmem, hp])
    (fun s base total w hist hP hreset =>
      ⟨.reset hist.queue_aligned.1 hP.2 (hist.removed_covered hP.1) (hok _ _ _ hreset), hP.2⟩)
  exact hist.removed_covered hcov

/-- What a session of distinct packets began with: nothing that it may write has been written, and what
    has been written was pushed before the packets behind the front. -/
structure Distinct (valid : List α → Bool) (base : ℕ) (total written pushed : List (List α)) : Prop where
  nodup : (written ++ total.filter valid).Nodup
  written_mem : ∀ p ∈ written, p ∈ pushed.take (base + 1)
  front : ∀ front, total.head? = some front → valid front = true → pushed[base]? = some front

/-- What passes the check in aligned packets is part of the pushed ones, if the front is. -/
theorem Aligned.filter_sublist {base : ℕ} {total pushed : List (List α)} (hal : Aligned base total pushed)
    (hfront : ∀ front, total.head? = some front → valid front = true → pushed[base]? = some front) (j : ℕ) :
    ((total.take j).filter valid).Sublist ((pushed.drop base).take j) := by
  cases total with
  | nil => simp
  | cons front rest =>
    cases j with
    | zero => simp
    | succ i =>
      have hrest : rest = pushed.drop (base + 1) := hal.2
      have hlen : base < pushed.length := by have := hal.1; simp only [List.length_cons] at this; omega
      rw [List.drop_eq_getElem_cons hlen, ← hrest, List.take_succ_cons, List.take_succ_cons, List.filter_cons]
      split
      · rename_i hv
        have := hfront front rfl hv
        rw [List.getElem?_eq_getElem hlen, Option.some.injEq] at this
        rw [this]
        exact List.filter_sublist.cons_cons _
      · exact List.filter_sublist.cons _

theorem Aligned.filter_subset {base : ℕ} {total pushed : List (List α)} (hal : Aligned base total pushed)
    (hfront : ∀ front, total.head? = some front → valid front = true → pushed[base]? = some front) :
    (total.filter valid).Sublist (pushed.drop base) := by
  have := hal.filter_sublist hfront total.length
  rw [List.take_length] at this
  exact this.trans (List.take_sublist _ _)

theorem History.written_take {base : ℕ} {total written : List (List α)} (h : History k valid s base total written)
    (hd : Distinct valid base total written s.pushed) :
    s.written.Nodup ∧ ∀ p ∈ s.written, p ∈ s.pushed.take (removed s.pushed s.queue + 1) := by
  obtain ⟨j, -, hhi, hwritten⟩ := h.written_eq
  have hle := h.queue_aligned.2
  rw [hwritten]
  refine ⟨hd.nodup.sublist ((List.Sublist.refl written).append ((List.take_sublist j total).filter valid)), fun p hp => ?_⟩
  rcases List.mem_append.mp hp with hp | hp
  · exact (List.take_prefix_take_left (by omega)).subset (hd.written_mem p hp)
  · have hmem := (h.aligned.filter_sublist hd.front j).subset hp
    rw [List.take_drop] at hmem
    exact (List.take_prefix_take_left (by omega)).subset (List.mem_of_mem_drop hmem)

theorem Distinct.push {base : ℕ} {total written pushed : List (List α)} (h : Distinct valid base total written pushed)
    (hal : Aligned base total pushed) {packet : List α} (hfresh : packet ∉ pushed) :
    Distinct valid base (total ++ [packet]) written (pushed ++ [packet]) where
  nodup := by
    have hnot : packet ∉ written ++ total.filter valid := fun hmem => by
      rcases List.mem_append.mp hmem with hmem | hmem
      · exact hfresh (List.mem_of_mem_take (h.written_mem _ hmem))
      · exact hfresh (List.mem_of_mem_drop ((hal.filter_subset h.front).subset hmem))
    rw [List.filter_append, ← List.append_assoc]
    refine List.nodup_append.mpr ⟨h.nodup, (List.nodup_singleton packet).sublist List.filter_sublist, fun a ha b hb => ?_⟩
    rintro rfl
    exact hnot (List.mem_singleton.mp (List.mem_filter.mp hb).1 ▸ ha)
  written_mem p hp := by
    have := h.written_mem p hp
    rw [List.take_append]
    exact List.mem_append_left _ this
  front front hhead hv := by
    have hlen := hal.1
    cases total with
    | nil =>
      simp only [List.length_nil, Nat.zero_add] at hlen
      simp only [List.nil_append, List.head?_cons, Option.some.injEq] at hhead
      rw [hlen, ← hhead]
      simp
    | cons x xs =>
      simp only [List.length_cons] at hlen
      rw [List.getElem?_append_left (by omega)]
      exact h.front front (by simpa using hhead) hv

/-- A session that begins with a fresh front. -/
theorem Distinct.reset {written pushed : List (List α)} (hal : Aligned (removed pushed queue) queue pushed)
    (hpushed : pushed.Nodup) (hnodup : written.Nodup)
    (hmem : ∀ p ∈ written, p ∈ pushed.take (removed pushed queue + 1)) (hfront : FrontFresh valid pushed queue written) :
    Distinct valid (removed pushed queue) queue written pushed where
  nodup := by
    refine List.nodup_append.mpr ⟨hnodup, ?_, fun a ha b hb => ?_⟩
    · exact (hpushed.sublist (List.drop_sublist _ _)).sublist
        (hal.filter_subset fun front hhead hv => hhead ▸ ((hfront front hhead hv).1).symm)
    · rintro rfl
      obtain ⟨hb, hv⟩ := List.mem_filter.mp hb
      cases queue with
      | nil => cases hb
      | cons front rest =>
        rcases List.mem_cons.mp hb with rfl | hb
        · exact (hfront a rfl hv).2 ha
        · have hdrop : a ∈ pushed.drop (removed pushed (front :: rest) + 1) := by
            rw [← hal.2]
            exact hb
          exact List.disjoint_take_drop hpushed (Nat.le_refl _) (hmem a ha) hdrop
  written_mem := hmem
  front front hhead hv := hhead ▸ ((hfront front hhead hv).1).symm

/-- If every reset finds the front fresh, distinct packets are written at most once each. -/
theorem Reach.written_nodup (hok : ∀ pushed queue written, ok pushed queue written → FrontFresh valid pushed queue written)
    (h : Reach k valid ok (start queue []) s) (hnodup : s.pushed.Nodup) : s.written.Nodup := by
  obtain ⟨base, total, w, hist, hd⟩ := h.history
    (P := fun base total w pushed => pushed.Nodup → Distinct valid base total w pushed)
    (start_history queue [])
    (fun hn => ⟨hn.sublist List.filter_sublist, by simp, fun front hhead _ => by
      rw [← hhead, List.head?_eq_getElem?]
      rfl⟩)
    (fun base total w pushed packet hP hal _ hn => by
      obtain ⟨hn', -, hdisj⟩ := List.nodup_append.mp hn
      exact (hP hn').push hal fun hmem => hdisj packet hmem packet (List.mem_singleton_self _) rfl)
    (fun s base total w hist hP hreset hn => by
      obtain ⟨h1, h2⟩ := hist.written_take (hP hn)
      exact .reset hist.queue_aligned.1 hn h1 h2 (hok _ _ _ hreset))
  exact (hist.written_take (hd hnodup)).1

end Resets

end Transfer
