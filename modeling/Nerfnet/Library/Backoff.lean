import Mathlib.Algebra.Ring.Nat

/-! # Tries with an exponential backoff

What a retry loop with a backoff is for: a try is made as soon as the loop finds that the wait since the
last one is over, and each failure doubles the next wait, up to a cap. The loop gets opportunities: the
time when it looks, and the time when a try made there has failed. -/

namespace Backoff

structure Policy where
  initial : ℕ
  cap : ℕ
  initial_le_cap : initial ≤ cap

namespace Policy
variable (b : Policy) {n k m : ℕ}

/-- The wait after doubling `n` times. -/
def wait (n : ℕ) : ℕ := min (b.initial * 2 ^ n) b.cap

/-- The tries of a loop in which `n` have failed, and the last failure, or what came before the first
    try, was at `since`. The first two waits are the same. -/
def tries : ℕ → ℕ → List (ℕ × ℕ) → List (ℕ × ℕ)
  | _, _, [] => []
  | since, n, (nowUs, laterUs) :: rest =>
    if since + b.wait (n - 1) ≤ nowUs then (nowUs, laterUs) :: tries laterUs (n + 1) rest else tries since n rest

/-- The waits before the try `k`, if `n` have failed at the start. -/
def elapsed (n : ℕ) : ℕ → ℕ
  | 0 => b.wait (n - 1)
  | k + 1 => elapsed n k + b.wait (n + k)

@[simp] theorem wait_zero : b.wait 0 = b.initial := by
  simp [wait, b.initial_le_cap]

theorem wait_succ (n : ℕ) : b.wait (n + 1) = min (b.wait n * 2) b.cap := by
  have hpow : b.initial * 2 ^ (n + 1) = b.initial * 2 ^ n * 2 := by rw [Nat.pow_succ, Nat.mul_assoc]
  unfold wait
  rw [hpow]
  omega

theorem elapsed_succ (n k : ℕ) : b.elapsed n (k + 1) = b.wait (n - 1) + b.elapsed (n + 1) k := by
  induction k with
  | zero => rfl
  | succ k ih =>
    have hindex : n + (k + 1) = n + 1 + k := by omega
    rw [elapsed, ih, hindex, Nat.add_assoc, elapsed]

/-- While no wait has reached the cap, the waits add up to the next one. -/
theorem elapsed_doubling (h : ∀ i < k, b.initial * 2 ^ i ≤ b.cap) : b.elapsed 0 k = b.initial * 2 ^ k := by
  induction k with
  | zero => simp [elapsed]
  | succ k ih =>
    have hwait : b.wait (0 + k) = b.initial * 2 ^ k := by
      rw [Nat.zero_add]
      exact Nat.min_eq_left (h k (Nat.lt_succ_self k))
    rw [elapsed, ih fun i hi => h i (Nat.lt_succ_of_lt hi), hwait, Nat.pow_succ, ← Nat.mul_assoc]
    omega

/-- From then on every wait is the cap. -/
theorem elapsed_capped (h : b.cap ≤ b.initial * 2 ^ m) (j : ℕ) : b.elapsed 0 (m + j) = b.elapsed 0 m + j * b.cap := by
  induction j with
  | zero => simp
  | succ j ih =>
    have hle : b.initial * 2 ^ m ≤ b.initial * 2 ^ (m + j) :=
      Nat.mul_le_mul_left _ (Nat.pow_le_pow_right (by omega) (Nat.le_add_right m j))
    have hwait : b.wait (0 + (m + j)) = b.cap := by
      rw [Nat.zero_add]
      exact Nat.min_eq_right (Nat.le_trans h hle)
    rw [← Nat.add_assoc, elapsed, ih, hwait, Nat.succ_mul, Nat.add_assoc]

/-- No try is made before its waits are over, if the clock does not go back while a try is made. -/
theorem tries_spaced {since : ℕ} {times : List (ℕ × ℕ)} (hclock : ∀ time ∈ times, time.1 ≤ time.2) :
    ∀ time, (b.tries since n times)[k]? = some time → since + b.elapsed n k ≤ time.1 := by
  induction times generalizing since n k with
  | nil => simp [tries]
  | cons first times ih =>
    obtain ⟨nowUs, laterUs⟩ := first
    have hrest : ∀ time ∈ times, time.1 ≤ time.2 := fun time ht => hclock time (List.mem_cons_of_mem _ ht)
    intro time htime
    simp only [tries] at htime
    split at htime
    · rename_i hdue
      cases k with
      | zero =>
        obtain rfl : (nowUs, laterUs) = time := by simpa using htime
        exact hdue
      | succ k =>
        have hle := ih hrest time (by simpa using htime)
        have hnow : nowUs ≤ laterUs := hclock (nowUs, laterUs) List.mem_cons_self
        rw [elapsed_succ]
        omega
    · exact ih hrest time htime

end Policy
end Backoff
