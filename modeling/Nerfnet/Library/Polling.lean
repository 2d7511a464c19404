import Mathlib.Data.Nat.Basic

/-! # Polling until a deadline

A loop looks at something, then at the clock, and sleeps for `period` unless the deadline has passed. -/

namespace Polling
variable {period deadline now later : ℕ}

/-- How many times the loop can sleep before it finds that the deadline has passed. -/
def sleepsLeft (period deadline now : ℕ) : ℕ := (deadline - now + (period - 1)) / period

theorem sleepsLeft_sleep (hperiod : 0 < period) (h : now < deadline) :
    sleepsLeft period deadline (now + period) + 1 = sleepsLeft period deadline now := by
  unfold sleepsLeft
  rcases Nat.le_total (now + period) deadline with hle | hle
  · have hrest : deadline - now + (period - 1) = deadline - (now + period) + (period - 1) + period := by omega
    rw [hrest, Nat.add_div_right _ hperiod]
  · have hpassed : deadline - (now + period) + (period - 1) < period := by omega
    have hlast : deadline - now + (period - 1) = deadline - now - 1 + period := by omega
    rw [Nat.div_eq_of_lt hpassed, hlast, Nat.add_div_right _ hperiod, Nat.div_eq_of_lt (by omega)]

/-- Time that passes elsewhere leaves no more sleeps. -/
theorem sleepsLeft_le (period deadline : ℕ) (h : now ≤ later) : sleepsLeft period deadline later ≤ sleepsLeft period deadline now := by
  unfold sleepsLeft
  exact Nat.div_le_div_right (by omega)

theorem sleepsLeft_start (period timeout now : ℕ) : sleepsLeft period (now + timeout) now = (timeout + (period - 1)) / period := by
  rw [sleepsLeft, Nat.add_sub_cancel_left]

end Polling
