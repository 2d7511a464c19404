import Mathlib.Data.List.Basic

/-! # Searching with a fallback

A loop over a list that returns at the first candidate which is as wanted, and after the last element
with the first candidate of any kind. -/

namespace Search
variable {α β : Type} {candidate : α → Option β} {wanted : α → Bool} {xs : List α} {y : β}

/-- The loop, with the first candidate so far. -/
def scan (candidate : α → Option β) (wanted : α → Bool) : Option β → List α → Option β
  | fallback, [] => fallback
  | fallback, x :: xs =>
    match candidate x with
    | none => scan candidate wanted fallback xs
    | some y => if wanted x then some y else scan candidate wanted (fallback.or (some y)) xs

theorem scan_eq (fallback : Option β) (xs : List α) :
    scan candidate wanted fallback xs = ((xs.filter wanted).findSome? candidate).or (fallback.or (xs.findSome? candidate)) := by
  induction xs generalizing fallback with
  | nil => simp [scan]
  | cons x xs ih =>
    rw [scan, List.filter_cons, List.findSome?_cons]
    cases hx : candidate x with
    | none =>
      simp only [ih]
      split <;> simp [hx]
    | some y =>
      simp only
      split
      · simp [hx]
      · simp [ih]

/-- The loop comes back without anything only where there is no candidate. -/
theorem scan_eq_none_iff : scan candidate wanted none xs = none ↔ ∀ x ∈ xs, candidate x = none := by
  rw [scan_eq, Option.none_or, Option.or_eq_none_iff, List.findSome?_eq_none_iff, List.findSome?_eq_none_iff]
  exact ⟨And.right, fun h => ⟨fun x hx => h x (List.mem_of_mem_filter hx), h⟩⟩

/-- What it comes back with is as wanted unless no candidate is. -/
theorem of_scan_eq_some (h : scan candidate wanted none xs = some y) :
    ∃ x ∈ xs, candidate x = some y ∧ (wanted x = true ∨ ∀ x' ∈ xs, candidate x' ≠ none → wanted x' = false) := by
  rw [scan_eq, Option.none_or, Option.or_eq_some_iff] at h
  rcases h with hfirst | ⟨hnone, hfallback⟩
  · obtain ⟨x, hx, hcandidate⟩ := List.exists_of_findSome?_eq_some hfirst
    obtain ⟨hmem, hwanted⟩ := List.mem_filter.mp hx
    exact ⟨x, hmem, hcandidate, .inl hwanted⟩
  · obtain ⟨x, hx, hcandidate⟩ := List.exists_of_findSome?_eq_some hfallback
    refine ⟨x, hx, hcandidate, .inr fun x' hx' hcandidate' => ?_⟩
    by_contra hwanted
    exact hcandidate' (List.findSome?_eq_none_iff.mp hnone x' (List.mem_filter.mpr ⟨hx', eq_true_of_ne_false hwanted⟩))

end Search
