import Mathlib.Logic.Relation

/-! # Runs of a partial step function

A machine is a partial step function `step : σ → ε → Option σ` on states `σ` and events `ε`; `none`
says that the event cannot happen in the state. A run is a list of events in which every event
happens, and is one that `ok` allows in its state. -/

namespace Machine

inductive Run {σ ε : Type} (step : σ → ε → Option σ) (ok : σ → ε → Prop) : σ → List ε → σ → Prop
  | nil (s : σ) : Run step ok s [] s
  | cons {s t u : σ} {e : ε} {es : List ε} : ok s e → step s e = some t → Run step ok t es u → Run step ok s (e :: es) u

/-- The state that a list of allowed events leads to, if each of them can happen. -/
def exec {σ ε : Type} (step : σ → ε → Option σ) (ok : σ → ε → Prop) [∀ s e, Decidable (ok s e)] :
    σ → List ε → Option σ
  | s, [] => some s
  | s, e :: es => if ok s e then (step s e).bind fun t => exec step ok t es else none

variable {σ ε : Type} {step : σ → ε → Option σ} {ok : σ → ε → Prop} {s t u : σ} {e : ε} {es : List ε}

theorem Run.of_exec [∀ s e, Decidable (ok s e)] (h : exec step ok s es = some t) : Run step ok s es t := by
  induction es generalizing s with
  | nil =>
    cases h
    exact .nil _
  | cons e es ih =>
    simp only [exec] at h
    split at h
    · rename_i hok
      obtain ⟨u, hu, hrest⟩ := Option.bind_eq_some_iff.mp h
      exact .cons hok hu (ih hrest)
    · cases h

theorem Run.concat (h : Run step ok s es t) (hok : ok t e) (hstep : step t e = some u) : Run step ok s (es ++ [e]) u := by
  induction h with
  | nil => exact .cons hok hstep (.nil u)
  | cons hok' hstep' _ ih => exact .cons hok' hstep' (ih hok hstep)

theorem Run.append {fs : List ε} (h : Run step ok s es t) (h' : Run step ok t fs u) : Run step ok s (es ++ fs) u := by
  induction h with
  | nil => exact h'
  | cons hok hstep _ ih => exact .cons hok hstep (ih h')

theorem Run.replicate (h : Run step ok s es s) (n : Nat) : Run step ok s (List.replicate n es).flatten s := by
  induction n with
  | zero => exact .nil s
  | succ n ih =>
    rw [List.replicate_succ, List.flatten_cons]
    exact h.append ih

/-- What every allowed step keeps, every run keeps. -/
theorem Run.invariant {P : σ → Prop} (hstep : ∀ s e t, P s → ok s e → step s e = some t → P t)
    (h : Run step ok s es t) (hs : P s) : P t := by
  induction h with
  | nil => exact hs
  | cons hok h _ ih => exact ih (hstep _ _ _ hs hok h)

/-- If each step is matched by steps of another machine, a run is matched by a run of it. -/
theorem Run.simulates {σ' ε' : Type} {step' : σ' → ε' → Option σ'} {ok' : σ' → ε' → Prop} {R : σ → σ' → Prop}
    {f : ε → List ε'}
    (hsim : ∀ s a e t, R s a → ok s e → step s e = some t → ∃ b, Run step' ok' a (f e) b ∧ R t b)
    (h : Run step ok s es t) {a : σ'} (hs : R s a) : ∃ b, Run step' ok' a (es.flatMap f) b ∧ R t b := by
  induction h generalizing a with
  | nil s => exact ⟨a, .nil a, hs⟩
  | cons hok hstep _ ih =>
    obtain ⟨b, hrun, hb⟩ := hsim _ _ _ _ hs hok hstep
    obtain ⟨c, hrun', hc⟩ := ih hb
    exact ⟨c, hrun.append hrun', hc⟩

/-- An invariant about a number that every counted event takes one from. -/
theorem Run.countdown (counted : ε → Bool) {P : σ → Nat → Prop}
    (hstep : ∀ s e t n, P s n → ok s e → step s e = some t → P t (n - if counted e then 1 else 0))
    (h : Run step ok s es t) {n : Nat} (hs : P s n) : P t (n - es.countP counted) := by
  induction h generalizing n with
  | nil => exact hs
  | @cons s u t e es hok h _ ih =>
    have hrest := ih (hstep _ _ _ _ hs hok h)
    rwa [Nat.sub_sub, Nat.add_comm, ← List.countP_cons] at hrest

/-- If every counted event lowers a rank or gets to a goal, a run with more of them than the rank gets there. -/
theorem Run.visits {P goal : σ → Prop} {rank : σ → Nat} {counted : ε → Bool}
    (hstep : ∀ s e t, P s → ok s e → step s e = some t →
      P t ∧ if counted e then goal t ∨ rank t < rank s else rank t ≤ rank s)
    (h : Run step ok s es t) (hs : P s) (hlong : rank s < es.countP counted) :
    ∃ fs e gs u, es = fs ++ e :: gs ∧ counted e = true ∧ Run step ok s (fs ++ [e]) u ∧ goal u ∧ Run step ok u gs t := by
  induction h with
  | nil => exact absurd hlong (Nat.not_lt_zero _)
  | @cons s v t e es hok hv hrest ih =>
    obtain ⟨hP, hrank⟩ := hstep _ _ _ hs hok hv
    have hlater (hlong : rank v < es.countP counted) : ∃ fs f gs u, e :: es = fs ++ f :: gs ∧ counted f = true ∧
        Run step ok s (fs ++ [f]) u ∧ goal u ∧ Run step ok u gs t := by
      obtain ⟨fs, f, gs, u, rfl, hf, hrun, hgoal, hrest⟩ := ih hP hlong
      exact ⟨e :: fs, f, gs, u, rfl, hf, .cons hok hv hrun, hgoal, hrest⟩
    cases hcounted : counted e <;> simp only [hcounted, Bool.false_eq_true, if_false, if_true] at hrank
    · rw [List.countP_cons_of_neg (by rw [hcounted]; exact Bool.false_ne_true)] at hlong
      exact hlater (Nat.lt_of_le_of_lt hrank hlong)
    · rw [List.countP_cons_of_pos hcounted] at hlong
      rcases hrank with hgoal | hrank
      · exact ⟨[], e, es, v, rfl, hcounted, .cons hok hv (.nil v), hgoal, hrest⟩
      · exact hlater (Nat.lt_of_lt_of_le hrank (Nat.le_of_lt_succ hlong))

/-- If every counted event lowers a rank, a run lowers it by the number of them. -/
theorem Run.countP_add_le {P : σ → Prop} (rank : σ → Nat) {counted : ε → Bool}
    (hstep : ∀ s e t, P s → ok s e → step s e = some t →
      P t ∧ if counted e then rank t < rank s else rank t ≤ rank s)
    (h : Run step ok s es t) (hs : P s) : es.countP counted + rank t ≤ rank s := by
  induction h with
  | nil => simp
  | @cons s u t e es hok he _ ih =>
    obtain ⟨hu, hrank⟩ := hstep _ _ _ hs hok he
    have hrest := ih hu
    rw [List.countP_cons]
    cases hcounted : counted e <;> simp only [hcounted, Bool.false_eq_true, if_false, if_true] at hrank ⊢
    · exact Nat.le_trans hrest hrank
    · rw [Nat.add_right_comm]
      exact Nat.le_trans (Nat.succ_le_succ hrest) hrank

/-- If the goal also bounds the rank, it is reached again and again. -/
theorem Run.recurs (P goal : σ → Prop) (rank : σ → Nat) (bound : Nat) {counted : ε → Bool} {start : σ} {fs : List ε}
    (hstep : ∀ s e t, P s → ok s e → step s e = some t →
      P t ∧ if counted e then goal t ∨ rank t < rank s else rank t ≤ rank s)
    (hgoal : ∀ s, goal s → rank s ≤ bound) (hstart : P start ∧ rank start ≤ bound) (h : Run step ok start es s)
    (hrun : Run step ok s fs t) (hlong : bound < fs.countP counted) :
    ∃ es e gs u, fs = es ++ e :: gs ∧ counted e = true ∧ Run step ok s (es ++ [e]) u ∧ goal u ∧ Run step ok u gs t := by
  obtain ⟨hs, hrank⟩ : P s ∧ rank s ≤ bound := by
    refine Run.invariant (P := fun s => P s ∧ rank s ≤ bound) (fun s e t hs hok he => ?_) h hstart
    obtain ⟨ht, hrank⟩ := hstep s e t hs.1 hok he
    refine ⟨ht, ?_⟩
    split at hrank
    · rcases hrank with hrank | hrank
      · exact hgoal t hrank
      · exact Nat.le_trans (Nat.le_of_lt hrank) hs.2
    · exact Nat.le_trans hrank hs.2
  exact hrun.visits hstep hs (Nat.lt_of_le_of_lt hrank hlong)

end Machine
