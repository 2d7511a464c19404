import Mathlib.Data.List.Chain
import Mathlib.Data.List.Range

/-! # Segments of a stream

A receiver collects the items of a stream into segments. The role of an item says what it does to the
segment that is being collected, and the roles alone say which items a segment consists of. -/

namespace Segments

inductive Role where
  | skip
  | extend
  | close
  | abort
  deriving DecidableEq

/-- The item becomes part of the segment. -/
def Role.Joins (role : Role) : Prop := role = .extend ∨ role = .close

/-- The next item starts a new segment. -/
def Role.Ends (role : Role) : Prop := role = .close ∨ role = .abort

instance (role : Role) : Decidable role.Joins := inferInstanceAs (Decidable (_ ∨ _))
instance (role : Role) : Decidable role.Ends := inferInstanceAs (Decidable (_ ∨ _))

/-- The items that have joined before item `n` and since the latest end. -/
def gathered (role : ℕ → Role) (n : ℕ) : List ℕ :=
  (List.range n).filter fun j => (role j).Joins ∧ ∀ k < n, j ≤ k → ¬ (role k).Ends

/-- The items of the segment that item `n` closes. -/
def segment (role : ℕ → Role) (n : ℕ) : List ℕ := gathered role n ++ [n]

variable {role : ℕ → Role} {n : ℕ}

/-! ### One more item -/

theorem mem_gathered {j : ℕ} :
    j ∈ gathered role n ↔ j < n ∧ (role j).Joins ∧ ∀ k < n, j ≤ k → ¬ (role k).Ends := by
  simp [gathered]

theorem gathered_succ_of_ends (h : (role n).Ends) : gathered role (n + 1) = [] := by
  refine List.eq_nil_iff_forall_not_mem.mpr fun j hj => ?_
  obtain ⟨hlt, -, hopen⟩ := mem_gathered.mp hj
  exact hopen n (Nat.lt_succ_self n) (Nat.le_of_lt_succ hlt) h

/-- An item that ends nothing leaves those gathered before it. -/
theorem gathered_succ_of_not_ends (h : ¬ (role n).Ends) :
    gathered role (n + 1) = gathered role n ++ if (role n).Joins then [n] else [] := by
  have hopen : ∀ j, (∀ k < n + 1, j ≤ k → ¬ (role k).Ends) ↔ ∀ k < n, j ≤ k → ¬ (role k).Ends := by
    intro j
    constructor
    · intro hall k hk
      exact hall k (Nat.lt_succ_of_lt hk)
    · intro hall k hk hjk
      rcases Nat.lt_succ_iff_lt_or_eq.mp hk with hlt | rfl
      · exact hall k hlt hjk
      · exact h
  simp only [gathered, List.range_succ, List.filter_append, hopen]
  congr 1
  have hlast : ∀ k < n, n ≤ k → ¬ (role k).Ends := fun k hlt hle => absurd hle (Nat.not_le.mpr hlt)
  by_cases hjoins : (role n).Joins
  · rw [if_pos hjoins, List.filter_cons_of_pos (by simpa [hjoins] using hlast), List.filter_nil]
  · rw [if_neg hjoins, List.filter_cons_of_neg (by simp [hjoins]), List.filter_nil]

theorem gathered_succ_of_extend (h : role n = .extend) : gathered role (n + 1) = gathered role n ++ [n] := by
  have hjoins : (role n).Joins := Or.inl h
  rw [gathered_succ_of_not_ends (by simp [h, Role.Ends]), if_pos hjoins]

theorem gathered_succ_of_skip (h : role n = .skip) : gathered role (n + 1) = gathered role n := by
  rw [gathered_succ_of_not_ends (by simp [h, Role.Ends]), if_neg (by simp [h, Role.Joins]), List.append_nil]

/-! ### Segments are disjoint -/

theorem mem_segment {j : ℕ} (h : role n = .close) :
    j ∈ segment role n ↔ j ≤ n ∧ (role j).Joins ∧ ∀ k < n, j ≤ k → ¬ (role k).Ends := by
  rw [segment, List.mem_append, mem_gathered, List.mem_singleton]
  constructor
  · rintro (⟨hlt, hj⟩ | rfl)
    · exact ⟨hlt.le, hj⟩
    · exact ⟨le_rfl, Or.inr h, fun k hlt hle => absurd hle (Nat.not_le.mpr hlt)⟩
  · rintro ⟨hle, hj⟩
    exact hle.lt_or_eq.imp_left fun hlt => ⟨hlt, hj⟩

/-- No item is part of two segments. -/
theorem segment_disjoint {i j : ℕ} (hi : role i = .close) (hj : role j = .close) (hne : i ≠ j) :
    (segment role i).Disjoint (segment role j) := by
  -- The earlier close stands between its items and the later close.
  have hlater : ∀ {i j : ℕ}, role i = .close → role j = .close → i < j → ∀ k ∈ segment role i, k ∉ segment role j := by
    intro i j hi hj hlt k hki hkj
    have hki' := ((mem_segment hi).mp hki).1
    exact ((mem_segment hj).mp hkj).2.2 i hlt hki' (Or.inl hi)
  intro k hki hkj
  rcases Nat.lt_or_gt_of_ne hne with hlt | hlt
  · exact hlater hi hj hlt k hki hkj
  · exact hlater hj hi hlt k hkj hki

/-! ### What the receiver holds -/

/-- A buffer that an item with the role `extend` is appended to and that every end clears. -/
structure Buffers {β : Type} (role : ℕ → Role) (item : ℕ → List β) (buffer : ℕ → List β) : Prop where
  start : buffer 0 = []
  skip : ∀ n, role n = .skip → buffer (n + 1) = buffer n
  extend : ∀ n, role n = .extend → buffer (n + 1) = buffer n ++ item n
  ends : ∀ n, (role n).Ends → buffer (n + 1) = []

theorem Buffers.eq_gathered {β : Type} {item buffer : ℕ → List β} (h : Buffers role item buffer) (n : ℕ) :
    buffer n = (gathered role n).flatMap item := by
  induction n with
  | zero => exact h.start
  | succ n ih =>
    cases hrole : role n with
    | skip => rw [h.skip n hrole, gathered_succ_of_skip hrole, ih]
    | extend => rw [h.extend n hrole, gathered_succ_of_extend hrole, ih, List.flatMap_append, List.flatMap_singleton]
    | close => rw [h.ends n (Or.inl hrole), gathered_succ_of_ends (Or.inl hrole), List.flatMap_nil]
    | abort => rw [h.ends n (Or.inr hrole), gathered_succ_of_ends (Or.inr hrole), List.flatMap_nil]

/-- The key of the latest item that joined; the next one joins only if `next` holds between them. -/
structure Links {κ : Type} (role : ℕ → Role) (key : ℕ → κ) (next : κ → κ → Prop) (last : ℕ → Option κ) : Prop where
  skip : ∀ n, role n = .skip → last (n + 1) = last n
  joins : ∀ n, (role n).Joins → last (n + 1) = some (key n) ∧ ∀ k ∈ last n, next k (key n)

section Links
variable {κ : Type} {key : ℕ → κ} {next : κ → κ → Prop} {last : ℕ → Option κ}

theorem isChain_concat {keys : List κ} {k : κ} (h : keys.IsChain next) (hlast : ∀ k' ∈ keys.getLast?, next k' k) :
    (keys ++ [k]).IsChain next :=
  List.isChain_append.mpr ⟨h, .singleton k, fun k' hk' y hy => by
    obtain rfl : k = y := by simpa using hy
    exact hlast k' hk'⟩

theorem Links.gathered_isChain (h : Links role key next last) (n : ℕ) :
    ((gathered role n).map key).IsChain next ∧ ∀ k ∈ ((gathered role n).map key).getLast?, last n = some k := by
  induction n with
  | zero => exact ⟨.nil, by simp [gathered]⟩
  | succ n ih =>
    obtain ⟨hchain, hlast⟩ := ih
    cases hrole : role n with
    | skip =>
      rw [gathered_succ_of_skip hrole, h.skip n hrole]
      exact ⟨hchain, hlast⟩
    | extend =>
      obtain ⟨hnext, hrel⟩ := h.joins n (Or.inl hrole)
      rw [gathered_succ_of_extend hrole, List.map_append, List.map_singleton]
      refine ⟨isChain_concat hchain fun k hk => hrel k (hlast k hk), fun k hk => ?_⟩
      obtain rfl : key n = k := by simpa using hk
      exact hnext
    | close =>
      rw [gathered_succ_of_ends (Or.inl hrole)]
      exact ⟨.nil, by simp⟩
    | abort =>
      rw [gathered_succ_of_ends (Or.inr hrole)]
      exact ⟨.nil, by simp⟩

/-- In a segment each item follows the one before it. -/
theorem Links.segment_isChain (h : Links role key next last) (hn : (role n).Joins) :
    ((segment role n).map key).IsChain next := by
  obtain ⟨hchain, hlast⟩ := h.gathered_isChain n
  rw [segment, List.map_append, List.map_singleton]
  exact isChain_concat hchain fun k hk => (h.joins n hn).2 k (hlast k hk)

end Links

end Segments
