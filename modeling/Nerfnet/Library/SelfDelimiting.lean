import Mathlib.Data.List.Flatten
import Mathlib.InformationTheory.Coding.UniquelyDecodable

/-! # Words that declare their length

A format in which the length of a word can be read off its head: `declared` looks at no more than the
first `h` items of a word, and the words of the format are the ones that have the length they declare.
No word is then a proper prefix of another, so concatenations of words can be taken apart in one way
only, and behind an intact head only the length decides. -/

/-- No word of the set is a proper prefix of another. -/
def PrefixFree {α : Type} (S : Set (List α)) : Prop := ∀ v ∈ S, ∀ w ∈ S, v <+: w → v = w

theorem PrefixFree.uniquelyDecodable {α : Type} {S : Set (List α)} (h : PrefixFree S) (hnil : [] ∉ S) :
    InformationTheory.UniquelyDecodable S := by
  intro vs
  induction vs with
  | nil =>
    intro ws _ hws heq
    cases ws with
    | nil => rfl
    | cons w ws =>
      have hw : w = [] := (List.append_eq_nil_iff.mp heq.symm).1
      exact absurd (hw ▸ hws w List.mem_cons_self) hnil
  | cons v vs ih =>
    intro ws hvs hws heq
    have hv := hvs v List.mem_cons_self
    cases ws with
    | nil =>
      have hv' : v = [] := (List.append_eq_nil_iff.mp heq).1
      exact absurd (hv' ▸ hv) hnil
    | cons w ws =>
      have hw := hws w List.mem_cons_self
      -- Both first words are prefixes of the same list, so one is a prefix of the other.
      have hvw : v = w := by
        rcases List.append_eq_append_iff.mp heq with ⟨s, hs, -⟩ | ⟨s, hs, -⟩
        · exact h v hv w hw ⟨s, hs.symm⟩
        · exact (h w hw v hv ⟨s, hs.symm⟩).symm
      subst hvw
      have hrest := List.append_cancel_left heq
      rw [ih ws (fun x hx => hvs x (List.mem_cons_of_mem _ hx)) (fun x hx => hws x (List.mem_cons_of_mem _ hx)) hrest]

structure SelfDelimiting {α : Type} (h : ℕ) (declared : List α → Option ℕ) : Prop where
  stable : ∀ head s, h ≤ head.length → declared (head ++ s) = declared head
  long : ∀ w, declared w = some w.length → h ≤ w.length

namespace SelfDelimiting
variable {α : Type} {h : ℕ} {declared : List α → Option ℕ} {w head s : List α}

/-- Behind the head of a word only the length decides. -/
theorem head_append (d : SelfDelimiting h declared) (hw : declared w = some w.length) (hhead : head <+: w)
    (hle : h ≤ head.length) (s : List α) :
    declared (head ++ s) = some (head ++ s).length ↔ head.length + s.length = w.length := by
  obtain ⟨rest, rfl⟩ := hhead
  rw [d.stable head rest hle] at hw
  have hlength : (head ++ s).length = head.length + s.length := List.length_append
  rw [d.stable head s hle, hw, hlength, Option.some.injEq, eq_comm]

/-- A word is no word any more once something is appended to it. -/
theorem extension (d : SelfDelimiting h declared) (hw : declared w = some w.length) (hs : s ≠ []) :
    declared (w ++ s) ≠ some (w ++ s).length := by
  intro hext
  have hlen := (d.head_append hw List.prefix_rfl (d.long w hw) s).mp hext
  have hpos := List.length_pos_iff.mpr hs
  omega

theorem prefixFree (d : SelfDelimiting h declared) : PrefixFree {w | declared w = some w.length} := by
  rintro v hv - hw ⟨s, rfl⟩
  by_contra hne
  have hs : s ≠ [] := by
    rintro rfl
    exact hne (List.append_nil v).symm
  exact d.extension hv hs hw

theorem length_flatten_lt {pieces kept : List (List α)} (hpieces : ∀ piece ∈ pieces, piece ≠ []) (hsub : kept.Sublist pieces)
    (hne : kept ≠ pieces) : kept.flatten.length < pieces.flatten.length := by
  induction hsub with
  | slnil => exact absurd rfl hne
  | @cons kept pieces piece hsub ih =>
    have hpos := List.length_pos_iff.mpr (hpieces piece List.mem_cons_self)
    have hle := hsub.flatten.length_le
    simp only [List.flatten_cons, List.length_append]
    omega
  | @cons_cons kept pieces piece hsub ih =>
    have hlt := ih (fun p hp => hpieces p (List.mem_cons_of_mem _ hp)) (fun heq => hne (by rw [heq]))
    simp only [List.flatten_cons, List.length_append]
    omega

/-- Pieces that are missing behind the head are noticed. -/
theorem pieces_missing (d : SelfDelimiting h declared) {pieces kept : List (List α)}
    (hw : declared (head ++ pieces.flatten) = some (head ++ pieces.flatten).length) (hle : h ≤ head.length)
    (hpieces : ∀ piece ∈ pieces, piece ≠ []) (hsub : kept.Sublist pieces) (hne : kept ≠ pieces) :
    declared (head ++ kept.flatten) ≠ some (head ++ kept.flatten).length := by
  intro hkept
  have hlen := (d.head_append hw (List.prefix_append _ _) hle kept.flatten).mp hkept
  rw [List.length_append] at hlen
  have hshort := length_flatten_lt hpieces hsub hne
  omega

end SelfDelimiting
