import Mathlib.Data.List.Basic
import Mathlib.Tactic.Common

/-!
# Merging intervals

Half-open intervals of positions, sorted by their starts, are merged from left to right: one
that begins before the last ends or right at its end is taken into it. The merged intervals are
apart, each is a union of the given ones, and each given one lies in one of them.
-/

namespace Intervals

/-- One more interval, the last merged one first. -/
def absorb : List (Nat × Nat) → Nat × Nat → List (Nat × Nat)
  | [], r => [r]
  | last :: rest, r => if r.1 ≤ last.2 then (last.1, max last.2 r.2) :: rest else r :: last :: rest

/-- The merged intervals in order. -/
def merge (rs : List (Nat × Nat)) : List (Nat × Nat) :=
  (rs.foldl absorb []).reverse

/-- One interval lies in the other. -/
def Inside (r m : Nat × Nat) : Prop :=
  m.1 ≤ r.1 ∧ r.2 ≤ m.2

/-- The interval is a union of given ones. -/
def Union (rs : List (Nat × Nat)) (m : Nat × Nat) : Prop :=
  ∀ k, m.1 ≤ k ∧ k < m.2 ↔ ∃ r ∈ rs, Inside r m ∧ r.1 ≤ k ∧ k < r.2

theorem union_of {rs : List (Nat × Nat)} {m : Nat × Nat}
    (covered : ∀ k, m.1 ≤ k → k < m.2 → ∃ r ∈ rs, Inside r m ∧ r.1 ≤ k ∧ k < r.2) : Union rs m := by
  intro k
  constructor
  · rintro ⟨low, high⟩
    exact covered k low high
  · rintro ⟨r, -, ⟨left, right⟩, low, high⟩
    omega

theorem Union.mono {rs rs' : List (Nat × Nat)} {m : Nat × Nat} (more : ∀ r ∈ rs, r ∈ rs') (h : Union rs m) :
    Union rs' m := by
  apply union_of
  intro k low high
  obtain ⟨r, mem, rest⟩ := (h k).1 ⟨low, high⟩
  exact ⟨r, more r mem, rest⟩

/-- A union lies where its parts lie. -/
theorem Union.within {rs : List (Nat × Nat)} {m : Nat × Nat} (h : Union rs m) (proper : m.1 < m.2) {low high : Nat}
    (parts : ∀ r ∈ rs, low ≤ r.1 ∧ r.2 ≤ high) : low ≤ m.1 ∧ m.2 ≤ high := by
  obtain ⟨first, mem, -, begins, -⟩ := (h m.1).1 ⟨Nat.le_refl _, proper⟩
  obtain ⟨last, mem', -, -, ends⟩ := (h (m.2 - 1)).1 ⟨by omega, by omega⟩
  have left := (parts first mem).1
  have right := (parts last mem').2
  omega

/-- What holds of the intervals merged so far, the last first. -/
structure Merged (done m : List (Nat × Nat)) : Prop where
  apart : m.Pairwise fun a b => b.2 < a.1
  proper : ∀ a ∈ m, a.1 < a.2
  starts : ∀ a ∈ m, ∃ r ∈ done, r.1 = a.1
  union : ∀ a ∈ m, Union done a
  kept : ∀ r ∈ done, ∃ a ∈ m, Inside r a

theorem Merged.empty : Merged [] [] where
  apart := List.Pairwise.nil
  proper _ mem := absurd mem List.not_mem_nil
  starts _ mem := absurd mem List.not_mem_nil
  union _ mem := absurd mem List.not_mem_nil
  kept _ mem := absurd mem List.not_mem_nil

/-- An interval that begins beyond all the merged ones stands for itself. -/
theorem Merged.push {done m : List (Nat × Nat)} {r : Nat × Nat} (h : Merged done m) (proper : r.1 < r.2)
    (beyond : ∀ a ∈ m, a.2 < r.1) : Merged (done ++ [r]) (r :: m) where
  apart := List.Pairwise.cons beyond h.apart
  proper a mem := by
    rcases List.mem_cons.1 mem with rfl | mem
    · exact proper
    · exact h.proper a mem
  starts a mem := by
    rcases List.mem_cons.1 mem with rfl | mem
    · exact ⟨a, by simp, rfl⟩
    · obtain ⟨s, known, same⟩ := h.starts a mem
      exact ⟨s, List.mem_append_left _ known, same⟩
  union a mem := by
    rcases List.mem_cons.1 mem with rfl | mem
    · apply union_of
      intro k low high
      exact ⟨a, by simp, ⟨Nat.le_refl _, Nat.le_refl _⟩, low, high⟩
    · exact (h.union a mem).mono fun s known => List.mem_append_left _ known
  kept s mem := by
    rcases List.mem_append.1 mem with known | new
    · obtain ⟨a, mem, inside⟩ := h.kept s known
      exact ⟨a, List.mem_cons_of_mem _ mem, inside⟩
    · rw [List.mem_singleton.1 new]
      exact ⟨r, by simp, Nat.le_refl _, Nat.le_refl _⟩

/-- An interval that begins in the last merged one widens it. -/
theorem Merged.widen {done rest : List (Nat × Nat)} {last r : Nat × Nat} (h : Merged done (last :: rest))
    (after : last.1 ≤ r.1) (meets : r.1 ≤ last.2) :
    Merged (done ++ [r]) ((last.1, max last.2 r.2) :: rest) where
  apart := by
    have parts := List.pairwise_cons.1 h.apart
    exact List.Pairwise.cons parts.1 parts.2
  proper a mem := by
    rcases List.mem_cons.1 mem with rfl | mem
    · have := h.proper last (by simp)
      show last.1 < max last.2 r.2
      omega
    · exact h.proper a (List.mem_cons_of_mem _ mem)
  starts a mem := by
    obtain ⟨s, known, same⟩ : ∃ s ∈ done, s.1 = a.1 := by
      rcases List.mem_cons.1 mem with rfl | mem
      · exact h.starts last (by simp)
      · exact h.starts a (List.mem_cons_of_mem _ mem)
    exact ⟨s, List.mem_append_left _ known, same⟩
  union a mem := by
    rcases List.mem_cons.1 mem with rfl | mem
    · apply union_of
      intro k low high
      rcases Nat.lt_or_ge k last.2 with old | new
      · obtain ⟨s, known, ⟨left, right⟩, covers⟩ := (h.union last (by simp) k).1 ⟨low, old⟩
        exact ⟨s, List.mem_append_left _ known, ⟨left, Nat.le_trans right (Nat.le_max_left _ _)⟩, covers⟩
      · replace high : k < max last.2 r.2 := high
        exact ⟨r, by simp, ⟨after, Nat.le_max_right _ _⟩, by omega, by omega⟩
    · exact (h.union a (List.mem_cons_of_mem _ mem)).mono fun s known => List.mem_append_left _ known
  kept s mem := by
    rcases List.mem_append.1 mem with known | new
    · obtain ⟨a, mem, left, right⟩ := h.kept s known
      rcases List.mem_cons.1 mem with rfl | mem
      · exact ⟨_, List.mem_cons_self .., left, Nat.le_trans right (Nat.le_max_left _ _)⟩
      · exact ⟨a, List.mem_cons_of_mem _ mem, left, right⟩
    · rw [List.mem_singleton.1 new]
      exact ⟨_, List.mem_cons_self .., after, Nat.le_max_right _ _⟩

theorem absorb_merged {done m : List (Nat × Nat)} {r : Nat × Nat} (h : Merged done m) (proper : r.1 < r.2)
    (sorted : ∀ s ∈ done, s.1 ≤ r.1) : Merged (done ++ [r]) (absorb m r) := by
  cases m with
  | nil => exact h.push proper fun a mem => absurd mem List.not_mem_nil
  | cons last rest =>
    rw [absorb]
    split
    · next meets =>
      obtain ⟨s, known, same⟩ := h.starts last (by simp)
      exact h.widen (same ▸ sorted s known) meets
    · next beyond =>
      apply h.push proper
      intro a mem
      rcases List.mem_cons.1 mem with rfl | mem
      · exact Nat.lt_of_not_le beyond
      · have order := (List.pairwise_cons.1 h.apart).1 a mem
        have size := h.proper last (by simp)
        omega

theorem foldl_merged {done rs m : List (Nat × Nat)} (h : Merged done m) (proper : ∀ r ∈ rs, r.1 < r.2)
    (sorted : (done ++ rs).Pairwise fun a b => a.1 ≤ b.1) : Merged (done ++ rs) (rs.foldl absorb m) := by
  induction rs generalizing done m with
  | nil => rwa [List.append_nil]
  | cons r rs ih =>
    have before : ∀ s ∈ done, s.1 ≤ r.1 := fun s known => (List.pairwise_append.1 sorted).2.2 s known r (by simp)
    have next := absorb_merged h (proper r (by simp)) before
    rw [List.foldl_cons, List.append_cons]
    apply ih next fun s mem => proper s (List.mem_cons_of_mem _ mem)
    rwa [← List.append_cons]

/-- **Merged intervals.** They are proper and apart, each is a union of the given ones, and each
given one lies in one of them. -/
theorem merge_spec {rs : List (Nat × Nat)} (proper : ∀ r ∈ rs, r.1 < r.2)
    (sorted : rs.Pairwise fun a b => a.1 ≤ b.1) :
    (merge rs).Pairwise (fun a b => a.2 < b.1) ∧ (∀ a ∈ merge rs, a.1 < a.2) ∧ (∀ a ∈ merge rs, Union rs a) ∧
      ∀ r ∈ rs, ∃ a ∈ merge rs, Inside r a := by
  have h := foldl_merged Merged.empty proper (by rwa [List.nil_append])
  rw [List.nil_append] at h
  refine ⟨List.pairwise_reverse.2 h.apart, fun a mem => h.proper a (List.mem_reverse.1 mem),
    fun a mem => h.union a (List.mem_reverse.1 mem), ?_⟩
  intro r mem
  obtain ⟨a, known, inside⟩ := h.kept r mem
  exact ⟨a, List.mem_reverse.2 known, inside⟩

theorem merge_eq_nil {rs : List (Nat × Nat)} (proper : ∀ r ∈ rs, r.1 < r.2) (sorted : rs.Pairwise fun a b => a.1 ≤ b.1) :
    merge rs = [] ↔ rs = [] := by
  constructor
  · intro empty
    cases rs with
    | nil => rfl
    | cons r rs =>
      obtain ⟨a, mem, -⟩ := (merge_spec proper sorted).2.2.2 r (List.mem_cons_self ..)
      rw [empty] at mem
      cases mem
  · rintro rfl
    rfl

end Intervals
