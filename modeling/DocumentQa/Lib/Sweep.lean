import Mathlib.Data.Finset.Card
import Mathlib.Order.Interval.Finset.Nat
import Mathlib.Data.Prod.Lex
import Mathlib.Data.List.Sort

/-!
# The measure of a union of intervals

A sweep over half-open intervals in the order of their starts adds to what is covered the
part of each interval behind the furthest end so far. What it adds up is the number of
points in the union.
-/

namespace Sweep

/-- What is covered so far and the furthest end, with one more interval. -/
def step (s i : Nat × Nat) : Nat × Nat :=
  (s.1 + (i.2 - max s.2 i.1), max s.2 i.2)

/-- The sweep from a base on. -/
def sweep (base : Nat) (is : List (Nat × Nat)) : Nat × Nat :=
  is.foldl step (0, base)

/-- The point lies in the interval. -/
def covers (t : Nat) (i : Nat × Nat) : Bool :=
  i.1 ≤ t && t < i.2

/-- The points of the window that lie in some interval. -/
def union (base top : Nat) (is : List (Nat × Nat)) : Finset Nat :=
  (Finset.Ico base top).filter fun t => is.any (covers t) = true

theorem covers_iff {t : Nat} {i : Nat × Nat} : covers t i = true ↔ i.1 ≤ t ∧ t < i.2 := by
  rw [covers, Bool.and_eq_true, decide_eq_true_eq, decide_eq_true_eq]

theorem mem_union {base top t : Nat} {is : List (Nat × Nat)} :
    t ∈ union base top is ↔ (base ≤ t ∧ t < top) ∧ ∃ i ∈ is, i.1 ≤ t ∧ t < i.2 := by
  rw [union, Finset.mem_filter, Finset.mem_Ico, List.any_eq_true]
  simp only [covers_iff]

theorem sweep_concat (base : Nat) (is : List (Nat × Nat)) (i : Nat × Nat) :
    sweep base (is ++ [i]) = step (sweep base is) i := by
  rw [sweep, List.foldl_append]
  rfl

/-- The furthest end: no interval ends behind it, and it is the base or an interval's end. -/
theorem sweep_end (base : Nat) (is : List (Nat × Nat)) :
    base ≤ (sweep base is).2 ∧ (∀ i ∈ is, i.2 ≤ (sweep base is).2) ∧
      ((sweep base is).2 = base ∨ ∃ i ∈ is, (sweep base is).2 = i.2) := by
  induction is using List.reverseRecOn with
  | nil => exact ⟨Nat.le_refl base, by simp, .inl rfl⟩
  | append_singleton is i ih =>
    obtain ⟨low, above, reached⟩ := ih
    rw [sweep_concat, step]
    dsimp only
    refine ⟨low.trans (Nat.le_max_left ..), ?_, ?_⟩
    · intro j mem
      rcases List.mem_append.1 mem with mem | mem
      · exact (above j mem).trans (Nat.le_max_left ..)
      · rw [List.mem_singleton.1 mem]
        exact Nat.le_max_right ..
    · rcases Nat.le_total i.2 (sweep base is).2 with less | more
      · rw [Nat.max_eq_left less]
        rcases reached with start | ⟨j, mem, end_⟩
        · exact .inl start
        · exact .inr ⟨j, List.mem_append_left _ mem, end_⟩
      · rw [Nat.max_eq_right more]
        exact .inr ⟨i, by simp, rfl⟩

/-- What one more interval adds to the union, when it starts behind the others. -/
theorem union_concat {base top : Nat} {is : List (Nat × Nat)} {i : Nat × Nat} (later : ∀ j ∈ is, j.1 ≤ i.1)
    (low : base ≤ i.1) (high : i.2 ≤ top) :
    union base top (is ++ [i]) = union base top is ∪ Finset.Ico (max (sweep base is).2 i.1) i.2 := by
  obtain ⟨-, -, reached⟩ := sweep_end base is
  ext t
  rw [Finset.mem_union, mem_union, mem_union, Finset.mem_Ico]
  constructor
  · rintro ⟨window, j, mem, inside⟩
    rcases List.mem_append.1 mem with mem | mem
    · exact .inl ⟨window, j, mem, inside⟩
    · rw [List.mem_singleton.1 mem] at inside
      by_cases behind : (sweep base is).2 ≤ t
      · exact .inr ⟨Nat.max_le.2 ⟨behind, inside.1⟩, inside.2⟩
      · rcases reached with start | ⟨k, known, end_⟩
        · omega
        · have := later k known
          exact .inl ⟨window, k, known, by omega, by omega⟩
  · rintro (⟨window, j, mem, inside⟩ | ⟨after, before⟩)
    · exact ⟨window, j, List.mem_append_left _ mem, inside⟩
    · have := Nat.max_le.1 after
      exact ⟨⟨by omega, by omega⟩, i, by simp, by omega, before⟩

/-- **The sweep measures the union.** -/
theorem sweep_card {base top : Nat} {is : List (Nat × Nat)} (sorted : is.Pairwise fun i j => i.1 ≤ j.1)
    (low : ∀ i ∈ is, base ≤ i.1) (high : ∀ i ∈ is, i.2 ≤ top) : (sweep base is).1 = (union base top is).card := by
  induction is using List.reverseRecOn with
  | nil =>
    symm
    apply Finset.card_eq_zero.2
    apply Finset.eq_empty_iff_forall_notMem.2
    intro t mem
    obtain ⟨-, i, none_, -⟩ := mem_union.1 mem
    cases none_
  | append_singleton is i ih =>
    obtain ⟨before, -, across⟩ := List.pairwise_append.1 sorted
    have later : ∀ j ∈ is, j.1 ≤ i.1 := fun j mem => across j mem i (by simp)
    have disjoint : Disjoint (union base top is) (Finset.Ico (max (sweep base is).2 i.1) i.2) := by
      rw [Finset.disjoint_left]
      intro t mem mem'
      obtain ⟨-, j, known, -, less⟩ := mem_union.1 mem
      have after := (Finset.mem_Ico.1 mem').1
      have := (sweep_end base is).2.1 j known
      have := Nat.max_le.1 after
      omega
    rw [union_concat later (low i (by simp)) (high i (by simp)), Finset.card_union_of_disjoint disjoint, Nat.card_Ico,
      sweep_concat, step, ih before (fun j mem => low j (by simp [mem])) fun j mem => high j (by simp [mem])]

theorem union_card_le {base top : Nat} (is : List (Nat × Nat)) : (union base top is).card ≤ top - base := by
  rw [← Nat.card_Ico]
  exact Finset.card_filter_le _ _

end Sweep
