import Mathlib.Data.List.Sort
import Mathlib.Data.List.Pairwise
import Mathlib.Data.List.Dedup

/-!
# Cutting an interval

An interval of positions is cut at the ends of the spans that begin or end inside it. The
pieces stand in order and cover the interval, and no span begins or ends inside a piece: a
piece meets a span exactly when all of its positions lie in it.
-/

namespace Segments

/-- The end points of spans that lie strictly inside the interval. -/
def inner (start stop : Nat) (spans : List (Nat × Nat)) : List Nat :=
  (spans.flatMap fun s => [s.1, s.2]).filter fun b => start < b && b < stop

/-- The bounds of the interval and the end points inside it, ascending and each once. -/
def boundaries (start stop : Nat) (spans : List (Nat × Nat)) : List Nat :=
  (start :: stop :: inner start stop spans).dedup.insertionSort (· ≤ ·)

/-- Each boundary with the next. -/
def pieces (cuts : List Nat) : List (Nat × Nat) :=
  cuts.zip cuts.tail

theorem pieces_cons (a b : Nat) (cuts : List Nat) : pieces (a :: b :: cuts) = (a, b) :: pieces (b :: cuts) :=
  rfl

section Boundaries

variable {start stop : Nat} {spans : List (Nat × Nat)}

theorem mem_boundaries {b : Nat} :
    b ∈ boundaries start stop spans ↔
      b = start ∨ b = stop ∨ (start < b ∧ b < stop ∧ ∃ s ∈ spans, b = s.1 ∨ b = s.2) := by
  rw [boundaries, (List.perm_insertionSort _ _).mem_iff, List.mem_dedup, List.mem_cons, List.mem_cons, inner,
    List.mem_filter, List.mem_flatMap, Bool.and_eq_true, decide_eq_true_eq, decide_eq_true_eq]
  simp only [List.mem_cons, List.not_mem_nil, or_false]
  rw [and_comm, and_assoc]

theorem boundaries_ascending : (boundaries start stop spans).Pairwise (· < ·) := by
  have sorted : (boundaries start stop spans).Pairwise (· ≤ ·) := List.pairwise_insertionSort _ _
  have nodup : (boundaries start stop spans).Nodup :=
    (List.perm_insertionSort _ _).nodup_iff.2 (List.nodup_dedup _)
  exact (sorted.and nodup).imp fun both => Nat.lt_of_le_of_ne both.1 both.2

theorem boundaries_between (order : start ≤ stop) {b : Nat} (mem : b ∈ boundaries start stop spans) :
    start ≤ b ∧ b ≤ stop := by
  rcases mem_boundaries.1 mem with rfl | rfl | ⟨low, high, -⟩ <;> omega

/-- The boundaries begin and end with the bounds of the interval. -/
theorem boundaries_ends (order : start ≤ stop) :
    ∃ cuts, boundaries start stop spans = start :: cuts ∧ (start :: cuts).getLast (List.cons_ne_nil _ _) = stop := by
  have inside := fun b => @boundaries_between start stop spans order b
  have first := @mem_boundaries start stop spans start
  have last := @mem_boundaries start stop spans stop
  have ascending := @boundaries_ascending start stop spans
  cases e : boundaries start stop spans with
  | nil =>
    rw [e] at first
    cases first.2 (.inl rfl)
  | cons a cuts =>
    rw [e] at inside first last ascending
    have smallest : a = start := by
      apply Nat.le_antisymm _ (inside a (by simp)).1
      rcases List.mem_cons.1 (first.2 (.inl rfl)) with same | mem
      · exact Nat.le_of_eq same.symm
      · exact Nat.le_of_lt ((List.pairwise_cons.1 ascending).1 start mem)
    subst smallest
    refine ⟨cuts, rfl, ?_⟩
    exact Nat.le_antisymm (inside _ (List.getLast_mem _)).2
      ((ascending.imp Nat.le_of_lt).rel_getLast (last.2 (.inr (.inl rfl))))

/-- No boundary stands inside a piece, and the pieces stay in the interval. -/
theorem pieces_inside {cuts : List Nat} (ascending : cuts.Pairwise (· < ·)) {p : Nat × Nat} (mem : p ∈ pieces cuts) :
    p.1 ∈ cuts ∧ p.2 ∈ cuts ∧ p.1 < p.2 ∧ ∀ b ∈ cuts, b ≤ p.1 ∨ p.2 ≤ b := by
  induction cuts with
  | nil => cases mem
  | cons a rest ih =>
    cases rest with
    | nil => cases mem
    | cons b rest =>
      obtain ⟨below, tail⟩ := List.pairwise_cons.1 ascending
      obtain ⟨next, -⟩ := List.pairwise_cons.1 tail
      rw [pieces_cons] at mem
      rcases List.mem_cons.1 mem with rfl | mem
      · refine ⟨by simp, by simp, below b (by simp), ?_⟩
        intro c other
        rcases List.mem_cons.1 other with rfl | other
        · exact .inl (Nat.le_refl c)
        · rcases List.mem_cons.1 other with rfl | other
          · exact .inr (Nat.le_refl c)
          · exact .inr (Nat.le_of_lt (next c other))
      · obtain ⟨left, right, order, clear⟩ := ih tail mem
        refine ⟨List.mem_cons_of_mem _ left, List.mem_cons_of_mem _ right, order, ?_⟩
        intro c other
        rcases List.mem_cons.1 other with rfl | other
        · exact .inl (Nat.le_of_lt (below _ left))
        · exact clear c other

/-- The positions of the pieces in order are those of the interval. -/
theorem pieces_cover (a : Nat) (cuts : List Nat) (ascending : (a :: cuts).Pairwise (· < ·)) :
    (pieces (a :: cuts)).flatMap (fun p => List.range' p.1 (p.2 - p.1)) =
      List.range' a ((a :: cuts).getLast (List.cons_ne_nil _ _) - a) := by
  induction cuts generalizing a with
  | nil => simp [pieces]
  | cons b rest ih =>
    obtain ⟨below, tail⟩ := List.pairwise_cons.1 ascending
    have step : a < b := below b (by simp)
    have last : b ≤ (b :: rest).getLast (List.cons_ne_nil _ _) :=
      (tail.imp Nat.le_of_lt).rel_getLast (by simp)
    rw [pieces_cons, List.flatMap_cons, ih b tail, List.getLast_cons (List.cons_ne_nil b rest)]
    have size : (b :: rest).getLast (List.cons_ne_nil _ _) - a =
        (b - a) + ((b :: rest).getLast (List.cons_ne_nil _ _) - b) := by omega
    have next : a + 1 * (b - a) = b := by omega
    rw [size, ← List.range'_append, next]

/-- The piece and the span have a position in common. -/
def meets (s p : Nat × Nat) : Bool :=
  s.1 < p.2 && p.1 < s.2

/-- **A piece is marked as each of its positions is**: it meets one of the spans exactly when
the position lies in one of them. -/
theorem meets_iff (order : start ≤ stop) {p s : Nat × Nat} {k : Nat} (mem : p ∈ pieces (boundaries start stop spans)) (span : s ∈ spans)
    (low : p.1 ≤ k) (high : k < p.2) : meets s p = true ↔ s.1 ≤ k ∧ k < s.2 := by
  obtain ⟨left, right, -, clear⟩ := pieces_inside boundaries_ascending mem
  have first := (boundaries_between order left).1
  have last := (boundaries_between order right).2
  have bound : ∀ b, b = s.1 ∨ b = s.2 → b ≤ p.1 ∨ p.2 ≤ b := by
    intro b ends
    by_cases inside : start < b ∧ b < stop
    · exact clear b (mem_boundaries.2 (.inr (.inr ⟨inside.1, inside.2, s, span, ends⟩)))
    · omega
  have begins := bound s.1 (.inl rfl)
  have ends := bound s.2 (.inr rfl)
  rw [meets, Bool.and_eq_true, decide_eq_true_eq, decide_eq_true_eq]
  omega

end Boundaries

end Segments
