import Mathlib.Logic.Relation

/-!
# Shrinking until a value fits

A value that does not fit is replaced by the next smaller one, until one fits or nothing is
left to shrink. A weight that every shrinking lowers bounds the search.
-/

namespace Shrinking

variable {σ : Type}

/-- Shrink until the value fits, so many times at most. -/
def fit (shrink : σ → Option σ) (fits : σ → Bool) : Nat → σ → Option σ
  | 0, s => if fits s then some s else none
  | n + 1, s => if fits s then some s else (shrink s).bind (fit shrink fits n)

/-- Shrinking what does not fit leads from one value to the other. -/
def Shrinks (shrink : σ → Option σ) (fits : σ → Bool) : σ → σ → Prop :=
  Relation.ReflTransGen fun s t => fits s = false ∧ shrink s = some t

variable {shrink : σ → Option σ} {fits : σ → Bool}

/-- What every shrinking keeps holds of whatever is reached. -/
theorem Shrinks.invariant {P : σ → Prop} {s t : σ} (h : Shrinks shrink fits s t) (start : P s)
    (keep : ∀ s t, shrink s = some t → P s → P t) : P t := by
  induction h with
  | refl => exact start
  | tail _ last ih => exact keep _ _ last.2 ih

/-- **A result fits**, and whatever was shrunk on the way to it did not. -/
theorem fit_eq_some {n : Nat} {s t : σ} (h : fit shrink fits n s = some t) :
    Shrinks shrink fits s t ∧ fits t = true := by
  induction n generalizing s with
  | zero =>
    unfold fit at h
    split at h
    · next fitting =>
      cases h
      exact ⟨.refl, fitting⟩
    · cases h
  | succ n ih =>
    unfold fit at h
    split at h
    · next fitting =>
      cases h
      exact ⟨.refl, fitting⟩
    · next large =>
      obtain ⟨s', smaller, rest⟩ := Option.bind_eq_some_iff.1 h
      obtain ⟨reached, fitting⟩ := ih rest
      exact ⟨.head ⟨Bool.not_eq_true _ ▸ large, smaller⟩ reached, fitting⟩

/-- **Without a result** the search ends at a value that neither fits nor shrinks. -/
theorem fit_eq_none {weight : σ → Nat} (lighter : ∀ s t, shrink s = some t → weight t < weight s) {n : Nat} {s : σ}
    (enough : weight s ≤ n) (h : fit shrink fits n s = none) :
    ∃ t, Shrinks shrink fits s t ∧ shrink t = none ∧ fits t = false := by
  induction n generalizing s with
  | zero =>
    unfold fit at h
    split at h
    · cases h
    · next large =>
      refine ⟨s, .refl, ?_, Bool.not_eq_true _ ▸ large⟩
      apply Option.eq_none_iff_forall_not_mem.2
      intro t smaller
      have less := lighter s t smaller
      omega
  | succ n ih =>
    unfold fit at h
    split at h
    · cases h
    · next large =>
      rw [Bool.not_eq_true] at large
      cases smaller : shrink s with
      | none => exact ⟨s, .refl, smaller, large⟩
      | some s' =>
        rw [smaller, Option.bind_some] at h
        have less := lighter s s' smaller
        obtain ⟨t, reached, last, large'⟩ := ih (by omega) h
        exact ⟨t, .head ⟨large, smaller⟩ reached, last, large'⟩

end Shrinking
