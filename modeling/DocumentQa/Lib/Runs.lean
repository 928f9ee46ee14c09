import Mathlib.Data.List.Induction

/-!
# Runs of a deterministic system under arbitrary inputs

A system is a step function; everything that is not determined (who calls, with
what arguments, at what time, with which failure) is the step's input. A run is
the fold of the steps over a list of inputs. The rules below turn a fact about
one step into a fact about whole runs.
-/

namespace Runs

variable {σ ι : Type} (step : σ → ι → σ)

/-- The state after the inputs `xs`. -/
def run (s : σ) (xs : List ι) : σ :=
  xs.foldl step s

@[simp] theorem run_nil (s : σ) : run step s [] = s :=
  rfl

@[simp] theorem run_cons (s : σ) (x : ι) (xs : List ι) : run step s (x :: xs) = run step (step s x) xs :=
  rfl

theorem run_append (s : σ) (xs ys : List ι) : run step s (xs ++ ys) = run step (run step s xs) ys :=
  List.foldl_append

/-- Some run from `s` ends in `t`. -/
def Reaches (s t : σ) : Prop :=
  ∃ xs, run step s xs = t

theorem Reaches.refl (s : σ) : Reaches step s s :=
  ⟨[], rfl⟩

variable {step}

theorem Reaches.trans {s t u : σ} (h : Reaches step s t) (h' : Reaches step t u) : Reaches step s u := by
  obtain ⟨xs, rfl⟩ := h
  obtain ⟨ys, rfl⟩ := h'
  exact ⟨xs ++ ys, run_append step s xs ys⟩

theorem Reaches.tail {s t : σ} (h : Reaches step s t) (x : ι) : Reaches step s (step t x) :=
  h.trans ⟨[x], rfl⟩

/-- **Invariants.** What every step preserves holds at the end of every run. -/
theorem Reaches.invariant {I : σ → Prop} {s t : σ} (h : Reaches step s t) (hs : I s)
    (keep : ∀ s x, I s → I (step s x)) : I t := by
  obtain ⟨xs, rfl⟩ := h
  induction xs generalizing s with
  | nil => exact hs
  | cons x xs ih => exact ih (keep s x hs)

/-- **Two-state properties.** A reflexive and transitive relation that holds across
every step from a state satisfying the invariant holds across every run. -/
theorem Reaches.relation {I : σ → Prop} {R : σ → σ → Prop} {s t : σ} (h : Reaches step s t) (hs : I s)
    (keep : ∀ s x, I s → I (step s x)) (refl : ∀ s, R s s) (trans : ∀ s t u, R s t → R t u → R s u)
    (across : ∀ s x, I s → R s (step s x)) : R s t := by
  obtain ⟨xs, rfl⟩ := h
  induction xs generalizing s with
  | nil => exact refl s
  | cons x xs ih => exact trans _ _ _ (across s x hs) (ih (keep s x hs))

variable (step)

/-- Every step of the run from `s` on `xs` satisfies `c` at the state it starts in. -/
def Along (c : σ → ι → Prop) (s : σ) : List ι → Prop
  | [] => True
  | x :: xs => c s x ∧ Along c (step s x) xs

/-- Every state the run from `s` on `xs` passes through satisfies `P`. -/
def Throughout (P : σ → Prop) (s : σ) : List ι → Prop
  | [] => P s
  | x :: xs => P s ∧ Throughout P (step s x) xs

variable {step}

instance Along.decidable {c : σ → ι → Prop} [∀ s x, Decidable (c s x)] : (s : σ) → (xs : List ι) → Decidable (Along step c s xs)
  | _, [] => inferInstanceAs (Decidable True)
  | s, x :: xs =>
    have := Along.decidable (c := c) (step s x) xs
    inferInstanceAs (Decidable (c s x ∧ Along step c (step s x) xs))

theorem along_append {c : σ → ι → Prop} {s : σ} {xs ys : List ι} :
    Along step c s (xs ++ ys) ↔ Along step c s xs ∧ Along step c (run step s xs) ys := by
  induction xs generalizing s with
  | nil => exact ⟨fun h => ⟨trivial, h⟩, fun h => h.2⟩
  | cons x xs ih =>
    rw [List.cons_append, Along, Along, ih, and_assoc]
    rfl

/-- **Conditional invariants.** What every step satisfying `c` preserves holds
throughout every run whose steps all satisfy `c`. -/
theorem Along.throughout {I : σ → Prop} {c : σ → ι → Prop} (keep : ∀ s x, I s → c s x → I (step s x)) :
    ∀ {s : σ} {xs : List ι}, I s → Along step c s xs → Throughout step I s xs := by
  intro s xs
  induction xs generalizing s with
  | nil => exact fun hs _ => hs
  | cons x xs ih => exact fun hs h => ⟨hs, ih (keep s x hs h.1) h.2⟩

/-- A condition on the inputs alone holds along the run when it holds of all of them. -/
theorem Along.and_mem {c : σ → ι → Prop} {d : ι → Prop} {s : σ} {xs : List ι} (h : Along step c s xs) (all : ∀ x ∈ xs, d x) :
    Along step (fun s x => c s x ∧ d x) s xs := by
  induction xs generalizing s with
  | nil => exact trivial
  | cons x xs ih => exact ⟨⟨h.1, all x List.mem_cons_self⟩, ih h.2 fun y mem => all y (List.mem_cons_of_mem _ mem)⟩

theorem Throughout.mono {P Q : σ → Prop} (h : ∀ s, P s → Q s) :
    ∀ {s : σ} {xs : List ι}, Throughout step P s xs → Throughout step Q s xs := by
  intro s xs
  induction xs generalizing s with
  | nil => exact h s
  | cons x xs ih => exact fun hp => ⟨h s hp.1, ih hp.2⟩

/-- The last state of a run is one it passes through. -/
theorem Throughout.last {P : σ → Prop} {s : σ} {xs : List ι} (h : Throughout step P s xs) :
    P (run step s xs) := by
  induction xs generalizing s with
  | nil => exact h
  | cons x xs ih => exact ih h.2

/-- **Losses made good.** A property that a step can lose or restore, and that holds at the start, holds at the end
exactly when every loss on the way is followed by a step that restores it. -/
theorem flag_iff {holds : σ → Prop} {loses restores : σ → ι → Prop}
    (across : ∀ s x, holds (step s x) ↔ (holds s ∧ ¬ loses s x) ∨ restores s x) (apart : ∀ s x, loses s x → ¬ restores s x)
    {s : σ} (start : holds s) (xs : List ι) :
    holds (run step s xs) ↔ ∀ before x after, xs = before ++ x :: after → loses (run step s before) x →
      ∃ between y rest, after = between ++ y :: rest ∧ restores (run step s (before ++ x :: between)) y := by
  induction xs using List.reverseRec with
  | nil =>
    refine ⟨fun _ before x after e => ?_, fun _ => start⟩
    exact absurd e.symm (List.append_ne_nil_of_right_ne_nil before (List.cons_ne_nil x after))
  | append_singleton xs last ih =>
    rw [run_append, run_cons, run_nil, across, ih]
    constructor
    · intro h before x after e lost
      rcases List.eq_nil_or_concat after with rfl | ⟨after, y, rfl⟩
      · obtain ⟨rfl, same⟩ := List.append_inj' e rfl
        cases same
        rcases h with ⟨-, kept⟩ | restored
        · exact absurd lost kept
        · exact absurd restored (apart _ _ lost)
      · rw [List.concat_eq_append, ← List.cons_append, ← List.append_assoc] at e
        obtain ⟨rfl, same⟩ := List.append_inj' e rfl
        cases same
        rcases h with ⟨good, -⟩ | restored
        · obtain ⟨between, z, rest, rfl, back⟩ := good before x after rfl lost
          exact ⟨between, z, rest ++ [last], by simp, back⟩
        · exact ⟨after, last, [], by simp, restored⟩
    · intro good
      by_cases restored : restores (run step s xs) last
      · exact .inr restored
      refine .inl ⟨?_, ?_⟩
      · intro before x after e lost
        obtain ⟨between, y, rest, e', back⟩ := good before x (after ++ [last]) (by rw [e]; simp) lost
        rcases List.eq_nil_or_concat rest with rfl | ⟨rest, z, rfl⟩
        · obtain ⟨rfl, same⟩ := List.append_inj' e' rfl
          cases same
          rw [← e] at back
          exact absurd back restored
        · rw [List.concat_eq_append, ← List.cons_append, ← List.append_assoc] at e'
          exact ⟨between, y, rest, (List.append_inj' e' rfl).1, back⟩
      · intro lost
        obtain ⟨between, y, rest, e, -⟩ := good xs last [] rfl lost
        exact absurd e.symm (List.append_ne_nil_of_right_ne_nil between (List.cons_ne_nil y rest))

end Runs
