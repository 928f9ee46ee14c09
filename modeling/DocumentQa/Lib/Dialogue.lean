import Mathlib.Init

/-!
# Dialogues

A program that asks its surroundings. Each answer continues it, and it ends with a value or is
stopped early. What is of interest of a conversation is noted in a history. Nothing is assumed of
the answers, so what always holds of a program holds against any surroundings, whatever state they
keep (`play_always`).
-/

inductive Dialogue {Q : Type} (A : Q → Type) (S α : Type) where
  | done (a : α)
  | stop (s : S)
  | ask (q : Q) (next : A q → Dialogue A S α)

namespace Dialogue

variable {Q : Type} {A : Q → Type} {S α β σ H : Type}

def bind (f : α → Dialogue A S β) : Dialogue A S α → Dialogue A S β
  | done a => f a
  | stop s => stop s
  | ask q next => ask q fun a => (next a).bind f

instance : Monad (Dialogue A S) where
  pure := done
  bind d f := d.bind f

/-- Ask, and go on with the answer. -/
def question (q : Q) : Dialogue A S (A q) :=
  ask q done

/-- Rounds, each from what the one before it left. -/
def rounds (turn : σ → Dialogue A S σ) : Nat → σ → Dialogue A S σ
  | 0, s => done s
  | n + 1, s => turn s >>= rounds turn n

/-! ## Every conversation -/

/-- However the questions are answered, the history and the value satisfy `P`, or the history and
what stopped the program satisfy `E`. -/
def Always (note : H → (q : Q) → A q → H) (E : H → S → Prop) (P : H → α → Prop) : H → Dialogue A S α → Prop
  | h, done a => P h a
  | h, stop s => E h s
  | h, ask q next => ∀ a, Always note E P (note h q a) (next a)

section Rules

variable {note : H → (q : Q) → A q → H} {E E' : H → S → Prop} {P P' : H → α → Prop} {R : H → β → Prop} {h : H}

theorem Always.imp {d : Dialogue A S α} (always : Always note E P h d) (stopped : ∀ h s, E h s → E' h s)
    (ended : ∀ h a, P h a → P' h a) : Always note E' P' h d := by
  induction d generalizing h with
  | done a => exact ended h a always
  | stop s => exact stopped h s always
  | ask q next ih =>
    intro a
    exact ih a (always a)

/-- **Sequences**: what follows starts from the history so far. -/
theorem always_bind {d : Dialogue A S α} {f : α → Dialogue A S β} :
    Always note E R h (d >>= f) ↔ Always note E (fun h a => Always note E R h (f a)) h d := by
  induction d generalizing h with
  | done a => exact Iff.rfl
  | stop s => exact Iff.rfl
  | ask q next ih => exact forall_congr' fun a => ih a

theorem Always.bind {d : Dialogue A S α} {f : α → Dialogue A S β} (first : Always note E P h d)
    (next : ∀ h a, P h a → Always note E R h (f a)) : Always note E R h (d >>= f) :=
  always_bind.2 (first.imp (fun _ _ => id) next)

/-- **Questions** are answered in any way. -/
theorem always_question {q : Q} {f : A q → Dialogue A S α} :
    Always note E P h (question q >>= f) ↔ ∀ a, Always note E P (note h q a) (f a) :=
  Iff.rfl

/-- **Rounds**: what the rounds keep, by their number, holds when they are over. -/
theorem Always.rounds {I : Nat → H → σ → Prop} {turn : σ → Dialogue A S σ} {n k : Nat} {s : σ} (start : I k h s)
    (keep : ∀ i, k ≤ i → i < k + n → ∀ h s, I i h s → Always note E (I (i + 1)) h (turn s)) :
    Always note E (I (k + n)) h (Dialogue.rounds turn n s) := by
  induction n generalizing h k s with
  | zero => exact start
  | succ n ih =>
    refine (keep k (Nat.le_refl k) (by omega) h s start).bind fun h s here => ?_
    have later := ih here fun i low high => keep i (by omega) (by omega)
    rwa [show k + 1 + n = k + (n + 1) by omega] at later

end Rules

/-! ## Surroundings -/

/-- A finished conversation. -/
structure Finished (H S α : Type) where
  history : H
  result : Except S α

/-- The conversation with surroundings that keep a state. -/
def play (note : H → (q : Q) → A q → H) (answer : σ → (q : Q) → σ × A q) : H → σ → Dialogue A S α → Finished H S α
  | h, _, done a => ⟨h, .ok a⟩
  | h, _, stop s => ⟨h, .error s⟩
  | h, w, ask q next => play note answer (note h q (answer w q).2) (answer w q).1 (next (answer w q).2)

/-- What the history and the result of a conversation satisfy. -/
def Finished.Meets (E : H → S → Prop) (P : H → α → Prop) (o : Finished H S α) : Prop :=
  match o.result with
  | .ok a => P o.history a
  | .error s => E o.history s

/-- **What always holds, holds against any surroundings.** -/
theorem play_always {note : H → (q : Q) → A q → H} {E : H → S → Prop} {P : H → α → Prop} {h : H} {d : Dialogue A S α}
    (always : Always note E P h d) (answer : σ → (q : Q) → σ × A q) (w : σ) : (play note answer h w d).Meets E P := by
  induction d generalizing h w with
  | done a => exact always
  | stop s => exact always
  | ask q next ih => exact ih _ (always _) _

end Dialogue
