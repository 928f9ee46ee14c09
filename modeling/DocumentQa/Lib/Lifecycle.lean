import Mathlib.Order.Basic

/-!
# The life of an identity

An identity is absent, live at a revision or dead at a revision. `Follows` is what may happen
to it: nothing, or a change that raises the revision and brings nothing dead back to life. It
is reflexive and transitive, so it holds across a run when it holds across every step.
`Levels` adds one more change, the burial of a live identity at the revision it is live at.
-/

namespace Lifecycle

/-- What is recorded of an identity; `α` is the content of a live one, `β` what is left of a dead one. -/
inductive Slot (α β : Type) where
  | absent
  | live (revision : Nat) (content : α)
  | dead (revision : Nat) (content : β)
deriving DecidableEq

namespace Slot

variable {α β : Type}

/-- The recorded revision; that of an absent identity is below all others. -/
def revision : Slot α β → Nat
  | absent => 0
  | live r _ => r
  | dead r _ => r

def isLive : Slot α β → Bool
  | live _ _ => true
  | _ => false

def isDead : Slot α β → Bool
  | dead _ _ => true
  | _ => false

/-- `t` is what `s` is, or a later state of it at a higher revision. -/
def Follows (s t : Slot α β) : Prop :=
  t = s ∨ (s.revision < t.revision ∧ (s.isDead = true → t.isDead = true))

/-- A live identity is buried at its own revision. -/
def Buried (s t : Slot α β) : Prop :=
  s.isLive = true ∧ t.isDead = true ∧ t.revision = s.revision

/-- A lawful change, or a burial at the same revision. -/
def Levels (s t : Slot α β) : Prop :=
  Follows s t ∨ Buried s t

@[simp] theorem Follows.refl (s : Slot α β) : Follows s s :=
  .inl rfl

theorem Follows.trans {s t u : Slot α β} (h : Follows s t) (h' : Follows t u) : Follows s u := by
  rcases h with rfl | ⟨lt, dead⟩
  · exact h'
  rcases h' with rfl | ⟨lt', dead'⟩
  · exact .inr ⟨lt, dead⟩
  · exact .inr ⟨Nat.lt_trans lt lt', fun d => dead' (dead d)⟩

/-- A change raises the revision. -/
theorem Follows.lt {s t : Slot α β} (h : Follows s t) (ne : t ≠ s) : s.revision < t.revision := by
  rcases h with rfl | ⟨lt, -⟩
  · exact absurd rfl ne
  · exact lt

/-- What both kinds of change keep: the revision does not fall and the dead stay dead. -/
def Advances (s t : Slot α β) : Prop :=
  s.revision ≤ t.revision ∧ (s.isDead = true → t.isDead = true)

@[simp] theorem Advances.refl (s : Slot α β) : Advances s s :=
  ⟨Nat.le_refl _, id⟩

theorem Advances.trans {s t u : Slot α β} (h : Advances s t) (h' : Advances t u) : Advances s u :=
  ⟨Nat.le_trans h.1 h'.1, fun d => h'.2 (h.2 d)⟩

theorem Levels.advances {s t : Slot α β} (h : Levels s t) : Advances s t := by
  rcases h with (rfl | ⟨lt, dead⟩) | ⟨-, dead, same⟩
  · exact .refl _
  · exact ⟨Nat.le_of_lt lt, dead⟩
  · exact ⟨Nat.le_of_eq same.symm, fun _ => dead⟩

end Slot

end Lifecycle
