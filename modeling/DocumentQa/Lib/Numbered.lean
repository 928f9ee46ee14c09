import Mathlib.Data.List.Forall2
import Mathlib.Data.List.Sort

/-!
# Logs that are numbered from one

A log whose entries carry the numbers 1, 2, … in order. What stands behind a number is what is
left when so many entries are dropped, so a reader that asks for what is behind the last number it
holds gets the next entries: it holds a front part of the log at any time (`Holds`).
-/

namespace Numbered

variable {α β : Type*} (number : α → Nat)

/-- The entries are numbered in order. -/
def InOrder (l : List α) : Prop :=
  l.map number = List.range' 1 l.length

variable {number} {l : List α}

theorem behind {c start : Nat} (h : l.map number = List.range' start l.length) (le : start ≤ c + 1) :
    (l.filter fun a => c < number a) = l.drop (c + 1 - start) := by
  induction l generalizing start with
  | nil => simp
  | cons a l ih =>
    rw [List.map_cons, List.length_cons, List.range'_succ] at h
    obtain ⟨first, rest⟩ := List.cons.inj h
    by_cases here : start = c + 1
    · have all : ∀ b ∈ a :: l, c < number b := by
        intro b mem
        have among : number b ∈ List.range' start (l.length + 1) := by
          rw [List.range'_succ, ← h]
          exact List.mem_map.2 ⟨b, mem, rfl⟩
        have := (List.mem_range'_1.1 among).1
        omega
      rw [here, Nat.sub_self, List.drop_zero, List.filter_eq_self]
      intro b mem
      exact decide_eq_true (all b mem)
    · have skipped : ¬ c < number a := by omega
      have count : c + 1 - start = (c + 1 - (start + 1)) + 1 := by omega
      rw [List.filter_cons_of_neg (by simpa using skipped), ih rest (by omega), count, List.drop_succ_cons]

/-- **What is behind a number** is what is left of the log. -/
theorem InOrder.behind (h : InOrder number l) (c : Nat) : (l.filter fun a => c < number a) = l.drop c := by
  have left := Numbered.behind (c := c) h (by omega)
  rwa [Nat.add_sub_cancel] at left

theorem InOrder.drop (h : InOrder number l) (c : Nat) : (l.drop c).map number = List.range' (c + 1) (l.length - c) := by
  rw [List.map_drop, h, List.drop_range']
  congr 1
  omega

/-- The numbers of a page follow the number it is behind. -/
theorem InOrder.page (h : InOrder number l) (c limit : Nat) :
    ((l.drop c).take limit).map number = List.range' (c + 1) ((l.drop c).take limit).length := by
  rw [List.map_take, h.drop, List.length_take, List.length_drop]
  rcases Nat.le_total limit (l.length - c) with full | short
  · rw [List.take_range'_of_length_ge full, Nat.min_eq_left full]
  · rw [List.take_range'_of_length_le short, Nat.min_eq_right short]

/-- The entries stand by their numbers. -/
theorem InOrder.sorted (h : InOrder number l) : l.Pairwise fun a b => number a ≤ number b := by
  have sorted : (l.map number).Pairwise (· ≤ ·) := by
    rw [h]
    exact List.pairwise_le_range' 1
  exact List.pairwise_map.1 sorted

/-! ## A reader -/

/-- The reader holds, for each entry of a front part of the log, what `R` relates it to. -/
def Holds (R : α → β → Prop) (l : List α) (held : List β) : Prop :=
  List.Forall₂ R (l.take held.length) held

variable {R : α → β → Prop} {held : List β}

theorem Holds.nothing : Holds R l [] :=
  .nil

theorem Holds.length_le (h : Holds R l held) : held.length ≤ l.length := by
  have length := h.length_eq
  rw [List.length_take] at length
  omega

/-- **Growth.** The log grows behind what the reader holds. -/
theorem Holds.grows {l' : List α} (h : Holds R l held) (grows : l <+: l') : Holds R l' held := by
  obtain ⟨more, rfl⟩ := grows
  unfold Holds
  rw [List.take_append_of_le_length h.length_le]
  exact h

/-- **One page.** What follows what the reader holds, at most `limit` entries of it. -/
theorem Holds.page {page : List β} {limit : Nat} (h : Holds R l held)
    (next : List.Forall₂ R ((l.drop held.length).take limit) page) : Holds R l (held ++ page) := by
  have length := next.length_eq
  rw [List.length_take] at length
  have whole : l.take (held.length + page.length) = l.take held.length ++ (l.drop held.length).take limit := by
    rw [List.take_add]
    congr 1
    rw [List.take_eq_take_iff]
    omega
  unfold Holds
  rw [List.length_append, whole]
  exact List.rel_append h next

/-- A page that is not full ends the log. -/
theorem ends_of_short {page : List β} {limit : Nat} (h : Holds R l held)
    (next : List.Forall₂ R ((l.drop held.length).take limit) page) (short : page.length < limit) :
    held.length + page.length = l.length := by
  have within := h.length_le
  have length := next.length_eq
  rw [List.length_take, List.length_drop] at length
  omega

end Numbered
