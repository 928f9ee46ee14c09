import Mathlib.Data.List.Basic
import Mathlib.Data.List.Chain

/-!
# Greedy packing with overlap

Units are packed in order into groups as long as they fit. When the next unit does not fit the
group is closed, and the new group begins with some units that are carried over from its end.
Each group keeps apart what was carried and what is fresh.
-/

namespace Packing

structure Group (α : Type*) where
  carried : List α
  fresh : List α

namespace Group

variable {α : Type*}

def all (g : Group α) : List α :=
  g.carried ++ g.fresh

def add (g : Group α) (unit : α) : Group α :=
  { g with fresh := g.fresh ++ [unit] }

@[simp] theorem add_all (g : Group α) (unit : α) : (g.add unit).all = g.all ++ [unit] :=
  (List.append_assoc _ _ _).symm

end Group

variable {α : Type*} (fits : List α → Bool) (carry : List α → α → List α)

/-- One more unit: the groups closed so far and the open one. -/
def step (s : List (Group α) × Group α) (unit : α) : List (Group α) × Group α :=
  if s.2.all ≠ [] ∧ fits (s.2.all ++ [unit]) = false then (s.1 ++ [s.2], ⟨carry s.2.all unit, [unit]⟩)
  else (s.1, s.2.add unit)

/-- The open group is closed when there is something in it. -/
def close (s : List (Group α) × Group α) : List (Group α) :=
  if s.2.all = [] then s.1 else s.1 ++ [s.2]

/-- The groups of the units. -/
def pack (units : List α) : List (Group α) :=
  close (units.foldl (step fits carry) ([], ⟨[], []⟩))

/-- What a group carries from the one before. -/
def Carries (overlap : List α → Prop) (g h : Group α) : Prop :=
  h.carried <:+ g.all ∧ overlap h.carried

/-- A group is closed by the first unit of the next, which does not fit into it. -/
def Closes (g h : Group α) : Prop :=
  ∃ unit rest, h.fresh = unit :: rest ∧ fits (g.all ++ [unit]) = false

/-- What holds of the groups while units are packed. -/
structure Packed (overlap : List α → Prop) (done : List α) (s : List (Group α) × Group α) : Prop where
  fresh : (s.1 ++ [s.2]).flatMap Group.fresh = done
  filled : ∀ g ∈ s.1, g.fresh ≠ []
  within : ∀ g ∈ s.1, fits g.all = true
  open_ : s = ([], ⟨[], []⟩) ∨ (s.2.fresh ≠ [] ∧ fits s.2.all = true)
  first : ∀ g ∈ (s.1 ++ [s.2]).head?, g.carried = []
  chain : (s.1 ++ [s.2]).IsChain (Carries overlap)
  closes : (s.1 ++ [s.2]).IsChain (Closes fits)

variable {fits carry} {overlap : List α → Prop}

theorem Packed.start : Packed fits overlap [] ([], ⟨[], []⟩) where
  fresh := rfl
  filled _ mem := absurd mem List.not_mem_nil
  within _ mem := absurd mem List.not_mem_nil
  open_ := .inl rfl
  first g mem := by
    obtain rfl : ⟨[], []⟩ = g := Option.some.inj mem
    rfl
  chain := List.isChain_singleton _
  closes := List.isChain_singleton _

/-- A unit that fits goes into the open group. -/
theorem Packed.put {done : List α} {s : List (Group α) × Group α} (h : Packed fits overlap done s) {unit : α}
    (room : fits (s.2.all ++ [unit]) = true) : Packed fits overlap (done ++ [unit]) (s.1, s.2.add unit) where
  fresh := by
    rw [← h.fresh]
    simp [Group.add]
  filled := h.filled
  within := h.within
  open_ := .inr ⟨List.append_ne_nil_of_right_ne_nil _ (List.cons_ne_nil _ _), by rwa [Group.add_all]⟩
  first g mem := by
    cases parts : s.1 with
    | nil =>
      rw [parts] at mem
      obtain rfl : s.2.add unit = g := Option.some.inj mem
      exact h.first s.2 (by rw [parts]; rfl)
    | cons f fs =>
      rw [parts] at mem
      exact h.first g (by rw [parts]; exact mem)
  chain := by
    have chain := h.chain
    rw [List.isChain_append] at chain ⊢
    refine ⟨chain.1, List.isChain_singleton _, ?_⟩
    rintro g last _ ⟨⟩
    exact chain.2.2 g last s.2 rfl
  closes := by
    have closes := h.closes
    rw [List.isChain_append] at closes ⊢
    refine ⟨closes.1, List.isChain_singleton _, ?_⟩
    rintro g last _ ⟨⟩
    obtain ⟨first, rest, fresh, tight⟩ := closes.2.2 g last s.2 rfl
    exact ⟨first, rest ++ [unit], congrArg (· ++ [unit]) fresh, tight⟩

/-- A unit that does not fit opens a group. -/
theorem Packed.turn {done : List α} {s : List (Group α) × Group α} (h : Packed fits overlap done s) {unit : α}
    (some_ : s.2.all ≠ []) (tight : fits (s.2.all ++ [unit]) = false) (room : fits (carry s.2.all unit ++ [unit]) = true)
    (back : carry s.2.all unit <:+ s.2.all ∧ overlap (carry s.2.all unit)) :
    Packed fits overlap (done ++ [unit]) (s.1 ++ [s.2], ⟨carry s.2.all unit, [unit]⟩) := by
  have full := h.open_.resolve_left (by
    rintro rfl
    exact some_ rfl)
  refine ⟨?_, ?_, ?_, .inr ⟨List.cons_ne_nil _ _, room⟩, ?_, ?_, ?_⟩
  · rw [List.flatMap_append, h.fresh]
    simp
  · intro g mem
    rcases List.mem_append.1 mem with old | new
    · exact h.filled g old
    · rw [List.mem_singleton.1 new]
      exact full.1
  · intro g mem
    rcases List.mem_append.1 mem with old | new
    · exact h.within g old
    · rw [List.mem_singleton.1 new]
      exact full.2
  · intro g mem
    rw [List.head?_append_of_ne_nil _ (List.append_ne_nil_of_right_ne_nil _ (List.cons_ne_nil _ _))] at mem
    exact h.first g mem
  · rw [List.isChain_append]
    refine ⟨h.chain, List.isChain_singleton _, ?_⟩
    rintro g last _ ⟨⟩
    rw [List.getLast?_concat] at last
    obtain rfl := Option.some.inj last
    exact back
  · rw [List.isChain_append]
    refine ⟨h.closes, List.isChain_singleton _, ?_⟩
    rintro g last _ ⟨⟩
    rw [List.getLast?_concat] at last
    obtain rfl := Option.some.inj last
    exact ⟨unit, [], rfl, tight⟩

theorem step_packed {unit : α} (single : fits [unit] = true)
    (carried : ∀ all, fits (carry all unit ++ [unit]) = true ∧ carry all unit <:+ all ∧ overlap (carry all unit))
    {done : List α} {s : List (Group α) × Group α} (h : Packed fits overlap done s) :
    Packed fits overlap (done ++ [unit]) (step fits carry s unit) := by
  rw [step]
  split
  · next full =>
    obtain ⟨room, back⟩ := carried s.2.all
    exact h.turn full.1 full.2 room back
  · next not_full =>
    apply h.put
    by_cases empty : s.2.all = []
    · rw [empty]
      exact single
    · by_contra tight
      exact not_full ⟨empty, Bool.eq_false_iff.2 tight⟩

theorem foldl_packed {units : List α} (single : ∀ unit ∈ units, fits [unit] = true)
    (carried : ∀ unit ∈ units, ∀ all,
      fits (carry all unit ++ [unit]) = true ∧ carry all unit <:+ all ∧ overlap (carry all unit))
    {done : List α} {s : List (Group α) × Group α} (h : Packed fits overlap done s) :
    Packed fits overlap (done ++ units) (units.foldl (step fits carry) s) := by
  induction units generalizing done s with
  | nil => rwa [List.append_nil]
  | cons unit units ih =>
    rw [List.foldl_cons, List.append_cons]
    have next := step_packed (single unit (List.mem_cons_self ..)) (carried unit (List.mem_cons_self ..)) h
    exact ih (fun v mem => single v (List.mem_cons_of_mem _ mem)) (fun v mem => carried v (List.mem_cons_of_mem _ mem)) next

/-- **Greedy packing.** The fresh units of the groups are the units in order, every group has some
and fits, the first carries nothing and each other what `carry` takes from the end of the one before, which had no room for
its first fresh unit. -/
theorem pack_spec {units : List α} (single : ∀ unit ∈ units, fits [unit] = true)
    (carried : ∀ unit ∈ units, ∀ all,
      fits (carry all unit ++ [unit]) = true ∧ carry all unit <:+ all ∧ overlap (carry all unit)) :
    (pack fits carry units).flatMap Group.fresh = units ∧
      (∀ g ∈ pack fits carry units, g.fresh ≠ [] ∧ fits g.all = true) ∧
      (∀ g ∈ (pack fits carry units).head?, g.carried = []) ∧ (pack fits carry units).IsChain (Carries overlap) ∧
      (pack fits carry units).IsChain (Closes fits) := by
  have h := @foldl_packed _ _ _ overlap _ single carried _ _ Packed.start
  rw [List.nil_append] at h
  rw [pack]
  generalize units.foldl (step fits carry) ([], ⟨[], []⟩) = s at h
  rw [close]
  rcases h.open_ with rfl | ⟨some_, room⟩
  · have empty : units = [] := by rw [← h.fresh]; rfl
    rw [empty]
    refine ⟨rfl, fun g mem => absurd mem List.not_mem_nil, ?_, List.isChain_nil, List.isChain_nil⟩
    rintro g ⟨⟩
  · have filled : s.2.all ≠ [] := List.append_ne_nil_of_right_ne_nil _ some_
    rw [if_neg filled]
    refine ⟨h.fresh, ?_, h.first, h.chain, h.closes⟩
    intro g mem
    rcases List.mem_append.1 mem with old | new
    · exact ⟨h.filled g old, h.within g old⟩
    · rw [List.mem_singleton.1 new]
      exact ⟨some_, room⟩

end Packing
