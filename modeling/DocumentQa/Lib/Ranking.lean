import Mathlib.Data.List.Sort

/-!
# Rankings

A stable sort by key, greatest first, and a table of values kept in the order its keys came.
A ranking has the members of the list it ranks; the table's keys are distinct and are those
that were put in. Neither needs anything of the order the values are compared by.
-/

namespace Ranking

variable {α β κ σ : Type*}

/-- The greatest keys first, equal keys in the order they came. -/
def descending (le : σ → σ → Prop) [DecidableRel le] (key : α → σ) (l : List α) : List α :=
  l.insertionSort fun a b => le (key b) (key a)

section Descending

variable {le : σ → σ → Prop} [DecidableRel le] {key : α → σ} {l : List α}

theorem descending_perm : (descending le key l).Perm l :=
  List.perm_insertionSort _ l

@[simp] theorem mem_descending {a : α} : a ∈ descending le key l ↔ a ∈ l :=
  descending_perm.mem_iff

/-- Ranking commutes with a map that keeps the keys. -/
theorem map_descending {key' : β → σ} {f : α → β} (same : ∀ a ∈ l, key a = key' (f a)) :
    (descending le key l).map f = descending le key' (l.map f) := by
  apply List.map_insertionSort
  intro a ha b hb
  rw [same a ha, same b hb]

end Descending

/-! ## Distinct keys -/

section Ascending

variable [LinearOrder σ] {key : α → σ} {l l' : List α}

/-- Sorting by distinct keys sorts strictly. -/
theorem ascending_strict (distinct : (l.map key).Nodup) :
    (l.insertionSort fun a b => key a ≤ key b).Pairwise fun a b => key a < key b := by
  have : Std.Total fun a b : α => key a ≤ key b := ⟨fun a b => le_total (key a) (key b)⟩
  have : IsTrans α fun a b => key a ≤ key b := ⟨fun _ _ _ => le_trans⟩
  have perm := List.perm_insertionSort (fun a b => key a ≤ key b) l
  have nodup : ((l.insertionSort fun a b => key a ≤ key b).map key).Nodup := (perm.map key).nodup_iff.2 distinct
  have ascending : (l.insertionSort fun a b => key a ≤ key b).Pairwise fun a b => key a ≤ key b :=
    List.pairwise_insertionSort _ l
  exact (ascending.and (List.pairwise_map.1 nodup)).imp fun both => lt_of_le_of_ne both.1 both.2

/-- Sorting by distinct keys forgets the order. -/
theorem ascending_perm (distinct : (l.map key).Nodup) (same : l.Perm l') :
    l.insertionSort (fun a b => key a ≤ key b) = l'.insertionSort fun a b => key a ≤ key b := by
  have distinct' : (l'.map key).Nodup := (same.map key).nodup_iff.1 distinct
  have sorted := (List.perm_insertionSort (fun a b => key a ≤ key b) l).trans
    (same.trans (List.perm_insertionSort (fun a b => key a ≤ key b) l').symm)
  refine sorted.eq_of_pairwise ?_ (ascending_strict distinct) (ascending_strict distinct')
  intro a b _ _ below above
  exact absurd above (lt_asymm below)

/-- Sorting what is sorted changes nothing. -/
theorem ascending_of_strict (h : l.Pairwise fun a b => key a < key b) :
    l.insertionSort (fun a b => key a ≤ key b) = l := by
  have : Std.Total fun a b : α => key a ≤ key b := ⟨fun a b => le_total (key a) (key b)⟩
  have : IsTrans α fun a b => key a ≤ key b := ⟨fun _ _ _ => le_trans⟩
  exact (h.imp le_of_lt).insertionSort_eq

end Ascending

/-! ## Newest first -/

section Newest

variable [LinearOrder σ] {key : α → σ} {l l' : List α}

/-- Ranking by distinct keys ranks strictly. -/
theorem descending_strict (distinct : (l.map key).Nodup) :
    (descending (· ≤ ·) key l).Pairwise fun a b => key b < key a :=
  @ascending_strict α (OrderDual σ) _ (fun a => OrderDual.toDual (key a)) l distinct

/-- A strictly ranked list is the ranking of its members. -/
theorem descending_unique (order : l'.Pairwise fun a b => key b < key a) (same : l.Perm l') :
    descending (· ≤ ·) key l = l' := by
  have distinct : (l'.map key).Nodup := List.pairwise_map.2 (order.imp fun below => below.ne')
  have ranked := descending_strict ((same.map key).nodup_iff.2 distinct)
  exact (descending_perm.trans same).eq_of_pairwise (fun a b _ _ below above => absurd above (lt_asymm below)) ranked order

/-- Ranking a part ranks it as the whole does. -/
theorem descending_filter (distinct : (l.map key).Nodup) (p : α → Bool) :
    descending (· ≤ ·) key (l.filter p) = (descending (· ≤ ·) key l).filter p :=
  descending_unique ((descending_strict distinct).filter p) (descending_perm.symm.filter p)

/-- What is behind an element of a ranked list has the smaller keys. -/
theorem filter_behind {front rest : List α} {last : α} (order : (front ++ last :: rest).Pairwise fun a b => key b < key a) :
    ((front ++ last :: rest).filter fun a => key a < key last) = rest := by
  obtain ⟨-, tail, before⟩ := List.pairwise_append.1 order
  obtain ⟨behind, -⟩ := List.pairwise_cons.1 tail
  have none_ : (front.filter fun a => key a < key last) = [] := by
    apply List.filter_eq_nil_iff.2
    intro a mem
    rw [decide_eq_true_eq]
    exact lt_asymm (before a mem last List.mem_cons_self)
  have all : (rest.filter fun a => key a < key last) = rest := by
    apply List.filter_eq_self.2
    intro a mem
    exact decide_eq_true (behind a mem)
  rw [List.filter_append, none_, List.filter_cons_of_neg (by simp), all, List.nil_append]

/-- An element among the first of a list is among the first of every part that has it. -/
theorem mem_take_filter {p : α → Bool} {n : Nat} {a : α} (mem : a ∈ l.take n) (here : p a = true) : a ∈ (l.filter p).take n := by
  have front : (l.take n).filter p <+: l.filter p := (List.take_prefix n l).filter p
  have few : ((l.take n).filter p).length ≤ n := (List.length_filter_le _ _).trans (List.length_take_le _ _)
  have within : (l.take n).filter p <+: (l.filter p).take n := List.prefix_take_iff.2 ⟨front, few⟩
  exact within.subset (List.mem_filter.2 ⟨mem, here⟩)

open Classical in
/-- The ranking of a part is what the ranking of the whole has of it. -/
theorem descending_part (distinct : (l.map key).Nodup) (nodup : l'.Nodup) (part : l' ⊆ l) :
    descending (· ≤ ·) key l' = (descending (· ≤ ·) key l).filter (· ∈ l') := by
  have order := descending_strict distinct
  apply descending_unique (order.filter _)
  have whole : (descending (· ≤ ·) key l).Nodup := order.imp fun below same => below.ne (congrArg key same).symm
  rw [List.perm_ext_iff_of_nodup nodup (whole.filter _)]
  intro a
  rw [List.mem_filter, mem_descending, decide_eq_true_eq]
  exact ⟨fun mem => ⟨part mem, mem⟩, fun h => h.2⟩

/-- **Merging first parts**: the first `n` of two lists together are the first `n` of the first `n`
of each. -/
theorem take_descending_append {a b : List α} (distinct : ((a ++ b).map key).Nodup) (n : Nat) :
    (descending (· ≤ ·) key ((descending (· ≤ ·) key a).take n ++ (descending (· ≤ ·) key b).take n)).take n =
      (descending (· ≤ ·) key (a ++ b)).take n := by
  classical
  generalize parts : (descending (· ≤ ·) key a).take n ++ (descending (· ≤ ·) key b).take n = c
  have sub : c ⊆ a ++ b := by
    rw [← parts]
    apply List.append_subset.2
    constructor
    · exact fun x mem => List.mem_append_left _ (mem_descending.1 (List.mem_of_mem_take mem))
    · exact fun x mem => List.mem_append_right _ (mem_descending.1 (List.mem_of_mem_take mem))
  have nodup : (a ++ b).Nodup := List.Nodup.of_map key distinct
  have nodup' : c.Nodup := by
    rw [← parts]
    have apart := List.nodup_append.1 nodup
    refine List.nodup_append.2 ⟨?_, ?_, ?_⟩
    · exact ((descending_perm.nodup_iff.2 apart.1).sublist (List.take_sublist n _))
    · exact ((descending_perm.nodup_iff.2 apart.2.1).sublist (List.take_sublist n _))
    · intro x memA y memB
      exact apart.2.2 x (mem_descending.1 (List.mem_of_mem_take memA)) y (mem_descending.1 (List.mem_of_mem_take memB))
  have first : ∀ x ∈ (descending (· ≤ ·) key (a ++ b)).take n, x ∈ c := by
    intro x mem
    rw [← parts, List.mem_append]
    rcases List.mem_append.1 (mem_descending.1 (List.mem_of_mem_take mem)) with here | here
    · left
      rw [descending_part distinct (List.nodup_append.1 nodup).1 (List.subset_append_left a b)]
      exact mem_take_filter mem (decide_eq_true here)
    · right
      rw [descending_part distinct (List.nodup_append.1 nodup).2.1 (List.subset_append_right a b)]
      exact mem_take_filter mem (decide_eq_true here)
  rw [descending_part distinct nodup' sub]
  generalize descending (· ≤ ·) key (a ++ b) = ranked at first
  have whole : (ranked.take n).filter (· ∈ c) = ranked.take n :=
    List.filter_eq_self.2 fun x mem => decide_eq_true (first x mem)
  conv_lhs => rw [← List.take_append_drop n ranked, List.filter_append, whole, List.take_append, List.take_take, Nat.min_self]
  by_cases long : n ≤ ranked.length
  · rw [List.length_take, Nat.min_eq_left long, Nat.sub_self, List.take_zero, List.append_nil]
  · rw [List.drop_eq_nil_of_le (by omega), List.filter_nil, List.take_nil, List.append_nil]

end Newest

/-! ## Tables -/

variable [DecidableEq κ]

/-- The entry of `k` becomes `f` of what it was; a new key comes last. -/
def put (f : Option σ → σ) (k : κ) : List (κ × σ) → List (κ × σ)
  | [] => [(k, f none)]
  | (k', v) :: rest => if k' = k then (k', f (some v)) :: rest else (k', v) :: put f k rest

theorem mem_put {f : Option σ → σ} {k a : κ} {table : List (κ × σ)} :
    a ∈ (put f k table).map Prod.fst ↔ a = k ∨ a ∈ table.map Prod.fst := by
  induction table with
  | nil => simp [put]
  | cons entry rest ih =>
    obtain ⟨k', v⟩ := entry
    unfold put
    split
    · next same =>
      subst same
      simp
    · rw [List.map_cons, List.mem_cons, ih, List.map_cons, List.mem_cons]
      tauto

/-- An entry of the table is an old one or the new value of `k`. -/
theorem of_mem_put {f : Option σ → σ} {k : κ} {table : List (κ × σ)} {p : κ × σ} (h : p ∈ put f k table) :
    p ∈ table ∨ ∃ old, p = (k, f old) ∧ ∀ v, old = some v → (k, v) ∈ table := by
  induction table with
  | nil => exact .inr ⟨none, List.mem_singleton.1 h, fun v e => absurd e.symm (Option.some_ne_none v)⟩
  | cons entry rest ih =>
    obtain ⟨k', v⟩ := entry
    unfold put at h
    split at h
    · next same =>
      subst same
      rcases List.mem_cons.1 h with rfl | mem
      · refine .inr ⟨some v, rfl, ?_⟩
        rintro w ⟨⟩
        exact List.mem_cons_self ..
      · exact .inl (List.mem_cons_of_mem _ mem)
    · rcases List.mem_cons.1 h with rfl | mem
      · exact .inl (List.mem_cons_self ..)
      · rcases ih mem with mem | ⟨old, e, within⟩
        · exact .inl (List.mem_cons_of_mem _ mem)
        · exact .inr ⟨old, e, fun w here => List.mem_cons_of_mem _ (within w here)⟩

theorem put_nodup {f : Option σ → σ} {k : κ} {table : List (κ × σ)} (h : (table.map Prod.fst).Nodup) :
    ((put f k table).map Prod.fst).Nodup := by
  induction table with
  | nil => simp [put]
  | cons entry rest ih =>
    obtain ⟨k', v⟩ := entry
    rw [List.map_cons, List.nodup_cons] at h
    unfold put
    split
    · rw [List.map_cons, List.nodup_cons]
      exact h
    · next other =>
      rw [List.map_cons, List.nodup_cons, mem_put, not_or]
      exact ⟨⟨other, h.1⟩, ih h.2⟩

/-- Pairs entered in turn, as a loop of `table[key] = value` does. -/
def enter (table : List (κ × σ)) (pairs : List (κ × σ)) : List (κ × σ) :=
  pairs.foldl (fun table pair => put (fun _ => pair.2) pair.1 table) table

theorem mem_enter {a : κ} {table pairs : List (κ × σ)} :
    a ∈ (enter table pairs).map Prod.fst ↔ a ∈ table.map Prod.fst ∨ a ∈ pairs.map Prod.fst := by
  induction pairs generalizing table with
  | nil => simp [enter]
  | cons pair pairs ih =>
    show a ∈ (enter (put (fun _ => pair.2) pair.1 table) pairs).map Prod.fst ↔ _
    rw [ih, mem_put, List.map_cons, List.mem_cons]
    tauto

section Lookup

variable [BEq κ] [LawfulBEq κ]

theorem lookup_put (f : Option σ → σ) (k a : κ) (table : List (κ × σ)) :
    (put f k table).lookup a = if a = k then some (f (table.lookup k)) else table.lookup a := by
  induction table with
  | nil =>
    rw [put, List.lookup_cons, List.lookup_nil, List.lookup_nil]
    by_cases same : a = k
    · rw [if_pos same, same, beq_self_eq_true]
    · rw [if_neg same, beq_eq_false_iff_ne.2 same]
  | cons entry rest ih =>
    obtain ⟨k', v⟩ := entry
    unfold put
    split
    · next here =>
      subst here
      simp only [List.lookup_cons, beq_self_eq_true]
      by_cases same : a = k'
      · rw [if_pos same, same, beq_self_eq_true]
      · rw [if_neg same, beq_eq_false_iff_ne.2 same]
    · next other =>
      simp only [List.lookup_cons, ih, beq_eq_false_iff_ne.2 (Ne.symm other)]
      by_cases same : a = k
      · subst same
        rw [if_pos rfl, beq_eq_false_iff_ne.2 (Ne.symm other), if_pos rfl]
      · rw [if_neg same, if_neg same]

end Lookup

/-- Every key of `ks` in turn, the value a function of its place in `ks`. -/
def putAll (f : Nat → Option σ → σ) (table : List (κ × σ)) (ks : List κ) : List (κ × σ) :=
  ks.zipIdx.foldl (fun table entry => put (f entry.2) entry.1 table) table

theorem putAll_induct {P : List (κ × σ) → Prop} {f : Nat → Option σ → σ}
    (step : ∀ k n table, P table → P (put (f n) k table)) {table : List (κ × σ)} (start : P table) (ks : List κ) :
    P (putAll f table ks) := by
  unfold putAll
  generalize ks.zipIdx = entries
  induction entries generalizing table with
  | nil => exact start
  | cons entry rest ih =>
    rw [List.foldl_cons]
    exact ih (step entry.1 entry.2 table start)

theorem putAll_nodup {f : Nat → Option σ → σ} {table : List (κ × σ)} (h : (table.map Prod.fst).Nodup) (ks : List κ) :
    ((putAll f table ks).map Prod.fst).Nodup :=
  putAll_induct (P := fun table => (table.map Prod.fst).Nodup) (fun _ _ _ => put_nodup) h ks

theorem mem_putAll {f : Nat → Option σ → σ} {a : κ} {table : List (κ × σ)} {ks : List κ} :
    a ∈ (putAll f table ks).map Prod.fst ↔ a ∈ table.map Prod.fst ∨ a ∈ ks := by
  unfold putAll
  conv_rhs => rw [← List.zipIdx_map_fst 0 ks]
  generalize ks.zipIdx = entries
  induction entries generalizing table with
  | nil => simp
  | cons entry rest ih =>
    rw [List.foldl_cons, ih, mem_put, List.map_cons, List.mem_cons]
    tauto

end Ranking
