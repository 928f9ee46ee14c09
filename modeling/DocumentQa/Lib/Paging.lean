import Mathlib.Data.List.Basic

/-!
# Following cursors

A list served in pages: each answer holds some items and perhaps the cursor of the next
page. `Follows` is a reader that asks again with the cursor it was given until there is
none. When a page is a non-empty front part of what is left, following the cursors yields
the list once and in order exactly when no page on the way is refused.
-/

namespace Paging

variable {α ε : Type*}

structure Page (α : Type*) where
  items : List α
  next : Option Nat

/-- The pages a reader gets who starts at a cursor and follows each next cursor to the end. -/
inductive Follows (page : Nat → Except ε (Page α)) : Nat → List (Nat × Page α) → Prop where
  | last {c : Nat} {p : Page α} (ok : page c = .ok p) (stop : p.next = none) : Follows page c [(c, p)]
  | more {c d : Nat} {p : Page α} {rest : List (Nat × Page α)} (ok : page c = .ok p) (next : p.next = some d)
    (tail : Follows page d rest) : Follows page c ((c, p) :: rest)

/-- Following the cursors from 0 never fails, ends, and yields the list once and in order under
growing cursors. -/
def Exhausts (page : Nat → Except ε (Page α)) (l : List α) : Prop :=
  ∃ visits, Follows page 0 visits ∧ visits.flatMap (fun v => v.2.items) = l ∧
    (visits.map Prod.fst).Pairwise (· < ·)

/-- The pages a list is cut into when each takes the front part `front` names, with their cursors;
an empty list is one empty page. -/
def cuts (front : List α → List α) : Nat → Nat → List α → List (Nat × List α)
  | 0, _, _ => []
  | fuel + 1, c, l =>
    (c, front l) ::
      if (l.drop (front l).length).isEmpty then []
      else cuts front fuel (c + (front l).length) (l.drop (front l).length)

/-- A front part takes something wherever something is left. -/
structure Fronts (front : List α → List α) : Prop where
  takes (l : List α) : front l <+: l
  advances {l : List α} : l ≠ [] → front l ≠ []

/-- The pages serve the list: each is the front part of what is left, unless it is refused. -/
structure Serves (page : Nat → Except ε (Page α)) (front : List α → List α) (fits : Nat → List α → Prop) (l : List α) : Prop where
  accepts {c : Nat} : fits c (front (l.drop c)) → page c = .ok ⟨front (l.drop c),
    if c + (front (l.drop c)).length < l.length then some (c + (front (l.drop c)).length) else none⟩
  refuses {c : Nat} : ¬ fits c (front (l.drop c)) → ∃ e, page c = .error e

variable {page : Nat → Except ε (Page α)} {front : List α → List α} {fits : Nat → List α → Prop} {l : List α}

theorem Fronts.drop_shorter (f : Fronts front) {l : List α} (h : l ≠ []) :
    (l.drop (front l).length).length < l.length := by
  have some_ := List.length_pos_of_ne_nil (f.advances h)
  have whole := List.length_pos_of_ne_nil h
  rw [List.length_drop]
  omega

/-- Following the cursors from `c` on yields what is left there, if every page fits. -/
theorem follows_of_fits (f : Fronts front) (s : Serves page front fits l) {fuel c : Nat} (enough : (l.drop c).length < fuel)
    (h : ∀ p ∈ cuts front fuel c (l.drop c), fits p.1 p.2) :
    ∃ visits, Follows page c visits ∧ visits.flatMap (fun v => v.2.items) = l.drop c ∧
      (visits.map Prod.fst).Pairwise (· < ·) ∧ ∀ v ∈ visits, c ≤ v.1 := by
  induction fuel generalizing c with
  | zero => omega
  | succ fuel ih =>
    rw [cuts] at h
    have ok := s.accepts (h _ (List.mem_cons_self ..))
    obtain ⟨rest, split⟩ := f.takes (l.drop c)
    have left : (l.drop c).drop (front (l.drop c)).length = rest :=
      (congrArg (List.drop (front (l.drop c)).length) split).symm.trans List.drop_left
    have size := congrArg List.length split
    rw [List.length_append, List.length_drop] at size
    cases e : rest with
    | nil =>
      rw [e, List.append_nil] at split
      have stop : ¬ c + (front (l.drop c)).length < l.length := by
        rw [e, List.length_nil] at size
        omega
      rw [if_neg stop] at ok
      refine ⟨[(c, ⟨front (l.drop c), none⟩)], .last ok rfl, ?_, List.pairwise_singleton _ _, ?_⟩
      · exact (List.append_nil _).trans split
      · intro v mem
        exact Nat.le_of_eq (congrArg Prod.fst (List.mem_singleton.1 mem)).symm
    | cons a as =>
      have some_ : l.drop c ≠ [] := by
        intro none_
        rw [none_, e] at split
        simp at split
      have more : c + (front (l.drop c)).length < l.length := by
        rw [e, List.length_cons] at size
        omega
      have shorter := f.drop_shorter some_
      have advance := List.length_pos_of_ne_nil (f.advances some_)
      rw [List.drop_drop] at left shorter
      rw [List.drop_drop, left, e] at h
      rw [if_pos more] at ok
      obtain ⟨visits, follows, items, order, above⟩ := ih (c := c + (front (l.drop c)).length) (by omega) (by
        rw [left, e]
        exact fun p mem => h p (List.mem_cons_of_mem _ mem))
      refine ⟨_, .more ok rfl follows, ?_, ?_, ?_⟩
      · rw [List.flatMap_cons, items, left]
        exact split
      · rw [List.map_cons]
        refine List.Pairwise.cons ?_ order
        intro d mem
        obtain ⟨v, seen, rfl⟩ := List.mem_map.1 mem
        have := above v seen
        omega
      · intro v mem
        rcases List.mem_cons.1 mem with rfl | seen
        · exact Nat.le_refl c
        · have := above v seen
          omega

/-- Every page on the way of a reader fits. -/
theorem fits_of_follows (s : Serves page front fits l) {fuel c : Nat} {visits : List (Nat × Page α)}
    (h : Follows page c visits) : ∀ p ∈ cuts front fuel c (l.drop c), fits p.1 p.2 := by
  induction fuel generalizing c visits with
  | zero => exact fun p mem => absurd mem List.not_mem_nil
  | succ fuel ih =>
    have first : fits c (front (l.drop c)) := by
      by_contra refused
      obtain ⟨e, error⟩ := s.refuses refused
      cases h with
      | last ok => rw [error] at ok; cases ok
      | more ok => rw [error] at ok; cases ok
    have ok := s.accepts first
    intro p mem
    rw [cuts] at mem
    rcases List.mem_cons.1 mem with rfl | mem
    · exact first
    · split at mem
      · cases mem
      · next some_ =>
        have left : l.drop (c + (front (l.drop c)).length) ≠ [] := by
          rw [List.drop_drop] at some_
          simpa using some_
        have more : c + (front (l.drop c)).length < l.length := by
          by_contra short
          exact left (List.drop_eq_nil_of_le (by omega))
        rw [if_pos more] at ok
        cases h with
        | last ok' stop =>
          rw [ok'] at ok
          cases ok
          cases stop
        | more ok' next tail =>
          rw [ok'] at ok
          cases ok
          cases next
          rw [List.drop_drop] at mem
          exact ih tail p mem

/-- **Following the cursors exhausts the list** exactly when every page of its cut fits. -/
theorem exhausts_iff (f : Fronts front) (s : Serves page front fits l) :
    Exhausts page l ↔ ∀ p ∈ cuts front (l.length + 1) 0 l, fits p.1 p.2 := by
  constructor
  · rintro ⟨visits, follows, -⟩
    have all := @fits_of_follows _ _ _ _ _ _ s (l.length + 1) 0 _ follows
    rwa [List.drop_zero] at all
  · intro h
    obtain ⟨visits, follows, items, order, -⟩ := @follows_of_fits _ _ _ _ _ _ f s (l.length + 1) 0 (by rw [List.drop_zero]; omega)
      (by rwa [List.drop_zero])
    exact ⟨visits, follows, by rw [items, List.drop_zero], order⟩

/-! ## Cursors that are positions -/

section Keyed

variable (key : α → Nat)

/-- The page of the items whose position is not before the cursor, at most `limit` of them. Its
cursor is behind the last of them when the page is full and an item stands there. -/
def keyPage (limit : Nat) (l : List α) (c : Nat) : Page α :=
  let items := (l.filter fun a => c ≤ key a).take limit
  ⟨items, items.getLast?.bind fun last =>
    if items.length = limit ∧ (l.any fun a => key last < key a) = true then some (key last + 1) else none⟩

variable {key}

theorem filter_behind {front rest : List α} {last : α}
    (order : (front ++ last :: rest).Pairwise fun a b => key a < key b) :
    ((front ++ last :: rest).filter fun a => key last + 1 ≤ key a) = rest := by
  obtain ⟨-, tail, before⟩ := List.pairwise_append.1 order
  obtain ⟨behind, -⟩ := List.pairwise_cons.1 tail
  rw [List.filter_append, List.filter_cons_of_neg (by simp)]
  have none_ : (front.filter fun a => key last + 1 ≤ key a) = [] := by
    apply List.filter_eq_nil_iff.2
    intro a mem
    have := before a mem last (by simp)
    simp only [decide_eq_true_eq]
    omega
  have all : (rest.filter fun a => key last + 1 ≤ key a) = rest := by
    apply List.filter_eq_self.2
    intro a mem
    have := behind a mem
    simp only [decide_eq_true_eq]
    omega
  rw [none_, all, List.nil_append]

/-- **Following positions** from a cursor on yields the items from there on, once and in order. -/
theorem follows_keyed {limit bound : Nat} (order : l.Pairwise fun a b => key a < key b)
    (inside : ∀ a ∈ l, key a < bound) (pos : 0 < limit)
    (serves : ∀ c, c ≤ bound → page c = .ok (keyPage key limit l c)) {fuel c : Nat} (within : c ≤ bound)
    (enough : (l.filter fun a => c ≤ key a).length < fuel) :
    ∃ visits, Follows page c visits ∧ visits.flatMap (fun v => v.2.items) = (l.filter fun a => c ≤ key a) ∧
      (visits.map Prod.fst).Pairwise (· < ·) ∧ ∀ v ∈ visits, c ≤ v.1 := by
  induction fuel generalizing c with
  | zero => omega
  | succ fuel ih =>
    have ok := serves c within
    generalize found : (l.filter fun a => c ≤ key a) = m at enough
    have sorted : m.Pairwise fun a b => key a < key b := by
      rw [← found]
      exact order.filter _
    have whole : m.take limit ++ m.drop limit = m := List.take_append_drop limit m
    have single (stop : (keyPage key limit l c).next = none) (all : m.take limit = m) :
        ∃ visits, Follows page c visits ∧ visits.flatMap (fun v => v.2.items) = m ∧
          (visits.map Prod.fst).Pairwise (· < ·) ∧ ∀ v ∈ visits, c ≤ v.1 := by
      refine ⟨[(c, keyPage key limit l c)], .last ok stop, ?_, List.pairwise_singleton _ _, by simp⟩
      rw [List.flatMap_singleton, keyPage, found]
      exact all
    rcases List.eq_nil_or_concat' (m.take limit) with none_ | ⟨front, last, items⟩
    · have empty : m = [] := by
        rcases List.take_eq_nil_iff.1 none_ with zero_ | empty
        · omega
        · exact empty
      apply single _ (by rw [empty, List.take_nil])
      rw [keyPage, found, none_]
      rfl
    · have split : m = front ++ last :: m.drop limit := by
        conv_lhs => rw [← whole, items]
        rw [List.append_assoc]
        rfl
      have mem : last ∈ m := by
        rw [split]
        simp
      have member : last ∈ l := by
        rw [← found] at mem
        exact List.mem_of_mem_filter mem
      have low : c ≤ key last := by
        rw [← found] at mem
        simpa using (List.mem_filter.1 mem).2
      have rest : (l.filter fun a => key last + 1 ≤ key a) = m.drop limit := by
        have narrow : (l.filter fun a => key last + 1 ≤ key a) = m.filter fun a => key last + 1 ≤ key a := by
          rw [← found, List.filter_filter]
          apply List.filter_congr
          intro a _
          rw [← Bool.decide_and]
          apply decide_eq_decide.2
          omega
        rw [narrow]
        conv_lhs => rw [split]
        apply filter_behind
        rwa [← split]
      have more : (l.any fun a => key last < key a) = true ↔ m.drop limit ≠ [] := by
        rw [← rest, List.any_eq_true, Ne, List.filter_eq_nil_iff]
        simp only [decide_eq_true_eq, not_forall, not_not, exists_prop]
        rfl
      have next : (keyPage key limit l c).next =
          if (m.take limit).length = limit ∧ (l.any fun a => key last < key a) = true then some (key last + 1) else none := by
        rw [keyPage, found]
        dsimp only
        rw [items, List.getLast?_append]
        rfl
      by_cases left : m.drop limit = []
      · apply single
        · rw [next, if_neg]
          rintro ⟨-, any_⟩
          exact more.1 any_ left
        · rw [left, List.append_nil] at whole
          exact whole
      · have full : (m.take limit).length = limit := by
          rw [List.length_take]
          have := List.length_pos_of_ne_nil left
          rw [List.length_drop] at this
          omega
        have advance : (keyPage key limit l c).next = some (key last + 1) := by
          rw [next, if_pos ⟨full, more.2 left⟩]
        obtain ⟨visits, follows, listed, ascending, above⟩ := ih (c := key last + 1) (inside last member) (by
          rw [rest, List.length_drop]
          have := congrArg List.length split
          rw [List.length_append, List.length_cons, List.length_drop] at this
          omega)
        refine ⟨_, .more ok advance follows, ?_, ?_, ?_⟩
        · rw [List.flatMap_cons, listed, rest, keyPage, found]
          exact whole
        · rw [List.map_cons]
          refine List.Pairwise.cons ?_ ascending
          intro d seen
          obtain ⟨v, visited, rfl⟩ := List.mem_map.1 seen
          have := above v visited
          omega
        · intro v visited
          rcases List.mem_cons.1 visited with rfl | visited
          · exact Nat.le_refl c
          · have := above v visited
            omega

/-- **Following positions exhausts the list.** -/
theorem exhausts_keyed {limit bound : Nat} (order : l.Pairwise fun a b => key a < key b)
    (inside : ∀ a ∈ l, key a < bound) (pos : 0 < limit)
    (serves : ∀ c, c ≤ bound → page c = .ok (keyPage key limit l c)) : Exhausts page l := by
  obtain ⟨visits, follows, items, ascending, -⟩ :=
    follows_keyed order inside pos serves (Nat.zero_le bound) (Nat.lt_succ_self _)
  have all : (l.filter fun a => 0 ≤ key a) = l := by
    apply List.filter_eq_self.2
    intro a _
    simp
  exact ⟨visits, follows, by rw [items, all], ascending⟩

end Keyed

end Paging
