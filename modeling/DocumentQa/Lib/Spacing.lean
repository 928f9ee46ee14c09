import Mathlib.Data.List.Basic
import Mathlib.Data.List.TakeWhile

/-!
# Texts up to runs of blanks

A text over any alphabet with a set of blanks: its words, its squeezed form in which every
run of blanks is one separator, and the interval each squeezed character stands for. A
pattern without outer blanks is found in the squeezed text exactly where it occurs in the
text itself, and the intervals lead back there.
-/

namespace Spacing

variable {α : Type*} (blank : α → Bool) (sep : α)

/-! ## Words -/

/-- The stretches between blanks. -/
def words (t : List α) : List (List α) :=
  (t.splitOnP blank).filter fun w => !w.isEmpty

/-- The text begins with a character that is no blank. -/
def opens (t : List α) : Bool :=
  t.head?.any fun c => !blank c

/-- The text ends with a character that is no blank. -/
def closes (t : List α) : Bool :=
  t.getLast?.any fun c => !blank c

variable {blank sep}

@[simp] theorem words_nil : words blank [] = [] := rfl

@[simp] theorem opens_nil : opens blank [] = false := rfl

@[simp] theorem opens_cons (c : α) (t : List α) : opens blank (c :: t) = !blank c := rfl

@[simp] theorem closes_nil : closes blank [] = false := rfl

theorem opens_append {s t : List α} (h : s ≠ []) : opens blank (s ++ t) = opens blank s := by
  obtain ⟨c, s, rfl⟩ := List.exists_cons_of_ne_nil h
  rfl

theorem closes_append {s t : List α} (h : t ≠ []) : closes blank (s ++ t) = closes blank t := by
  rw [closes, closes, List.getLast?_append_of_ne_nil _ h]

theorem closes_cons {c : α} {t : List α} (h : t ≠ []) : closes blank (c :: t) = closes blank t :=
  closes_append (s := [c]) h

/-- Words split at a blank. -/
theorem words_append_blank {c : α} (h : blank c = true) (s t : List α) :
    words blank (s ++ c :: t) = words blank s ++ words blank t := by
  rw [words, List.splitOnP_append_cons s t h, List.filter_append]
  rfl

theorem words_blank {c : α} (h : blank c = true) (t : List α) : words blank (c :: t) = words blank t :=
  words_append_blank h [] t

/-- A gap of blanks separates words. -/
theorem words_gap {g : List α} (h : ∀ c ∈ g, blank c = true) (some_ : g ≠ []) (s t : List α) :
    words blank (s ++ (g ++ t)) = words blank s ++ words blank t := by
  induction g generalizing s with
  | nil => exact absurd rfl some_
  | cons c g ih =>
    have first := h c (List.mem_cons_self ..)
    rw [List.cons_append, words_append_blank first]
    cases g with
    | nil => rfl
    | cons d g =>
      have rest := ih (fun e he => h e (List.mem_cons_of_mem _ he)) (by simp) []
      rw [List.nil_append] at rest
      rw [rest, words_nil, List.nil_append]

/-- The first stretch is a word when the text opens with one. -/
theorem splitOnP_head (t : List α) :
    ∃ w ws, t.splitOnP blank = w :: ws ∧ (opens blank t = true ↔ w ≠ []) := by
  cases t with
  | nil => exact ⟨[], [], rfl, by simp⟩
  | cons c t =>
    rw [List.splitOnP_cons_eq_if_modifyHead]
    obtain ⟨w, ws, split⟩ := List.exists_cons_of_ne_nil (List.splitOnP_ne_nil blank t)
    cases h : blank c with
    | true => exact ⟨[], t.splitOnP blank, rfl, by simp [h]⟩
    | false => exact ⟨c :: w, ws, by rw [split]; rfl, by simp [h]⟩

theorem words_solid {c : α} (h : blank c = false) (t : List α) :
    words blank (c :: t) = if opens blank t then (words blank t).modifyHead (c :: ·) else [c] :: words blank t := by
  obtain ⟨w, ws, split, first⟩ := @splitOnP_head _ blank t
  have whole : words blank (c :: t) = (c :: w) :: ws.filter fun w => !w.isEmpty := by
    rw [words, List.splitOnP_cons_eq_if_modifyHead, split, h]
    rfl
  rw [whole, words, split]
  split
  · next open_ =>
    have kept : (!w.isEmpty) = true := by simpa using first.1 open_
    rw [List.filter_cons, if_pos kept]
    rfl
  · next shut =>
    have empty : w = [] := by
      by_contra some_
      exact shut (first.2 some_)
    rw [empty]
    rfl

/-- No blank stands in a word. -/
theorem words_solid_mem {t w : List α} (mem : w ∈ words blank t) : ∀ c ∈ w, blank c = false := by
  induction t generalizing w with
  | nil => cases mem
  | cons d t ih =>
    cases solid : blank d with
    | true =>
      rw [words_blank solid] at mem
      exact ih mem
    | false =>
      rw [words_solid solid] at mem
      split at mem
      · cases parts : words blank t with
        | nil =>
          rw [parts] at mem
          cases mem
        | cons v ws =>
          rw [parts] at mem
          rcases List.mem_cons.1 mem with rfl | later
          · intro c inside
            rcases List.mem_cons.1 inside with rfl | inside
            · exact solid
            · exact ih (by rw [parts]; exact List.mem_cons_self ..) c inside
          · exact ih (by rw [parts]; exact List.mem_cons_of_mem _ later)
      · rcases List.mem_cons.1 mem with rfl | later
        · intro c inside
          rwa [List.mem_singleton.1 inside]
        · exact ih later

/-- A text that does not end in a blank has a word. -/
theorem words_ne_nil {t : List α} (h : closes blank t = true) : words blank t ≠ [] := by
  induction t with
  | nil => cases h
  | cons c t ih =>
    cases solid : blank c with
    | false =>
      rw [words_solid solid]
      split
      · next open_ =>
        have rest : words blank t ≠ [] := by
          obtain ⟨w, ws, split, first⟩ := @splitOnP_head _ blank t
          have kept : (!w.isEmpty) = true := by simpa using first.1 open_
          rw [words, split, List.filter_cons, if_pos kept]
          exact List.cons_ne_nil _ _
        obtain ⟨w, ws, e⟩ := List.exists_cons_of_ne_nil rest
        rw [e]
        exact List.cons_ne_nil _ _
      · exact List.cons_ne_nil _ _
    | true =>
      rw [words_blank solid]
      have inner : t ≠ [] := by
        rintro rfl
        simp [closes, solid] at h
      exact ih (by rwa [closes_cons inner] at h)

/-! ## The squeezed text -/

variable (blank sep)

/-- The text with one separator for every run of blanks. -/
def squeeze : List α → List α
  | [] => []
  | c :: cs =>
    if blank c then (if cs.head?.any blank then squeeze cs else sep :: squeeze cs)
    else c :: squeeze cs

/-- The squeezed text with the interval each character stands for, the first position given. -/
def units : Nat → List α → List (α × Nat × Nat)
  | _, [] => []
  | i, c :: cs =>
    if blank c then
      if cs.head?.any blank then (units (i + 1) cs).modifyHead fun u => (u.1, i, u.2.2)
      else (sep, i, i + 1) :: units (i + 1) cs
    else (c, i, i + 1) :: units (i + 1) cs

variable {blank sep}

theorem squeeze_solid {c : α} (h : blank c = false) (t : List α) : squeeze blank sep (c :: t) = c :: squeeze blank sep t := by
  rw [squeeze, h]
  rfl

theorem units_solid {c : α} (h : blank c = false) (i : Nat) (t : List α) :
    units blank sep i (c :: t) = (c, i, i + 1) :: units blank sep (i + 1) t := by
  rw [units, h]
  rfl

theorem head_blank {t : List α} (h : opens blank t = true) : t.head?.any blank = false := by
  cases t with
  | nil => rfl
  | cons c t => simpa using h

theorem units_map_fst (i : Nat) (t : List α) : (units blank sep i t).map Prod.fst = squeeze blank sep t := by
  induction t generalizing i with
  | nil => rfl
  | cons c t ih =>
    rw [units, squeeze]
    split
    · split
      · rw [← ih (i + 1)]
        cases units blank sep (i + 1) t <;> rfl
      · rw [List.map_cons, ih]
    · rw [List.map_cons, ih]

theorem units_length (i : Nat) (t : List α) : (units blank sep i t).length = (squeeze blank sep t).length := by
  rw [← units_map_fst i t, List.length_map]

theorem squeeze_ne_nil {t : List α} (h : t ≠ []) : squeeze blank sep t ≠ [] := by
  induction t with
  | nil => exact absurd rfl h
  | cons c t ih =>
    rw [squeeze]
    split
    · split
      · next more =>
        apply ih
        rintro rfl
        cases more
      · exact List.cons_ne_nil _ _
    · exact List.cons_ne_nil _ _

/-- A text is squeezed piece by piece when the next piece begins with no blank. -/
theorem units_append (i : Nat) (s : List α) {t : List α} (h : opens blank t = true) :
    units blank sep i (s ++ t) = units blank sep i s ++ units blank sep (i + s.length) t := by
  induction s generalizing i with
  | nil => rfl
  | cons c s ih =>
    have next : ((s ++ t).head?.any blank) = s.head?.any blank := by
      cases s with
      | nil => exact head_blank h
      | cons d s => rfl
    have rest := ih (i + 1)
    rw [show i + 1 + s.length = i + (c :: s).length by rw [List.length_cons]; omega] at rest
    rw [List.cons_append, units, units, next, rest]
    split
    · split
      · next more =>
        have some_ : units blank sep (i + 1) s ≠ [] := by
          intro none_
          have same := @units_map_fst _ blank sep (i + 1) s
          rw [none_] at same
          apply @squeeze_ne_nil _ blank sep s _ same.symm
          rintro rfl
          cases more
        obtain ⟨u, us, e⟩ := List.exists_cons_of_ne_nil some_
        rw [e]
        rfl
      · rfl
    · rfl

theorem squeeze_append (s : List α) {t : List α} (h : opens blank t = true) :
    squeeze blank sep (s ++ t) = squeeze blank sep s ++ squeeze blank sep t := by
  rw [← units_map_fst 0 (s ++ t), units_append 0 s h, List.map_append, units_map_fst, units_map_fst]

/-- The intervals come in the order of the text. -/
theorem units_within (i : Nat) (t : List α) :
    ∀ u ∈ units blank sep i t, i ≤ u.2.1 ∧ u.2.1 < u.2.2 ∧ u.2.2 ≤ i + t.length := by
  induction t generalizing i with
  | nil => simp [units]
  | cons c t ih =>
    have rest := ih (i + 1)
    intro u mem
    rw [units] at mem
    rw [List.length_cons]
    split at mem
    · split at mem
      · cases e : units blank sep (i + 1) t with
        | nil =>
          rw [e] at mem
          cases mem
        | cons v vs =>
          rw [e, List.modifyHead_cons] at mem
          rcases List.mem_cons.1 mem with rfl | mem
          · have first := rest v (e ▸ List.mem_cons_self ..)
            exact ⟨Nat.le_refl i, by dsimp only; omega, by dsimp only; omega⟩
          · have later := rest u (e ▸ List.mem_cons_of_mem _ mem)
            omega
      · rcases List.mem_cons.1 mem with rfl | mem
        · exact ⟨Nat.le_refl i, Nat.lt_succ_self i, by dsimp only; omega⟩
        · have later := rest u mem
          omega
    · rcases List.mem_cons.1 mem with rfl | mem
      · exact ⟨Nat.le_refl i, Nat.lt_succ_self i, by dsimp only; omega⟩
      · have later := rest u mem
        omega

theorem units_ascending (i : Nat) (t : List α) : (units blank sep i t).Pairwise fun u v => u.2.1 < v.2.1 := by
  induction t generalizing i with
  | nil => exact List.Pairwise.nil
  | cons c t ih =>
    have rest := ih (i + 1)
    have within := @units_within _ blank sep (i + 1) t
    have later : ∀ u ∈ units blank sep (i + 1) t, i < u.2.1 := fun u mem => (within u mem).1
    rw [units]
    split
    · split
      · cases e : units blank sep (i + 1) t with
        | nil => exact List.Pairwise.nil
        | cons v vs =>
          rw [e] at rest later
          rw [List.modifyHead_cons]
          exact List.Pairwise.cons (fun u mem => later u (List.mem_cons_of_mem _ mem)) (List.pairwise_cons.1 rest).2
      · exact List.Pairwise.cons later rest
    · exact List.Pairwise.cons later rest

theorem opens_squeeze (h : blank sep = true) (t : List α) : opens blank (squeeze blank sep t) = opens blank t := by
  induction t with
  | nil => rfl
  | cons c t ih =>
    rw [squeeze, opens_cons]
    split
    · next gap =>
      rw [gap]
      split
      · next more =>
        rw [ih]
        cases t with
        | nil => rfl
        | cons d t => simpa using more
      · rw [opens_cons, h]
    · rfl

/-- Squeezing keeps the words. -/
theorem words_squeeze (h : blank sep = true) (t : List α) : words blank (squeeze blank sep t) = words blank t := by
  induction t with
  | nil => rfl
  | cons c t ih =>
    rw [squeeze]
    split
    · next gap =>
      rw [words_blank gap]
      split
      · exact ih
      · rw [words_blank h, ih]
    · next solid =>
      have solid := Bool.eq_false_iff.2 solid
      rw [words_solid solid, words_solid solid, opens_squeeze h, ih]

/-- A text without a blank at its end is squeezed to its words with separators between them. -/
theorem squeeze_eq {t : List α} (h : closes blank t = true) :
    squeeze blank sep t = (if opens blank t then [] else [sep]) ++ [sep].intercalate (words blank t) := by
  induction t with
  | nil => cases h
  | cons c t ih =>
    cases t with
    | nil =>
      have solid : blank c = false := by simpa [closes] using h
      rw [squeeze_solid solid, words_solid solid, opens_cons, solid]
      rfl
    | cons d t =>
      have tail := ih (by rwa [closes_cons (List.cons_ne_nil _ _)] at h)
      cases solid : blank c with
      | true =>
        rw [words_blank solid, squeeze, if_pos solid, opens_cons, solid, tail, opens_cons, List.head?_cons, Option.any_some]
        cases blank d <;> rfl
      | false =>
        rw [squeeze_solid solid, words_solid solid, opens_cons, solid, tail, opens_cons]
        obtain ⟨w, ws, e⟩ := List.exists_cons_of_ne_nil (words_ne_nil (by rwa [closes_cons (List.cons_ne_nil _ _)] at h : closes blank (d :: t) = true))
        rw [e]
        cases blank d with
        | true => simp [List.intercalate_cons_cons]
        | false =>
          cases ws <;> simp [List.intercalate_cons_cons]

/-- Texts without outer blanks are squeezed alike exactly when their words agree. -/
theorem squeeze_eq_iff (h : blank sep = true) {s t : List α} (open_ : opens blank s = true) (close : closes blank s = true)
    (open' : opens blank t = true) (close' : closes blank t = true) :
    squeeze blank sep s = squeeze blank sep t ↔ words blank s = words blank t := by
  constructor
  · intro same
    rw [← words_squeeze h s, same, words_squeeze h t]
  · intro same
    rw [squeeze_eq close, squeeze_eq close', open_, open', same]

theorem closes_iff {t : List α} : closes blank t = true ↔ ∃ s c, t = s ++ [c] ∧ blank c = false := by
  constructor
  · intro h
    rcases List.eq_nil_or_concat' t with rfl | ⟨s, c, rfl⟩
    · cases h
    · exact ⟨s, c, rfl, by simpa [closes] using h⟩
  · rintro ⟨s, c, rfl, solid⟩
    simp [closes, solid]

theorem opens_iff {t : List α} : opens blank t = true ↔ ∃ c s, t = c :: s ∧ blank c = false := by
  cases t with
  | nil => simp
  | cons c s => simp

theorem squeeze_append_of_closes {s : List α} (h : closes blank s = true) (t : List α) :
    squeeze blank sep (s ++ t) = squeeze blank sep s ++ squeeze blank sep t := by
  obtain ⟨s, c, rfl, solid⟩ := closes_iff.1 h
  have open_ : ∀ r : List α, opens blank (c :: r) = true := by simp [solid]
  rw [List.append_assoc, List.singleton_append, squeeze_append s (open_ t), squeeze_append s (open_ []),
    squeeze_solid solid, squeeze_solid solid, List.append_assoc]
  rfl

/-- A character that is no blank is kept: where it stands in the squeezed text, the text splits. -/
theorem squeeze_split (h : blank sep = true) {c : α} (solid : blank c = false) {t x y : List α}
    (e : squeeze blank sep t = x ++ c :: y) :
    ∃ pre post, t = pre ++ c :: post ∧ squeeze blank sep pre = x ∧ squeeze blank sep post = y := by
  induction t generalizing x with
  | nil =>
    have long := congrArg List.length e
    simp [squeeze] at long
  | cons d t ih =>
    cases gap : blank d with
    | false =>
      rw [squeeze_solid gap] at e
      cases x with
      | nil =>
        obtain ⟨rfl, rfl⟩ := List.cons.inj e
        exact ⟨[], t, rfl, rfl, rfl⟩
      | cons a x =>
        rw [List.cons_append] at e
        obtain ⟨rfl, rest⟩ := List.cons.inj e
        obtain ⟨pre, post, rfl, rfl, rfl⟩ := ih rest
        exact ⟨d :: pre, post, rfl, squeeze_solid gap pre, rfl⟩
    | true =>
      rw [squeeze, if_pos gap] at e
      split at e
      · next more =>
        obtain ⟨pre, post, rfl, rfl, rfl⟩ := ih e
        refine ⟨d :: pre, post, rfl, ?_, rfl⟩
        cases pre with
        | nil => simp [solid] at more
        | cons a pre =>
          rw [squeeze, if_pos gap]
          exact if_pos more
      · next last =>
        cases x with
        | nil =>
          obtain ⟨rfl, -⟩ := List.cons.inj e
          rw [h] at solid
          cases solid
        | cons a x =>
          rw [List.cons_append] at e
          obtain ⟨rfl, rest⟩ := List.cons.inj e
          obtain ⟨pre, post, rfl, rfl, rfl⟩ := ih rest
          refine ⟨d :: pre, post, rfl, ?_, rfl⟩
          cases pre with
          | nil => exact if_pos gap
          | cons a pre =>
            rw [squeeze, if_pos gap]
            exact if_neg last

/-! ## Occurrences -/

variable (blank)

/-- `t[s:e]`. -/
def slice (t : List α) (s e : Nat) : List α :=
  (t.take e).drop s

/-- The interval of a text begins and ends with no blank and has the words of the pattern. -/
structure Occurs (t q : List α) (s e : Nat) : Prop where
  within : e ≤ t.length
  opens : opens blank (slice t s e) = true
  closes : closes blank (slice t s e) = true
  same : words blank (slice t s e) = words blank q

variable {blank}

theorem slice_append (pre mid post : List α) :
    slice (pre ++ (mid ++ post)) pre.length (pre.length + mid.length) = mid := by
  rw [slice, ← List.append_assoc, ← List.length_append, List.take_left', List.drop_left']
  · rfl
  · rfl

/-- An occurrence is a part of the text. -/
theorem occurs_iff {t q : List α} {s e : Nat} :
    Occurs blank t q s e ↔ ∃ pre mid post, t = pre ++ (mid ++ post) ∧ s = pre.length ∧ e = pre.length + mid.length ∧
      Spacing.opens blank mid = true ∧ Spacing.closes blank mid = true ∧ words blank mid = words blank q := by
  constructor
  · intro h
    have ordered : s < e := by
      by_contra far
      have short : slice t s e = [] := by
        apply List.drop_eq_nil_of_le
        rw [List.length_take]
        omega
      have open_ := h.opens
      rw [short] at open_
      cases open_
    have parts : t = t.take s ++ (slice t s e ++ t.drop e) := by
      have front : (t.take e).take s = t.take s := by
        rw [List.take_take, Nat.min_eq_left (Nat.le_of_lt ordered)]
      rw [slice, ← List.append_assoc, ← front, List.take_append_drop, List.take_append_drop]
    refine ⟨t.take s, slice t s e, t.drop e, parts, ?_, ?_, h.opens, h.closes, h.same⟩
    · rw [List.length_take]
      have := h.within
      omega
    · rw [slice, List.length_drop, List.length_take, List.length_take]
      have := h.within
      omega
  · rintro ⟨pre, mid, post, rfl, rfl, rfl, open_, close, same⟩
    have part := slice_append pre mid post
    refine ⟨?_, ?_, ?_, ?_⟩
    · simp only [List.length_append]
      omega
    · rwa [part]
    · rwa [part]
    · rwa [part]

/-- A pattern without outer blanks stands at a place of the squeezed text exactly where a part of
the text is squeezed to it. -/
theorem found_iff (h : blank sep = true) {t p : List α} (open_ : opens blank p = true) (close : closes blank p = true) (k : Nat) :
    (∃ x y, squeeze blank sep t = x ++ (p ++ y) ∧ x.length = k) ↔
      ∃ pre mid post, t = pre ++ (mid ++ post) ∧ (squeeze blank sep pre).length = k ∧ squeeze blank sep mid = p ∧
        opens blank mid = true ∧ closes blank mid = true := by
  constructor
  · rintro ⟨x, y, e, rfl⟩
    obtain ⟨c, p', rfl, first⟩ := opens_iff.1 open_
    obtain ⟨p'', d, ends, last⟩ := closes_iff.1 close
    obtain ⟨pre, post, rfl, rfl, tail⟩ := squeeze_split h first e
    have inner : squeeze blank sep (c :: post) = p'' ++ d :: y := by
      rw [squeeze_solid first, tail]
      change (c :: p') ++ y = _
      rw [ends, List.append_assoc]
      rfl
    obtain ⟨mid, rest, split_, front, -⟩ := squeeze_split h last inner
    refine ⟨pre, mid ++ [d], rest, by rw [split_, List.append_assoc, List.singleton_append], rfl, ?_, ?_, ?_⟩
    · rw [squeeze_append mid (by simp [last]), front, squeeze_solid last, ends]
      rfl
    · cases mid with
      | nil => simp [last]
      | cons a mid =>
        obtain ⟨rfl, -⟩ := List.cons.inj split_
        simp [first]
    · exact closes_iff.2 ⟨mid, d, rfl, last⟩
  · rintro ⟨pre, mid, post, rfl, rfl, rfl, open', close'⟩
    have both : opens blank (mid ++ post) = true := by
      obtain ⟨c, mid, rfl, first⟩ := opens_iff.1 open'
      simp [first]
    refine ⟨squeeze blank sep pre, squeeze blank sep post, ?_, rfl⟩
    rw [squeeze_append pre both, squeeze_append_of_closes close']

/-- Where such a part begins and ends, by the intervals. -/
theorem units_interval (i : Nat) {pre mid : List α} (post : List α) (open_ : opens blank mid = true)
    (close : closes blank mid = true) :
    (∃ u, (units blank sep i (pre ++ (mid ++ post)))[(squeeze blank sep pre).length]? = some u ∧ u.2.1 = i + pre.length) ∧
      ∃ u, (units blank sep i (pre ++ (mid ++ post)))[(squeeze blank sep pre).length + (squeeze blank sep mid).length - 1]? = some u ∧
        u.2.2 = i + (pre.length + mid.length) := by
  have stands : ∀ (x y : List α) (c : α), blank c = false →
      (units blank sep i (x ++ c :: y))[(squeeze blank sep x).length]? = some (c, i + x.length, i + x.length + 1) := by
    intro x y c solid
    rw [units_append i x (by simp [solid]), List.getElem?_append_right (Nat.le_of_eq (units_length ..)), units_length, Nat.sub_self,
      units_solid solid]
    rfl
  constructor
  · obtain ⟨c, mid, rfl, solid⟩ := opens_iff.1 open_
    exact ⟨_, stands pre (mid ++ post) c solid, rfl⟩
  · obtain ⟨mid', c, e, solid⟩ := closes_iff.1 close
    have size : (squeeze blank sep (pre ++ mid')).length + 1 = (squeeze blank sep pre).length + (squeeze blank sep mid).length := by
      have whole := congrArg List.length (@squeeze_append _ blank sep pre _ open_)
      rw [e, ← List.append_assoc, squeeze_append (pre ++ mid') (by simp [solid]), squeeze_solid solid,
        List.length_append, List.length_append] at whole
      rw [e]
      exact whole
    refine ⟨(c, i + (pre ++ mid').length, i + (pre ++ mid').length + 1), ?_, ?_⟩
    · rw [← size, Nat.add_sub_cancel, ← stands (pre ++ mid') post c solid, e]
      simp only [List.append_assoc, List.singleton_append]
    · rw [e, List.length_append, List.length_append]
      rfl

/-- Outer blanks hold no part of an occurrence. -/
theorem occurs_trim {lead t trail q : List α} (front : ∀ c ∈ lead, blank c = true) (back : ∀ c ∈ trail, blank c = true)
    {s e : Nat} : Occurs blank (lead ++ (t ++ trail)) q s e ↔
      ∃ s' e', s = lead.length + s' ∧ e = lead.length + e' ∧ Occurs blank t q s' e' := by
  simp only [occurs_iff]
  constructor
  · rintro ⟨pre, mid, post, whole, start, stop, open_, close, same⟩
    obtain ⟨c, mid', split_, first⟩ := opens_iff.1 open_
    obtain ⟨mid'', d, ends, last⟩ := closes_iff.1 close
    obtain ⟨pre, rfl⟩ : ∃ pre', pre = lead ++ pre' := by
      rcases List.append_eq_append_iff.1 whole with ⟨x, e, -⟩ | ⟨x, e, rest⟩
      · exact ⟨x, e⟩
      · cases x with
        | nil => exact ⟨[], by simpa using e.symm⟩
        | cons a x =>
          rw [split_] at rest
          obtain ⟨rfl, -⟩ := List.cons.inj rest
          rw [front c (by rw [e]; simp)] at first
          cases first
    rw [List.append_assoc] at whole
    have whole := List.append_cancel_left whole
    rw [← List.append_assoc] at whole
    obtain ⟨post, rfl⟩ : ∃ post', post = post' ++ trail := by
      rcases List.append_eq_append_iff.1 whole with ⟨x, e, rest⟩ | ⟨x, e, rest⟩
      · rcases List.eq_nil_or_concat' x with rfl | ⟨x, a, rfl⟩
        · exact ⟨[], by simpa using rest.symm⟩
        · rw [ends, ← List.append_assoc, ← List.append_assoc] at e
          obtain rfl : d = a := by simpa using (List.append_inj' e rfl).2
          rw [back d (by rw [rest]; simp)] at last
          cases last
      · exact ⟨x, rest⟩
    rw [List.length_append] at start stop
    refine ⟨pre.length, pre.length + mid.length, start, by omega, pre, mid, post, ?_, rfl, rfl, open_, close, same⟩
    rw [← List.append_assoc] at whole
    rw [← List.append_assoc]
    exact List.append_cancel_right whole
  · rintro ⟨s, e, rfl, rfl, pre, mid, post, rfl, rfl, rfl, open_, close, same⟩
    exact ⟨lead ++ pre, mid, post ++ trail, by simp, by simp, by simp [Nat.add_assoc], open_, close, same⟩

/-- Outer blanks hold no word. -/
theorem words_trim {lead t trail : List α} (front : ∀ c ∈ lead, blank c = true) (back : ∀ c ∈ trail, blank c = true) :
    words blank (lead ++ (t ++ trail)) = words blank t := by
  have inner : words blank (t ++ trail) = words blank t := by
    cases trail with
    | nil => rw [List.append_nil]
    | cons c trail =>
      have gap := words_gap back (List.cons_ne_nil _ _) t []
      rwa [List.append_nil, words_nil, List.append_nil] at gap
  cases lead with
  | nil => exact inner
  | cons c lead =>
    have gap := words_gap front (List.cons_ne_nil _ _) [] (t ++ trail)
    rwa [inner] at gap

theorem closes_squeeze {t : List α} (h : closes blank t = true) : closes blank (squeeze blank sep t) = true := by
  obtain ⟨s, c, rfl, solid⟩ := closes_iff.1 h
  rw [squeeze_append s (by simp [solid]), squeeze_solid solid]
  exact closes_iff.2 ⟨_, c, rfl, solid⟩

/-! ## Runs and outer blanks -/

/-- A run of blanks is one unit. -/
theorem units_run {c : α} (h : blank c = true) (i : Nat) (t : List α) :
    units blank sep i (c :: t) = (sep, i, i + 1 + (t.takeWhile blank).length) ::
      units blank sep (i + 1 + (t.takeWhile blank).length) (t.dropWhile blank) := by
  induction t generalizing c i with
  | nil =>
    rw [units, if_pos h]
    rfl
  | cons d t ih =>
    rw [units, if_pos h, List.head?_cons, Option.any_some]
    cases more : blank d with
    | true =>
      rw [if_pos rfl, ih more, List.takeWhile_cons_of_pos more, List.dropWhile_cons_of_pos more, List.length_cons,
        List.modifyHead_cons, show i + 1 + 1 + (t.takeWhile blank).length = i + 1 + ((t.takeWhile blank).length + 1) by omega]
    | false =>
      have solid : ¬ blank d = true := by simp [more]
      rw [if_neg (by simp), List.takeWhile_cons_of_neg solid, List.dropWhile_cons_of_neg solid]
      rfl

theorem dropWhile_blank (t : List α) : opens blank (t.dropWhile blank) = true ∨ t.dropWhile blank = [] := by
  induction t with
  | nil => exact .inr rfl
  | cons c t ih =>
    cases h : blank c with
    | true => rwa [List.dropWhile_cons_of_pos h]
    | false =>
      rw [List.dropWhile_cons_of_neg (by simp [h])]
      exact .inl (by simp [h])

/-- Blanks behind a text are one unit more. -/
theorem units_append_blanks (i : Nat) {s g : List α} (close : closes blank s = true) (h : ∀ c ∈ g, blank c = true)
    (some_ : g ≠ []) :
    units blank sep i (s ++ g) = units blank sep i s ++ [(sep, i + s.length, i + s.length + g.length)] := by
  obtain ⟨s, c, rfl, solid⟩ := closes_iff.1 close
  obtain ⟨d, g, rfl⟩ := List.exists_cons_of_ne_nil some_
  have open_ : ∀ r : List α, opens blank (c :: r) = true := by simp [solid]
  have rest : ∀ e ∈ g, blank e = true := fun e mem => h e (List.mem_cons_of_mem _ mem)
  rw [List.append_assoc, List.singleton_append, units_append i s (open_ _), units_append i s (open_ []),
    units_solid solid, units_solid solid, units_run (h d (List.mem_cons_self ..)), List.takeWhile_eq_self_iff.2 rest,
    List.dropWhile_eq_nil_iff.2 rest]
  simp only [units, List.append_assoc, List.cons_append, List.nil_append, List.length_append, List.length_cons,
    List.length_nil, List.append_cancel_left_eq, List.cons.injEq, Prod.mk.injEq, and_true, true_and]
  omega

theorem units_getLast {i : Nat} {t : List α} (close : closes blank t = true) :
    ∃ us u, units blank sep i t = us ++ [u] ∧ blank u.1 = false := by
  obtain ⟨s, c, rfl, solid⟩ := closes_iff.1 close
  refine ⟨units blank sep i s, (c, i + s.length, i + s.length + 1), ?_, solid⟩
  rw [units_append i s (by simp [solid]), units_solid solid]
  rfl

/-! ## Texts joined by a gap -/

theorem slice_of_append (s t : List α) (i j : Nat) :
    slice (s ++ t) i j = slice s i j ++ slice t (i - s.length) (j - s.length) := by
  rw [slice, List.take_append, List.drop_append, slice, slice]
  by_cases long : s.length ≤ j
  · rw [List.take_of_length_le long]
  · have none_ : j - s.length = 0 := by omega
    rw [none_, List.take_zero, List.drop_nil, List.drop_nil]

theorem slice_length_le (t : List α) (i j : Nat) : (slice t i j).length ≤ j - i := by
  rw [slice, List.length_drop, List.length_take]
  omega

/-- What an interval of the joined texts covers of each, the texts beginning where they do. -/
def covers (gap : Nat) : Nat → List (List α) → Nat → Nat → List (List α)
  | _, [], _, _ => []
  | o, t :: ts, i, j => slice t (i - o) (j - o) :: covers gap (o + t.length + gap) ts i j

theorem covers_shift (gap d o : Nat) (ts : List (List α)) (i j : Nat) :
    covers gap (o + d) ts i j = covers gap o ts (i - d) (j - d) := by
  induction ts generalizing o with
  | nil => rfl
  | cons t ts ih =>
    rw [covers, covers, show o + d + t.length + gap = o + t.length + gap + d by omega, ih, Nat.sub_sub, Nat.sub_sub,
      Nat.add_comm d o]

theorem words_slice_blanks {g : List α} (h : ∀ c ∈ g, blank c = true) (i j : Nat) : ∀ c ∈ slice g i j, blank c = true :=
  fun c mem => h c (List.mem_of_mem_take (List.mem_of_mem_drop mem))

/-- **The words of an interval** of texts joined by a gap are the words of its parts. -/
theorem words_covers {g : List α} (h : ∀ c ∈ g, blank c = true) (some_ : g ≠ []) (ts : List (List α)) (i j : Nat) :
    words blank (slice (g.intercalate ts) i j) = (covers g.length 0 ts i j).flatMap (words blank) := by
  induction ts generalizing i j with
  | nil =>
    rw [List.intercalate_nil, slice, List.take_nil, List.drop_nil]
    rfl
  | cons t ts ih =>
    cases ts with
    | nil =>
      rw [List.intercalate_singleton, covers, covers, List.flatMap_singleton]
      rfl
    | cons t' ts =>
      rw [List.intercalate_cons_cons, List.append_assoc, slice_of_append, slice_of_append, covers, List.flatMap_cons,
        Nat.sub_zero, Nat.sub_zero]
      have tail : words blank (slice (g.intercalate (t' :: ts)) (i - t.length - g.length) (j - t.length - g.length)) =
          (covers g.length (0 + t.length + g.length) (t' :: ts) i j).flatMap (words blank) := by
        rw [show 0 + t.length + g.length = 0 + (t.length + g.length) by omega, covers_shift, ih, Nat.sub_sub, Nat.sub_sub]
      rw [← tail]
      have blanks := words_slice_blanks h (i - t.length) (j - t.length)
      cases e : slice (g.intercalate (t' :: ts)) (i - t.length - g.length) (j - t.length - g.length) with
      | nil =>
        have trimmed := @words_trim _ blank [] (slice t i j) _ (by simp) blanks
        rwa [List.append_nil, words_nil, List.append_nil]
      | cons c rest =>
        have reach := slice_length_le (g.intercalate (t' :: ts)) (i - t.length - g.length) (j - t.length - g.length)
        rw [e, List.length_cons] at reach
        cases gap : slice g (i - t.length) (j - t.length) with
        | cons d ds => exact words_gap (gap ▸ blanks) (List.cons_ne_nil _ _) _ _
        | nil =>
          have size := congrArg List.length gap
          have whole := List.length_pos_of_ne_nil some_
          rw [slice, List.length_drop, List.length_take, List.length_nil] at size
          have empty : slice t i j = [] := by
            apply List.drop_eq_nil_of_le
            rw [List.length_take]
            omega
          rw [empty, words_nil]
          rfl

theorem words_intercalate {g : List α} (h : ∀ c ∈ g, blank c = true) (some_ : g ≠ []) (ts : List (List α)) :
    words blank (g.intercalate ts) = ts.flatMap (words blank) := by
  induction ts with
  | nil => rfl
  | cons t ts ih =>
    cases ts with
    | nil => rw [List.intercalate_singleton, List.flatMap_singleton]
    | cons t' ts =>
      rw [List.intercalate_cons_cons, List.append_assoc, words_gap h some_, ih]
      rfl

end Spacing
