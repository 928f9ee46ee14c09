import Mathlib.Data.List.Basic
import Mathlib.Data.List.GetD

/-!
# Texts expanded character by character

Every character of a text becomes a list of characters of another alphabet, none, one or
several, as when letters are folded to lower case. Each expanded character has an offset, the
position of the character it comes from. A pattern found in the expansion is the pattern of
the smallest stretch of the text whose expansion holds it (`occurs_iff`), and such a stretch
does not depend on what stands around it (`occurs_inside`).
-/

namespace Expansion

variable {α β : Type*} (f : α → List β)

/-- The position each expanded character comes from, the first position given. -/
def offsets : Nat → List α → List Nat
  | _, [] => []
  | i, c :: cs => List.replicate (f c).length i ++ offsets (i + 1) cs

/-- The pattern stands in the expansion of the stretch and needs its first and its last character. -/
structure Tight (mid : List α) (p : List β) : Prop where
  nonempty : mid ≠ []
  stands : ∃ x y, mid.flatMap f = x ++ (p ++ y) ∧ (∀ c ∈ mid.head?, x.length < (f c).length) ∧
    ∀ c ∈ mid.getLast?, y.length < (f c).length

/-- The characters from `a` up to `b` are such a stretch. -/
def Occurs (t : List α) (p : List β) (a b : Nat) : Prop :=
  ∃ pre mid post, t = pre ++ (mid ++ post) ∧ a = pre.length ∧ b = pre.length + mid.length ∧ Tight f mid p

variable {f}

/-! ## Offsets -/

/-- Each expanded character comes from a character of the text. -/
theorem split_at {t : List α} {k : Nat} (h : k < (t.flatMap f).length) :
    ∃ pre c post, t = pre ++ c :: post ∧ (pre.flatMap f).length ≤ k ∧ k < (pre.flatMap f).length + (f c).length := by
  induction t generalizing k with
  | nil => cases h
  | cons c cs ih =>
    rw [List.flatMap_cons, List.length_append] at h
    by_cases first : k < (f c).length
    · refine ⟨[], c, cs, rfl, Nat.zero_le k, ?_⟩
      show k < 0 + (f c).length
      omega
    · obtain ⟨pre, d, post, rfl, low, high⟩ := ih (k := k - (f c).length) (by omega)
      refine ⟨c :: pre, d, post, rfl, ?_, ?_⟩
      · rw [List.flatMap_cons, List.length_append]
        omega
      · rw [List.flatMap_cons, List.length_append]
        omega

theorem offsets_eq {pre : List α} {c : α} {k : Nat} (i : Nat) (post : List α) (low : (pre.flatMap f).length ≤ k)
    (high : k < (pre.flatMap f).length + (f c).length) :
    (offsets f i (pre ++ c :: post)).getD k 0 = i + pre.length := by
  induction pre generalizing i k with
  | nil =>
    have inside : k < (f c).length := by simpa using high
    rw [List.nil_append, offsets, List.getD_append _ _ _ _ (by rwa [List.length_replicate]), List.getD_replicate _ inside]
    rfl
  | cons d pre ih =>
    rw [List.flatMap_cons, List.length_append] at low high
    rw [List.cons_append, offsets, List.getD_append_right _ _ _ _ (by rw [List.length_replicate]; omega),
      List.length_replicate, ih (i + 1) (by omega) (by omega), List.length_cons]
    omega

/-- A later character is not expanded before an earlier one. -/
theorem before_le {pre post pre' post' : List α} {c c' : α} {k k' : Nat} (same : pre ++ c :: post = pre' ++ c' :: post')
    (low : (pre.flatMap f).length ≤ k) (high' : k' < (pre'.flatMap f).length + (f c').length) (order : k ≤ k') :
    pre.length ≤ pre'.length := by
  by_contra longer
  have head : pre' ++ [c'] <+: pre := by
    apply @List.prefix_of_prefix_length_le _ _ _ (pre ++ c :: post)
    · rw [same]
      exact ⟨post', by simp⟩
    · exact List.prefix_append _ _
    · rw [List.length_append, List.length_singleton]
      omega
  obtain ⟨w, rfl⟩ := head
  simp only [List.flatMap_append, List.length_append, List.flatMap_cons, List.flatMap_nil, List.append_nil] at low
  omega

theorem offsets_mono {t : List α} {k k' : Nat} (order : k ≤ k') (h : k' < (t.flatMap f).length) :
    (offsets f 0 t).getD k 0 ≤ (offsets f 0 t).getD k' 0 := by
  obtain ⟨pre, c, post, rfl, low, high⟩ := split_at (f := f) (t := t) (k := k) (by omega)
  obtain ⟨pre', c', post', same, low', high'⟩ := split_at h
  rw [offsets_eq 0 post low high, same, offsets_eq 0 post' low' high']
  have := before_le same low high' order
  omega

/-! ## Occurrences -/

/-- **A pattern found in the expansion is an occurrence at the offsets of its first and its last
character**, and every occurrence is found so. -/
theorem occurs_iff {t : List α} {p : List β} (some_ : p ≠ []) {a b : Nat} :
    Occurs f t p a b ↔ ∃ x y, t.flatMap f = x ++ (p ++ y) ∧ a = (offsets f 0 t).getD x.length 0 ∧
      b = (offsets f 0 t).getD (x.length + p.length - 1) 0 + 1 := by
  have long : 0 < p.length := List.length_pos_of_ne_nil some_
  constructor
  · rintro ⟨pre, mid, post, rfl, rfl, rfl, nonempty, x, y, stands, first, last⟩
    obtain ⟨c, mid', opening⟩ := List.exists_cons_of_ne_nil nonempty
    obtain ⟨body, d, closing⟩ : ∃ body d, mid = body ++ [d] :=
      ⟨_, _, (List.dropLast_append_getLast nonempty).symm⟩
    have firstShort : x.length < (f c).length := first c (by rw [opening]; rfl)
    have lastShort : y.length < (f d).length := last d (by rw [closing]; simp)
    have size : (mid.flatMap f).length = x.length + (p.length + y.length) := by
      rw [stands, List.length_append, List.length_append]
    have size' : (mid.flatMap f).length = (body.flatMap f).length + (f d).length := by
      rw [closing]
      simp
    refine ⟨pre.flatMap f ++ x, y ++ post.flatMap f, by simp [stands], ?_, ?_⟩
    · have whole : pre ++ (mid ++ post) = pre ++ c :: (mid' ++ post) := by rw [opening, List.cons_append]
      rw [whole, offsets_eq 0 _ (by rw [List.length_append]; omega) (by rw [List.length_append]; omega), Nat.zero_add]
    · have whole : pre ++ (mid ++ post) = (pre ++ body) ++ d :: post := by
        rw [closing]
        simp
      rw [whole, offsets_eq 0 _, closing]
      · simp only [List.length_append, List.length_singleton]
        omega
      · simp only [List.flatMap_append, List.length_append]
        omega
      · simp only [List.flatMap_append, List.length_append]
        omega
  · rintro ⟨x, y, found, rfl, rfl⟩
    have size : (t.flatMap f).length = x.length + (p.length + y.length) := by
      rw [found, List.length_append, List.length_append]
    obtain ⟨pre, c, post, parts, low, high⟩ := split_at (f := f) (t := t) (k := x.length) (by omega)
    obtain ⟨pre', c', post', parts', low', high'⟩ := split_at (f := f) (t := t) (k := x.length + p.length - 1) (by omega)
    have order := before_le (parts.symm.trans parts') low high' (by omega)
    obtain ⟨w, rfl⟩ : pre <+: pre' := by
      apply @List.prefix_of_prefix_length_le _ _ _ (t) ⟨c :: post, parts.symm⟩ ⟨c' :: post', parts'.symm⟩ order
    have whole : t = pre ++ ((w ++ [c']) ++ post') := by
      rw [parts']
      simp
    have sizes : ((w ++ [c']).flatMap f).length = (w.flatMap f).length + (f c').length := by simp
    rw [List.flatMap_append, List.length_append] at low' high'
    have unfolded : t.flatMap f = pre.flatMap f ++ ((w ++ [c']).flatMap f ++ post'.flatMap f) := by
      rw [whole]
      simp only [List.flatMap_append, List.append_assoc]
    -- the expansion of the stretch holds the pattern between two rests
    obtain ⟨x', rfl⟩ : pre.flatMap f <+: x := by
      apply @List.prefix_of_prefix_length_le _ _ _ (t.flatMap f) _ ⟨p ++ y, found.symm⟩ low
      rw [unfolded]
      exact List.prefix_append _ _
    rw [List.length_append] at high low' high'
    have inner : (w ++ [c']).flatMap f ++ post'.flatMap f = x' ++ (p ++ y) := by
      rw [unfolded, List.append_assoc] at found
      exact List.append_cancel_left found
    obtain ⟨y', stands⟩ : x' ++ p <+: (w ++ [c']).flatMap f := by
      apply @List.prefix_of_prefix_length_le _ _ _ ((w ++ [c']).flatMap f ++ post'.flatMap f)
      · exact ⟨y, by rw [inner, List.append_assoc]⟩
      · exact List.prefix_append _ _
      · rw [List.length_append, sizes]
        omega
    have rest : ((w ++ [c']).flatMap f).length = x'.length + p.length + y'.length := by
      rw [← stands, List.length_append, List.length_append]
    refine ⟨pre, w ++ [c'], post', whole, ?_, ?_, by simp, x', y', by rw [← stands, List.append_assoc], ?_, ?_⟩
    · rw [parts, offsets_eq 0 post low (by rw [List.length_append]; omega), Nat.zero_add]
    · have last : (pre.flatMap f ++ x').length + p.length - 1 < ((pre ++ w).flatMap f).length + (f c').length := by
        rw [List.flatMap_append, List.length_append, List.length_append]
        omega
      have first : ((pre ++ w).flatMap f).length ≤ (pre.flatMap f ++ x').length + p.length - 1 := by
        rw [List.flatMap_append, List.length_append, List.length_append]
        omega
      rw [parts', offsets_eq 0 post' first last]
      simp only [List.length_append, List.length_singleton]
      omega
    · intro d head
      have same : c = d := by
        have both : c :: post = (w ++ [c']) ++ post' := List.append_cancel_left (parts.symm.trans whole)
        have front : ((w ++ [c']) ++ post').head? = some d := by
          rw [List.head?_append, head]
          rfl
        rw [← both] at front
        exact Option.some.inj front
      rw [← same]
      omega
    · intro d tail
      have same : c' = d := by simpa using tail
      rw [← same]
      omega

/-- A first character that expands to one character is in the pattern. -/
theorem Tight.head {c : α} {d : β} {mid : List α} {p : List β} (h : Tight f (c :: mid) p) (some_ : p ≠ [])
    (one : f c = [d]) : d ∈ p := by
  obtain ⟨x, y, stands, first, -⟩ := h.stands
  have short := first c rfl
  rw [one] at short
  obtain rfl : x = [] := List.length_eq_zero_iff.1 (Nat.lt_one_iff.1 short)
  obtain ⟨e, p, rfl⟩ := List.exists_cons_of_ne_nil some_
  rw [List.flatMap_cons, one] at stands
  rw [(List.cons.inj stands).1]
  exact List.mem_cons_self ..

/-- So is a last one. -/
theorem Tight.last {c : α} {d : β} {mid : List α} {p : List β} (h : Tight f (mid ++ [c]) p) (some_ : p ≠ [])
    (one : f c = [d]) : d ∈ p := by
  obtain ⟨x, y, stands, -, last⟩ := h.stands
  have short := last c (by simp)
  rw [one] at short
  obtain rfl : y = [] := List.length_eq_zero_iff.1 (Nat.lt_one_iff.1 short)
  have same : (mid ++ [c]).flatMap f = (mid.flatMap f) ++ [d] := by simp [one]
  have final : (x ++ (p ++ [])).getLast? = some d := by
    rw [← stands, same]
    exact List.getLast?_concat
  rw [List.append_nil, List.getLast?_append_of_ne_nil _ some_] at final
  exact List.mem_of_getLast? final

theorem length_le_flatMap (nonempty : ∀ c, f c ≠ []) (t : List α) : t.length ≤ (t.flatMap f).length := by
  induction t with
  | nil => exact Nat.le_refl _
  | cons c cs ih =>
    have := List.length_pos_of_ne_nil (nonempty c)
    rw [List.flatMap_cons, List.length_append, List.length_cons]
    omega

/-- When every character expands to some, a stretch is no longer than the pattern. -/
theorem Tight.length_le {mid : List α} {p : List β} (h : Tight f mid p) (nonempty : ∀ c, f c ≠ []) (some_ : p ≠ []) :
    mid.length ≤ p.length := by
  obtain ⟨x, y, stands, first, last⟩ := h.stands
  have long := List.length_pos_of_ne_nil some_
  have size := congrArg List.length stands
  simp only [List.length_append] at size
  obtain ⟨c, rest, rfl⟩ := List.exists_cons_of_ne_nil h.nonempty
  have front := first c rfl
  rw [List.flatMap_cons, List.length_append] at size
  rcases List.eq_nil_or_concat rest with rfl | ⟨inner, d, rfl⟩
  · rw [List.length_singleton]
    omega
  · have back : y.length < (f d).length := by
      apply last
      rw [List.concat_eq_append, ← List.cons_append]
      exact List.getLast?_concat
    have between := length_le_flatMap nonempty inner
    simp only [List.concat_eq_append, List.flatMap_append, List.flatMap_cons, List.flatMap_nil, List.append_nil,
      List.length_append] at size
    simp only [List.concat_eq_append, List.length_cons, List.length_append, List.length_nil]
    omega

theorem Occurs.lt {t : List α} {p : List β} {a b : Nat} (h : Occurs f t p a b) : a < b := by
  obtain ⟨pre, mid, post, -, rfl, rfl, nonempty, -⟩ := h
  have := List.length_pos_of_ne_nil nonempty
  omega

theorem Occurs.le {t : List α} {p : List β} {a b : Nat} (h : Occurs f t p a b) : b ≤ t.length := by
  obtain ⟨pre, mid, post, rfl, -, rfl, -⟩ := h
  simp only [List.length_append]
  omega

/-- The expansion of the stretch holds the whole pattern. -/
theorem Occurs.holds {t : List α} {p : List β} {a b : Nat} (h : Occurs f t p a b) :
    p <:+: ((t.drop a).take (b - a)).flatMap f := by
  obtain ⟨pre, mid, post, rfl, rfl, rfl, -, x, y, stands, -⟩ := h
  rw [List.drop_left, Nat.add_sub_cancel_left, List.take_left, stands]
  exact ⟨x, y, by rw [List.append_assoc]⟩

/-- An occurrence does not depend on what stands around it. -/
theorem occurs_inside {lead t trail : List α} {p : List β} {a b : Nat} :
    Occurs f t p a b ↔ Occurs f (lead ++ (t ++ trail)) p (lead.length + a) (lead.length + b) ∧ b ≤ t.length := by
  constructor
  · intro h
    refine ⟨?_, h.le⟩
    obtain ⟨pre, mid, post, rfl, rfl, rfl, tight⟩ := h
    refine ⟨lead ++ pre, mid, post ++ trail, by simp, by simp, ?_, tight⟩
    rw [List.length_append]
    omega
  · rintro ⟨⟨pre, mid, post, whole, start, stop, tight⟩, within⟩
    obtain ⟨pre', rfl⟩ : lead <+: pre := by
      apply @List.prefix_of_prefix_length_le _ _ _ (lead ++ (t ++ trail)) (List.prefix_append _ _)
      · rw [whole]
        exact List.prefix_append _ _
      · omega
    rw [List.append_assoc] at whole
    have rest := List.append_cancel_left whole
    rw [List.length_append] at start stop
    obtain ⟨post', rfl⟩ : pre' ++ mid <+: t := by
      apply @List.prefix_of_prefix_length_le _ _ _ (t ++ trail)
      · rw [rest, ← List.append_assoc]
        exact List.prefix_append _ _
      · exact List.prefix_append _ _
      · rw [List.length_append]
        omega
    exact ⟨pre', mid, post', by rw [List.append_assoc], by omega, by omega, tight⟩

end Expansion
