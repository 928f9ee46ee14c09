import Mathlib.Algebra.Order.Ring.Abs
import Mathlib.Algebra.Order.Ring.Rat
import Mathlib.Algebra.Order.Field.Basic
import Mathlib.Tactic.Linarith
import Mathlib.Tactic.NormNum
import Mathlib.Tactic.Ring
import Mathlib.Tactic.Positivity

/-!
# Summing doubles

A `Rounding` is what is used of rounding to nearest in double precision, away from overflow
and underflow: it is monotone, it keeps what it has produced and the integers of a
significand, and its relative error is at most half a unit in the last place. Summation is
the compensated one of Neumaier: next to the rounded sum it carries what the roundings lost.
A sum of a few hundred nonnegative values of moderate size is not below any of them
(`le_sum`), which plain rounding errors alone would not give.
-/

structure Rounding where
  fl : ℚ → ℚ
  mono : Monotone fl
  idem (x : ℚ) : fl (fl x) = fl x
  int (n : ℤ) (small : |n| ≤ 9007199254740992) : fl n = n
  near (x : ℚ) : |fl x - x| ≤ |x| / 9007199254740992

namespace Rounding

/-- No rounding at all. -/
def exact : Rounding where
  fl := id
  mono := monotone_id
  idem _ := rfl
  int _ _ := rfl
  near x := by
    rw [id, sub_self, abs_zero]
    positivity

variable (R : Rounding)

/-- One turn of the summation: the rounded sum and the compensation. -/
def addTo (s : ℚ × ℚ) (x : ℚ) : ℚ × ℚ :=
  let t := R.fl (s.1 + x)
  (t, R.fl (s.2 + if |x| ≤ |s.1| then R.fl (R.fl (s.1 - t) + x) else R.fl (R.fl (x - t) + s.1)))

/-- The sum of the values. -/
def sum (xs : List ℚ) : ℚ :=
  let s := xs.foldl R.addTo (0, 0)
  if s.2 = 0 then s.1 else R.fl (s.1 + s.2)

variable {R}

theorem fl_zero : R.fl 0 = 0 := by
  have := R.int 0 (by norm_num)
  simpa using this

theorem fl_nat {n : Nat} (small : n ≤ 9007199254740992) : R.fl n = n := by
  have := R.int n (by rw [abs_of_nonneg (Int.natCast_nonneg n)]; exact_mod_cast small)
  simpa using this

theorem fl_nonneg {x : ℚ} (h : 0 ≤ x) : 0 ≤ R.fl x := by
  have := R.mono h
  rwa [fl_zero] at this

/-- What the difference of a sum and one of its parts loses, against the other part. -/
theorem lost_near {a b e E : ℚ} (ha : 0 ≤ a) (he : |e| ≤ E) (sum : b - R.fl (b + a) = -(a + e)) :
    |R.fl (R.fl (b - R.fl (b + a)) + a) + e| ≤ (2 * a + 3 * E) / 9007199254740992 := by
  rw [sum]
  have part := R.near (-(a + e))
  have whole := R.near (R.fl (-(a + e)) + a)
  generalize R.fl (-(a + e)) = p at part whole ⊢
  generalize R.fl (p + a) = q at whole ⊢
  have size : |-(a + e)| ≤ a + E := by
    rw [abs_neg]
    exact (abs_add_le a e).trans (by rw [abs_of_nonneg ha]; linarith)
  have rest : |p + a| ≤ E + (a + E) / 9007199254740992 := by
    have split : p + a = (p - -(a + e)) + -e := by ring
    rw [split]
    refine (abs_add_le _ _).trans ?_
    rw [abs_neg]
    linarith
  have first : |p - -(a + e)| ≤ (a + E) / 9007199254740992 := part.trans (by linarith)
  have second : |q - (p + a)| ≤ (E + (a + E) / 9007199254740992) / 9007199254740992 := whole.trans (by linarith)
  have split : q + e = (q - (p + a)) + (p - -(a + e)) := by ring
  have nonneg : 0 ≤ E := (abs_nonneg e).trans he
  rw [split]
  refine (abs_add_le _ _).trans ?_
  linarith

/-- **One value.** A turn adds the value up to a small error, and the compensation stays small. -/
theorem addTo_near {f c x : ℚ} (hf : 0 ≤ f) (big : f ≤ 51200000000) (hc : |c| ≤ 1 / 100) (hx : 0 ≤ x) (high : x ≤ 100000000) :
    |((R.addTo (f, c) x).1 + (R.addTo (f, c) x).2) - (f + c + x)| ≤ x / 1000000000000000 + 1 / 100000000000000000 ∧
      |(R.addTo (f, c) x).2| ≤ |c| + 1 / 100000 := by
  have rounding := R.near (f + x)
  rw [abs_of_nonneg (by linarith : 0 ≤ f + x)] at rounding
  have error : |R.fl (f + x) - (f + x)| ≤ 6 / 1000000 := by
    refine rounding.trans ?_
    linarith
  -- the compensation adds what the rounding lost, up to `slip`
  have slip : |(if |x| ≤ |f| then R.fl (R.fl (f - R.fl (f + x)) + x) else R.fl (R.fl (x - R.fl (f + x)) + f)) +
      (R.fl (f + x) - (f + x))| ≤ (2 * x + 3 * (6 / 1000000)) / 9007199254740992 := by
    rw [abs_of_nonneg hf, abs_of_nonneg hx]
    split
    · exact lost_near hx error (by ring)
    · next larger =>
      have swapped := @lost_near R f x (R.fl (f + x) - (f + x)) _ hf error (by rw [add_comm x f]; ring)
      rw [add_comm x f] at swapped
      refine swapped.trans ?_
      have : f < x := not_le.1 larger
      linarith
  rw [addTo]
  dsimp only
  generalize (if |x| ≤ |f| then R.fl (R.fl (f - R.fl (f + x)) + x) else R.fl (R.fl (x - R.fl (f + x)) + f)) = inc at slip ⊢
  generalize R.fl (f + x) = t at error slip ⊢
  have last := R.near (c + inc)
  generalize R.fl (c + inc) = c' at last ⊢
  have added : |inc| ≤ 7 / 1000000 := by
    have split : inc = (inc + (t - (f + x))) + -(t - (f + x)) := by ring
    rw [split]
    refine (abs_add_le _ _).trans ?_
    rw [abs_neg]
    linarith
  have both : |c + inc| ≤ |c| + 7 / 1000000 := (abs_add_le _ _).trans (by linarith)
  constructor
  · have split : (t + c') - (f + c + x) = (inc + (t - (f + x))) + (c' - (c + inc)) := by ring
    rw [split]
    refine (abs_add_le _ _).trans ?_
    linarith
  · have split : c' = (c' - (c + inc)) + (c + inc) := by ring
    rw [split]
    refine (abs_add_le _ _).trans ?_
    linarith

/-- Adding nothing changes nothing. -/
theorem addTo_zero {f c : ℚ} (hf : R.fl f = f) (hc : R.fl c = c) : R.addTo (f, c) 0 = (f, c) := by
  have small : |(0 : ℚ)| ≤ |f| := by
    rw [abs_zero]
    exact abs_nonneg f
  simp only [addTo, add_zero, hf, if_pos small, sub_self, fl_zero, hc]

/-- The first value stands for itself. -/
theorem addTo_first {x : ℚ} (hx : R.fl x = x) : R.addTo (0, 0) x = (x, 0) := by
  simp only [addTo, zero_add, hx, abs_zero, sub_self, fl_zero, add_zero]
  split
  · next none_ =>
    have zero_ : x = 0 := abs_eq_zero.1 (le_antisymm none_ (abs_nonneg x))
    simp only [zero_, zero_sub, neg_zero, fl_zero, add_zero]
  · rw [fl_zero]

/-- A value of a sum: representable, zero or not tiny, and below the bound by more than its rounding. -/
structure Summand (R : Rounding) (top : Nat) (x : ℚ) : Prop where
  fl : R.fl x = x
  low : x = 0 ∨ 9 / 10000000 ≤ x
  high : x + 2 / 10000000 ≤ top

theorem Summand.nonneg {top : Nat} {x : ℚ} (h : Summand R top x) : 0 ≤ x := by
  rcases h.low with zero_ | low <;> linarith

/-- The summation after the values: their exact sum is within the bounds the result is checked against. -/
structure Summed (R : Rounding) (top : Nat) (xs : List ℚ) (f c : ℚ) : Prop where
  sum_fl : R.fl f = f
  rest_fl : R.fl c = c
  nonneg : 0 ≤ f
  sum_le : f ≤ xs.length * 100000000
  rest_le : |c| ≤ xs.length / 100000
  low : (f = 0 ∧ c = 0) ∨ 9 / 10000000 ≤ f + c
  above : ∀ x ∈ xs, x ≤ f + c
  below : f + c ≤ xs.length * top

theorem summed_nil {top : Nat} : Summed R top [] 0 0 where
  sum_fl := fl_zero
  rest_fl := fl_zero
  nonneg := le_refl 0
  sum_le := by simp
  rest_le := by simp
  low := .inl ⟨rfl, rfl⟩
  above := by simp
  below := by simp

/-- **One more value.** -/
theorem Summed.add {top : Nat} {xs : List ℚ} {f c x : ℚ} (h : Summed R top xs f c) (few : xs.length < 512)
    (small : top ≤ 100000000) (hx : Summand R top x) :
    Summed R top (xs ++ [x]) (R.addTo (f, c) x).1 (R.addTo (f, c) x).2 := by
  have pos := hx.nonneg
  have bound : (top : ℚ) ≤ 100000000 := by exact_mod_cast small
  have count : (xs.length : ℚ) ≤ 511 := by exact_mod_cast Nat.le_of_lt_succ few
  have size : ((xs ++ [x]).length : ℚ) = xs.length + 1 := by simp
  have topPos : (0 : ℚ) ≤ top := Nat.cast_nonneg top
  have sum_le : (R.addTo (f, c) x).1 ≤ ((xs ++ [x]).length : ℚ) * 100000000 := by
    have up : f + x ≤ (((xs.length + 1) * 100000000 : Nat) : ℚ) := by
      push_cast
      linarith [h.sum_le, hx.high]
    have rounded := R.mono up
    rw [fl_nat (by omega)] at rounded
    rw [size]
    push_cast at rounded
    exact rounded
  refine ⟨R.idem _, R.idem _, fl_nonneg (by linarith [h.nonneg]), sum_le, ?_, ?_, ?_, ?_⟩
  all_goals rcases hx.low with zero_ | low
  · rw [zero_, addTo_zero h.sum_fl h.rest_fl, ← zero_, size]
    exact h.rest_le.trans (by linarith)
  · have near := (@addTo_near R f c x h.nonneg (h.sum_le.trans (by linarith)) (h.rest_le.trans (by linarith)) pos
      (by linarith [hx.high])).2
    rw [size]
    linarith [h.rest_le]
  · rw [zero_, addTo_zero h.sum_fl h.rest_fl]
    exact h.low
  · right
    rcases h.low with ⟨rfl, rfl⟩ | some_
    · rw [addTo_first hx.fl]
      linarith
    · have near := (@addTo_near R f c x h.nonneg (h.sum_le.trans (by linarith)) (h.rest_le.trans (by linarith)) pos
        (by linarith [hx.high])).1
      have := (abs_le.1 near).1
      linarith
  · intro y mem
    rw [zero_, addTo_zero h.sum_fl h.rest_fl]
    rcases List.mem_append.1 mem with mem | mem
    · exact h.above y mem
    · rw [List.mem_singleton.1 mem, zero_]
      rcases h.low with ⟨rfl, rfl⟩ | some_ <;> linarith
  · intro y mem
    rcases h.low with ⟨rfl, rfl⟩ | some_
    · rw [addTo_first hx.fl, add_zero]
      rcases List.mem_append.1 mem with mem | mem
      · linarith [h.above y mem]
      · rw [List.mem_singleton.1 mem]
    · have near := (@addTo_near R f c x h.nonneg (h.sum_le.trans (by linarith)) (h.rest_le.trans (by linarith)) pos
        (by linarith [hx.high])).1
      have := (abs_le.1 near).1
      have high := hx.high
      rcases List.mem_append.1 mem with mem | mem
      · linarith [h.above y mem]
      · rw [List.mem_singleton.1 mem]
        linarith
  · rw [zero_, addTo_zero h.sum_fl h.rest_fl, ← zero_, size]
    linarith [h.below]
  · rcases h.low with ⟨rfl, rfl⟩ | some_
    · rw [addTo_first hx.fl, add_zero, size]
      have grows : (0 : ℚ) ≤ xs.length * top := by positivity
      linarith [hx.high]
    · have near := (@addTo_near R f c x h.nonneg (h.sum_le.trans (by linarith)) (h.rest_le.trans (by linarith)) pos
        (by linarith [hx.high])).1
      have := (abs_le.1 near).2
      rw [size]
      linarith [hx.high, h.below]

theorem summed {top : Nat} {xs : List ℚ} (few : xs.length ≤ 512) (small : top ≤ 100000000) (values : ∀ x ∈ xs, Summand R top x) :
    Summed R top xs (xs.foldl R.addTo (0, 0)).1 (xs.foldl R.addTo (0, 0)).2 := by
  induction xs using List.reverseRecOn with
  | nil => exact summed_nil
  | append_singleton xs x ih =>
    rw [List.length_append, List.length_singleton] at few
    have before := ih (by omega) fun y mem => values y (List.mem_append_left _ mem)
    rw [List.foldl_append]
    exact before.add (by omega) small (values x (by simp))

section Sum

variable {top : Nat} {xs : List ℚ} (few : xs.length ≤ 512) (small : top ≤ 100000000) (values : ∀ x ∈ xs, Summand R top x)

include few small values

/-- **A sum is not below any of its values.** -/
theorem le_sum {x : ℚ} (mem : x ∈ xs) : x ≤ R.sum xs := by
  have h := summed few small values
  have above := h.above x mem
  rw [sum]
  split
  · next none_ =>
    rw [none_, add_zero] at above
    exact above
  · have rounded := R.mono above
    rwa [(values x mem).fl] at rounded

theorem sum_le : R.sum xs ≤ xs.length * top := by
  have h := summed few small values
  have below := h.below
  rw [sum]
  split
  · next none_ =>
    rw [none_, add_zero] at below
    exact below
  · have up : (xs.foldl R.addTo (0, 0)).1 + (xs.foldl R.addTo (0, 0)).2 ≤ ((xs.length * top : Nat) : ℚ) := by
      push_cast
      exact below
    have rounded := R.mono up
    have representable : xs.length * top ≤ 9007199254740992 := by
      calc xs.length * top ≤ 512 * 100000000 := Nat.mul_le_mul few small
        _ ≤ 9007199254740992 := by decide
    rw [fl_nat representable] at rounded
    push_cast at rounded
    exact rounded

end Sum

end Rounding
