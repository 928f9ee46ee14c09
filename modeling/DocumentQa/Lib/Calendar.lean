import Mathlib.Data.Nat.Basic

/-!
# The proleptic Gregorian calendar

Days are counted by ordinals, 1 January of year 1 being day 1. `dateOf` walks from the
start of a year to the date of a day; `ordinal_dateOf` says that the date found has the
day's ordinal.
-/

namespace Calendar

def isLeap (y : Nat) : Bool :=
  y % 4 = 0 && (y % 100 ≠ 0 || y % 400 = 0)

def yearLength (y : Nat) : Nat :=
  if isLeap y then 366 else 365

def monthLength (y m : Nat) : Nat :=
  match m with
  | 2 => if isLeap y then 29 else 28
  | 4 | 6 | 9 | 11 => 30
  | _ => 31

structure Date where
  year : Nat
  month : Nat
  day : Nat
deriving DecidableEq

/-- A date that a calendar of four-digit years has. -/
def Date.isValid (d : Date) : Bool :=
  1 ≤ d.year && d.year ≤ 9999 && 1 ≤ d.month && d.month ≤ 12 && 1 ≤ d.day && d.day ≤ monthLength d.year d.month

def daysBeforeYear (y : Nat) : Nat :=
  (y - 1) * 365 + (y - 1) / 4 - (y - 1) / 100 + (y - 1) / 400

def daysBeforeMonth (y : Nat) : Nat → Nat
  | 0 | 1 => 0
  | m + 1 => daysBeforeMonth y m + monthLength y m

def Date.ordinal (d : Date) : Nat :=
  daysBeforeYear d.year + daysBeforeMonth d.year d.month + d.day

/-- The month and the day `n` days after the start of month `m`. -/
def walkMonths (y : Nat) : Nat → Nat → Nat → Nat × Nat
  | 0, m, n => (m, n + 1)
  | fuel + 1, m, n => if n < monthLength y m then (m, n + 1) else walkMonths y fuel (m + 1) (n - monthLength y m)

/-- The year and the day in it `n` days after the start of year `y`. -/
def walkYears : Nat → Nat → Nat → Nat × Nat
  | 0, y, n => (y, n)
  | fuel + 1, y, n => if n < yearLength y then (y, n) else walkYears fuel (y + 1) (n - yearLength y)

/-- The date `n` days after 1 January 1970. -/
def dateOf (n : Nat) : Date :=
  let (y, r) := walkYears (n / 365 + 1) 1970 n
  let (m, d) := walkMonths y 11 1 r
  ⟨y, m, d⟩

def epochOrdinal : Nat := 719163

/-- A quotient grows at the multiples of the divisor. -/
theorem div_step {y d : Nat} (h : 1 ≤ y) : y / d = (y - 1) / d + if y % d = 0 then 1 else 0 := by
  obtain ⟨k, rfl⟩ : ∃ k, y = k + 1 := ⟨y - 1, by omega⟩
  simp only [Nat.add_sub_cancel, Nat.succ_div, Nat.dvd_iff_mod_eq_zero]

theorem daysBeforeYear_succ {y : Nat} (h : 1 ≤ y) : daysBeforeYear (y + 1) = daysBeforeYear y + yearLength y := by
  have by4 := div_step (d := 4) h
  have by100 := div_step (d := 100) h
  have by400 := div_step (d := 400) h
  have of100 : y % 100 = 0 → y % 4 = 0 := by omega
  have of400 : y % 400 = 0 → y % 100 = 0 := by omega
  have order : (y - 1) / 100 ≤ (y - 1) / 4 := Nat.div_le_div_left (by decide) (by decide)
  have start : y + 1 - 1 = y := rfl
  unfold daysBeforeYear yearLength isLeap
  rw [start, by4, by100, by400]
  by_cases h4 : y % 4 = 0
  · by_cases h100 : y % 100 = 0
    · by_cases h400 : y % 400 = 0
      · simp only [h4, h100, h400, decide_true, Bool.or_true, Bool.and_true, if_true]
        omega
      · simp only [h4, h100, h400, ne_eq, not_true, decide_false, decide_true, Bool.or_false, Bool.and_false, if_true,
          if_false, Bool.false_eq_true]
        omega
    · have h400 : ¬y % 400 = 0 := fun e => h100 (of400 e)
      simp only [h4, h100, h400, ne_eq, not_false_iff, decide_true, Bool.true_or, Bool.and_true, if_true, if_false]
      omega
  · have h100 : ¬y % 100 = 0 := fun e => h4 (of100 e)
    have h400 : ¬y % 400 = 0 := fun e => h100 (of400 e)
    simp only [h4, h100, h400, decide_false, Bool.false_and, Bool.false_eq_true, if_false]
    omega

theorem walkYears_spec (fuel : Nat) {y n : Nat} (h : 1 ≤ y) (enough : n < 365 * fuel) :
    (walkYears fuel y n).2 < yearLength (walkYears fuel y n).1 ∧ y ≤ (walkYears fuel y n).1 ∧
      daysBeforeYear (walkYears fuel y n).1 + (walkYears fuel y n).2 = daysBeforeYear y + n := by
  induction fuel generalizing y n with
  | zero => omega
  | succ fuel ih =>
    have long : 365 ≤ yearLength y := by
      unfold yearLength
      split <;> omega
    rw [walkYears]
    split
    · next here => exact ⟨here, le_refl _, rfl⟩
    · next later =>
      obtain ⟨inside, up, days⟩ := ih (y := y + 1) (n := n - yearLength y) (by omega) (by omega)
      refine ⟨inside, by omega, ?_⟩
      rw [days, daysBeforeYear_succ h]
      omega

theorem walkMonths_spec (y fuel : Nat) {m n : Nat} (hm : 1 ≤ m) (hf : m + fuel = 12)
    (short : daysBeforeMonth y m + n < yearLength y) :
    1 ≤ (walkMonths y fuel m n).2 ∧ (walkMonths y fuel m n).2 ≤ monthLength y (walkMonths y fuel m n).1 ∧
      m ≤ (walkMonths y fuel m n).1 ∧ (walkMonths y fuel m n).1 ≤ 12 ∧
      daysBeforeMonth y (walkMonths y fuel m n).1 + (walkMonths y fuel m n).2 = daysBeforeMonth y m + n + 1 := by
  induction fuel generalizing m n with
  | zero =>
    have december : m = 12 := by omega
    subst december
    have rest : n < 31 := by
      simp only [daysBeforeMonth, monthLength, yearLength] at short
      split at short <;> omega
    exact ⟨Nat.succ_pos n, Nat.succ_le_of_lt rest, le_refl _, le_refl _, rfl⟩
  | succ fuel ih =>
    rw [walkMonths]
    split
    · next here => exact ⟨Nat.succ_pos n, Nat.succ_le_of_lt here, le_refl _, by omega, rfl⟩
    · next later =>
      have before : daysBeforeMonth y (m + 1) = daysBeforeMonth y m + monthLength y m := by
        cases m with
        | zero => omega
        | succ m => rfl
      obtain ⟨low, high, up, bound, days⟩ := ih (m := m + 1) (n := n - monthLength y m) (by omega) (by omega) (by
        rw [before]
        omega)
      refine ⟨low, high, by omega, bound, ?_⟩
      rw [days, before]
      omega

theorem daysBeforeYear_mono (y k : Nat) (h : 1 ≤ y) : daysBeforeYear y ≤ daysBeforeYear (y + k) := by
  induction k with
  | zero => exact le_refl _
  | succ k ih =>
    rw [← Nat.add_assoc, daysBeforeYear_succ (by omega)]
    omega

/-- The year of a day before year 10000. -/
theorem year_dateOf {n : Nat} (h : n < 2932897) : (dateOf n).year ≤ 9999 := by
  obtain ⟨-, -, days⟩ := walkYears_spec (n / 365 + 1) (y := 1970) (n := n) (by omega) (by omega)
  change (walkYears (n / 365 + 1) 1970 n).1 ≤ 9999
  have epoch : daysBeforeYear 1970 = 719162 := rfl
  have last : daysBeforeYear 10000 = 3652059 := rfl
  by_contra late
  have mono := daysBeforeYear_mono 10000 ((walkYears (n / 365 + 1) 1970 n).1 - 10000) (by omega)
  rw [show 10000 + ((walkYears (n / 365 + 1) 1970 n).1 - 10000) = (walkYears (n / 365 + 1) 1970 n).1 by omega] at mono
  omega

/-- **Every day has a date** with its ordinal. -/
theorem ordinal_dateOf (n : Nat) : (dateOf n).ordinal = epochOrdinal + n := by
  obtain ⟨inside, up, days⟩ := walkYears_spec (n / 365 + 1) (y := 1970) (n := n) (by omega) (by omega)
  have months := walkMonths_spec (walkYears (n / 365 + 1) 1970 n).1 11 (m := 1) (by omega) (by omega)
    (by simpa [daysBeforeMonth] using inside)
  obtain ⟨-, -, -, -, before⟩ := months
  have epoch : daysBeforeYear 1970 = 719162 := rfl
  have start : daysBeforeMonth (walkYears (n / 365 + 1) 1970 n).1 1 = 0 := rfl
  change daysBeforeYear (walkYears (n / 365 + 1) 1970 n).1 + _ + _ = _
  rw [start] at before
  unfold epochOrdinal
  rw [Nat.add_assoc]
  calc daysBeforeYear (walkYears (n / 365 + 1) 1970 n).1 + _ = _ := congrArg _ before
    _ = 719163 + n := by omega

theorem dateOf_isValid {n : Nat} (h : n < 2932897) : (dateOf n).isValid = true := by
  obtain ⟨inside, up, days⟩ := walkYears_spec (n / 365 + 1) (y := 1970) (n := n) (by omega) (by omega)
  have months := walkMonths_spec (walkYears (n / 365 + 1) 1970 n).1 11 (m := 1) (by omega) (by omega)
    (by simpa [daysBeforeMonth] using inside)
  obtain ⟨low, high, first, last, -⟩ := months
  have year := year_dateOf h
  have since : 1 ≤ (dateOf n).year := by
    change 1 ≤ (walkYears (n / 365 + 1) 1970 n).1
    omega
  simp only [Date.isValid, Bool.and_eq_true, decide_eq_true_eq]
  exact ⟨⟨⟨⟨⟨since, year⟩, first⟩, last⟩, low⟩, high⟩

end Calendar
