import Mathlib.Data.Nat.Basic

/-!
# Rounding to double precision

A nonnegative finite double is `mant / 2 ^ shift` or, beyond the integers a significand
holds, a multiple of a power of two. `nearest n d` is the double nearest to `n / d`, ties
to even, for quotients between the subnormal and the overflowing ones. The results of a
division and of a product of doubles are the nearest doubles to the exact values.
-/

namespace Binary64

/-- `n / d` rounded to the nearest integer, ties to even. -/
def roundHalfEven (n d : Nat) : Nat :=
  if 2 * (n % d) < d then n / d
  else if d < 2 * (n % d) then n / d + 1
  else n / d + (n / d) % 2

/-- The value `num / den`, `den` a power of two. -/
structure Float where
  num : Nat
  den : Nat

/-- `n / d` scaled by the power of two that leaves a significand of 53 bits, rounded. -/
def nearest (n d : Nat) : Float :=
  let small := Nat.log2 n + 1 < Nat.log2 d + 54
  -- with this shift the scaled quotient lies between `2 ^ 52` and `2 ^ 54`
  let shift := if small then Nat.log2 d + 53 - Nat.log2 n else Nat.log2 n - (Nat.log2 d + 53)
  let scaled := if small then (n <<< shift, d) else (n, d <<< shift)
  let halve := (1 <<< 53) * scaled.2 ≤ scaled.1
  let mant := if halve then 2 * roundHalfEven scaled.1 (2 * scaled.2) else roundHalfEven scaled.1 scaled.2
  if small then ⟨mant, 1 <<< shift⟩ else ⟨mant <<< shift, 1⟩

namespace Float

/-- The product with an integer that a double holds exactly. -/
def times (x : Float) (k : Nat) : Float :=
  nearest (x.num * k) x.den

/-- The sum of two doubles. -/
def add (x y : Float) : Float :=
  nearest (x.num * y.den + y.num * x.den) (x.den * y.den)

/-- `x ≤ y` of the values. -/
def le (x y : Float) : Bool :=
  x.num * y.den ≤ y.num * x.den

/-- The integer part. -/
def floor (x : Float) : Nat :=
  x.num / x.den

/-- The fractional part, which is exact. -/
def fraction (x : Float) : Float :=
  ⟨x.num % x.den, x.den⟩

/-- The nearest integer, ties to even. -/
def round (x : Float) : Nat :=
  roundHalfEven x.num x.den

end Float

end Binary64
