import DocumentQa.Lib.Json.Number

/-!
# `_js_number_text`

The serializer takes ECMAScript's number text from the pieces of Python's `repr`: it cuts
the text at `e` and at the point, collects the significant digits and where the point
stands among them, and prints them again. `jsNumberText_eq` says that the result is
`Number::toString`.
-/

namespace Transfer

open JsonText

/-- `text.partition(sep)` without the separator. -/
def partition (sep : Char) (text : List Char) : List Char × List Char :=
  (text.takeWhile (· ≠ sep), (text.dropWhile (· ≠ sep)).drop 1)

/-- `text.lstrip("0")`. -/
def lstripZeros (text : List Char) : List Char :=
  text.dropWhile (· = '0')

/-- `text.rstrip("0")`. -/
def rstripZeros (text : List Char) : List Char :=
  (text.reverse.dropWhile (· = '0')).reverse

/-- `int(text)` of an exponent. -/
def exponentValue : List Char → Int
  | '-' :: ds => -(Nat.ofDigitChars 10 ds 0 : Int)
  | '+' :: ds => Nat.ofDigitChars 10 ds 0
  | ds => Nat.ofDigitChars 10 ds 0

/-- The significant digits of a `repr` text and the place of the point among them. -/
def significand (text : List Char) : List Char × Int :=
  let (mantissa, n) : List Char × Int :=
    if 'e' ∈ text then ((partition 'e' text).1, exponentValue (partition 'e' text).2) else (text, 0)
  let (whole, fraction) := partition '.' mantissa
  let (digits, n) : List Char × Int :=
    if lstripZeros whole = [] then
      (lstripZeros fraction, -((fraction.length - (lstripZeros fraction).length : Nat) : Int))
    else (whole ++ fraction, whole.length + n)
  (rstripZeros digits, n)

/-- The text of the digits with the point at `n`. -/
def placed (sign digits : List Char) (n : Int) : List Char :=
  let k := digits.length
  if k ≤ n ∧ n ≤ 21 then sign ++ digits ++ List.replicate (n - k).toNat '0'
  else if 0 < n ∧ n ≤ 21 then sign ++ digits.take n.toNat ++ '.' :: digits.drop n.toNat
  else if -6 < n ∧ n ≤ 0 then sign ++ '0' :: '.' :: (List.replicate (-n).toNat '0' ++ digits)
  else
    let mantissa := digits.take 1 ++ (if 1 < k then '.' :: digits.drop 1 else [])
    sign ++ mantissa ++ 'e' :: (if 0 ≤ n - 1 then '+' else '-') :: natText (n - 1).natAbs

/-- `abs(value)`. -/
def abs : Double → Double
  | .inf _ => .inf false
  | .zero _ => .zero false
  | .finite d => .finite { d with neg := false }
  | .nan => .nan

/-- `value < 0`. -/
def isNegative : Double → Bool
  | .finite d => d.neg
  | .inf neg => neg
  | _ => false

/-- `_js_number_text`, `none` where it raises. -/
def jsNumberText (x : Double) : Option (List Char) :=
  match x with
  | .nan | .inf _ => none
  | .zero _ => some ['0']
  | x =>
    let sign := if isNegative x then ['-'] else []
    let (digits, n) := significand (floatRepr (abs x))
    some (placed sign digits n)

/-! ## Cutting a `repr` text -/

theorem partition_append {sep : Char} {before : List Char} (after : List Char) (h : sep ∉ before) :
    partition sep (before ++ sep :: after) = (before, after) := by
  have here : ∀ c ∈ before, decide (c ≠ sep) = true := by
    intro c hc
    rw [decide_eq_true_eq]
    rintro rfl
    exact h hc
  unfold partition
  rw [List.takeWhile_append_of_pos here, List.dropWhile_append_of_pos here]
  simp

theorem partition_none {sep : Char} {text : List Char} (h : sep ∉ text) : partition sep text = (text, []) := by
  have here : ∀ c ∈ text, decide (c ≠ sep) = true := by
    intro c hc
    rw [decide_eq_true_eq]
    rintro rfl
    exact h hc
  have take := @List.takeWhile_append_of_pos _ _ text [] here
  have drop := @List.dropWhile_append_of_pos _ _ text [] here
  rw [List.append_nil] at take drop
  rw [partition, take, drop]
  simp

theorem digit_ne {c sep : Char} (hc : c.isDigit = true) (hs : sep.isDigit = false) : c ≠ sep := by
  rintro rfl
  rw [hc] at hs
  cases hs

theorem lstripZeros_zeros (n : Nat) (rest : List Char) : lstripZeros (zeros n ++ rest) = lstripZeros rest := by
  unfold lstripZeros zeros
  rw [List.dropWhile_append_of_pos (by simp)]

theorem rstripZeros_zeros (front : List Char) (n : Nat) : rstripZeros (front ++ zeros n) = rstripZeros front := by
  unfold rstripZeros zeros
  rw [List.reverse_append, List.reverse_replicate, List.dropWhile_append_of_pos (by simp)]

theorem lstripZeros_of_head {c : Char} {cs : List Char} (h : c ≠ '0') : lstripZeros (c :: cs) = c :: cs := by
  simp [lstripZeros, h]

section Digits

variable (d : Decimal)

theorem lstripZeros_digits : lstripZeros d.digits = d.digits := by
  obtain ⟨c, cs, e, ne⟩ := d.digits_head
  rw [e, lstripZeros_of_head ne]

/-- The last digit is not zero. -/
theorem rstripZeros_digits : rstripZeros d.digits = d.digits := by
  have last : ∃ front, d.digits = front ++ [(d.sig % 10).digitChar] := by
    unfold Decimal.digits natText
    by_cases small : d.sig < 10
    · exact ⟨[], by rw [Nat.toDigits_of_lt_base small, Nat.mod_eq_of_lt small]; rfl⟩
    · exact ⟨_, Nat.toDigits_of_base_le (by decide) (by omega)⟩
  obtain ⟨front, e⟩ := last
  have ne : (d.sig % 10).digitChar ≠ '0' := by
    intro zero
    have value := Nat.toNat_digitChar_sub_48_of_lt_ten (Nat.mod_lt d.sig (by decide : 0 < 10))
    rw [zero] at value
    have := d.normal
    simp at value
    omega
  rw [e]
  unfold rstripZeros
  rw [List.reverse_append, List.reverse_singleton, List.singleton_append, List.dropWhile_cons_of_neg (by simpa using ne)]
  simp

/-- The exponent of a scientific layout. -/
theorem exponentValue_padTwo (n : Int) :
    exponentValue ((if n < 0 then '-' else '+') :: padTwo n.natAbs) = n := by
  split
  · simp only [exponentValue, ofDigits_padTwo]
    omega
  · simp only [exponentValue, ofDigits_padTwo]
    omega

omit d in
/-- A text without an exponent, cut at its point. -/
theorem significand_point (whole fraction : List Char) (noE : 'e' ∉ whole ++ '.' :: fraction) (noDot : '.' ∉ whole) :
    significand (whole ++ '.' :: fraction) =
      if lstripZeros whole = [] then
        (rstripZeros (lstripZeros fraction), -((fraction.length - (lstripZeros fraction).length : Nat) : Int))
      else (rstripZeros (whole ++ fraction), whole.length) := by
  simp only [significand, if_neg noE, partition_append fraction noDot, Int.add_zero]
  split <;> rfl

omit d in
/-- A text with an exponent, cut at it. -/
theorem significand_exponent {whole fraction mantissa : List Char} (exponent : List Char) (noE : 'e' ∉ mantissa)
    (cut : partition '.' mantissa = (whole, fraction)) (nonzero : lstripZeros whole ≠ []) :
    significand (mantissa ++ 'e' :: exponent) =
      (rstripZeros (whole ++ fraction), whole.length + exponentValue exponent) := by
  have e : 'e' ∈ mantissa ++ 'e' :: exponent := by simp
  simp only [significand, if_pos e, partition_append exponent noE, cut, if_neg nonzero]

/-- **The pieces of `repr`** are the digits of the float and the place of its point. -/
theorem significand_repr (positive : d.neg = false) : significand (reprLayout d).text = (d.digits, d.point) := by
  have no : ∀ {sep : Char} {cs : List Char}, sep.isDigit = false → (∀ c ∈ cs, c.isDigit = true) → sep ∉ cs :=
    fun hs hc h => digit_ne (hc _ h) hs rfl
  have noE : 'e' ∉ d.digits := no rfl fun _ => d.digits_isDigit
  have noDot : '.' ∉ d.digits := no rfl fun _ => d.digits_isDigit
  have zerosNo : ∀ {sep : Char} (n : Nat), sep.isDigit = false → sep ∉ zeros n :=
    fun n hs => no hs fun _ => zeros_isDigit
  have length : 0 < d.digits.length := List.length_pos_iff.2 (natText_ne_nil _)
  have head : ∀ {n : Nat}, 0 < n → lstripZeros (d.digits.take n) ≠ [] := by
    intro n hn
    obtain ⟨c, cs, e, ne⟩ := take_head (d := d) hn
    rw [e, lstripZeros_of_head ne]
    simp
  unfold reprLayout
  split_ifs with plain whole inside
  · -- the point stands behind the digits
    have starts : lstripZeros (d.digits ++ zeros (d.point - d.digits.length).toNat) ≠ [] := by
      obtain ⟨c, cs, e, ne⟩ := d.digits_head
      rw [e, List.cons_append, lstripZeros_of_head ne]
      simp
    have zero : d.digits ++ zeros (d.point - d.digits.length).toNat ++ ['0'] =
        d.digits ++ zeros ((d.point - d.digits.length).toNat + 1) := by
      simp [zeros, List.replicate_succ']
    have text := significand_point (d.digits ++ zeros (d.point - d.digits.length).toNat) ['0']
      (by simp [noE, zerosNo]) (by simp [noDot, zerosNo])
    rw [if_neg starts, zero, rstripZeros_zeros, rstripZeros_digits] at text
    simp only [Layout.text, positive, Layout.fracText, Layout.expText]
    simp only [Bool.false_eq_true, if_false, List.nil_append, List.append_nil, reduceCtorEq]
    rw [text]
    simp only [List.length_append, zeros, List.length_replicate, Prod.mk.injEq, true_and]
    omega
  · -- the point stands inside the digits
    have split : d.digits.drop d.point.toNat ≠ [] := by
      rw [Ne, List.drop_eq_nil_iff]
      omega
    have text := significand_point (d.digits.take d.point.toNat) (d.digits.drop d.point.toNat)
      (by simpa using ⟨fun h => noE (List.mem_of_mem_take h), fun h => noE (List.mem_of_mem_drop h)⟩)
      (fun h => noDot (List.mem_of_mem_take h))
    rw [if_neg (head (by omega)), List.take_append_drop, rstripZeros_digits] at text
    simp only [Layout.text, positive, Layout.fracText, Layout.expText, if_neg split]
    simp only [Bool.false_eq_true, if_false, List.nil_append, List.append_nil]
    rw [text]
    simp only [List.length_take, Prod.mk.injEq, true_and]
    omega
  · -- the point stands before the digits
    have some_ : zeros (-d.point).toNat ++ d.digits ≠ [] := by simp [Decimal.digits, natText_ne_nil]
    have text := significand_point ['0'] (zeros (-d.point).toNat ++ d.digits)
      (by simp [noE, zerosNo]) (by decide)
    rw [if_pos (by decide), lstripZeros_zeros, lstripZeros_digits, rstripZeros_digits] at text
    simp only [Layout.text, positive, Layout.fracText, Layout.expText, if_neg some_]
    simp only [Bool.false_eq_true, if_false, List.nil_append, List.append_nil]
    rw [text]
    simp only [List.length_append, zeros, List.length_replicate, Prod.mk.injEq, true_and]
    omega
  · -- scientific notation
    have cut : partition '.' (d.digits.take 1 ++ Layout.fracText (d.digits.drop 1)) =
        (d.digits.take 1, d.digits.drop 1) := by
      unfold Layout.fracText
      split
      · next none_ =>
        rw [List.append_nil, none_]
        exact partition_none fun h => noDot (List.mem_of_mem_take h)
      · exact partition_append _ fun h => noDot (List.mem_of_mem_take h)
    have mantissaNoE : 'e' ∉ d.digits.take 1 ++ Layout.fracText (d.digits.drop 1) := by
      unfold Layout.fracText
      split
      · simpa using fun h => noE (List.mem_of_mem_take h)
      · simpa using ⟨fun h => noE (List.mem_of_mem_take h), fun h => noE (List.mem_of_mem_tail h)⟩
    have text := significand_exponent ((if d.point - 1 < 0 then '-' else '+') :: padTwo (d.point - 1).natAbs)
      mantissaNoE cut (head (by decide))
    rw [List.take_append_drop, rstripZeros_digits, exponentValue_padTwo] at text
    simp only [scientificLayout, Layout.text, positive, Layout.expText, decide_eq_true_eq]
    simp only [Bool.false_eq_true, if_false, List.nil_append, ← List.append_assoc]
    rw [text]
    simp only [List.length_take, Prod.mk.injEq, true_and]
    omega

end Digits

/-- The number is cut out of `repr` of its absolute value and its digits are placed again. -/
theorem jsNumberText_placed (d : Decimal) :
    jsNumberText (.finite d) = some (placed (if d.neg then ['-'] else []) d.digits d.point) := by
  have pieces := significand_repr { d with neg := false } rfl
  have digits : Decimal.digits { d with neg := false } = d.digits := rfl
  have point : Decimal.point { d with neg := false } = d.point := rfl
  rw [digits, point] at pieces
  simp only [jsNumberText, abs, floatRepr, isNegative, pieces]
  rfl

/-- **`_js_number_text` is `Number::toString`** on the finite numbers. -/
theorem jsNumberText_eq {x : Double} (hx : x.isFinite = true) : jsNumberText x = some (ecmaNumberText x) := by
  cases x with
  | nan => cases hx
  | inf => cases hx
  | zero => rfl
  | finite d =>
    have length : 0 < d.digits.length := List.length_pos_iff.2 (natText_ne_nil _)
    rw [jsNumberText_placed]
    simp only [ecmaNumberText, ecmaLayout, placed, Option.some.injEq]
    by_cases whole : d.digits.length ≤ d.point ∧ d.point ≤ 21
    · rw [if_pos whole, if_pos (show -6 < d.point ∧ d.point ≤ 21 from ⟨by omega, whole.2⟩), if_pos whole.1]
      simp only [Layout.text, Layout.fracText, Layout.expText, zeros, if_true, List.append_nil, List.append_assoc]
    rw [if_neg whole]
    by_cases inside : 0 < d.point ∧ d.point ≤ 21
    · have split : d.digits.drop d.point.toNat ≠ [] := by
        rw [Ne, List.drop_eq_nil_iff]
        omega
      rw [if_pos inside, if_pos (show -6 < d.point ∧ d.point ≤ 21 from ⟨by omega, inside.2⟩), if_neg (show ¬(d.digits.length : Int) ≤ d.point by omega),
        if_pos inside.1]
      simp only [Layout.text, Layout.fracText, Layout.expText, if_neg split, List.append_nil, List.append_assoc]
    rw [if_neg inside]
    by_cases before : -6 < d.point ∧ d.point ≤ 0
    · have some_ : zeros (-d.point).toNat ++ d.digits ≠ [] := by simp [Decimal.digits, natText_ne_nil]
      rw [if_pos before, if_pos (show -6 < d.point ∧ d.point ≤ 21 from ⟨before.1, by omega⟩),
        if_neg (show ¬(d.digits.length : Int) ≤ d.point by omega), if_neg (show ¬0 < d.point by omega)]
      simp only [Layout.text, Layout.fracText, Layout.expText, if_neg some_, List.append_nil]
      rfl
    · have far : ¬(-6 < d.point ∧ d.point ≤ 21) := by omega
      rw [if_neg before, if_neg far]
      have tail : (d.digits.drop 1 = []) ↔ ¬1 < d.digits.length := by
        rw [List.drop_eq_nil_iff]
        omega
      have sign : (0 ≤ d.point - 1) ↔ ¬d.point - 1 < 0 := by omega
      by_cases one : 1 < d.digits.length <;> by_cases neg : d.point - 1 < 0
      all_goals
        simp only [scientificLayout, Layout.text, Layout.fracText, Layout.expText, tail, sign, one, neg, not_true,
          not_false_iff, if_true, if_false, decide_true, decide_false, List.append_assoc, List.cons_append,
          List.append_nil, List.nil_append, Bool.false_eq_true]

/-! ## The standard's regimes -/

/-- What the standard prescribes for the digits of a positive number and the place `n` of the point among them. -/
def positiveToString (digits : List Char) (n : Int) : List Char :=
  let k := digits.length
  if -5 ≤ n ∧ n ≤ 21 then
    if k ≤ n then digits ++ zeros (n - k).toNat
    else if 0 < n then digits.take n.toNat ++ '.' :: digits.drop n.toNat
    else '0' :: '.' :: (zeros (-n).toNat ++ digits)
  else
    let exponentSign := if n < 0 then '-' else '+'
    if k = 1 then digits ++ 'e' :: exponentSign :: natText (n - 1).natAbs
    else digits.take 1 ++ '.' :: (digits.drop 1 ++ 'e' :: exponentSign :: natText (n - 1).natAbs)

/-- What the standard prescribes for a nonzero finite number. -/
def numberToString (neg : Bool) (digits : List Char) (n : Int) : List Char :=
  if neg then '-' :: positiveToString digits n else positiveToString digits n

/-- The serializer's regimes are the standard's. -/
theorem placed_eq (sign : List Char) {digits : List Char} (some_ : 0 < digits.length) (n : Int) :
    placed sign digits n = sign ++ positiveToString digits n := by
  rw [placed, positiveToString]
  dsimp only
  by_cases whole : digits.length ≤ n ∧ n ≤ 21
  · rw [if_pos whole, if_pos (show -5 ≤ n ∧ n ≤ 21 by omega), if_pos whole.1, List.append_assoc]
    exact congrArg (sign ++ ·) rfl
  rw [if_neg whole]
  by_cases inside : 0 < n ∧ n ≤ 21
  · have short : ¬(digits.length : Int) ≤ n := by omega
    rw [if_pos inside, if_pos (show -5 ≤ n ∧ n ≤ 21 by omega), if_neg short, if_pos inside.1, List.append_assoc]
  rw [if_neg inside]
  by_cases before : -6 < n ∧ n ≤ 0
  · have short : ¬(digits.length : Int) ≤ n := by omega
    have negative : ¬0 < n := by omega
    rw [if_pos before, if_pos (show -5 ≤ n ∧ n ≤ 21 by omega), if_neg short, if_neg negative]
    exact congrArg (sign ++ ·) rfl
  rw [if_neg before, if_neg (show ¬(-5 ≤ n ∧ n ≤ 21) by omega)]
  have sign_ : (if 0 ≤ n - 1 then '+' else '-') = if n < 0 then '-' else '+' := by
    by_cases negative : n < 0
    · rw [if_neg (by omega), if_pos negative]
    · rw [if_pos (by omega), if_neg negative]
  rw [sign_]
  by_cases one : digits.length = 1
  · have short : ¬1 < digits.length := by omega
    rw [if_pos one, if_neg short, List.append_nil, List.take_of_length_le (by omega), List.append_assoc]
  · have long : 1 < digits.length := by omega
    rw [if_neg one, if_pos long]
    simp only [List.append_assoc, List.cons_append]

/-- **The text of a nonzero finite number** is the one the standard prescribes for its sign, its digits, which begin and
end with a digit other than zero, and the place of its point. -/
theorem js_number_text (d : Decimal) : jsNumberText (.finite d) = some (numberToString d.neg d.digits d.point) ∧
    lstripZeros d.digits = d.digits ∧ rstripZeros d.digits = d.digits ∧ d.digits ≠ [] := by
  have length : 0 < d.digits.length := List.length_pos_iff.2 (natText_ne_nil _)
  refine ⟨?_, lstripZeros_digits d, rstripZeros_digits d, List.length_pos_iff.1 length⟩
  rw [jsNumberText_placed, placed_eq _ length, numberToString]
  cases d.neg with
  | true => exact congrArg some rfl
  | false => exact congrArg some rfl

end Transfer
