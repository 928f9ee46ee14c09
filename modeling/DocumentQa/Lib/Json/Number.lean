import DocumentQa.Lib.Json.Value

/-!
# Number text

A printed number is a `Layout`: a sign, the digits before the point, the digits after
it and an exponent. `reprLayout` is the shortest round-trip text Python's `repr` prints
for a float, `ecmaLayout` is ECMAScript's `Number::toString`. A scanner reads any layout
back (`readNumber_text`); both printers lay out the digits of the float they are given,
so both read back as its value (`readNumber_repr`, `readNumber_ecma`).

Reading a literal keeps every digit. That is what `float(text)` does for a literal that
is the shortest text of a double, which is all that a printer of doubles writes.
-/

namespace JsonText

/-- `str(n)` of a natural number. -/
def natText (n : Nat) : List Char :=
  Nat.toDigits 10 n

/-- `str(i)` of an integer. -/
def intText (i : Int) : List Char :=
  if i < 0 then '-' :: natText i.natAbs else natText i.natAbs

def zeros (n : Nat) : List Char :=
  List.replicate n '0'

theorem natText_isDigit {n : Nat} {c : Char} (h : c ∈ natText n) : c.isDigit = true :=
  Nat.isDigit_of_mem_toDigits (by decide) (by decide) h

theorem zeros_isDigit {n : Nat} {c : Char} (h : c ∈ zeros n) : c.isDigit = true := by
  rw [List.eq_of_mem_replicate h]
  rfl

theorem natText_ne_nil (n : Nat) : natText n ≠ [] :=
  Nat.toDigits_ne_nil

/-- A positive number is printed without a leading zero. -/
theorem natText_head {n : Nat} (h : 0 < n) : ∃ c cs, natText n = c :: cs ∧ c ≠ '0' := by
  induction n using Nat.strongRecOn with
  | ind n ih =>
    by_cases small : n < 10
    · refine ⟨n.digitChar, [], Nat.toDigits_of_lt_base small, ?_⟩
      intro e
      have := Nat.toNat_digitChar_sub_48_of_lt_ten small
      rw [e] at this
      simp at this
      omega
    · obtain ⟨c, cs, e, ne⟩ := ih (n / 10) (by omega) (by omega)
      refine ⟨c, cs ++ [(n % 10).digitChar], ?_, ne⟩
      rw [natText, Nat.toDigits_of_base_le (by decide) (by omega), show Nat.toDigits 10 (n / 10) = c :: cs from e]
      rfl

/-! ## Floats from scaled integers -/

/-- Divide the trailing zeros out of `n`, counting them into the exponent. -/
def stripZeros : Nat → Nat → Int → Nat × Int
  | 0, n, e => (n, e)
  | fuel + 1, n, e => if n % 10 = 0 then stripZeros fuel (n / 10) (e + 1) else (n, e)

/-- The float `± n · 10 ^ e`. -/
def Double.ofScaled (neg : Bool) (n : Nat) (e : Int) : Double :=
  if h : (stripZeros n n e).1 % 10 = 0 then .zero neg
  else .finite ⟨neg, (stripZeros n n e).1, (stripZeros n n e).2, h⟩

theorem stripZeros_scaled {s : Nat} (hs : s % 10 ≠ 0) (k fuel : Nat) (e : Int) (hf : k ≤ fuel) :
    stripZeros fuel (s * 10 ^ k) e = (s, e + k) := by
  induction k generalizing fuel e with
  | zero => cases fuel <;> simp [stripZeros, hs]
  | succ k ih =>
    cases fuel with
    | zero => omega
    | succ fuel =>
      have hmod : s * 10 ^ (k + 1) % 10 = 0 := by
        rw [pow_succ, ← mul_assoc]
        exact Nat.mul_mod_left _ _
      have hdiv : s * 10 ^ (k + 1) / 10 = s * 10 ^ k := by
        rw [pow_succ, ← mul_assoc]
        exact Nat.mul_div_cancel _ (by decide)
      rw [stripZeros, if_pos hmod, hdiv, ih fuel (e + 1) (by omega)]
      push_cast
      simp only [Prod.mk.injEq, true_and]
      omega

/-- Trailing zeros do not change the float. -/
theorem ofScaled_scaled (d : Decimal) (k : Nat) (e : Int) (he : e + k = d.exp) :
    Double.ofScaled d.neg (d.sig * 10 ^ k) e = .finite d := by
  have fuel : k ≤ d.sig * 10 ^ k := by
    calc k ≤ 10 ^ k := (Nat.lt_pow_self (by decide)).le
      _ ≤ d.sig * 10 ^ k := Nat.le_mul_of_pos_left _ d.sig_pos
  have strip := stripZeros_scaled d.normal k (d.sig * 10 ^ k) e fuel
  unfold Double.ofScaled
  rw [dif_neg (by rw [strip]; exact d.normal)]
  congr 1
  cases d
  simp_all

/-! ## Scanning -/

def spanDigits (cs : List Char) : List Char × List Char :=
  (cs.takeWhile Char.isDigit, cs.dropWhile Char.isDigit)

def scanWhole : List Char → Option (List Char × List Char)
  | '0' :: r => some (['0'], r)
  | cs => if (spanDigits cs).1 = [] then none else some (spanDigits cs)

def scanFraction : List Char → List Char × List Char
  | '.' :: r => if (spanDigits r).1 = [] then ([], '.' :: r) else spanDigits r
  | cs => ([], cs)

def scanSign : List Char → Bool × List Char
  | '-' :: r => (true, r)
  | '+' :: r => (false, r)
  | cs => (false, cs)

def scanExponent : List Char → Option (Bool × List Char) × List Char
  | c :: r =>
    if c = 'e' ∨ c = 'E' then
      let (neg, r') := scanSign r
      if (spanDigits r').1 = [] then (none, c :: r) else (some (neg, (spanDigits r').1), (spanDigits r').2)
    else (none, c :: r)
  | [] => (none, [])

/-- A number as printed: sign, digits before and after the point, exponent. -/
structure Layout where
  neg : Bool
  whole : List Char
  frac : List Char
  exp : Option (Bool × List Char)

namespace Layout

def expText : Option (Bool × List Char) → List Char
  | none => []
  | some (neg, ds) => 'e' :: (if neg then '-' else '+') :: ds

def fracText (frac : List Char) : List Char :=
  if frac = [] then [] else '.' :: frac

def text (l : Layout) : List Char :=
  (if l.neg then ['-'] else []) ++ (l.whole ++ (fracText l.frac ++ expText l.exp))

def scale : Option (Bool × List Char) → Int
  | none => 0
  | some (neg, ds) => if neg then -(Nat.ofDigitChars 10 ds 0 : Int) else Nat.ofDigitChars 10 ds 0

/-- The value of a literal: an integer without fraction and exponent, a float otherwise. -/
def value (l : Layout) : Json :=
  if l.frac = [] ∧ l.exp = none then
    .int (if l.neg then -(Nat.ofDigitChars 10 l.whole 0 : Int) else Nat.ofDigitChars 10 l.whole 0)
  else
    .float (.ofScaled l.neg (Nat.ofDigitChars 10 (l.whole ++ l.frac) 0) (scale l.exp - l.frac.length))

/-- The layouts JSON admits. -/
structure Valid (l : Layout) : Prop where
  wholeDigits : ∀ c ∈ l.whole, c.isDigit = true
  wholeHead : l.whole = ['0'] ∨ ∃ c cs, l.whole = c :: cs ∧ c ≠ '0'
  fracDigits : ∀ c ∈ l.frac, c.isDigit = true
  expDigits : ∀ neg ds, l.exp = some (neg, ds) → ds ≠ [] ∧ ∀ c ∈ ds, c.isDigit = true

end Layout

/-- The number behind its sign. -/
def readUnsigned (neg : Bool) (cs : List Char) : Option (Json × List Char) :=
  match scanWhole cs with
  | none => none
  | some (whole, r1) =>
    let (frac, r2) := scanFraction r1
    let (exp, r3) := scanExponent r2
    some (Layout.value ⟨neg, whole, frac, exp⟩, r3)

/-- One JSON number from the head of the text. -/
def readNumber : List Char → Option (Json × List Char)
  | '-' :: r => readUnsigned true r
  | cs => readUnsigned false cs

/-- The rest of a text after a number: nothing in it continues the number. -/
def Stops (rest : List Char) : Prop :=
  ∀ c r, rest = c :: r → c.isDigit = false ∧ c ≠ '.' ∧ c ≠ 'e' ∧ c ≠ 'E'

theorem Stops.nil : Stops [] := by
  intro c r h
  cases h

theorem Stops.cons {c : Char} {r : List Char} (h : c.isDigit = false ∧ c ≠ '.' ∧ c ≠ 'e' ∧ c ≠ 'E') :
    Stops (c :: r) := by
  rintro _ _ ⟨⟩
  exact h

/-- The text after a run of digits: no digit at its head. -/
def NoDigit (rest : List Char) : Prop :=
  ∀ c r, rest = c :: r → c.isDigit = false

theorem Stops.noDigit {rest : List Char} (h : Stops rest) : NoDigit rest :=
  fun c r e => (h c r e).1

theorem spanDigits_append {ds rest : List Char} (hd : ∀ c ∈ ds, c.isDigit = true) (hr : NoDigit rest) :
    spanDigits (ds ++ rest) = (ds, rest) := by
  unfold spanDigits
  rw [List.takeWhile_append_of_pos hd, List.dropWhile_append_of_pos hd]
  cases rest with
  | nil => simp
  | cons c r => simp [hr c r rfl]

theorem expText_noDigit {exp : Option (Bool × List Char)} {rest : List Char} (hr : Stops rest) :
    NoDigit (Layout.expText exp ++ rest) := by
  cases exp with
  | none => exact hr.noDigit
  | some e =>
    rintro c r ⟨⟩
    rfl

theorem fracText_noDigit {frac : List Char} {exp : Option (Bool × List Char)} {rest : List Char} (hr : Stops rest) :
    NoDigit (Layout.fracText frac ++ (Layout.expText exp ++ rest)) := by
  unfold Layout.fracText
  split
  · exact expText_noDigit hr
  · rintro c r ⟨⟩
    rfl

theorem scanWhole_text {l : Layout} (v : l.Valid) {rest : List Char} (hr : NoDigit rest) :
    scanWhole (l.whole ++ rest) = some (l.whole, rest) := by
  rcases v.wholeHead with h | ⟨c, cs, h, ne⟩
  · rw [h]
    rfl
  · have span := spanDigits_append v.wholeDigits hr
    have whole : scanWhole (l.whole ++ rest) =
        if (spanDigits (l.whole ++ rest)).1 = [] then none else some (spanDigits (l.whole ++ rest)) := by
      rw [h, List.cons_append, scanWhole]
      rintro r ⟨⟩
      exact ne rfl
    rw [whole, span, if_neg (by simp [h])]

theorem scanFraction_text {l : Layout} (v : l.Valid) {rest : List Char} (hr : Stops rest) :
    scanFraction (Layout.fracText l.frac ++ (Layout.expText l.exp ++ rest)) =
      (l.frac, Layout.expText l.exp ++ rest) := by
  unfold Layout.fracText
  split
  · next h =>
    rw [h, List.nil_append]
    cases he : l.exp with
    | none =>
      simp only [Layout.expText, List.nil_append]
      cases rest with
      | nil => rfl
      | cons c r => rw [scanFraction]; rintro _ ⟨⟩; exact (hr _ _ rfl).2.1 rfl
    | some e =>
      simp only [Layout.expText, List.cons_append]
      rw [scanFraction]
      rintro _ ⟨⟩
  · next h =>
    rw [List.cons_append, scanFraction, spanDigits_append v.fracDigits (expText_noDigit hr), if_neg h]

theorem scanExponent_text {l : Layout} (v : l.Valid) {rest : List Char} (hr : Stops rest) :
    scanExponent (Layout.expText l.exp ++ rest) = (l.exp, rest) := by
  cases he : l.exp with
  | none =>
    cases rest with
    | nil => rfl
    | cons c r =>
      obtain ⟨-, -, h1, h2⟩ := hr c r rfl
      simp [Layout.expText, scanExponent, h1, h2]
  | some e =>
    obtain ⟨neg, ds⟩ := e
    obtain ⟨ne, hd⟩ := v.expDigits neg ds he
    have span := spanDigits_append hd hr.noDigit
    cases neg <;> simp [Layout.expText, scanExponent, scanSign, span, ne]

theorem readUnsigned_text {l : Layout} (v : l.Valid) {rest : List Char} (hr : Stops rest) :
    readUnsigned l.neg (l.whole ++ (Layout.fracText l.frac ++ (Layout.expText l.exp ++ rest))) =
      some (l.value, rest) := by
  unfold readUnsigned
  rw [scanWhole_text v (fracText_noDigit hr)]
  simp only [scanFraction_text v hr, scanExponent_text v hr]

/-- **Numbers read back.** The scanner reads a valid layout as its value. -/
theorem readNumber_text {l : Layout} (v : l.Valid) {rest : List Char} (hr : Stops rest) :
    readNumber (l.text ++ rest) = some (l.value, rest) := by
  have unsigned := readUnsigned_text v hr
  unfold Layout.text
  cases hneg : l.neg with
  | true => simpa [readNumber, hneg] using unsigned
  | false =>
    obtain ⟨c, cs, hw, digit⟩ : ∃ c cs, l.whole = c :: cs ∧ c.isDigit = true := by
      rcases v.wholeHead with h | ⟨c, cs, h, -⟩
      · exact ⟨'0', [], h, rfl⟩
      · exact ⟨c, cs, h, v.wholeDigits c (by simp [h])⟩
    have minus : c ≠ '-' := by
      rintro rfl
      cases digit
    rw [hneg, hw] at unsigned
    simpa [readNumber, hneg, hw, minus] using unsigned

/-! ## Integers -/

theorem Layout.nat_valid (neg : Bool) (n : Nat) : Layout.Valid ⟨neg, natText n, [], none⟩ where
  wholeDigits _ h := natText_isDigit h
  wholeHead := by
    rcases Nat.eq_zero_or_pos n with rfl | h
    · exact .inl rfl
    · exact .inr (natText_head h)
  fracDigits := by simp
  expDigits := by simp

theorem intText_layout (i : Int) : intText i = (Layout.mk (decide (i < 0)) (natText i.natAbs) [] none).text := by
  by_cases h : i < 0 <;> simp [intText, Layout.text, Layout.fracText, Layout.expText, h]

theorem readNumber_int (i : Int) {rest : List Char} (hr : Stops rest) :
    readNumber (intText i ++ rest) = some (.int i, rest) := by
  rw [intText_layout, readNumber_text (Layout.nat_valid _ _) hr]
  simp only [Layout.value, natText, Nat.ofDigitChars_ten_toDigits, and_self, if_true, Option.some.injEq,
    Prod.mk.injEq, Json.int.injEq, and_true, decide_eq_true_eq]
  split <;> omega

/-! ## Floats -/

/-- The digits of a float. -/
def Decimal.digits (d : Decimal) : List Char :=
  natText d.sig

/-- The place of the point in the digits: the value is `0.d₁…dₖ · 10 ^ point`. -/
def Decimal.point (d : Decimal) : Int :=
  d.digits.length + d.exp

/-- `d₁.d₂…dₖ` times a power of ten, with the exponent's digits printed by `pad`. -/
def scientificLayout (d : Decimal) (pad : Nat → List Char) : Layout :=
  ⟨d.neg, d.digits.take 1, d.digits.drop 1, some (decide (d.point - 1 < 0), pad (d.point - 1).natAbs)⟩

/-- Two digits at least. -/
def padTwo (n : Nat) : List Char :=
  if n < 10 then '0' :: natText n else natText n

/-- `repr(x)` of a finite nonzero float: plain notation while `-4 < point ≤ 16`. -/
def reprLayout (d : Decimal) : Layout :=
  if -4 < d.point ∧ d.point ≤ 16 then
    if d.digits.length ≤ d.point then
      ⟨d.neg, d.digits ++ zeros (d.point - d.digits.length).toNat, ['0'], none⟩
    else if 0 < d.point then
      ⟨d.neg, d.digits.take d.point.toNat, d.digits.drop d.point.toNat, none⟩
    else
      ⟨d.neg, ['0'], zeros (-d.point).toNat ++ d.digits, none⟩
  else
    scientificLayout d padTwo

/-- `Number::toString` of a finite nonzero number: plain notation while `-6 < point ≤ 21`. -/
def ecmaLayout (d : Decimal) : Layout :=
  if -6 < d.point ∧ d.point ≤ 21 then
    if d.digits.length ≤ d.point then
      ⟨d.neg, d.digits ++ zeros (d.point - d.digits.length).toNat, [], none⟩
    else if 0 < d.point then
      ⟨d.neg, d.digits.take d.point.toNat, d.digits.drop d.point.toNat, none⟩
    else
      ⟨d.neg, ['0'], zeros (-d.point).toNat ++ d.digits, none⟩
  else
    scientificLayout d natText

/-- `repr(x)`. -/
def floatRepr : Double → List Char
  | .nan => "nan".toList
  | .inf neg => if neg then "-inf".toList else "inf".toList
  | .zero neg => if neg then "-0.0".toList else "0.0".toList
  | .finite d => (reprLayout d).text

/-- `Number::toString(x)`. -/
def ecmaNumberText : Double → List Char
  | .nan => "NaN".toList
  | .inf neg => if neg then "-Infinity".toList else "Infinity".toList
  | .zero _ => "0".toList
  | .finite d => (ecmaLayout d).text

/-- What an ECMAScript number text reads back as: the number itself, an integer when it
is printed without fraction and exponent. -/
def Double.settle : Double → Json
  | .zero _ => .int 0
  | .finite d =>
    if d.digits.length ≤ d.point ∧ d.point ≤ 21 then
      .int (if d.neg then -(d.sig * 10 ^ d.exp.toNat : Nat) else (d.sig * 10 ^ d.exp.toNat : Nat))
    else .float (.finite d)
  | x => .float x

theorem Decimal.digits_isDigit {d : Decimal} {c : Char} (h : c ∈ d.digits) : c.isDigit = true :=
  natText_isDigit h

theorem Decimal.digits_head (d : Decimal) : ∃ c cs, d.digits = c :: cs ∧ c ≠ '0' :=
  natText_head d.sig_pos

@[simp] theorem Decimal.ofDigits (d : Decimal) : Nat.ofDigitChars 10 d.digits 0 = d.sig :=
  Nat.ofDigitChars_ten_toDigits

theorem take_head {d : Decimal} {n : Nat} (h : 0 < n) : ∃ c cs, d.digits.take n = c :: cs ∧ c ≠ '0' := by
  obtain ⟨c, cs, e, ne⟩ := d.digits_head
  cases n with
  | zero => omega
  | succ n => exact ⟨c, cs.take n, by rw [e]; rfl, ne⟩

theorem scientific_valid (d : Decimal) {pad : Nat → List Char} (ne : ∀ n, pad n ≠ [])
    (hd : ∀ n, ∀ c ∈ pad n, c.isDigit = true) : (scientificLayout d pad).Valid where
  wholeDigits _ h := d.digits_isDigit (List.mem_of_mem_take h)
  wholeHead := .inr (take_head (by decide))
  fracDigits _ h := d.digits_isDigit (List.mem_of_mem_drop h)
  expDigits := by
    rintro neg ds ⟨⟩
    exact ⟨ne _, hd _⟩

/-- Scientific notation has the value of its float, whatever leading zeros the exponent gets. -/
theorem scientific_value (d : Decimal) {pad : Nat → List Char} (hp : ∀ n, Nat.ofDigitChars 10 (pad n) 0 = n) :
    (scientificLayout d pad).value = .float (.finite d) := by
  have hlen : 0 < d.digits.length := List.length_pos_iff.2 (natText_ne_nil _)
  have scale : Layout.scale (scientificLayout d pad).exp = d.point - 1 := by
    simp only [scientificLayout, Layout.scale, hp, decide_eq_true_eq]
    split <;> omega
  unfold Layout.value
  rw [if_neg (by simp [scientificLayout]), scale]
  have value := ofScaled_scaled d 0 d.exp (by simp)
  simp only [scientificLayout, List.take_append_drop, Decimal.ofDigits, List.length_drop]
  rw [show d.point - 1 - ((d.digits.length - 1 : Nat) : Int) = d.exp by unfold Decimal.point; omega]
  simpa using value

theorem ofDigits_padTwo (n : Nat) : Nat.ofDigitChars 10 (padTwo n) 0 = n := by
  unfold padTwo
  split
  · rw [Nat.ofDigitChars_cons]
    simp [natText]
  · simp [natText]

theorem padTwo_isDigit {n : Nat} {c : Char} (h : c ∈ padTwo n) : c.isDigit = true := by
  unfold padTwo at h
  split at h
  · rcases List.mem_cons.1 h with rfl | h
    · rfl
    · exact natText_isDigit h
  · exact natText_isDigit h

theorem padTwo_ne_nil (n : Nat) : padTwo n ≠ [] := by
  unfold padTwo
  split <;> simp [natText_ne_nil]

/-- The digits split at a point inside them. -/
theorem split_value (d : Decimal) (h : 0 < d.point) (h' : d.point < d.digits.length) :
    Layout.value ⟨d.neg, d.digits.take d.point.toNat, d.digits.drop d.point.toNat, none⟩ = .float (.finite d) := by
  have drop : d.digits.drop d.point.toNat ≠ [] := by
    rw [Ne, List.drop_eq_nil_iff]
    omega
  unfold Layout.value
  rw [if_neg (by simp only [not_and]; exact fun e => absurd e drop)]
  simp only [List.take_append_drop, Decimal.ofDigits, List.length_drop, Layout.scale]
  rw [show (0 : Int) - ((d.digits.length - d.point.toNat : Nat) : Int) = d.exp by unfold Decimal.point at *; omega]
  simpa using ofScaled_scaled d 0 d.exp (by simp)

/-- The digits behind a zero point. -/
theorem small_value (d : Decimal) (h : d.point ≤ 0) :
    Layout.value ⟨d.neg, ['0'], zeros (-d.point).toNat ++ d.digits, none⟩ = .float (.finite d) := by
  unfold Layout.value
  rw [if_neg (by simp [Decimal.digits, natText_ne_nil])]
  have digits : Nat.ofDigitChars 10 (['0'] ++ (zeros (-d.point).toNat ++ d.digits)) 0 = d.sig := by
    simp [Nat.ofDigitChars_append, zeros, Nat.ofDigitChars_cons]
  rw [digits]
  simp only [Layout.scale, List.length_append, zeros, List.length_replicate]
  rw [show (0 : Int) - (((-d.point).toNat + d.digits.length : Nat) : Int) = d.exp by unfold Decimal.point at *; omega]
  simpa using ofScaled_scaled d 0 d.exp (by simp)

theorem split_valid (d : Decimal) (h : 0 < d.point) :
    Layout.Valid ⟨d.neg, d.digits.take d.point.toNat, d.digits.drop d.point.toNat, none⟩ where
  wholeDigits _ h := d.digits_isDigit (List.mem_of_mem_take h)
  wholeHead := .inr (take_head (by omega))
  fracDigits _ h := d.digits_isDigit (List.mem_of_mem_drop h)
  expDigits := by simp

theorem small_valid (d : Decimal) : Layout.Valid ⟨d.neg, ['0'], zeros (-d.point).toNat ++ d.digits, none⟩ where
  wholeDigits := by
    intro c h
    rw [List.mem_singleton.1 h]
    rfl
  wholeHead := .inl rfl
  fracDigits := by
    intro c h
    rcases List.mem_append.1 h with h | h
    · exact zeros_isDigit h
    · exact d.digits_isDigit h
  expDigits := by simp

theorem whole_valid (d : Decimal) (n : Nat) {frac : List Char} (hf : ∀ c ∈ frac, c.isDigit = true) :
    Layout.Valid ⟨d.neg, d.digits ++ zeros n, frac, none⟩ where
  wholeDigits := by
    intro c h
    rcases List.mem_append.1 h with h | h
    · exact d.digits_isDigit h
    · exact zeros_isDigit h
  wholeHead := by
    obtain ⟨c, cs, e, ne⟩ := d.digits_head
    exact .inr ⟨c, cs ++ zeros n, by simp [e], ne⟩
  fracDigits := hf
  expDigits := by simp

theorem ofDigits_zeros (d : Decimal) (n : Nat) : Nat.ofDigitChars 10 (d.digits ++ zeros n) 0 = d.sig * 10 ^ n := by
  simp [Nat.ofDigitChars_append, zeros, mul_comm]

theorem reprLayout_valid (d : Decimal) : (reprLayout d).Valid := by
  unfold reprLayout
  split_ifs with h1 h2 h3
  · exact whole_valid d _ (by simp)
  · exact split_valid d h3
  · exact small_valid d
  · exact scientific_valid d padTwo_ne_nil fun n c => padTwo_isDigit

theorem reprLayout_value (d : Decimal) : (reprLayout d).value = .float (.finite d) := by
  unfold reprLayout
  split_ifs with h1 h2 h3
  · unfold Layout.value
    rw [if_neg (by simp)]
    have digits : Nat.ofDigitChars 10 (d.digits ++ zeros (d.point - d.digits.length).toNat ++ ['0']) 0 =
        d.sig * 10 ^ ((d.point - d.digits.length).toNat + 1) := by
      rw [Nat.ofDigitChars_append, ofDigits_zeros, Nat.ofDigitChars_cons]
      simp only [Nat.ofDigitChars_nil, pow_succ, Nat.sub_self, Nat.add_zero]
      rw [mul_comm 10, mul_assoc, mul_left_comm]
    rw [digits]
    simp only [Layout.scale, List.length_singleton]
    rw [ofScaled_scaled d _ _ (by unfold Decimal.point at *; push_cast; omega)]
  · exact split_value d h3 (by omega)
  · exact small_value d (by omega)
  · exact scientific_value d ofDigits_padTwo

theorem ecmaLayout_valid (d : Decimal) : (ecmaLayout d).Valid := by
  unfold ecmaLayout
  split_ifs with h1 h2 h3
  · exact whole_valid d _ (by simp)
  · exact split_valid d h3
  · exact small_valid d
  · exact scientific_valid d natText_ne_nil fun n c => natText_isDigit

theorem whole_value (d : Decimal) (n : Nat) :
    Layout.value ⟨d.neg, d.digits ++ zeros n, [], none⟩ =
      .int (if d.neg then -(d.sig * 10 ^ n : Nat) else (d.sig * 10 ^ n : Nat)) := by
  simp only [Layout.value, ofDigits_zeros, and_self, if_true]

theorem ecmaLayout_value (d : Decimal) : (ecmaLayout d).value = (Double.finite d).settle := by
  have low : 0 < d.digits.length := List.length_pos_iff.2 (natText_ne_nil _)
  have point : d.point - d.digits.length = d.exp := by
    unfold Decimal.point
    omega
  unfold ecmaLayout
  simp only [Double.settle]
  by_cases plain : d.digits.length ≤ d.point ∧ d.point ≤ 21
  · rw [if_pos ⟨by omega, plain.2⟩, if_pos plain.1, if_pos plain, whole_value, point]
  · simp only [if_neg plain]
    split_ifs with h1 h2 h3
    · exact absurd ⟨h2, h1.2⟩ plain
    · exact split_value d h3 (by omega)
    · exact small_value d (by omega)
    · exact scientific_value d fun n => Nat.ofDigitChars_ten_toDigits

/-- **`float(repr(x)) == x`** for the finite floats. -/
theorem readNumber_repr {x : Double} (hx : x.isFinite = true) {rest : List Char} (hr : Stops rest) :
    readNumber (floatRepr x ++ rest) = some (.float x, rest) := by
  cases x with
  | nan => cases hx
  | inf => cases hx
  | zero neg =>
    have v : Layout.Valid ⟨neg, ['0'], ['0'], none⟩ :=
      ⟨by simp, .inl rfl, by simp, by simp⟩
    have e : floatRepr (.zero neg) = (Layout.mk neg ['0'] ['0'] none).text := by cases neg <;> rfl
    rw [e, readNumber_text v hr]
    cases neg <;> rfl
  | finite d => rw [floatRepr, readNumber_text (reprLayout_valid d) hr, reprLayout_value]

/-- An ECMAScript number text reads back as the number, integers as integers. -/
theorem readNumber_ecma {x : Double} (hx : x.isFinite = true) {rest : List Char} (hr : Stops rest) :
    readNumber (ecmaNumberText x ++ rest) = some (x.settle, rest) := by
  cases x with
  | nan => cases hx
  | inf => cases hx
  | zero neg =>
    have v : Layout.Valid ⟨false, ['0'], [], none⟩ := ⟨by simp, .inl rfl, by simp, by simp⟩
    rw [show ecmaNumberText (.zero neg) = (Layout.mk false ['0'] [] none).text from rfl, readNumber_text v hr]
    rfl
  | finite d => rw [ecmaNumberText, readNumber_text (ecmaLayout_valid d) hr, ecmaLayout_value]

/-! ## Integers as floats -/

/-- The float of an integer that a float can carry exactly. -/
def Double.ofInt (i : Int) : Double :=
  .ofScaled (decide (i < 0)) i.natAbs 0

/-- Every positive number is a decimal's digits behind their trailing zeros. -/
theorem exists_scaled {n : Nat} (h : 0 < n) : ∃ s k, s % 10 ≠ 0 ∧ n = s * 10 ^ k := by
  induction n using Nat.strongRecOn with
  | ind n ih =>
    by_cases last : n % 10 = 0
    · obtain ⟨s, k, hs, e⟩ := ih (n / 10) (by omega) (by omega)
      refine ⟨s, k + 1, hs, ?_⟩
      rw [pow_succ, ← mul_assoc, ← e]
      omega
    · exact ⟨n, 0, last, by simp⟩

theorem natText_scaled {s : Nat} (hs : 0 < s) (k : Nat) : natText (s * 10 ^ k) = natText s ++ zeros k := by
  induction k with
  | zero => simp [zeros]
  | succ k ih =>
    have big : 10 ≤ s * 10 ^ (k + 1) := by
      calc 10 = 1 * 10 ^ 1 := rfl
        _ ≤ s * 10 ^ (k + 1) := Nat.mul_le_mul hs (Nat.pow_le_pow_right (by decide) (by omega))
    have div : s * 10 ^ (k + 1) / 10 = s * 10 ^ k := by
      rw [pow_succ, ← mul_assoc]
      exact Nat.mul_div_cancel _ (by decide)
    have mod : s * 10 ^ (k + 1) % 10 = 0 := by
      rw [pow_succ, ← mul_assoc]
      exact Nat.mul_mod_left _ _
    rw [natText, Nat.toDigits_of_base_le (by decide) big, div, mod]
    change natText (s * 10 ^ k) ++ ['0'] = _
    rw [ih, List.append_assoc]
    congr 1
    exact (List.replicate_succ' (n := k) (a := '0')).symm

theorem ofInt_finite (i : Int) : (Double.ofInt i).isFinite = true := by
  unfold Double.ofInt Double.ofScaled
  split <;> rfl

/-- An integer below `10 ^ 21` is printed the same as a float. -/
theorem ecmaNumberText_ofInt {i : Int} (h : i.natAbs < 10 ^ 21) : ecmaNumberText (.ofInt i) = intText i := by
  rcases Nat.eq_zero_or_pos i.natAbs with zero | pos
  · have : i = 0 := by omega
    subst this
    rfl
  · obtain ⟨s, k, hs, e⟩ := exists_scaled pos
    let d : Decimal := ⟨decide (i < 0), s, k, hs⟩
    have value : Double.ofInt i = .finite d := by
      rw [Double.ofInt, e]
      exact ofScaled_scaled d k 0 (by simp [d])
    have text : natText i.natAbs = d.digits ++ zeros k := by
      rw [e]
      exact natText_scaled d.sig_pos k
    have length : d.digits.length + k ≤ 21 := by
      have short := (Nat.length_toDigits_le_iff (b := 10) (by decide) (by decide : 0 < 21)).2 h
      have both := congrArg List.length text
      simp only [natText, zeros, List.length_append, List.length_replicate] at both
      omega
    have point : d.point = d.digits.length + k := rfl
    have start : 0 < d.digits.length := List.length_pos_iff.2 (natText_ne_nil _)
    rw [value, intText, text]
    simp only [ecmaNumberText, ecmaLayout]
    rw [if_pos (by omega), if_pos (by omega)]
    have tail : (d.point - d.digits.length).toNat = k := by omega
    rw [tail]
    simp only [Layout.text, Layout.fracText, Layout.expText, if_true, List.append_nil, d, decide_eq_true_eq]
    split <;> rfl

end JsonText
