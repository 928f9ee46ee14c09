import Mathlib.Data.List.Basic

/-!
# Incremental UTF-8

A decoder that takes a stream of bytes one at a time: it is a machine whose state is the
number of bytes a character still needs, the range the next one may be in, and the bits read
so far. A byte out of range ends the character with a replacement character and is read
again. What a machine does to a stream is what it does to the pieces of the stream in turn,
and the encoding of a text is decoded as the text.
-/

namespace Utf8

/-! ## Machines -/

section Machine

variable {σ α β : Type} (step : σ → α → σ × List β)

/-- The state after the inputs and everything that came out. -/
def feed (s : σ) : List α → σ × List β
  | [] => (s, [])
  | a :: as =>
    let (t, out) := step s a
    let (u, rest) := feed t as
    (u, out ++ rest)

/-- **A stream in two pieces.** -/
theorem feed_append (s : σ) (as bs : List α) :
    feed step s (as ++ bs) = ((feed step (feed step s as).1 bs).1, (feed step s as).2 ++ (feed step (feed step s as).1 bs).2) := by
  induction as generalizing s with
  | nil => rfl
  | cons a as ih =>
    rw [List.cons_append, feed, feed]
    dsimp only
    rw [ih, List.append_assoc]

end Machine

/-! ## The decoder -/

structure State where
  needed : Nat
  lower : Nat
  upper : Nat
  point : Nat
deriving DecidableEq

/-- Between two characters. -/
def State.start : State :=
  ⟨0, 0x80, 0xBF, 0⟩

/-- U+FFFD. -/
def replacement : Char :=
  Char.ofNat 0xFFFD

/-- The first byte of a character. -/
def lead (b : Nat) : State × List Char :=
  if b ≤ 0x7F then (.start, [Char.ofNat b])
  else if 0xC2 ≤ b ∧ b ≤ 0xDF then (⟨1, 0x80, 0xBF, b - 0xC0⟩, [])
  else if 0xE0 ≤ b ∧ b ≤ 0xEF then
    (⟨2, if b = 0xE0 then 0xA0 else 0x80, if b = 0xED then 0x9F else 0xBF, b - 0xE0⟩, [])
  else if 0xF0 ≤ b ∧ b ≤ 0xF4 then
    (⟨3, if b = 0xF0 then 0x90 else 0x80, if b = 0xF4 then 0x8F else 0xBF, b - 0xF0⟩, [])
  else (.start, [replacement])

/-- A byte in the range the character admits. -/
def continuation (s : State) (b : Nat) : State × List Char :=
  let point := s.point * 64 + (b - 0x80)
  if s.needed = 1 then (.start, [Char.ofNat point]) else (⟨s.needed - 1, 0x80, 0xBF, point⟩, [])

/-- One byte. -/
def decodeByte (s : State) (byte : UInt8) : State × List Char :=
  let b := byte.toNat
  if s.needed = 0 then lead b
  else if s.lower ≤ b ∧ b ≤ s.upper then continuation s b
  else
    let (t, out) := lead b
    (t, replacement :: out)

/-! ## The encoding -/

/-- The values of the bytes of a character. -/
def encodeValues (n : Nat) : List Nat :=
  if n < 0x80 then [n]
  else if n < 0x800 then [0xC0 + n / 64, 0x80 + n % 64]
  else if n < 0x10000 then [0xE0 + n / 4096, 0x80 + n / 64 % 64, 0x80 + n % 64]
  else [0xF0 + n / 262144, 0x80 + n / 4096 % 64, 0x80 + n / 64 % 64, 0x80 + n % 64]

/-- The bytes of a character. -/
def encodeChar (c : Char) : List UInt8 :=
  (encodeValues c.toNat).map UInt8.ofNat

/-- The bytes of a text. -/
def encode (text : List Char) : List UInt8 :=
  text.flatMap encodeChar

section RoundTrip

theorem byte_value {n : Nat} (h : n < 256) : (UInt8.ofNat n).toNat = n := by
  rw [UInt8.toNat_ofNat']
  omega

theorem lead_one {n : Nat} (h : n < 0x80) : decodeByte .start (UInt8.ofNat n) = (.start, [Char.ofNat n]) := by
  rw [decodeByte, byte_value (by omega)]
  show lead n = _
  exact if_pos (by omega)

theorem lead_two {n : Nat} (h : 2 ≤ n) (h' : n < 32) :
    decodeByte .start (UInt8.ofNat (0xC0 + n)) = (⟨1, 0x80, 0xBF, n⟩, []) := by
  rw [decodeByte, byte_value (by omega)]
  show lead _ = _
  rw [lead, if_neg (by omega), if_pos (by omega), Nat.add_sub_cancel_left]

theorem lead_three {n : Nat} (h : n < 16) :
    decodeByte .start (UInt8.ofNat (0xE0 + n)) =
      (⟨2, if n = 0 then 0xA0 else 0x80, if n = 13 then 0x9F else 0xBF, n⟩, []) := by
  rw [decodeByte, byte_value (by omega)]
  show lead _ = _
  rw [lead, if_neg (by omega), if_neg (by omega), if_pos (by omega), Nat.add_sub_cancel_left]
  have zero_ : (0xE0 + n = 0xE0) = (n = 0) := by
    apply propext
    omega
  have thirteen : (0xE0 + n = 0xED) = (n = 13) := by
    apply propext
    omega
  simp only [zero_, thirteen]

theorem lead_four {n : Nat} (h : n < 5) :
    decodeByte .start (UInt8.ofNat (0xF0 + n)) =
      (⟨3, if n = 0 then 0x90 else 0x80, if n = 4 then 0x8F else 0xBF, n⟩, []) := by
  rw [decodeByte, byte_value (by omega)]
  show lead _ = _
  rw [lead, if_neg (by omega), if_neg (by omega), if_neg (by omega), if_pos (by omega), Nat.add_sub_cancel_left]
  have zero_ : (0xF0 + n = 0xF0) = (n = 0) := by
    apply propext
    omega
  have four : (0xF0 + n = 0xF4) = (n = 4) := by
    apply propext
    omega
  simp only [zero_, four]

theorem tail_last {lower upper point n : Nat} (h : n < 64) (low : lower ≤ 0x80 + n) (high : 0x80 + n ≤ upper) :
    decodeByte ⟨1, lower, upper, point⟩ (UInt8.ofNat (0x80 + n)) = (.start, [Char.ofNat (point * 64 + n)]) := by
  rw [decodeByte, byte_value (by omega)]
  dsimp only
  rw [if_neg (by omega), if_pos ⟨low, high⟩, continuation, Nat.add_sub_cancel_left]
  rfl

theorem tail_more {needed lower upper point n : Nat} (h : n < 64) (low : lower ≤ 0x80 + n) (high : 0x80 + n ≤ upper) :
    decodeByte ⟨needed + 2, lower, upper, point⟩ (UInt8.ofNat (0x80 + n)) =
      (⟨needed + 1, 0x80, 0xBF, point * 64 + n⟩, []) := by
  rw [decodeByte, byte_value (by omega)]
  dsimp only
  rw [if_neg (by omega), if_pos ⟨low, high⟩, continuation, Nat.add_sub_cancel_left]
  dsimp only
  rw [if_neg (by omega), Nat.add_sub_assoc (by omega)]

/-- A character is decoded from its bytes. -/
theorem feed_encodeChar (c : Char) : feed decodeByte .start (encodeChar c) = (.start, [c]) := by
  have valid : c.toNat < 0xD800 ∨ 0xDFFF < c.toNat ∧ c.toNat < 0x110000 := c.valid
  have back : Char.ofNat c.toNat = c := Char.ofNat_toNat c
  rw [encodeChar, encodeValues]
  generalize c.toNat = n at valid back
  split
  · next one =>
    show feed _ _ [_] = _
    simp only [feed, lead_one one, back, List.append_nil]
  · split
    · next one two =>
      have first := @lead_two (n / 64) (by omega) (by omega)
      have last := @tail_last 0x80 0xBF (n / 64) (n % 64) (by omega) (by omega) (by omega)
      rw [Nat.div_add_mod' n 64, back] at last
      show feed _ _ [_, _] = _
      simp only [feed, first, last, List.append_nil, List.nil_append]
    · split
      · next one two three =>
        have first := @lead_three (n / 4096) (by omega)
        have second := @tail_more 0 (if n / 4096 = 0 then 0xA0 else 0x80) (if n / 4096 = 13 then 0x9F else 0xBF) (n / 4096)
          (n / 64 % 64) (by omega) (by split <;> omega) (by split <;> omega)
        have last := @tail_last 0x80 0xBF (n / 4096 * 64 + n / 64 % 64) (n % 64) (by omega) (by omega) (by omega)
        rw [show (n / 4096 * 64 + n / 64 % 64) * 64 + n % 64 = n by omega, back] at last
        show feed _ _ [_, _, _] = _
        simp only [feed, first, second, last, List.append_nil, List.nil_append]
      · next one two three =>
        have first := @lead_four (n / 262144) (by omega)
        have second := @tail_more 1 (if n / 262144 = 0 then 0x90 else 0x80) (if n / 262144 = 4 then 0x8F else 0xBF)
          (n / 262144) (n / 4096 % 64) (by omega) (by split <;> omega) (by split <;> omega)
        have third := @tail_more 0 0x80 0xBF (n / 262144 * 64 + n / 4096 % 64) (n / 64 % 64) (by omega) (by omega) (by omega)
        have last := @tail_last 0x80 0xBF ((n / 262144 * 64 + n / 4096 % 64) * 64 + n / 64 % 64) (n % 64) (by omega)
          (by omega) (by omega)
        rw [show ((n / 262144 * 64 + n / 4096 % 64) * 64 + n / 64 % 64) * 64 + n % 64 = n by omega, back] at last
        show feed _ _ [_, _, _, _] = _
        simp only [feed, first, second, third, last, List.append_nil, List.nil_append]

/-- **A text is decoded from its encoding.** -/
theorem feed_encode (text : List Char) : feed decodeByte .start (encode text) = (.start, text) := by
  induction text with
  | nil => rfl
  | cons c cs ih =>
    show feed decodeByte .start (encodeChar c ++ encode cs) = _
    rw [feed_append, feed_encodeChar, ih]
    rfl

end RoundTrip

/-! ## Pieces of an encoding -/

/-- The decoding of a whole stream: a character that is not finished is replaced. -/
def decode (bytes : List UInt8) : List Char :=
  let result := feed decodeByte .start bytes
  if result.1.needed = 0 then result.2 else result.2 ++ [replacement]

/-- The pieces hold whole characters. -/
def Aligned (ws : List (List UInt8)) : Prop :=
  ∀ w ∈ ws, ∃ mid, w = encode mid

theorem encode_append (s t : List Char) : encode (s ++ t) = encode s ++ encode t :=
  List.flatMap_append

theorem decode_encode (text : List Char) : decode (encode text) = text := by
  rw [decode, feed_encode]
  rfl

theorem encode_injective {s t : List Char} (h : encode s = encode t) : s = t := by
  rw [← decode_encode s, h, decode_encode]

theorem decode_encode_append (text : List Char) (bytes : List UInt8) :
    decode (encode text ++ bytes) = text ++ decode bytes := by
  rw [decode, feed_append, feed_encode, decode]
  dsimp only
  split
  · rfl
  · rw [List.append_assoc]

theorem lead_silent (b : Nat) : (lead b).2 ≠ [] ∨ (lead b).1.needed ≠ 0 := by
  rw [lead]
  split
  · exact .inl (List.cons_ne_nil _ _)
  · split
    · exact .inr Nat.one_ne_zero
    · split
      · exact .inr (Nat.succ_ne_zero 1)
      · split
        · exact .inr (Nat.succ_ne_zero 2)
        · exact .inl (List.cons_ne_nil _ _)

/-- After a byte that brought nothing out a character is not finished. -/
theorem decodeByte_silent (s : State) (b : UInt8) : (decodeByte s b).2 ≠ [] ∨ (decodeByte s b).1.needed ≠ 0 := by
  rw [decodeByte]
  dsimp only
  split
  · exact lead_silent b.toNat
  · split
    · rw [continuation]
      split
      · exact .inl (List.cons_ne_nil _ _)
      · next inside _ more =>
        right
        show s.needed - 1 ≠ 0
        omega
    · exact .inl (List.cons_ne_nil _ _)

theorem feed_silent {s : State} {bytes : List UInt8} (some_ : bytes ≠ []) (h : (feed decodeByte s bytes).2 = []) :
    (feed decodeByte s bytes).1.needed ≠ 0 := by
  induction bytes generalizing s with
  | nil => exact absurd rfl some_
  | cons b bytes ih =>
    rw [feed] at h ⊢
    obtain ⟨first, rest⟩ := List.append_eq_nil_iff.1 h
    cases bytes with
    | nil => exact (decodeByte_silent s b).resolve_left fun loud => loud first
    | cons d bytes => exact ih (List.cons_ne_nil _ _) rest

/-- Nothing comes out inside a character. -/
theorem feed_part {c : Char} {p q : List UInt8} (h : encodeChar c = p ++ q) (front : p ≠ []) (back : q ≠ []) :
    decode p = [replacement] := by
  have whole := feed_encodeChar c
  rw [h, feed_append] at whole
  have out := congrArg Prod.snd whole
  have final := congrArg Prod.fst whole
  dsimp only at out final
  have silent : (feed decodeByte .start p).2 = [] := by
    by_contra loud
    obtain ⟨d, ds, first⟩ := List.exists_cons_of_ne_nil loud
    rw [first] at out
    have rest := (List.append_eq_nil_iff.1 (List.cons.inj out).2).2
    have open_ := feed_silent back rest
    rw [final] at open_
    exact open_ rfl
  rw [decode, silent]
  rw [if_neg (feed_silent front silent)]
  rfl

/-- A byte that begins no character. -/
def isTail (b : UInt8) : Prop :=
  0x80 ≤ b.toNat ∧ b.toNat ≤ 0xBF

/-- The bytes of a character behind the first. -/
theorem encodeChar_tail {c : Char} {p q : List UInt8} (h : encodeChar c = p ++ q) (front : p ≠ []) :
    ∀ b ∈ q, isTail b := by
  have values : ∀ n, ∀ v ∈ (encodeValues n).tail, 0x80 ≤ v ∧ v ≤ 0xBF := by
    intro n v mem
    rw [encodeValues] at mem
    repeat' split at mem
    all_goals simp only [List.tail_cons, List.mem_cons, List.not_mem_nil, or_false] at mem
    all_goals omega
  obtain ⟨b, p, rfl⟩ := List.exists_cons_of_ne_nil front
  intro d mem
  have inside : d ∈ (encodeChar c).tail := by
    rw [h, List.cons_append, List.tail_cons]
    exact List.mem_append_right _ mem
  rw [encodeChar, ← List.map_tail] at inside
  obtain ⟨v, listed, rfl⟩ := List.mem_map.1 inside
  have range := values _ v listed
  rw [isTail, byte_value (by omega)]
  exact range

/-- Each of them is replaced when the decoding begins there. -/
theorem decode_tail {q : List UInt8} (h : ∀ b ∈ q, isTail b) (bytes : List UInt8) :
    decode (q ++ bytes) = List.replicate q.length replacement ++ decode bytes := by
  have run : ∀ q : List UInt8, (∀ b ∈ q, isTail b) →
      feed decodeByte .start q = (.start, List.replicate q.length replacement) := by
    intro q
    induction q with
    | nil => exact fun _ => rfl
    | cons b q ih =>
      intro all
      have tail := all b (List.mem_cons_self ..)
      rw [isTail] at tail
      have first : decodeByte .start b = (.start, [replacement]) := by
        show lead b.toNat = _
        rw [lead, if_neg (by omega), if_neg (by omega), if_neg (by omega), if_neg (by omega)]
      rw [feed, first]
      dsimp only
      rw [ih fun d mem => all d (List.mem_cons_of_mem _ mem)]
      rfl
  rw [decode, feed_append, run q h, decode]
  dsimp only
  split
  · rfl
  · rw [List.append_assoc]

/-- A cut of an encoding is between two characters or inside one. -/
theorem encode_cut {t : List Char} {w rest : List UInt8} (h : w ++ rest = encode t) :
    (∃ mid t', t = mid ++ t' ∧ w = encode mid ∧ rest = encode t') ∨
      ∃ mid c t' p q, t = mid ++ c :: t' ∧ encodeChar c = p ++ q ∧ p ≠ [] ∧ q ≠ [] ∧ w = encode mid ++ p ∧
        rest = q ++ encode t' := by
  induction t generalizing w with
  | nil =>
    obtain ⟨rfl, rfl⟩ := List.append_eq_nil_iff.1 h
    exact .inl ⟨[], [], rfl, rfl, rfl⟩
  | cons c t ih =>
    have parts : w ++ rest = encodeChar c ++ encode t := h
    rcases List.append_eq_append_iff.1 parts with ⟨q, whole, rfl⟩ | ⟨w', rfl, more⟩
    · by_cases front : w = []
      · subst front
        exact .inl ⟨[], c :: t, rfl, rfl, by rw [← h]; rfl⟩
      · by_cases back : q = []
        · subst back
          refine .inl ⟨[c], t, rfl, ?_, rfl⟩
          rw [List.append_nil] at whole
          rw [← whole]
          exact (List.append_nil _).symm
        · exact .inr ⟨[], c, t, w, q, rfl, whole, front, back, rfl, rfl⟩
    · rcases ih more.symm with ⟨mid, t', rfl, rfl, rfl⟩ | ⟨mid, d, t', p, q, rfl, whole, front, back, rfl, rfl⟩
      · exact .inl ⟨c :: mid, t', rfl, rfl, rfl⟩
      · exact .inr ⟨c :: mid, d, t', p, q, rfl, whole, front, back, by rw [← List.append_assoc]; rfl, rfl⟩

/-! ## Characters of the pieces -/

/-- Pieces of an encoding, the first piece inside a character with the bytes `q` left. -/
inductive Pieces : List (List UInt8) → List UInt8 → List Char → Prop
  | done : Pieces [] [] []
  | inside {w : List UInt8} {ws : List (List UInt8)} {q : List UInt8} {t : List Char} (rest : Pieces ws q t) :
      Pieces (w :: ws) (w ++ q) t
  | between {ws : List (List UInt8)} {t : List Char} (q : List UInt8) (mid : List Char) (rest : Pieces ws [] t) :
      Pieces ((q ++ encode mid) :: ws) q (mid ++ t)
  | within {p p' : List UInt8} {ws : List (List UInt8)} {t : List Char} (q : List UInt8) (mid : List Char) (c : Char)
      (whole : encodeChar c = p ++ p') (front : p ≠ []) (back : p' ≠ []) (rest : Pieces ws p' t) :
      Pieces ((q ++ (encode mid ++ p)) :: ws) q (mid ++ c :: t)

theorem pieces_of_flatten {ws : List (List UInt8)} {q : List UInt8} {t : List Char} (h : ws.flatten = q ++ encode t) :
    Pieces ws q t := by
  induction ws generalizing q t with
  | nil =>
    obtain ⟨rfl, none_⟩ := List.append_eq_nil_iff.1 h.symm
    obtain rfl : t = [] := encode_injective none_
    exact .done
  | cons w ws ih =>
    rw [List.flatten_cons] at h
    rcases List.append_eq_append_iff.1 h with ⟨q', rfl, rest⟩ | ⟨w', rfl, rest⟩
    · exact .inside (ih rest)
    · rcases encode_cut rest.symm with ⟨mid, t', rfl, rfl, left⟩ | ⟨mid, c, t', p, p', rfl, whole, front, back, rfl, left⟩
      · exact .between q mid (ih left)
      · exact .within q mid c whole front back (ih left)

theorem decode_between {q : List UInt8} (h : ∀ b ∈ q, isTail b) (mid : List Char) :
    decode (q ++ encode mid) = List.replicate q.length replacement ++ mid := by
  rw [decode_tail h, decode_encode]

theorem decode_within {q p p' : List UInt8} (h : ∀ b ∈ q, isTail b) (mid : List Char) {c : Char}
    (whole : encodeChar c = p ++ p') (front : p ≠ []) (back : p' ≠ []) :
    decode (q ++ (encode mid ++ p)) = List.replicate q.length replacement ++ (mid ++ [replacement]) := by
  rw [decode_tail h, decode_encode_append, feed_part whole front back]

theorem decode_inside {w : List UInt8} (h : ∀ b ∈ w, isTail b) : decode w = List.replicate w.length replacement := by
  have only := decode_tail h []
  rw [List.append_nil] at only
  rw [only]
  exact List.append_nil _

/-- A character of one byte is neither lost nor made. -/
theorem pieces_count {d : Char} (one : (encodeChar d).length = 1) (other : d ≠ replacement) {ws : List (List UInt8)}
    {q : List UInt8} {t : List Char} (h : Pieces ws q t) (tails : ∀ b ∈ q, isTail b) :
    (ws.flatMap decode).count d = t.count d := by
  have none_ : ∀ n, (List.replicate n replacement).count d = 0 := by
    intro n
    apply List.count_eq_zero.2
    intro mem
    exact other (List.eq_of_mem_replicate mem)
  induction h with
  | done => rfl
  | inside rest ih =>
    rw [List.flatMap_cons, decode_inside fun b mem => tails b (List.mem_append_left _ mem), List.count_append, none_,
      ih fun b mem => tails b (List.mem_append_right _ mem), Nat.zero_add]
  | between q mid rest ih =>
    rw [List.flatMap_cons, decode_between tails, List.count_append, List.count_append, none_,
      ih fun b mem => absurd mem List.not_mem_nil, List.count_append, Nat.zero_add]
  | within q mid c whole front back rest ih =>
    have cut : c ≠ d := by
      rintro rfl
      have size := congrArg List.length whole
      have := List.length_pos_of_ne_nil front
      have := List.length_pos_of_ne_nil back
      rw [List.length_append] at size
      omega
    rw [List.flatMap_cons, decode_within tails mid whole front back, List.count_append, List.count_append, List.count_append,
      none_, ih (encodeChar_tail whole front), List.count_append, List.count_cons_of_ne cut,
      List.count_singleton, if_neg (by simpa using Ne.symm other)]
    omega

/-- **Cutting a character makes more of it.** Pieces decode to no fewer characters of a kind that the
replacement is of, and to as many only when they hold whole characters. -/
theorem pieces_countP {P : Char → Bool} (kind : P replacement = true) {ws : List (List UInt8)}
    {q : List UInt8} {t : List Char} (h : Pieces ws q t) (tails : ∀ b ∈ q, isTail b) :
    q.length + t.countP P ≤ (ws.flatMap decode).countP P ∧
      (q = [] → (ws.flatMap decode).countP P = t.countP P → Aligned ws) := by
  have all : ∀ n, (List.replicate n replacement).countP P = n := by
    intro n
    rw [List.countP_replicate, if_pos kind]
  induction h with
  | done => exact ⟨Nat.le_refl _, fun _ _ _ mem => absurd mem List.not_mem_nil⟩
  | inside rest ih =>
    obtain ⟨bound, aligned⟩ := ih fun b mem => tails b (List.mem_append_right _ mem)
    rw [List.flatMap_cons, decode_inside fun b mem => tails b (List.mem_append_left _ mem), List.countP_append, all,
      List.length_append]
    refine ⟨by omega, ?_⟩
    intro empty same
    obtain ⟨rfl, rfl⟩ := List.append_eq_nil_iff.1 empty
    intro w mem
    rcases List.mem_cons.1 mem with rfl | mem
    · exact ⟨[], rfl⟩
    · rw [List.length_nil, Nat.zero_add] at same
      exact aligned rfl same w mem
  | between q mid rest ih =>
    obtain ⟨bound, aligned⟩ := ih fun b mem => absurd mem List.not_mem_nil
    rw [List.flatMap_cons, decode_between tails]
    simp only [List.countP_append, all]
    rw [List.length_nil, Nat.zero_add] at bound
    refine ⟨by omega, ?_⟩
    rintro rfl same w mem
    rw [List.length_nil] at same
    rcases List.mem_cons.1 mem with rfl | mem
    · exact ⟨mid, rfl⟩
    · exact aligned rfl (by omega) w mem
  | @within p p' ws t q mid c whole front back rest ih =>
    obtain ⟨bound, -⟩ := ih (encodeChar_tail whole front)
    have long := List.length_pos_of_ne_nil back
    have single : (c :: t).countP P ≤ 1 + t.countP P := by
      rw [List.countP_cons]
      split
      · omega
      · omega
    rw [List.flatMap_cons, decode_within tails mid whole front back]
    simp only [List.countP_append, all, List.countP_singleton, if_pos kind]
    refine ⟨by omega, ?_⟩
    rintro rfl same
    omega

/-- Pieces that hold whole characters decode to the text. -/
theorem Aligned.decode {ws : List (List UInt8)} (h : Aligned ws) {t : List Char} (whole : ws.flatten = encode t) :
    ws.flatMap Utf8.decode = t := by
  apply encode_injective
  rw [← whole]
  clear whole
  induction ws with
  | nil => rfl
  | cons w ws ih =>
    obtain ⟨mid, rfl⟩ := h w (List.mem_cons_self ..)
    rw [List.flatMap_cons, decode_encode, encode_append, ih fun w' mem => h w' (List.mem_cons_of_mem _ mem),
      List.flatten_cons]

end Utf8
