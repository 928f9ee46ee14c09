import Mathlib.Data.List.DropRight
import Mathlib.Data.UInt
import Mathlib.Tactic.FinCases

/-!
# Base64

The URL-safe alphabet, encoding with padding, and decoding as the strict mode of a decoder
that takes both alphabets. What was encoded is decoded, also when the padding was taken off
and is added again by the length of the text.
-/

namespace Base64

/-- The letter of six bits. -/
def letter (n : Nat) : Char :=
  if n < 26 then Char.ofNat (65 + n)
  else if n < 52 then Char.ofNat (71 + n)
  else if n < 62 then Char.ofNat (n - 4)
  else if n = 62 then '-' else '_'

/-- The six bits of a letter of either alphabet. -/
def sextet (c : Char) : Option Nat :=
  if 'A' ≤ c ∧ c ≤ 'Z' then some (c.toNat - 65)
  else if 'a' ≤ c ∧ c ≤ 'z' then some (c.toNat - 71)
  else if '0' ≤ c ∧ c ≤ '9' then some (c.toNat + 4)
  else if c = '+' ∨ c = '-' then some 62
  else if c = '/' ∨ c = '_' then some 63
  else none

def encode : List UInt8 → List Char
  | a :: b :: c :: rest =>
    letter (a.toNat / 4) :: letter (a.toNat % 4 * 16 + b.toNat / 16) :: letter (b.toNat % 16 * 4 + c.toNat / 64) ::
      letter (c.toNat % 64) :: encode rest
  | [a, b] => [letter (a.toNat / 4), letter (a.toNat % 4 * 16 + b.toNat / 16), letter (b.toNat % 16 * 4), '=']
  | [a] => [letter (a.toNat / 4), letter (a.toNat % 4 * 16), '=', '=']
  | [] => []

/-- The bytes of complete groups of six bits. -/
def octets : List Nat → List UInt8
  | a :: b :: c :: d :: rest =>
    UInt8.ofNat (a * 4 + b / 16) :: UInt8.ofNat (b % 16 * 16 + c / 4) :: UInt8.ofNat (c % 4 * 64 + d) :: octets rest
  | [a, b, c] => [UInt8.ofNat (a * 4 + b / 16), UInt8.ofNat (b % 16 * 16 + c / 4)]
  | [a, b] => [UInt8.ofNat (a * 4 + b / 16)]
  | _ => []

/-- The padding behind `n` letters: none must follow whole groups, though some may. -/
def paddingFits (n : Nat) (padding : List Char) : Bool :=
  padding.all (· = '=') &&
    if n % 4 = 0 then n ≠ 0 || padding.isEmpty
    else if n % 4 = 2 then padding.length = 2
    else n % 4 = 3 && padding.length = 1

/-- The letters up to the padding, and the padding. -/
def decode (text : List Char) : Option (List UInt8) := do
  let sextets ← (text.takeWhile (· ≠ '=')).mapM sextet
  if paddingFits sextets.length (text.dropWhile (· ≠ '=')) then some (octets sextets) else none

/-- The text without its padding. -/
def unpadded (text : List Char) : List Char :=
  text.rdropWhile (· = '=')

/-- The text with the padding that its length asks for. -/
def padded (text : List Char) : List Char :=
  text ++ List.replicate ((4 - text.length % 4) % 4) '='

/-! ## Round trips -/

theorem letter_spec {n : Nat} (h : n < 64) : sextet (letter n) = some n ∧ letter n ≠ '=' := by
  have all : ∀ k : Fin 64, sextet (letter k.val) = some k.val ∧ letter k.val ≠ '=' := by decide
  exact all ⟨n, h⟩

/-- Letters of sextets with the padding of their number. -/
structure Spells (bytes : List UInt8) (sextets : List Nat) : Prop where
  text : encode bytes = sextets.map letter ++ List.replicate ((4 - sextets.length % 4) % 4) '='
  small : ∀ n ∈ sextets, n < 64
  octets : octets sextets = bytes
  whole : sextets.length % 4 ≠ 1

theorem ofNat_eq {n : Nat} {b : UInt8} (h : n = b.toNat) : UInt8.ofNat n = b := by
  rw [h, UInt8.ofNat_toNat]

theorem spells (bytes : List UInt8) : ∃ sextets, Spells bytes sextets := by
  induction bytes using encode.induct with
  | case1 a b c rest ih =>
    obtain ⟨sextets, spelled⟩ := ih
    have ha := a.toNat_lt
    have hb := b.toNat_lt
    have hc := c.toNat_lt
    refine ⟨a.toNat / 4 :: (a.toNat % 4 * 16 + b.toNat / 16) :: (b.toNat % 16 * 4 + c.toNat / 64) :: c.toNat % 64 :: sextets,
      ?_, ?_, ?_, ?_⟩
    · rw [encode, spelled.text]
      simp only [List.map_cons, List.cons_append, List.length_cons, Nat.add_assoc, Nat.reduceAdd, Nat.add_mod_right]
    · simp only [List.forall_mem_cons]
      refine ⟨by omega, by omega, by omega, by omega, spelled.small⟩
    · rw [octets, spelled.octets, ofNat_eq (b := a) (by omega), ofNat_eq (b := b) (by omega), ofNat_eq (b := c) (by omega)]
    · have whole := spelled.whole
      simp only [List.length_cons]
      omega
  | case2 a b =>
    have ha := a.toNat_lt
    have hb := b.toNat_lt
    refine ⟨[a.toNat / 4, a.toNat % 4 * 16 + b.toNat / 16, b.toNat % 16 * 4], rfl, ?_, ?_, show 3 % 4 ≠ 1 by omega⟩
    · simp only [List.forall_mem_cons, List.not_mem_nil, false_imp_iff, implies_true, and_true]
      refine ⟨by omega, by omega, by omega⟩
    · rw [octets, ofNat_eq (b := a) (by omega), ofNat_eq (b := b) (by omega)]
  | case3 a =>
    have ha := a.toNat_lt
    refine ⟨[a.toNat / 4, a.toNat % 4 * 16], rfl, ?_, ?_, show 2 % 4 ≠ 1 by omega⟩
    · simp only [List.forall_mem_cons, List.not_mem_nil, false_imp_iff, implies_true, and_true]
      refine ⟨by omega, by omega⟩
    · rw [octets, ofNat_eq (b := a) (by omega)]
  | case4 => exact ⟨[], rfl, by simp, rfl, by decide⟩

section Letters

variable {sextets : List Nat} (small : ∀ n ∈ sextets, n < 64)

include small

theorem letters_solid : ∀ c ∈ sextets.map letter, c ≠ '=' := by
  intro c mem
  obtain ⟨n, here, rfl⟩ := List.mem_map.1 mem
  exact (letter_spec (small n here)).2

theorem letters_read : (sextets.map letter).mapM sextet = some sextets := by
  induction sextets with
  | nil => rfl
  | cons n sextets ih =>
    rw [List.map_cons, List.mapM_cons, (letter_spec (small n List.mem_cons_self)).1,
      ih fun m mem => small m (List.mem_cons_of_mem _ mem)]
    rfl

/-- Padding comes off the letters. -/
theorem unpadded_letters (k : Nat) : unpadded (sextets.map letter ++ List.replicate k '=') = sextets.map letter := by
  induction k with
  | zero =>
    rw [List.replicate_zero, List.append_nil, unpadded, List.rdropWhile_eq_self_iff]
    intro some_ last
    exact letters_solid small _ (List.getLast_mem some_) (of_decide_eq_true last)
  | succ k ih =>
    rw [List.replicate_succ', ← List.append_assoc, unpadded, List.rdropWhile_concat_pos _ _ _ (by rfl)]
    exact ih

end Letters

/-- **What was encoded is decoded**, with its padding or with the padding put back. -/
theorem decode_encode (bytes : List UInt8) : decode (encode bytes) = some bytes := by
  obtain ⟨sextets, spelled⟩ := spells bytes
  have solid : ∀ c ∈ sextets.map letter, decide (c ≠ '=') = true :=
    fun c mem => decide_eq_true (letters_solid spelled.small c mem)
  have fits : paddingFits sextets.length (List.replicate ((4 - sextets.length % 4) % 4) '=') = true := by
    have whole := spelled.whole
    rw [paddingFits, Bool.and_eq_true]
    refine ⟨by simp, ?_⟩
    rw [List.length_replicate]
    split_ifs with zero two
    · rw [zero]
      simp
    · rw [two]
      rfl
    · have three : sextets.length % 4 = 3 := by omega
      rw [three]
      rfl
  have stop : (List.replicate ((4 - sextets.length % 4) % 4) '=').takeWhile (fun c => decide (c ≠ '=')) = [] ∧
      (List.replicate ((4 - sextets.length % 4) % 4) '=').dropWhile (fun c => decide (c ≠ '=')) =
        List.replicate ((4 - sextets.length % 4) % 4) '=' := by
    cases (4 - sextets.length % 4) % 4 with
    | zero => exact ⟨rfl, rfl⟩
    | succ k => exact ⟨rfl, rfl⟩
  rw [decode, spelled.text, List.takeWhile_append_of_pos solid, List.dropWhile_append_of_pos solid, stop.1, stop.2,
    List.append_nil, letters_read spelled.small]
  show (if paddingFits _ _ = true then _ else _) = _
  rw [if_pos fits, spelled.octets]

theorem padded_unpadded (bytes : List UInt8) : padded (unpadded (encode bytes)) = encode bytes := by
  obtain ⟨sextets, spelled⟩ := spells bytes
  rw [spelled.text, unpadded_letters spelled.small, padded, List.length_map]

end Base64
