import DocumentQa.Lib.Json.Chars

/-!
# Printing ASCII

`json.dumps` escapes by default whatever is not ASCII: a character outside the basic plane as
a pair of surrogates. The escapes of a string read back as its characters, so a list of
strings printed so reads back.
-/

namespace JsonText

variable {lone : Nat → Option Char}

def hexDigits (n : Nat) : List Char :=
  [hexDigit (n / 4096 % 16), hexDigit (n / 256 % 16), hexDigit (n / 16 % 16), hexDigit (n % 16)]

/-- `\uXXXX`. -/
def unicodeEscape (n : Nat) : List Char :=
  '\\' :: 'u' :: hexDigits n

/-- A character of a printed text under `ensure_ascii`. -/
def asciiChar (c : Char) : List Char :=
  if c.toNat < 127 then [c]
  else if c.toNat < 0x10000 then unicodeEscape c.toNat
  else unicodeEscape (0xD800 + (c.toNat - 0x10000) / 0x400) ++ unicodeEscape (0xDC00 + (c.toNat - 0x10000) % 0x400)

def ascii (text : List Char) : List Char :=
  text.flatMap asciiChar

@[simp] theorem ascii_append (s t : List Char) : ascii (s ++ t) = ascii s ++ ascii t :=
  List.flatMap_append

theorem ascii_cons {c : Char} (small : c.toNat < 127) (cs : List Char) : ascii (c :: cs) = c :: ascii cs := by
  rw [ascii, List.flatMap_cons, asciiChar, if_pos small]
  rfl

/-- ASCII stays. -/
theorem ascii_of_small {cs : List Char} (h : ∀ c ∈ cs, c.toNat < 127) : ascii cs = cs := by
  induction cs with
  | nil => rfl
  | cons c cs ih => rw [ascii_cons (h c List.mem_cons_self), ih fun d mem => h d (List.mem_cons_of_mem _ mem)]

theorem readHex_digits {n : Nat} (h : n < 0x10000) (r : List Char) : readHex (hexDigits n ++ r) = some (n, r) := by
  have digit (k : Nat) : hexValue (hexDigit (k % 16)) = some (k % 16) := hexValue_hexDigit (Nat.mod_lt _ (by omega))
  have sum : n / 4096 % 16 * 4096 + n / 256 % 16 * 256 + n / 16 % 16 * 16 + n % 16 = n := by omega
  simp only [hexDigits, List.cons_append, List.nil_append, readHex, digit, Option.bind_eq_bind, Option.bind_some, sum]

theorem isHighSurrogate_iff {n : Nat} : isHighSurrogate n = true ↔ 0xD800 ≤ n ∧ n ≤ 0xDBFF := by
  rw [isHighSurrogate, Bool.and_eq_true, decide_eq_true_eq, decide_eq_true_eq]

theorem isLowSurrogate_iff {n : Nat} : isLowSurrogate n = true ↔ 0xDC00 ≤ n ∧ n ≤ 0xDFFF := by
  rw [isLowSurrogate, Bool.and_eq_true, decide_eq_true_eq, decide_eq_true_eq]

/-- An escape of the basic plane. -/
theorem readUnicode_basic {n : Nat} (h : n < 0x10000) (high : ¬isHighSurrogate n = true) (low : ¬isLowSurrogate n = true)
    (r : List Char) : readUnicode lone (hexDigits n ++ r) = some (Char.ofNat n, r) := by
  rw [readUnicode, readHex_digits h]
  dsimp only
  rw [if_neg high, if_neg low]

/-- A pair of surrogates. -/
theorem readUnicode_pair {n m : Nat} (hn : n < 0x10000) (hm : m < 0x10000) (high : isHighSurrogate n = true)
    (low : isLowSurrogate m = true) (r : List Char) :
    readUnicode lone (hexDigits n ++ (unicodeEscape m ++ r)) = some (Char.ofNat (0x10000 + (n - 0xD800) * 0x400 + (m - 0xDC00)), r) := by
  rw [readUnicode, readHex_digits hn]
  dsimp only
  rw [if_pos high]
  simp only [unicodeEscape, List.cons_append, readLow, readHex_digits hm, low, if_true]

/-- What is not ASCII is escaped, and the escape reads back. -/
theorem asciiChar_reads {c : Char} (h : 127 ≤ c.toNat) :
    ∃ e, asciiChar c = '\\' :: 'u' :: e ∧ ∀ r, readUnicode lone (e ++ r) = some (c, r) := by
  have valid : c.toNat < 0xD800 ∨ (0xDFFF < c.toNat ∧ c.toNat < 0x110000) := c.valid
  rw [asciiChar, if_neg (by omega)]
  split
  · next basic =>
    refine ⟨hexDigits c.toNat, rfl, ?_⟩
    intro r
    rw [readUnicode_basic basic (by rw [isHighSurrogate_iff]; omega) (by rw [isLowSurrogate_iff]; omega), Char.ofNat_toNat]
  · next astral =>
    obtain ⟨m, within, value⟩ : ∃ m, m < 0x100000 ∧ c.toNat = 0x10000 + m := ⟨c.toNat - 0x10000, by omega, by omega⟩
    rw [value, Nat.add_sub_cancel_left]
    refine ⟨hexDigits (0xD800 + m / 0x400) ++ unicodeEscape (0xDC00 + m % 0x400), rfl, ?_⟩
    intro r
    rw [List.append_assoc, readUnicode_pair (by omega) (by omega) (by rw [isHighSurrogate_iff]; omega)
      (by rw [isLowSurrogate_iff]; omega), Nat.add_sub_cancel_left, Nat.add_sub_cancel_left, Nat.add_assoc,
      Nat.div_add_mod', ← value, Char.ofNat_toNat]

/-- A character of a string, escaped and in ASCII. -/
theorem ascii_escapeChar (c : Char) :
    (ascii (escapeChar c) = [c] ∧ c ≠ '"' ∧ c ≠ '\\' ∧ ¬c.toNat < 32) ∨
      ∃ e, ascii (escapeChar c) = '\\' :: e ∧ ∀ r, readEscape lone (e ++ r) = some (c, r) := by
  by_cases small : c.toNat < 127
  · have same : ascii (escapeChar c) = escapeChar c := by
      apply ascii_of_small
      intro d mem
      rcases escapeChar_within mem with graphic | ⟨rfl, -⟩
      · rw [isGraphic, Bool.and_eq_true, decide_eq_true_eq, decide_eq_true_eq] at graphic
        exact graphic.2
      · exact small
    rw [same]
    exact escapeChar_cases c
  · obtain ⟨e, escaped, reads⟩ := asciiChar_reads (Nat.le_of_not_lt small)
    have plain : escapeChar c = [c] := by
      rcases @escapeChar_cases lone c with ⟨plain, -⟩ | ⟨e', other, -⟩
      · exact plain
      · have within := @escapeChar_within c
        rw [escapeChar] at other ⊢
        split_ifs at other ⊢ with quote backslash newline return_ tab back feed control
        · exact absurd (by rw [quote]; decide) small
        · exact absurd (by rw [backslash]; decide) small
        · exact absurd (by rw [newline]; decide) small
        · exact absurd (by rw [return_]; decide) small
        · exact absurd (by rw [tab]; decide) small
        · exact absurd (by omega) small
        · exact absurd (by omega) small
        · exact absurd (by omega) small
        · rfl
    refine .inr ⟨'u' :: e, ?_, fun r => reads r⟩
    rw [plain, ascii, List.flatMap_singleton, escaped]

/-- **Strings in ASCII read back.** -/
theorem readString_ascii (cs rest : List Char) {fuel : Nat} (h : (ascii (escape cs)).length < fuel) :
    readString lone fuel (ascii (escape cs) ++ '"' :: rest) = some (cs, rest) := by
  induction cs generalizing fuel with
  | nil =>
    cases fuel with
    | zero => omega
    | succ fuel => simp [escape, ascii, readString]
  | cons c cs ih =>
    have unfold_ : ascii (escape (c :: cs)) = ascii (escapeChar c) ++ ascii (escape cs) := ascii_append _ _
    rw [unfold_, List.length_append] at h
    cases fuel with
    | zero => omega
    | succ fuel =>
      rcases ascii_escapeChar c with ⟨plain, quote, backslash, control⟩ | ⟨e, escaped, reads⟩
      · have rest_ : readString lone fuel (ascii (escape cs) ++ '"' :: rest) = some (cs, rest) :=
          ih (by rw [plain, List.length_singleton] at h; omega)
        rw [unfold_, plain, List.append_assoc, List.singleton_append, readString, if_neg quote, if_neg backslash,
          if_neg control, rest_]
        rfl
      · have rest_ : readString lone fuel (ascii (escape cs) ++ '"' :: rest) = some (cs, rest) :=
          ih (by rw [escaped, List.length_cons] at h; omega)
        rw [unfold_, escaped, List.append_assoc, List.cons_append, readString, if_neg (by decide), if_pos rfl, reads]
        simp only [rest_]
        rfl

/-- The text of a list of strings without blanks. -/
def asciiStrings (texts : List String) : List Char :=
  '[' :: (ascii (joined [','] (texts.map quote)) ++ [']'])

theorem ascii_quote (s : String) (rest : List Char) : ascii (quote s) ++ rest = '"' :: (ascii (escape s.toList) ++ '"' :: rest) := by
  rw [quote, ascii_cons (by decide), ascii_append, List.cons_append, List.append_assoc]
  rfl

theorem readValue_ascii (hooks : Hooks) (s : String) (rest : List Char) (fuel : Nat) :
    readValue hooks (fuel + 1) (ascii (quote s) ++ rest) = some (.str s, rest) := by
  have long : (ascii (escape s.toList)).length < (ascii (escape s.toList) ++ '"' :: rest).length := by
    rw [List.length_append, List.length_cons]
    omega
  have read := @readString_ascii hooks.lone s.toList rest _ long
  rw [ascii_quote, readValue, read]
  exact congrArg (fun text => some (Json.str text, rest)) String.ofList_toList

/-- One item with a comma behind it. -/
theorem readItems_comma {hooks : Hooks} {fuel : Nat} {text r r' rest : List Char} {j : Json} {js : List Json}
    (value : readValue hooks fuel text = some (j, r)) (comma : skip r = ',' :: r')
    (items : readItems hooks fuel (skip r') = some (js, rest)) :
    readItems hooks (fuel + 1) text = some (j :: js, rest) := by
  rw [readItems, value]
  simp only [comma, items]
  rfl

/-- An array that is not empty. -/
theorem readValue_items {hooks : Hooks} {fuel : Nat} {text r rest : List Char} {items : List Json}
    (open_ : skip text = '"' :: r) (read : readItems hooks fuel ('"' :: r) = some (items, rest)) :
    readValue hooks (fuel + 1) ('[' :: text) = some (.arr items, rest) := by
  rw [readValue, open_]
  show (readItems hooks fuel ('"' :: r)).map (fun x => (Json.arr x.1, x.2)) = _
  rw [read]
  rfl

theorem readItems_ascii (hooks : Hooks) (s : String) (texts : List String) (rest : List Char) {fuel : Nat}
    (h : texts.length + 1 < fuel) :
    readItems hooks fuel (ascii (joined [','] ((s :: texts).map quote)) ++ ']' :: rest) =
      some ((s :: texts).map Json.str, rest) := by
  induction texts generalizing s fuel with
  | nil =>
    obtain ⟨fuel, rfl⟩ : ∃ k, fuel = k + 2 := ⟨fuel - 2, by omega⟩
    show readItems hooks (fuel + 1 + 1) (ascii (quote s) ++ ']' :: rest) = _
    rw [readItems, readValue_ascii]
    rfl
  | cons t texts ih =>
    rw [List.length_cons] at h
    obtain ⟨fuel, rfl⟩ : ∃ k, fuel = k + 2 := ⟨fuel - 2, by omega⟩
    have few : texts.length + 1 < fuel + 1 := by omega
    have next := ih t few
    have start : skip (ascii (joined [','] ((t :: texts).map quote)) ++ ']' :: rest) =
        ascii (joined [','] ((t :: texts).map quote)) ++ ']' :: rest := by
      cases texts with
      | nil =>
        show skip (ascii (quote t) ++ _) = ascii (quote t) ++ _
        rw [ascii_quote]
        rfl
      | cons u texts =>
        show skip (ascii (quote t ++ [','] ++ joined [','] ((u :: texts).map quote)) ++ _) =
          ascii (quote t ++ [','] ++ joined [','] ((u :: texts).map quote)) ++ _
        rw [ascii_append, ascii_append, List.append_assoc, List.append_assoc, ascii_quote]
        rfl
    show readItems hooks (fuel + 1 + 1) (ascii (quote s ++ [','] ++ joined [','] ((t :: texts).map quote)) ++ ']' :: rest) = _
    rw [ascii_append, ascii_append, List.append_assoc, List.append_assoc]
    have comma : skip (ascii [','] ++ (ascii (joined [','] ((t :: texts).map quote)) ++ ']' :: rest)) =
        ',' :: (ascii (joined [','] ((t :: texts).map quote)) ++ ']' :: rest) := skip_cons (by decide)
    apply readItems_comma (readValue_ascii hooks s _ fuel) comma
    rw [start]
    exact next

theorem ascii_length (cs : List Char) : cs.length ≤ (ascii cs).length := by
  induction cs with
  | nil => exact Nat.le_refl 0
  | cons c cs ih =>
    have one : 1 ≤ (asciiChar c).length := by
      rw [asciiChar]
      split
      · exact Nat.le_refl 1
      · split
        · exact Nat.le_add_left 1 5
        · rw [List.length_append]
          exact Nat.le_add_right_of_le (Nat.le_add_left 1 5)
    rw [ascii, List.flatMap_cons, List.length_append, List.length_cons]
    show cs.length + 1 ≤ (asciiChar c).length + (ascii cs).length
    omega

theorem joined_length (s : String) (texts : List String) :
    texts.length + 1 < (joined [','] ((s :: texts).map quote)).length := by
  induction texts generalizing s with
  | nil =>
    show 0 + 1 < (quote s).length
    rw [quote, List.length_cons, List.length_append, List.length_singleton]
    omega
  | cons t texts ih =>
    have rest := ih t
    show (t :: texts).length + 1 < (quote s ++ [','] ++ joined [','] ((t :: texts).map quote)).length
    rw [List.length_append, List.length_append, List.length_singleton, List.length_cons]
    omega

/-- **A list of strings in ASCII reads back.** -/
theorem loads_asciiStrings (texts : List String) : loads (asciiStrings texts) = some (.arr (texts.map Json.str)) := by
  rw [loads, loadsWith, asciiStrings, skip_cons (by decide)]
  cases texts with
  | nil => rfl
  | cons s texts =>
    have enough : texts.length + 1 < (ascii (joined [','] ((s :: texts).map quote)) ++ [']']).length + 1 := by
      have printed := joined_length s texts
      have escaped := ascii_length (joined [','] ((s :: texts).map quote))
      rw [List.length_append]
      omega
    have items := readItems_ascii .plain s texts [] enough
    obtain ⟨r, head⟩ : ∃ r, ascii (joined [','] ((s :: texts).map quote)) ++ [']'] = '"' :: r := by
      cases texts with
      | nil => exact ⟨_, ascii_quote s [']']⟩
      | cons t texts =>
        show ∃ r, ascii (quote s ++ [','] ++ joined [','] ((t :: texts).map quote)) ++ [']'] = '"' :: r
        rw [ascii_append, ascii_append, List.append_assoc, List.append_assoc, ascii_quote]
        exact ⟨_, rfl⟩
    have start : skip (ascii (joined [','] ((s :: texts).map quote)) ++ [']']) = '"' :: r := by
      rw [head]
      exact skip_cons (by decide)
    have read : readItems .plain ((ascii (joined [','] ((s :: texts).map quote)) ++ [']']).length + 1) ('"' :: r) =
        some ((s :: texts).map Json.str, []) := by
      rw [← head]
      exact items
    rw [List.length_cons, readValue_items start read]
    rfl

end JsonText
