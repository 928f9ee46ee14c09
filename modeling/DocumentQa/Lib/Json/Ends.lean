import DocumentQa.Lib.Json.Parse
import Mathlib.Data.List.TakeWhile

/-!
# Where a value ends

What the reader takes from a text ends with a visible ASCII character: a closing quote or
bracket, a digit or a letter. So a text that reads as a value, blanks around it cut, does
not end with a blank of any kind.
-/

namespace JsonText

/-- What stands before the rest is not empty and ends with a visible ASCII character. -/
def Ends (cs rest : List Char) : Prop :=
  ∃ p c, cs = p ++ c :: rest ∧ 32 < c.toNat ∧ c.toNat < 127

theorem Ends.behind {cs rest : List Char} (h : Ends cs rest) (x : List Char) : Ends (x ++ cs) rest := by
  obtain ⟨p, c, rfl, visible⟩ := h
  exact ⟨x ++ p, c, by rw [List.append_assoc], visible⟩

theorem Ends.cons {cs rest : List Char} (h : Ends cs rest) (x : Char) : Ends (x :: cs) rest :=
  h.behind [x]

theorem Ends.head {c : Char} {rest : List Char} (low : 32 < c.toNat) (high : c.toNat < 127) : Ends (c :: rest) rest :=
  ⟨[], c, rfl, low, high⟩

theorem Ends.trans {a b c : List Char} (h : Ends a b) (h' : c = b ∨ Ends b c) : Ends a c := by
  rcases h' with rfl | h'
  · exact h
  · obtain ⟨p, x, rfl, -⟩ := h
    have after := (h'.cons x).behind p
    exact after

theorem skip_split (cs : List Char) : ∃ b, cs = b ++ skip cs :=
  ⟨cs.takeWhile isBlank, List.takeWhile_append_dropWhile.symm⟩

theorem Ends.of_skip {cs rest : List Char} (h : Ends (skip cs) rest) : Ends cs rest := by
  obtain ⟨b, e⟩ := skip_split cs
  rw [e]
  exact h.behind b

/-! ## Numbers -/

theorem digit_visible {c : Char} (h : c.isDigit = true) : 32 < c.toNat ∧ c.toNat < 127 := by
  rw [Char.isDigit, Bool.and_eq_true, decide_eq_true_eq, decide_eq_true_eq] at h
  have low : (48 : UInt32).toNat ≤ c.val.toNat := h.1
  have high : c.val.toNat ≤ (57 : UInt32).toNat := h.2
  have zero_ : (48 : UInt32).toNat = 48 := rfl
  have nine : (57 : UInt32).toNat = 57 := rfl
  show 32 < c.val.toNat ∧ c.val.toNat < 127
  omega

theorem spanDigits_ends {cs : List Char} (some_ : (spanDigits cs).1 ≠ []) : Ends cs (spanDigits cs).2 := by
  have split : (spanDigits cs).1 ++ (spanDigits cs).2 = cs := List.takeWhile_append_dropWhile
  obtain ⟨ds, d, e⟩ := List.eq_nil_or_concat (spanDigits cs).1 |>.resolve_left some_
  have isDigit : d.isDigit = true := by
    refine List.mem_takeWhile_imp (show d ∈ (spanDigits cs).1 from ?_)
    rw [e]
    simp
  refine ⟨ds, d, ?_, digit_visible isDigit⟩
  calc cs = (spanDigits cs).1 ++ (spanDigits cs).2 := split.symm
    _ = (ds ++ [d]) ++ (spanDigits cs).2 := by rw [e, List.concat_eq_append]
    _ = ds ++ d :: (spanDigits cs).2 := by rw [List.append_assoc]; rfl

theorem scanWhole_ends {cs ds rest : List Char} (h : scanWhole cs = some (ds, rest)) : Ends cs rest := by
  unfold scanWhole at h
  split at h
  · cases h
    exact Ends.head (by decide) (by decide)
  · split at h
    · cases h
    · next some_ =>
      have ends := spanDigits_ends some_
      rw [Option.some.inj h] at ends
      exact ends

theorem scanFraction_ends (cs : List Char) : (scanFraction cs).2 = cs ∨ Ends cs (scanFraction cs).2 := by
  unfold scanFraction
  split
  · split
    · exact .inl rfl
    · next some_ => exact .inr ((spanDigits_ends some_).cons '.')
  · exact .inl rfl

theorem scanSign_split (cs : List Char) : ∃ b, cs = b ++ (scanSign cs).2 := by
  unfold scanSign
  split
  · exact ⟨['-'], rfl⟩
  · exact ⟨['+'], rfl⟩
  · exact ⟨[], rfl⟩

theorem scanExponent_ends (cs : List Char) : (scanExponent cs).2 = cs ∨ Ends cs (scanExponent cs).2 := by
  unfold scanExponent
  split
  · next c r =>
    split
    · obtain ⟨b, e⟩ := scanSign_split r
      dsimp only
      split
      · exact .inl rfl
      · next some_ =>
        right
        have after := ((spanDigits_ends some_).behind b).cons c
        rw [← e] at after
        exact after
    · exact .inl rfl
  · exact .inl rfl

theorem readUnsigned_ends {neg : Bool} {cs rest : List Char} {j : Json} (h : readUnsigned neg cs = some (j, rest)) :
    Ends cs rest := by
  rw [readUnsigned] at h
  split at h
  · cases h
  · next whole r1 scanned =>
    cases h
    exact ((scanWhole_ends scanned).trans (scanFraction_ends r1)).trans (scanExponent_ends _)

theorem readNumber_ends {cs rest : List Char} {j : Json} (h : readNumber cs = some (j, rest)) : Ends cs rest := by
  unfold readNumber at h
  split at h
  · exact (readUnsigned_ends h).cons '-'
  · exact readUnsigned_ends h

/-! ## Strings and constants -/

variable {lone : Nat → Option Char}

theorem readHex_split {cs rest : List Char} {n : Nat} (h : readHex cs = some (n, rest)) : ∃ b, cs = b ++ rest := by
  unfold readHex at h
  split at h
  · next a b c d r =>
    simp only [Option.bind_eq_bind, Option.bind_eq_some_iff] at h
    obtain ⟨_, -, _, -, _, -, _, -, e⟩ := h
    cases e
    exact ⟨[a, b, c, d], rfl⟩
  · cases h

theorem readLow_split {cs rest : List Char} {n : Nat} (h : readLow cs = some (n, rest)) : ∃ b, cs = b ++ rest := by
  unfold readLow at h
  split at h
  · next r =>
    split at h
    · next n' r' read =>
      split at h
      · cases h
        obtain ⟨b, rfl⟩ := readHex_split read
        exact ⟨'\\' :: 'u' :: b, rfl⟩
      · cases h
    · cases h
  · cases h

theorem readUnicode_split {cs rest : List Char} {c : Char} (h : readUnicode lone cs = some (c, rest)) :
    ∃ b, cs = b ++ rest := by
  unfold readUnicode at h
  split at h
  · cases h
  · next n r read =>
    obtain ⟨b, rfl⟩ := readHex_split read
    split at h
    · split at h
      · next low r' pair =>
        have after : r' = rest := congrArg Prod.snd (Option.some.inj h)
        obtain ⟨b', rfl⟩ := readLow_split pair
        exact ⟨b ++ b', by rw [List.append_assoc, after]⟩
      · obtain ⟨_, -, e⟩ := Option.map_eq_some_iff.1 h
        cases e
        exact ⟨b, rfl⟩
    · split at h
      · obtain ⟨_, -, e⟩ := Option.map_eq_some_iff.1 h
        cases e
        exact ⟨b, rfl⟩
      · cases h
        exact ⟨b, rfl⟩

theorem readEscape_split {cs rest : List Char} {c : Char} (h : readEscape lone cs = some (c, rest)) :
    ∃ b, cs = b ++ rest := by
  unfold readEscape at h
  split at h
  case h_9 r =>
    obtain ⟨b, rfl⟩ := readUnicode_split h
    exact ⟨'u' :: b, rfl⟩
  case h_10 => cases h
  all_goals
    cases h
    exact ⟨[_], rfl⟩

theorem readString_ends {fuel : Nat} {cs s rest : List Char} (h : readString lone fuel cs = some (s, rest)) : Ends cs rest := by
  induction fuel generalizing cs s with
  | zero => cases h
  | succ fuel ih =>
    cases cs with
    | nil => cases h
    | cons c r =>
      rw [readString] at h
      split at h
      · next quote =>
        cases h
        subst quote
        exact Ends.head (by decide) (by decide)
      · split at h
        · split at h
          · cases h
          · next d r' escape =>
            obtain ⟨⟨s', rest'⟩, read, e⟩ := Option.map_eq_some_iff.1 h
            cases e
            obtain ⟨b, split_⟩ := readEscape_split escape
            exact split_ ▸ ((ih read).behind b).cons c
        · split at h
          · cases h
          · obtain ⟨⟨s', rest'⟩, read, e⟩ := Option.map_eq_some_iff.1 h
            cases e
            exact (ih read).cons c

theorem word_split {w cs rest : List Char} (h : word w cs = some rest) : cs = w ++ rest := by
  induction w generalizing cs with
  | nil => exact Option.some.inj h
  | cons c w ih =>
    cases cs with
    | nil => cases h
    | cons d cs =>
      rw [word] at h
      split at h
      · next same => rw [ih h, same, List.cons_append]
      · cases h

theorem Ends.of_word {w cs rest : List Char} (h : word w cs = some rest) {p : List Char} {c : Char} (e : w = p ++ [c])
    (low : 32 < c.toNat) (high : c.toNat < 127) : Ends cs rest := by
  refine ⟨p, c, ?_, low, high⟩
  rw [word_split h, e, List.append_assoc]
  rfl

/-- Every constant ends with a letter. -/
def letters (c : List Char × Json) : Bool :=
  c.1.getLast?.any fun last => 32 < last.toNat && last.toNat < 127

theorem constants_letters : constants.all letters = true := by
  decide +kernel

variable {hooks : Hooks}

theorem readScalar_ends {cs rest : List Char} {j : Json} (h : readScalar hooks cs = some (j, rest)) : Ends cs rest := by
  unfold readScalar at h
  split at h
  · next found search =>
    split at h
    · cases h
      obtain ⟨constant, known, match_⟩ := List.exists_of_findSome?_eq_some search
      obtain ⟨r, read, e⟩ := Option.map_eq_some_iff.1 match_
      cases e
      have letter := List.all_eq_true.1 constants_letters constant known
      obtain ⟨last, atEnd, visible⟩ := (Option.any_eq_true _ _).1 letter
      rw [Bool.and_eq_true, decide_eq_true_eq, decide_eq_true_eq] at visible
      obtain ⟨p, e⟩ := List.getLast?_eq_some_iff.1 atEnd
      exact Ends.of_word read e visible.1 visible.2
    · cases h
  · obtain ⟨⟨number, r⟩, read, h⟩ := Option.bind_eq_some_iff.1 h
    obtain ⟨_, -, e⟩ := Option.map_eq_some_iff.1 h
    cases e
    exact readNumber_ends read

/-! ## Values -/

/-- What the three readers take with some fuel ends with a visible character. -/
structure Fueled (hooks : Hooks) (fuel : Nat) : Prop where
  value : ∀ {cs rest j}, readValue hooks fuel cs = some (j, rest) → Ends cs rest
  items : ∀ {cs rest js}, readItems hooks fuel cs = some (js, rest) → Ends cs rest
  fields : ∀ {cs rest fs}, readFields hooks fuel cs = some (fs, rest) → Ends cs rest

theorem Fueled.value_succ {fuel : Nat} (ih : Fueled hooks fuel) {cs rest : List Char} {j : Json}
    (h : readValue hooks (fuel + 1) cs = some (j, rest)) : Ends cs rest := by
  unfold readValue at h
  split at h
  · next r =>
    obtain ⟨⟨s, r'⟩, read, e⟩ := Option.map_eq_some_iff.1 h
    cases e
    exact (readString_ends read).cons '"'
  · next r =>
    split at h
    · next closed =>
      cases h
      have tail := Ends.of_skip (closed ▸ @Ends.head ']' rest (by decide) (by decide))
      exact tail.cons '['
    · obtain ⟨⟨items, r'⟩, read, e⟩ := Option.map_eq_some_iff.1 h
      cases e
      exact (Ends.of_skip (ih.items read)).cons '['
  · next r =>
    split at h
    · next closed =>
      cases h
      have tail := Ends.of_skip (closed ▸ @Ends.head '}' rest (by decide) (by decide))
      exact tail.cons '{'
    · obtain ⟨⟨fields, r'⟩, read, h⟩ := Option.bind_eq_some_iff.1 h
      obtain ⟨kept, -, e⟩ := Option.map_eq_some_iff.1 h
      cases e
      exact (Ends.of_skip (ih.fields read)).cons '{'
  · exact readScalar_ends h

theorem Fueled.items_succ {fuel : Nat} (ih : Fueled hooks fuel) {cs rest : List Char} {js : List Json}
    (h : readItems hooks (fuel + 1) cs = some (js, rest)) : Ends cs rest := by
  unfold readItems at h
  split at h
  · cases h
  · next j r read =>
    have first := ih.value read
    split at h
    · next closed =>
      cases h
      exact first.trans (.inr (Ends.of_skip (closed ▸ Ends.head (by decide) (by decide))))
    · next r' comma =>
      obtain ⟨⟨more, r''⟩, next_, e⟩ := Option.map_eq_some_iff.1 h
      cases e
      have tail := (Ends.of_skip (ih.items next_)).cons ','
      exact first.trans (.inr (Ends.of_skip (comma ▸ tail)))
    · cases h

theorem Fueled.fields_succ {fuel : Nat} (ih : Fueled hooks fuel) {cs rest : List Char} {fs : List (String × Json)}
    (h : readFields hooks (fuel + 1) cs = some (fs, rest)) : Ends cs rest := by
  unfold readFields at h
  split at h
  · next r =>
    split at h
    · cases h
    · next k r1 key =>
      have name := (readString_ends key).cons '"'
      split at h
      · next r2 colon =>
        split at h
        · cases h
        · next j r3 read =>
          have value := (Ends.of_skip (ih.value read)).cons ':'
          have field := name.trans (.inr (Ends.of_skip (colon ▸ value)))
          split at h
          · next closed =>
            cases h
            exact field.trans (.inr (Ends.of_skip (closed ▸ Ends.head (by decide) (by decide))))
          · next r4 comma =>
            obtain ⟨⟨more, r''⟩, next_, e⟩ := Option.map_eq_some_iff.1 h
            cases e
            have tail := (Ends.of_skip (ih.fields next_)).cons ','
            exact field.trans (.inr (Ends.of_skip (comma ▸ tail)))
          · cases h
      · cases h
  · cases h

theorem fueled (fuel : Nat) : Fueled hooks fuel := by
  induction fuel with
  | zero =>
    constructor
    all_goals
      intro cs rest x h
      cases h
  | succ fuel ih => exact ⟨ih.value_succ, ih.items_succ, ih.fields_succ⟩

/-- **Where a value ends.** -/
theorem readValue_ends {fuel : Nat} {cs rest : List Char} {j : Json} (h : readValue hooks fuel cs = some (j, rest)) :
    Ends cs rest :=
  (fueled fuel).value h

/-- A text that reads as a value is that value's text up to a visible character, and blanks. -/
theorem loadsWith_ends {cs : List Char} {j : Json} (h : loadsWith hooks cs = some j) :
    ∃ p c b, cs = p ++ c :: b ∧ 32 < c.toNat ∧ c.toNat < 127 ∧ b.all isBlank = true := by
  unfold loadsWith at h
  split at h
  · next j' rest read =>
    split at h
    · next blank =>
      obtain ⟨p, c, e, low, high⟩ := (readValue_ends read).of_skip
      refine ⟨p, c, rest, e, low, high, List.all_eq_true.2 ?_⟩
      rw [skip, List.dropWhile_eq_nil_iff] at blank
      exact blank
    · cases h
  · cases h

end JsonText
