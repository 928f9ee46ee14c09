import DocumentQa.Lib.Spacing
import DocumentQa.Python.Text

/-!
# Searching and splitting text

`str.find` with a start, the loop over all its results that lets matches overlap, `strip`
as the removal of outer blanks, and `" ".join(text.split())`.
-/

namespace Python

open Spacing

/-- `" ".join(value.split())`. -/
def joinWords (value : String) : String :=
  String.ofList ([' '].intercalate (words isSpace value.toList))

/-- `value.split(sep)` of a separator that is not empty, so many characters of one skipped first. -/
def splitText (sep : List Char) : Nat → List Char → List (List Char)
  | _, [] => [[]]
  | skip + 1, _ :: cs => splitText sep skip cs
  | 0, c :: cs =>
    if sep.isPrefixOf (c :: cs) then [] :: splitText sep (sep.length - 1) cs
    else
      match splitText sep 0 cs with
      | [] => [[c]]
      | part :: parts => (c :: part) :: parts

/-- `haystack.find(needle, i)` of what is left of the haystack at `i`. -/
def findFrom (needle : List Char) : List Char → Nat → Option Nat
  | [], i => if needle.isEmpty then some i else none
  | c :: cs, i => if needle.isPrefixOf (c :: cs) then some i else findFrom needle cs (i + 1)

/-- `haystack.find(needle, cursor)`, `none` for -1. -/
def find (haystack needle : List Char) (cursor : Nat) : Option Nat :=
  findFrom needle (haystack.drop cursor) cursor

/-- `haystack.find(needle, cursor)` again and again, from `found + 1` the next time. -/
def findAll (haystack needle : List Char) : Nat → Nat → List Nat
  | 0, _ => []
  | fuel + 1, cursor =>
    match find haystack needle cursor with
    | none => []
    | some found => found :: findAll haystack needle fuel (found + 1)

/-- The places where the needle stands, the first position given. -/
def places (needle : List Char) : List Char → Nat → List Nat
  | [], _ => []
  | c :: cs, i => if needle.isPrefixOf (c :: cs) then i :: places needle cs (i + 1) else places needle cs (i + 1)

theorem splitText_ne_nil (sep : List Char) (skip : Nat) (t : List Char) : splitText sep skip t ≠ [] := by
  induction t generalizing skip with
  | nil => exact List.cons_ne_nil _ _
  | cons c cs ih =>
    cases skip with
    | succ skip =>
      rw [splitText]
      exact ih skip
    | zero =>
      rw [splitText]
      split
      · exact List.cons_ne_nil _ _
      · split
        · exact List.cons_ne_nil _ _
        · exact List.cons_ne_nil _ _

/-- The parts with the separator between them are the text. -/
theorem splitText_intercalate {sep : List Char} (some_ : sep ≠ []) (skip : Nat) (t : List Char) :
    sep.intercalate (splitText sep skip t) = t.drop skip := by
  induction t generalizing skip with
  | nil =>
    rw [List.drop_nil]
    rfl
  | cons c cs ih =>
    cases skip with
    | succ skip => rw [splitText, ih, List.drop_succ_cons]
    | zero =>
      rw [splitText]
      split
      · next here =>
        obtain ⟨rest, whole⟩ := List.isPrefixOf_iff_prefix.1 here
        obtain ⟨d, sep', rfl⟩ := List.exists_cons_of_ne_nil some_
        obtain ⟨rfl, behind⟩ := List.cons.inj whole
        replace behind : sep' ++ rest = cs := behind
        subst behind
        obtain ⟨part, parts, e⟩ := List.exists_cons_of_ne_nil (splitText_ne_nil (d :: sep') sep'.length (sep' ++ rest))
        have inner := ih sep'.length
        rw [List.drop_left] at inner
        show (d :: sep').intercalate ([] :: splitText (d :: sep') sep'.length (sep' ++ rest)) = d :: (sep' ++ rest)
        rw [e, List.intercalate_cons_cons, ← e, inner]
        rfl
      · have inner := ih 0
        obtain ⟨part, parts, e⟩ := List.exists_cons_of_ne_nil (splitText_ne_nil sep 0 cs)
        rw [List.drop_zero] at inner
        rw [e] at inner ⊢
        dsimp only
        rw [List.drop_zero, ← inner]
        cases parts with
        | nil => simp [List.intercalate_singleton]
        | cons next parts =>
          rw [List.intercalate_cons_cons, List.intercalate_cons_cons, List.cons_append, List.cons_append]

theorem findFrom_places {needle : List Char} (some_ : needle ≠ []) (hay : List Char) (i : Nat) :
    (findFrom needle hay i = none ∧ places needle hay i = []) ∨
      ∃ k < hay.length, findFrom needle hay i = some (i + k) ∧
        places needle hay i = (i + k) :: places needle (hay.drop (k + 1)) (i + k + 1) := by
  induction hay generalizing i with
  | nil =>
    left
    simp [findFrom, places, some_]
  | cons c cs ih =>
    rw [findFrom, places]
    split
    · exact .inr ⟨0, Nat.succ_pos _, rfl, rfl⟩
    · rcases ih (i + 1) with ⟨none_, empty⟩ | ⟨k, short, found, rest⟩
      · exact .inl ⟨none_, empty⟩
      · refine .inr ⟨k + 1, Nat.succ_lt_succ short, ?_, ?_⟩
        · rw [found, Nat.add_assoc, Nat.add_comm 1 k]
        · rw [rest, List.drop_succ_cons, Nat.add_assoc i 1 k, Nat.add_comm 1 k]

/-- The loop finds every place, in order. -/
theorem findAll_places {needle : List Char} (some_ : needle ≠ []) (hay : List Char) (fuel cursor : Nat)
    (enough : hay.length < fuel + cursor) : findAll hay needle fuel cursor = places needle (hay.drop cursor) cursor := by
  induction fuel generalizing cursor with
  | zero =>
    rw [List.drop_eq_nil_of_le (by omega)]
    rfl
  | succ fuel ih =>
    rw [findAll, find]
    rcases findFrom_places some_ (hay.drop cursor) cursor with ⟨none_, empty⟩ | ⟨k, short, found, rest⟩
    · rw [none_, empty]
    · rw [found, rest, List.drop_drop, ← Nat.add_assoc]
      dsimp only
      rw [ih (cursor + k + 1) (by omega)]

theorem mem_places {needle hay : List Char} {i j : Nat} (some_ : needle ≠ []) :
    j ∈ places needle hay i ↔ ∃ x y, hay = x ++ (needle ++ y) ∧ j = i + x.length := by
  induction hay generalizing i with
  | nil =>
    simp [places, some_]
  | cons c cs ih =>
    have split_ : (∃ x y, c :: cs = x ++ (needle ++ y) ∧ j = i + x.length) ↔
        (needle <+: c :: cs ∧ j = i) ∨ ∃ x y, cs = x ++ (needle ++ y) ∧ j = i + 1 + x.length := by
      constructor
      · rintro ⟨x, y, e, rfl⟩
        cases x with
        | nil => exact .inl ⟨⟨y, e.symm⟩, rfl⟩
        | cons d x =>
          obtain ⟨rfl, rfl⟩ := List.cons.inj e
          exact .inr ⟨x, y, rfl, by rw [List.length_cons]; omega⟩
      · rintro (⟨⟨y, e⟩, rfl⟩ | ⟨x, y, rfl, rfl⟩)
        · exact ⟨[], y, e.symm, rfl⟩
        · exact ⟨c :: x, y, rfl, by rw [List.length_cons]; omega⟩
    rw [split_, ← ih, places]
    split
    · next stands => simp [List.isPrefixOf_iff_prefix.1 stands]
    · next off =>
      rw [List.isPrefixOf_iff_prefix] at off
      simp [off]

theorem places_ascending (needle hay : List Char) (i : Nat) :
    (places needle hay i).Pairwise (· < ·) ∧ ∀ j ∈ places needle hay i, i ≤ j := by
  induction hay generalizing i with
  | nil => exact ⟨List.Pairwise.nil, fun _ mem => absurd mem List.not_mem_nil⟩
  | cons c cs ih =>
    obtain ⟨order, above⟩ := ih (i + 1)
    rw [places]
    split
    · refine ⟨List.Pairwise.cons (fun j mem => above j mem) order, ?_⟩
      intro j mem
      rcases List.mem_cons.1 mem with rfl | mem
      · exact Nat.le_refl j
      · exact Nat.le_of_succ_le (above j mem)
    · exact ⟨order, fun j mem => Nat.le_of_succ_le (above j mem)⟩

/-- `find` gives the first place from the cursor on. -/
theorem find_eq_some {hay needle : List Char} {cursor k : Nat} (some_ : needle ≠ [])
    (h : find hay needle cursor = some k) :
    (∃ x y, hay = x ++ (needle ++ y) ∧ x.length = k) ∧
      ∀ x y, hay = x ++ (needle ++ y) → cursor ≤ x.length → k ≤ x.length := by
  have drops : ∀ x y, hay = x ++ (needle ++ y) → cursor ≤ x.length →
      hay.drop cursor = x.drop cursor ++ (needle ++ y) := by
    intro x y whole later
    rw [whole, List.drop_append_of_le_length later]
  rcases findFrom_places some_ (hay.drop cursor) cursor with ⟨none_, -⟩ | ⟨j, short, found, rest⟩
  · rw [find, none_] at h
    cases h
  · rw [find, found] at h
    obtain rfl := Option.some.inj h
    constructor
    · have mem : cursor + j ∈ places needle (hay.drop cursor) cursor := by
        rw [rest]
        exact List.mem_cons_self ..
      obtain ⟨x, y, whole, same⟩ := (mem_places some_).1 mem
      rw [List.length_drop] at short
      refine ⟨hay.take cursor ++ x, y, ?_, ?_⟩
      · rw [List.append_assoc, ← whole, List.take_append_drop]
      · rw [List.length_append, List.length_take]
        omega
    · intro x y whole later
      have mem : x.length ∈ places needle (hay.drop cursor) cursor := by
        apply (mem_places some_).2
        refine ⟨x.drop cursor, y, drops x y whole later, ?_⟩
        rw [List.length_drop]
        omega
      rw [rest] at mem
      rcases List.mem_cons.1 mem with same | after
      · exact Nat.le_of_eq same.symm
      · have := (places_ascending needle _ _).2 _ after
        omega

theorem find_eq_none {hay needle : List Char} (some_ : needle ≠ []) :
    find hay needle 0 = none ↔ ¬ needle <:+: hay := by
  constructor
  · intro h
    rintro ⟨x, y, whole⟩
    rcases findFrom_places some_ (hay.drop 0) 0 with ⟨-, empty⟩ | ⟨j, -, found, -⟩
    · have mem : 0 + x.length ∈ places needle (hay.drop 0) 0 := by
        apply (mem_places some_).2
        refine ⟨x, y, ?_, rfl⟩
        rw [List.drop_zero, ← whole, List.append_assoc]
      rw [empty] at mem
      cases mem
    · rw [find, found] at h
      cases h
  · intro absent
    cases found : find hay needle 0 with
    | none => rfl
    | some k =>
      obtain ⟨⟨x, y, whole, -⟩, -⟩ := find_eq_some some_ found
      exact absurd ⟨x, y, by rw [whole, List.append_assoc]⟩ absent

/-- A text is what `strip` leaves and the blanks around it. -/
theorem stripBy_parts (p : Char → Bool) (cs : List Char) :
    ∃ trail, cs = cs.takeWhile p ++ (stripBy p cs ++ trail) ∧ cs.dropWhile p = stripBy p cs ++ trail ∧
      (∀ c ∈ cs.takeWhile p, p c = true) ∧ (∀ c ∈ trail, p c = true) ∧
      ((opens p (stripBy p cs) = true ∧ closes p (stripBy p cs) = true) ∨ stripBy p cs = [] ∧ trail = []) := by
  have back : cs.dropWhile p = stripBy p cs ++ ((cs.dropWhile p).reverse.takeWhile p).reverse := by
    rw [stripBy, ← List.reverse_append, List.takeWhile_append_dropWhile, List.reverse_reverse]
  refine ⟨((cs.dropWhile p).reverse.takeWhile p).reverse, ?_, back, ?_, ?_, ?_⟩
  · rw [← back, List.takeWhile_append_dropWhile]
  · exact fun c mem => List.mem_takeWhile_imp mem
  · exact fun c mem => List.mem_takeWhile_imp (List.mem_reverse.1 mem)
  · rcases @dropWhile_blank _ p cs with open_ | empty
    · left
      have close : closes p (stripBy p cs) = true := by
        rcases @dropWhile_blank _ p (cs.dropWhile p).reverse with solid | none_
        · obtain ⟨c, s, e, solid⟩ := opens_iff.1 solid
          refine closes_iff.2 ⟨s.reverse, c, ?_, solid⟩
          rw [stripBy, e, List.reverse_cons]
        · obtain ⟨c, s, e, solid⟩ := opens_iff.1 open_
          rw [List.dropWhile_eq_nil_iff] at none_
          have all := none_ c (by rw [e]; simp)
          rw [solid] at all
          cases all
      refine ⟨?_, close⟩
      obtain ⟨s, c, e, -⟩ := closes_iff.1 close
      rwa [back, opens_append (by rw [e]; simp)] at open_
    · right
      rw [stripBy, empty]
      exact ⟨rfl, rfl⟩

/-- Stripping cuts the blanks around a text that has none at its ends. -/
theorem stripBy_between {p : Char → Bool} {lead s trail : List Char} (front : ∀ c ∈ lead, p c = true)
    (back : ∀ c ∈ trail, p c = true) (open_ : opens p s = true) (close : closes p s = true) :
    stripBy p (lead ++ (s ++ trail)) = s := by
  obtain ⟨c, s', e, first⟩ := opens_iff.1 open_
  obtain ⟨s'', d, e', last⟩ := closes_iff.1 close
  have dropLead : (lead ++ (s ++ trail)).dropWhile p = s ++ trail := by
    rw [List.dropWhile_append_of_pos front, e, List.cons_append, List.dropWhile_cons_of_neg (by simp [first])]
  have dropTrail : (s ++ trail).reverse.dropWhile p = s.reverse := by
    rw [List.reverse_append, List.dropWhile_append_of_pos fun x mem => back x (List.mem_reverse.1 mem), e',
      List.reverse_append]
    exact List.dropWhile_cons_of_neg (by simp [last])
  rw [stripBy, dropLead, dropTrail, List.reverse_reverse]

theorem stripBy_idem (p : Char → Bool) (cs : List Char) : stripBy p (stripBy p cs) = stripBy p cs := by
  obtain ⟨trail, -, -, -, -, inner⟩ := stripBy_parts p cs
  rcases inner with ⟨open_, close⟩ | ⟨empty, -⟩
  · have whole := @stripBy_between p [] (stripBy p cs) [] (by simp) (by simp) open_ close
    rwa [List.nil_append, List.append_nil] at whole
  · rw [empty]
    rfl

theorem stripBy_subset {p : Char → Bool} {cs : List Char} {c : Char} (mem : c ∈ stripBy p cs) : c ∈ cs := by
  obtain ⟨trail, whole, -⟩ := stripBy_parts p cs
  rw [whole]
  exact List.mem_append_right _ (List.mem_append_left _ mem)

/-! ## One character as the separator -/

theorem splitOn_ne_nil (sep : Char) (cs : List Char) : splitOn sep cs ≠ [] := by
  cases cs with
  | nil => simp [splitOn]
  | cons c cs =>
    rw [splitOn]
    split
    · simp
    · split <;> simp

theorem splitOn_line {sep : Char} {line : List Char} (whole : sep ∉ line) (rest : List Char) :
    splitOn sep (line ++ sep :: rest) = line :: splitOn sep rest := by
  induction line with
  | nil => rw [List.nil_append, splitOn, if_pos rfl]
  | cons c cs ih =>
    rw [List.mem_cons, not_or] at whole
    rw [List.cons_append, splitOn, if_neg (Ne.symm whole.1), ih whole.2]

theorem splitOn_whole {sep : Char} {line : List Char} (whole : sep ∉ line) : splitOn sep line = [line] := by
  induction line with
  | nil => rfl
  | cons c cs ih =>
    rw [List.mem_cons, not_or] at whole
    rw [splitOn, if_neg (Ne.symm whole.1), ih whole.2]

/-- The text before the first separator, and the text behind it. -/
theorem separated_injective {sep : Char} {a b x y : List Char} (ha : sep ∉ a) (hb : sep ∉ b)
    (h : a ++ sep :: x = b ++ sep :: y) : a = b ∧ x = y := by
  induction a generalizing b with
  | nil =>
    cases b with
    | nil => exact ⟨rfl, (List.cons.inj h).2⟩
    | cons d b => exact absurd (List.mem_cons.2 (.inl (List.cons.inj h).1)) hb
  | cons c a ih =>
    cases b with
    | nil => exact absurd (List.mem_cons.2 (.inl (List.cons.inj h).1.symm)) ha
    | cons d b =>
      obtain ⟨head, tail⟩ := List.cons.inj h
      obtain ⟨rfl, rest⟩ := ih (fun mem => ha (List.mem_cons_of_mem _ mem)) (fun mem => hb (List.mem_cons_of_mem _ mem)) tail
      exact ⟨by rw [head], rest⟩

/-- The parts do not hold the separator and stand in the text. -/
theorem mem_splitOn {sep : Char} {cs part : List Char} (mem : part ∈ splitOn sep cs) : sep ∉ part ∧ part <:+: cs := by
  have parts : (∀ first ∈ (splitOn sep cs).head?, sep ∉ first ∧ first <+: cs) ∧
      ∀ later ∈ (splitOn sep cs).tail, sep ∉ later ∧ later <:+: cs := by
    clear mem
    induction cs with
    | nil => simp [splitOn]
    | cons c cs ih =>
      obtain ⟨first, later, e⟩ := List.exists_cons_of_ne_nil (splitOn_ne_nil sep cs)
      rw [e, List.head?_cons, List.tail_cons] at ih
      have inside := ih.1 first rfl
      rw [splitOn, e]
      by_cases here : c = sep
      · rw [if_pos here, List.head?_cons, List.tail_cons]
        constructor
        · rintro _ ⟨⟩
          exact ⟨List.not_mem_nil, List.nil_prefix⟩
        · intro part mem
          rcases List.mem_cons.1 mem with rfl | mem
          · exact ⟨inside.1, inside.2.isInfix.trans (List.suffix_cons c cs).isInfix⟩
          · exact ⟨(ih.2 part mem).1, (ih.2 part mem).2.trans (List.suffix_cons c cs).isInfix⟩
      · rw [if_neg here]
        constructor
        · rintro _ ⟨⟩
          refine ⟨?_, (List.prefix_cons_inj c).2 inside.2⟩
          rw [List.mem_cons, not_or]
          exact ⟨Ne.symm here, inside.1⟩
        · intro part mem
          exact ⟨(ih.2 part mem).1, (ih.2 part mem).2.trans (List.suffix_cons c cs).isInfix⟩
  obtain ⟨first, later, e⟩ := List.exists_cons_of_ne_nil (splitOn_ne_nil sep cs)
  rw [e] at mem parts
  rcases List.mem_cons.1 mem with rfl | mem
  · exact ⟨(parts.1 part rfl).1, (parts.1 part rfl).2.isInfix⟩
  · exact parts.2 part mem

/-- The parts of a text written with the separator between them. -/
theorem splitOn_intercalate {sep : Char} {parts : List (List Char)} (some_ : parts ≠ [])
    (whole : ∀ part ∈ parts, sep ∉ part) : splitOn sep ([sep].intercalate parts) = parts := by
  induction parts with
  | nil => exact absurd rfl some_
  | cons part parts ih =>
    cases parts with
    | nil =>
      rw [List.intercalate_singleton]
      exact splitOn_whole (whole part (by simp))
    | cons next rest =>
      rw [List.intercalate_cons_cons, List.append_assoc, List.singleton_append, splitOn_line (whole part (by simp)),
        ih (List.cons_ne_nil _ _) fun part mem => whole part (List.mem_cons_of_mem _ mem)]

/-- `needle in haystack`. -/
theorem isInfix_iff {needle hay : List Char} : isInfix needle hay = true ↔ needle <:+: hay := by
  induction hay with
  | nil =>
    rw [isInfix, List.isEmpty_iff, List.infix_nil]
  | cons c cs ih =>
    rw [isInfix, Bool.or_eq_true, List.isPrefixOf_iff_prefix, ih, List.infix_cons_iff]

end Python
