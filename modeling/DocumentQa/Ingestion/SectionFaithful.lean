import DocumentQa.Ingestion.SectionExtractor
import DocumentQa.Python.Search

/-!
# Sections are parts of the filing

`Faithful` says what a filing's sections should be. They are so if and only if no heading and
no end boundary of the text stands behind an `İ` (`extractSections_faithful`).
-/

namespace Ingestion

open Python Spacing Regex Expansion

variable (u : LowerTables)

/-! ## Places of headings and boundaries -/

/-- A boundary is spelled by `w` before `left`. -/
def Boundary.Matches (b : Boundary) (w left : List Char) : Prop :=
  Spells b.body w ∧ (b.closed = true → u.isBoundary w.getLast? left = true)

/-- A boundary is found in the lower-cased text at `k`. -/
def FoundAt (b : Boundary) (lowered : List Char) (k : Nat) (w : List Char) : Prop :=
  ∃ left, lowered.drop k = w ++ left ∧ b.Matches u w left

/-- The characters of the text from `j` on begin, in lower case, with a boundary. -/
def PlaceAt (b : Boundary) (text : List Char) (j : Nat) (w : List Char) : Prop :=
  FoundAt u b (u.lowerFrom (text.take j).reverse (text.drop j)) 0 w

/-- One of the boundaries is found at `k`. -/
def EndFound (patterns : List Boundary) (lowered : List Char) (k : Nat) : Prop :=
  ∃ b ∈ patterns, ∃ w, FoundAt u b lowered k w

/-- One of the boundaries begins at `j`. -/
def EndAt (patterns : List Boundary) (text : List Char) (j : Nat) : Prop :=
  ∃ b ∈ patterns, ∃ w, PlaceAt u b text j w

/-- The position of the character that the character at `k` of the lower-cased text comes from. -/
def originOf (text : List Char) (k : Nat) : Nat :=
  (offsets u.lowerOne 0 (contexts [] text)).getD k 0

/-! ## What the sections should be -/

/-- The content begins at a heading and is the text up to the first boundary behind the heading where
that is long enough, or up to the end of the text, without trailing noise. -/
structure FaithfulSection (text : List Char) (name : SectionName) (content : List Char) : Prop where
  long : minValidSectionLength ≤ content.length
  cut : ∃ start w stop, PlaceAt u name.heading text start w ∧ content <+: text.drop start ∧
    content = cleaned text start stop ∧
    (stop = text.length ∨ (start + w.length ≤ stop ∧ EndAt u name.ends text stop)) ∧
    ∀ k, start + w.length ≤ k → k < stop → EndAt u name.ends text k →
      (cleaned text start k).length < minValidSectionLength

/-- The extraction ends, positions found in the lower-cased text are those of the text, and every
section is faithful. -/
structure Faithful (text : List Char) : Prop where
  positions : ∀ name : SectionName, ∀ b ∈ name.heading :: name.ends, ∀ k w, FoundAt u b (u.lower text) k w →
    originOf u text k = k
  sections : ∃ result, extractSections u text = some result ∧
    ∀ found ∈ result.sections, FaithfulSection u text found.1 found.2

/-- No heading and no end boundary stands behind an `İ`. -/
def NoneBehindDotted (text : List Char) : Prop :=
  ∀ name : SectionName, ∀ b ∈ name.heading :: name.ends, ∀ j w, PlaceAt u b text j w → 'İ' ∉ text.take j

variable {u}

/-! ## Lower case -/

theorem contexts_drop (before x y : List Char) :
    (contexts before (x ++ y)).drop x.length = contexts (x.reverse ++ before) y := by
  induction x generalizing before with
  | nil => rfl
  | cons c x ih =>
    rw [List.cons_append, contexts, List.length_cons, List.drop_succ_cons, ih, List.reverse_cons, List.append_assoc]
    rfl

theorem contexts_chars (before text : List Char) : (contexts before text).map (·.2.1) = text := by
  induction text generalizing before with
  | nil => rfl
  | cons c text ih => rw [contexts, List.map_cons, ih]

theorem contexts_length (before text : List Char) : (contexts before text).length = text.length := by
  have same := congrArg List.length (contexts_chars before text)
  rwa [List.length_map] at same

/-- Every `İ` makes the lower-cased text one character longer. -/
theorem lower_length (l : List (List Char × Char × List Char)) :
    (l.flatMap u.lowerOne).length = l.length + (l.map (·.2.1)).count 'İ' := by
  induction l with
  | nil => rfl
  | cons x l ih =>
    obtain ⟨before, c, after⟩ := x
    rw [List.flatMap_cons, List.length_append, ih, List.length_cons, List.map_cons, LowerTables.lowerOne]
    by_cases dotted : c = 'İ'
    · subst dotted
      rw [u.lower_dotted, List.count_cons_self, List.length_cons, List.length_singleton]
      omega
    · rw [u.lower_one _ _ _ dotted, List.count_cons_of_ne dotted]
      omega

/-- The lower case of the first `j` characters. -/
def LowerTables.lowerTake (u : LowerTables) (text : List Char) (j : Nat) : List Char :=
  ((contexts [] text).take j).flatMap u.lowerOne

theorem lowerTake_length {text : List Char} {j : Nat} (within : j ≤ text.length) :
    (u.lowerTake text j).length = j + (text.take j).count 'İ' := by
  rw [LowerTables.lowerTake, lower_length, List.length_take, contexts_length, List.map_take, contexts_chars,
    Nat.min_eq_left within]

/-- The lower-cased text from the place of a character on. -/
theorem lower_drop (text : List Char) (j : Nat) :
    (u.lower text).drop (u.lowerTake text j).length = u.lowerFrom (text.take j).reverse (text.drop j) := by
  have rest : (contexts [] text).drop j = contexts (text.take j).reverse (text.drop j) := by
    rcases Nat.le_or_le j text.length with within | beyond
    · have cut := contexts_drop [] (text.take j) (text.drop j)
      rwa [List.take_append_drop, List.append_nil, List.length_take, Nat.min_eq_left within] at cut
    · rw [List.drop_eq_nil_of_le (by rwa [contexts_length]), List.drop_eq_nil_of_le beyond]
      rfl
  have parts : u.lower text = u.lowerTake text j ++ u.lowerFrom (text.take j).reverse (text.drop j) := by
    rw [LowerTables.lower, LowerTables.lowerFrom, LowerTables.lowerTake, LowerTables.lowerFrom, ← rest, ← List.flatMap_append,
      List.take_append_drop]
  rw [parts, List.drop_left]

/-! ## What a pattern of a boundary matches -/

/-- A boundary that begins with a letter and has no test inside. -/
def Boundary.wellFormed (b : Boundary) : Bool :=
  b.tail.plain && b.keyword.toList.head?.any fun c => ['i', 's', 'r'].contains c

theorem boundaries_wellFormed (name : SectionName) : ∀ b ∈ name.heading :: name.ends, b.wellFormed = true := by
  have all : (name.heading :: name.ends).all Boundary.wellFormed = true := by
    cases name <;> decide
  exact List.all_eq_true.1 all

theorem literal_plain (text : String) : (literal text).plain = true := by
  have all : ∀ cs : List Char, (word (· == ·) cs : Regex Char String).plain = true := by
    intro cs
    induction cs with
    | nil => rfl
    | cons c cs ih =>
      rw [word, Regex.plain, ih]
      rfl
  exact all text.toList

theorem Boundary.body_plain {b : Boundary} (h : b.wellFormed = true) : b.body.plain = true := by
  rw [Boundary.wellFormed, Bool.and_eq_true] at h
  rw [Boundary.body, Regex.plain, literal_plain, h.1]
  rfl

/-- What a boundary spells begins with one of three letters. -/
theorem Boundary.spells_head {b : Boundary} (h : b.wellFormed = true) {w : List Char} (spells : Spells b.body w) :
    ∃ c w', w = c :: w' ∧ c ∈ ['i', 's', 'r'] := by
  rw [Boundary.wellFormed, Bool.and_eq_true] at h
  obtain ⟨x, y, one, -, rfl⟩ := spells_seq.1 spells
  obtain rfl := spells_word.1 one
  cases parts : b.keyword.toList with
  | nil =>
    rw [parts] at h
    exact absurd h.2 Bool.false_ne_true
  | cons c cs =>
    rw [parts] at h
    exact ⟨c, cs ++ y, rfl, List.contains_iff_mem.1 h.2⟩

theorem regex_reads {b : Boundary} (h : b.wellFormed = true) {s t : Cursor Char String} (reads : Reads (b.regex u) s t) :
    ∃ w, s.rest = w ++ t.rest ∧ t.before = w.reverse ++ s.before ∧ b.Matches u w t.rest := by
  obtain ⟨w, spells, rest, before, ok⟩ := reads_guarded (Boundary.body_plain h) reads
  refine ⟨w, rest, before, spells, ?_⟩
  intro closed
  obtain ⟨c, w', rfl, -⟩ := Boundary.spells_head h spells
  rw [closed, before, List.head?_append, List.head?_reverse] at ok
  cases last : (c :: w').getLast? with
  | none => exact absurd (List.getLast?_eq_none_iff.1 last) (List.cons_ne_nil _ _)
  | some d =>
    rw [last] at ok
    exact ok

theorem matches_reads {b : Boundary} (h : b.wellFormed = true) {w left : List Char} (matches_ : b.Matches u w left)
    (before : List Char) : ∃ t, Reads (b.regex u) ⟨before, w ++ left, []⟩ t := by
  obtain ⟨groups, reads⟩ := matches_.1.reads before left []
  refine ⟨_, .seq reads (.look ?_)⟩
  obtain ⟨c, w', rfl, -⟩ := Boundary.spells_head h matches_.1
  cases closed : b.closed with
  | false => rfl
  | true =>
    have ok := matches_.2 closed
    cases last : (c :: w').getLast? with
    | none => exact absurd (List.getLast?_eq_none_iff.1 last) (List.cons_ne_nil _ _)
    | some d =>
      rw [last] at ok
      rw [List.head?_append, List.head?_reverse, last]
      exact ok

theorem FoundAt.lt {b : Boundary} (h : b.wellFormed = true) {lowered w : List Char} {k : Nat} (found : FoundAt u b lowered k w) :
    k + w.length ≤ lowered.length ∧ 0 < w.length := by
  obtain ⟨left, rest, spells, -⟩ := found
  obtain ⟨c, w', rfl, -⟩ := Boundary.spells_head h spells
  have size := congrArg List.length rest
  rw [List.length_drop, List.length_append, List.length_cons] at size
  rw [List.length_cons]
  omega

/-! ## Positions -/

theorem PlaceAt.lt {b : Boundary} (h : b.wellFormed = true) {text w : List Char} {j : Nat} (place : PlaceAt u b text j w) :
    j < text.length := by
  by_contra beyond
  have bounds := FoundAt.lt h place
  rw [List.drop_eq_nil_of_le (Nat.le_of_not_lt beyond)] at bounds
  have none_ : (u.lowerFrom (text.take j).reverse []).length = 0 := rfl
  omega

theorem place_found {b : Boundary} {text w : List Char} {j : Nat} (place : PlaceAt u b text j w) :
    FoundAt u b (u.lower text) (u.lowerTake text j).length w := by
  obtain ⟨left, rest, matches_⟩ := place
  exact ⟨left, by rw [lower_drop, ← rest, List.drop_zero], matches_⟩

/-- The character at a place is expanded there. -/
theorem originOf_place {text : List Char} {j : Nat} (within : j < text.length) :
    originOf u text (u.lowerTake text j).length = j := by
  have inside : j < (contexts [] text).length := by rwa [contexts_length]
  have parts := (List.take_append_drop j (contexts [] text)).symm
  rw [List.drop_eq_getElem_cons inside] at parts
  have some_ : 0 < (u.lowerOne (contexts [] text)[j]).length := by
    have one := @lower_length u [(contexts [] text)[j]]
    rw [List.flatMap_cons, List.flatMap_nil, List.append_nil, List.length_singleton] at one
    omega
  have origin := offsets_eq 0 ((contexts [] text).drop (j + 1))
    (Nat.le_refl (((contexts [] text).take j).flatMap u.lowerOne).length) (Nat.lt_add_of_pos_right some_)
  rw [← parts, List.length_take, contexts_length, Nat.min_eq_left (Nat.le_of_lt within), Nat.zero_add] at origin
  exact origin

/-- A boundary found in the lower-cased text is at the place of a character. -/
theorem found_place {b : Boundary} (h : b.wellFormed = true) {text w : List Char} {k : Nat}
    (found : FoundAt u b (u.lower text) k w) : ∃ j, k = (u.lowerTake text j).length ∧ PlaceAt u b text j w := by
  have bounds := found.lt h
  obtain ⟨left, rest, matches_⟩ := found
  have inside : k < ((contexts [] text).flatMap u.lowerOne).length := Nat.lt_of_lt_of_le (by omega) bounds.1
  obtain ⟨pre, x, post, parts, low, high⟩ := split_at inside
  have front : u.lowerTake text pre.length = pre.flatMap u.lowerOne := by
    rw [LowerTables.lowerTake, parts, List.take_left]
  have at_ : k = (u.lowerTake text pre.length).length := by
    rw [front]
    by_contra off
    -- only the second half of an `İ` stands inside a character
    obtain ⟨i, rfl⟩ := Nat.exists_eq_add_of_le low
    have dotted : x.2.1 = 'İ' := by
      by_contra plain_
      rw [LowerTables.lowerOne, u.lower_one _ _ _ plain_] at high
      omega
    have halves : u.lowerOne x = ['i', '\u0307'] := by rw [LowerTables.lowerOne, dotted, u.lower_dotted]
    rw [halves, List.length_cons, List.length_singleton] at high
    obtain rfl : i = 1 := by omega
    have whole : u.lower text = (pre.flatMap u.lowerOne ++ ['i']) ++ '\u0307' :: post.flatMap u.lowerOne := by
      rw [LowerTables.lower, LowerTables.lowerFrom, parts, List.flatMap_append, List.flatMap_cons, halves, List.append_assoc]
      rfl
    have second : (u.lower text).drop ((pre.flatMap u.lowerOne).length + 1) = '\u0307' :: post.flatMap u.lowerOne := by
      rw [whole]
      exact List.drop_left' (by rw [List.length_append, List.length_singleton])
    obtain ⟨c, w', rfl, mem⟩ := Boundary.spells_head h matches_.1
    rw [second] at rest
    obtain rfl : '\u0307' = c := (List.cons.inj rest).1
    exact absurd mem (by decide)
  refine ⟨pre.length, at_, left, ?_, matches_⟩
  rw [List.drop_zero, ← lower_drop, ← at_, rest]

/-- **Positions in the lower-cased text are those of the text exactly when no heading and no end
boundary stands behind an `İ`.** -/
theorem positions_iff (text : List Char) :
    (∀ name : SectionName, ∀ b ∈ name.heading :: name.ends, ∀ k w, FoundAt u b (u.lower text) k w →
      originOf u text k = k) ↔ NoneBehindDotted u text := by
  constructor
  · intro h name b mem j w place
    have within := place.lt (boundaries_wellFormed name b mem)
    have same := h name b mem _ w (place_found place)
    rw [originOf_place within, lowerTake_length (Nat.le_of_lt within)] at same
    exact List.count_eq_zero.1 (by omega)
  · intro h name b mem k w found
    obtain ⟨j, rfl, place⟩ := found_place (boundaries_wellFormed name b mem) found
    have within := place.lt (boundaries_wellFormed name b mem)
    have none_ := List.count_eq_zero.2 (h name b mem j w place)
    rw [originOf_place within, lowerTake_length (Nat.le_of_lt within), none_, Nat.add_zero]

/-- Then what is found is found at its place. -/
theorem NoneBehindDotted.found_iff {text : List Char} (h : NoneBehindDotted u text) {name : SectionName} {b : Boundary}
    (mem : b ∈ name.heading :: name.ends) {k : Nat} {w : List Char} :
    FoundAt u b (u.lower text) k w ↔ PlaceAt u b text k w := by
  constructor
  · intro found
    obtain ⟨j, rfl, place⟩ := found_place (boundaries_wellFormed name b mem) found
    have within := place.lt (boundaries_wellFormed name b mem)
    have none_ := List.count_eq_zero.2 (h name b mem j w place)
    rwa [lowerTake_length (Nat.le_of_lt within), none_, Nat.add_zero]
  · intro place
    have within := place.lt (boundaries_wellFormed name b mem)
    have none_ := List.count_eq_zero.2 (h name b mem k w place)
    have found := place_found place
    rwa [lowerTake_length (Nat.le_of_lt within), none_, Nat.add_zero] at found

/-! ## Candidates -/

theorem mem_endCandidates {lowered : List Char} {patterns : List Boundary} {startPos k : Nat} :
    k ∈ endCandidates u lowered patterns startPos ↔
      ∃ b ∈ patterns, ∃ m ∈ (b.regex u).finditer (lowered.drop startPos), startPos + m.1.before.length = k := by
  rw [endCandidates, (List.perm_insertionSort _ _).mem_iff, List.mem_dedup, List.mem_flatMap]
  simp only [List.mem_map]

/-- A match stands where its boundary is found. -/
theorem finditer_found {b : Boundary} (h : b.wellFormed = true) {lowered : List Char} {startPos : Nat}
    {m : Cursor Char String × Cursor Char String} (mem : m ∈ (b.regex u).finditer (lowered.drop startPos)) :
    ∃ w, FoundAt u b lowered (startPos + m.1.before.length) w ∧ m.2.before.length = m.1.before.length + w.length := by
  obtain ⟨reads, whole⟩ := mem_iterate mem
  obtain ⟨w, rest, before, matches_⟩ := regex_reads h reads
  refine ⟨w, ⟨m.2.rest, ?_, matches_⟩, ?_⟩
  · rw [← List.drop_drop, ← show m.1.before.reverse ++ m.1.rest = lowered.drop startPos from whole, ← rest]
    exact List.drop_left' (List.length_reverse ..)
  · rw [before, List.length_append, List.length_reverse, Nat.add_comm]

/-- **The first candidate is the first place behind the start where a boundary is found.** -/
theorem endCandidates_spec {lowered : List Char} {patterns : List Boundary} (h : ∀ b ∈ patterns, b.wellFormed = true)
    (startPos : Nat) :
    (endCandidates u lowered patterns startPos = [] ∧ ∀ k, startPos ≤ k → ¬ EndFound u patterns lowered k) ∨
      ∃ stop later, endCandidates u lowered patterns startPos = stop :: later ∧ startPos ≤ stop ∧
        EndFound u patterns lowered stop ∧ ∀ k, startPos ≤ k → k < stop → ¬ EndFound u patterns lowered k := by
  have listed : ∀ k, startPos ≤ k → EndFound u patterns lowered k →
      ∃ e ∈ endCandidates u lowered patterns startPos, e ≤ k := by
    rintro k after ⟨b, mem, w, found⟩
    have bounds := found.lt (h b mem)
    obtain ⟨left, rest, matches_⟩ := found
    have parts : lowered.drop startPos = (lowered.drop startPos).take (k - startPos) ++ (w ++ left) := by
      rw [← rest, show lowered.drop k = (lowered.drop startPos).drop (k - startPos) by rw [List.drop_drop]; congr 1; omega,
        List.take_append_drop]
    obtain ⟨t, reads⟩ := matches_reads (h b mem) matches_ (((lowered.drop startPos).take (k - startPos)).reverse ++ [])
    obtain ⟨m, known, early⟩ := @iterate_least _ _ _ (lowered.drop startPos).length _ _ _ _ parts _ reads
    refine ⟨_, mem_endCandidates.2 ⟨b, mem, m, known, rfl⟩, ?_⟩
    rw [List.length_nil, Nat.zero_add, List.length_take] at early
    omega
  cases candidates : endCandidates u lowered patterns startPos with
  | nil =>
    left
    refine ⟨rfl, ?_⟩
    intro k after found
    obtain ⟨e, mem, -⟩ := listed k after found
    rw [candidates] at mem
    cases mem
  | cons stop later =>
    right
    have sorted : (stop :: later).Pairwise (· ≤ ·) := by
      rw [← candidates]
      exact List.pairwise_insertionSort _ _
    obtain ⟨b, mem, m, known, rfl⟩ := mem_endCandidates.1 (by rw [candidates]; exact List.mem_cons_self ..)
    obtain ⟨w, found, -⟩ := finditer_found (h b mem) known
    refine ⟨_, later, rfl, Nat.le_add_right _ _, ⟨b, mem, w, found⟩, ?_⟩
    intro k after before_ found'
    obtain ⟨e, mem', early⟩ := listed k after found'
    rw [candidates] at mem'
    rcases List.mem_cons.1 mem' with rfl | mem'
    · omega
    · have := (List.pairwise_cons.1 sorted).1 e mem'
      omega

/-! ## Contents -/

/-- The content is the text up to the first boundary found where it is long enough, or up to the end. -/
def Ended (u : LowerTables) (text lowered : List Char) (patterns : List Boundary) (start headingEnd : Nat)
    (content : List Char) : Prop :=
  minValidSectionLength ≤ content.length ∧ ∃ stop, content = cleaned text start stop ∧
    (stop = text.length ∨ (headingEnd ≤ stop ∧ EndFound u patterns lowered stop)) ∧
    ∀ k, headingEnd ≤ k → k < stop → EndFound u patterns lowered k →
      (cleaned text start k).length < minValidSectionLength

theorem longEnough_eq_some {content content' : List Char} (h : longEnough content = some content') :
    content' = content ∧ minValidSectionLength ≤ content.length := by
  rw [longEnough] at h
  split at h
  · next long => exact ⟨(Option.some.inj h).symm, long⟩
  · cases h

theorem longEnough_eq_none {content : List Char} (h : longEnough content = none) :
    content.length < minValidSectionLength := by
  rw [longEnough] at h
  split at h
  · cases h
  · next short => exact Nat.lt_of_not_le short

theorem EndFound.lt {patterns : List Boundary} (h : ∀ b ∈ patterns, b.wellFormed = true) {lowered : List Char} {k : Nat}
    (found : EndFound u patterns lowered k) : k < lowered.length := by
  obtain ⟨b, mem, w, found⟩ := found
  have bounds := found.lt (h b mem)
  omega

/-- Without a boundary left that is not too near, the content is the rest of the text. -/
theorem rest_ended {text lowered : List Char} {patterns : List Boundary} {start headingEnd : Nat} {content : List Char}
    (tried : ∀ k, headingEnd ≤ k → EndFound u patterns lowered k →
      (cleaned text start k).length < minValidSectionLength)
    (h : longEnough (cleaned text start text.length) = some content) :
    Ended u text lowered patterns start headingEnd content := by
  obtain ⟨rfl, long⟩ := longEnough_eq_some h
  exact ⟨long, text.length, rfl, .inl rfl, fun k after _ found => tried k after found⟩

/-- The loop ends. It has tried every boundary before its cursor. -/
theorem validLoop_spec {text lowered : List Char} {patterns : List Boundary} (h : ∀ b ∈ patterns, b.wellFormed = true)
    {start headingEnd fuel cursor : Nat} (within : cursor ≤ lowered.length) (enough : lowered.length < fuel + cursor)
    (behind : headingEnd ≤ cursor)
    (tried : ∀ k, headingEnd ≤ k → k < cursor → EndFound u patterns lowered k →
      (cleaned text start k).length < minValidSectionLength) :
    ∃ r, validLoop u text lowered patterns start fuel cursor = some r ∧
      ∀ content, r = some content → Ended u text lowered patterns start headingEnd content := by
  induction fuel generalizing cursor with
  | zero => omega
  | succ fuel ih =>
    rw [validLoop]
    rcases endCandidates_spec h cursor with ⟨none_, absent⟩ | ⟨stop, later, some_, after, found, first⟩
    · rw [none_]
      refine ⟨_, rfl, ?_⟩
      intro content long
      apply rest_ended _ long
      intro k late found
      rcases Nat.lt_or_ge k cursor with old | new
      · exact tried k late old found
      · exact absurd found (absent k new)
    · rw [some_]
      dsimp only
      have size := found.lt h
      cases long : longEnough (cleaned text start stop) with
      | some content =>
        obtain ⟨rfl, reaches⟩ := longEnough_eq_some long
        refine ⟨_, rfl, ?_⟩
        intro content same
        obtain rfl := Option.some.inj same
        refine ⟨reaches, stop, rfl, .inr ⟨by omega, found⟩, ?_⟩
        intro k late early found'
        rcases Nat.lt_or_ge k cursor with old | new
        · exact tried k late old found'
        · exact absurd found' (first k new early)
      | none =>
        apply ih (by omega) (by omega) (by omega)
        intro k late early found'
        rcases Nat.lt_or_ge k cursor with old | new
        · exact tried k late old found'
        · rcases Nat.lt_or_ge k stop with before_ | at_
          · exact absurd found' (first k new before_)
          · obtain rfl : k = stop := by omega
            exact longEnough_eq_none long

theorem extractValidContent_spec {text lowered : List Char} {patterns : List Boundary}
    (h : ∀ b ∈ patterns, b.wellFormed = true) {start headingEnd : Nat} (within : headingEnd ≤ lowered.length) :
    ∃ r, extractValidContent u text lowered patterns start headingEnd = some r ∧
      ∀ content, r = some content → Ended u text lowered patterns start headingEnd content := by
  rw [extractValidContent]
  rcases endCandidates_spec h headingEnd with ⟨none_, absent⟩ | ⟨stop, later, some_, -⟩
  · rw [none_]
    refine ⟨_, rfl, ?_⟩
    intro content long
    apply rest_ended _ long
    intro k late found
    exact absurd found (absent k late)
  · rw [some_]
    dsimp only
    split
    · refine ⟨none, rfl, ?_⟩
      rintro content ⟨⟩
    · apply validLoop_spec h within (by omega) (Nat.le_refl _)
      intro k late early
      omega

/-- Content is found behind a heading. -/
theorem firstContent_spec (text lowered : List Char) (name : SectionName)
    {ms : List (Cursor Char String × Cursor Char String)} (within : ∀ m ∈ ms, m.2.before.length ≤ lowered.length) :
    ∃ r, firstContent u text lowered name ms = some r ∧
      ∀ content, r = some content →
        ∃ m ∈ ms, Ended u text lowered name.ends m.1.before.length m.2.before.length content := by
  induction ms with
  | nil =>
    refine ⟨none, rfl, ?_⟩
    rintro content ⟨⟩
  | cons m ms ih =>
    obtain ⟨r, rest, spec⟩ := ih fun m' later => within m' (List.mem_cons_of_mem _ later)
    have later : ∀ content, r = some content →
        ∃ m' ∈ m :: ms, Ended u text lowered name.ends m'.1.before.length m'.2.before.length content := by
      intro content same
      obtain ⟨m', mem, ended⟩ := spec content same
      exact ⟨m', List.mem_cons_of_mem _ mem, ended⟩
    rw [firstContent]
    split
    · exact ⟨r, rest, later⟩
    · obtain ⟨found, ran, ended⟩ := @extractValidContent_spec u text lowered name.ends
        (fun b mem => boundaries_wellFormed name b (List.mem_cons_of_mem _ mem)) m.1.before.length _
        (within m (List.mem_cons_self ..))
      rw [ran]
      cases found with
      | none => exact ⟨r, rest, later⟩
      | some content =>
        dsimp only
        rw [if_pos (ended content rfl).1]
        refine ⟨_, rfl, ?_⟩
        intro content' same
        obtain rfl := Option.some.inj same
        exact ⟨m, List.mem_cons_self .., ended content rfl⟩

/-- Every section of the text is some content behind a heading. -/
theorem findSections_spec (text lowered : List Char) (names : List SectionName) :
    ∃ sections, findSections u text lowered names = some sections ∧ ∀ found ∈ sections,
      ∃ start w, FoundAt u found.1.heading lowered start w ∧
        Ended u text lowered found.1.ends start (start + w.length) found.2 := by
  induction names with
  | nil => exact ⟨[], rfl, fun _ mem => absurd mem List.not_mem_nil⟩
  | cons name names ih =>
    obtain ⟨sections, rest, spec⟩ := ih
    have headed := boundaries_wellFormed name name.heading (List.mem_cons_self ..)
    have places : ∀ m ∈ (name.heading.regex u).finditer lowered, ∃ w,
        FoundAt u name.heading lowered m.1.before.length w ∧ m.2.before.length = m.1.before.length + w.length := by
      intro m mem
      have found := @finditer_found u _ headed lowered 0 m mem
      rwa [Nat.zero_add] at found
    obtain ⟨r, ran, ended⟩ := @firstContent_spec u text lowered name ((name.heading.regex u).finditer lowered) (by
      intro m mem
      obtain ⟨w, found, stop⟩ := places m mem
      have bounds := found.lt headed
      omega)
    rw [findSections, ran, rest]
    cases r with
    | none => exact ⟨sections, rfl, spec⟩
    | some content =>
      refine ⟨_, rfl, ?_⟩
      intro found mem
      rcases List.mem_cons.1 mem with rfl | mem
      · obtain ⟨m, known, ended⟩ := ended content rfl
        obtain ⟨w, found, stop⟩ := places m known
        rw [stop] at ended
        exact ⟨_, w, found, ended⟩
      · exact spec found mem

/-! ## Parts of the text -/

/-- What `rstrip` leaves is a prefix. -/
theorem rstrip_front {p w : List Char} (blank : ∀ c ∈ w, isSpace c = true) :
    ((p ++ w).reverse.dropWhile isSpace).reverse <+: p := by
  rw [List.reverse_append, List.dropWhile_append_of_pos fun c mem => blank c (List.mem_reverse.1 mem)]
  have suffix := List.dropWhile_suffix (l := p.reverse) isSpace
  have flipped := List.reverse_prefix.2 suffix
  rwa [List.reverse_reverse] at flipped

/-- Removing noise at the end leaves a prefix and blanks. -/
theorem remove_noise (body : Regex Char String) {content x : List Char}
    (h : ∃ p w, x = p ++ w ∧ p <+: content ∧ ∀ c ∈ w, isSpace c = true) :
    ∃ p w, (seq body atEnd).remove x = p ++ w ∧ p <+: content ∧ ∀ c ∈ w, isSpace c = true := by
  obtain ⟨p, w, rfl, front, blank⟩ := h
  rcases remove_cases (seq body atEnd) (p ++ w) with same | ⟨skipped, s, t, tail, reads, cut, sub, removed⟩
  · exact ⟨p, w, same, front, blank⟩
  · have newline : ∀ c ∈ tail, isSpace c = true := by
      cases reads with
      | seq _ last =>
        cases last with
        | look ok =>
          intro c mem
          have inside := sub.subset mem
          rcases Bool.or_eq_true_iff.1 ok with none_ | one
          · rw [of_decide_eq_true none_] at inside
            cases inside
          · rw [of_decide_eq_true one] at inside
            rw [List.mem_singleton.1 inside]
            rfl
    rw [removed]
    rcases List.prefix_or_prefix_of_prefix cut (List.prefix_append p w) with inner | ⟨w', rfl⟩
    · exact ⟨skipped, tail, rfl, inner.trans front, newline⟩
    · have more := (List.prefix_append_right_inj p).1 cut
      refine ⟨p, w' ++ tail, by rw [List.append_assoc], front, ?_⟩
      intro c mem
      rcases List.mem_append.1 mem with old | new
      · exact blank c (more.subset old)
      · exact newline c new

theorem stripTrailingNoise_front (content : List Char) : stripTrailingNoise content <+: content := by
  have run : ∀ (bodies : List (Regex Char String)) x, (∃ p w, x = p ++ w ∧ p <+: content ∧ ∀ c ∈ w, isSpace c = true) →
      ∃ p w, bodies.foldl (fun content body => (seq body atEnd).remove content) x = p ++ w ∧ p <+: content ∧
        ∀ c ∈ w, isSpace c = true := by
    intro bodies
    induction bodies with
    | nil => exact fun x known => known
    | cons body bodies ih => exact fun x known => ih _ (remove_noise body known)
  obtain ⟨p, w, same, front, blank⟩ := run trailingNoiseBodies content
    ⟨content, [], (List.append_nil _).symm, List.prefix_refl _, fun c mem => absurd mem List.not_mem_nil⟩
  rw [stripTrailingNoise, same]
  exact (rstrip_front blank).trans front

/-- A slice that opens with a character that is no blank keeps it. -/
theorem cleaned_prefix {text : List Char} {start : Nat} (open_ : opens isSpace (text.drop start) = true) (stop : Nat) :
    cleaned text start stop <+: text.drop start := by
  have part : slice text start stop <+: text.drop start := by
    rw [slice, List.drop_take]
    exact List.take_prefix _ _
  apply ((stripTrailingNoise_front _).trans _).trans part
  obtain ⟨c, rest, parts, solid⟩ := opens_iff.1 open_
  rw [stripBy]
  cases inside : slice text start stop with
  | nil => exact List.prefix_refl _
  | cons d s =>
    rw [parts, inside] at part
    obtain ⟨rfl, -⟩ := List.cons_prefix_cons.1 part
    rw [List.dropWhile_cons_of_neg (by rw [solid]; exact Bool.false_ne_true)]
    have front := @rstrip_front (d :: s) [] fun c mem => absurd mem List.not_mem_nil
    rwa [List.append_nil] at front

/-- A heading does not begin with a blank. -/
theorem PlaceAt.opens {b : Boundary} (h : b.wellFormed = true) {text w : List Char} {j : Nat} (place : PlaceAt u b text j w) :
    Spacing.opens isSpace (text.drop j) = true := by
  have within := place.lt h
  obtain ⟨left, rest, matches_⟩ := place
  obtain ⟨d, w', rfl, letter⟩ := Boundary.spells_head h matches_.1
  cases parts : text.drop j with
  | nil =>
    rw [parts] at rest
    cases rest
  | cons c after =>
    rw [parts, List.drop_zero, LowerTables.lowerFrom, contexts, List.flatMap_cons, LowerTables.lowerOne] at rest
    rw [opens_cons]
    by_contra blank
    have space : isSpace c = true := by simpa using blank
    rw [u.lower_space _ _ _ space] at rest
    obtain rfl : c = d := (List.cons.inj rest).1
    have solid : (['i', 's', 'r'].all fun c => !isSpace c) = true := by decide
    have ok := List.all_eq_true.1 solid c letter
    rw [space] at ok
    cases ok

theorem NoneBehindDotted.endFound_iff {text : List Char} (h : NoneBehindDotted u text) (name : SectionName) {k : Nat} :
    EndFound u name.ends (u.lower text) k ↔ EndAt u name.ends text k := by
  constructor
  · rintro ⟨b, mem, w, found⟩
    exact ⟨b, mem, w, (h.found_iff (List.mem_cons_of_mem _ mem)).1 found⟩
  · rintro ⟨b, mem, w, place⟩
    exact ⟨b, mem, w, (h.found_iff (List.mem_cons_of_mem _ mem)).2 place⟩

/-- `extract_sections` returns. -/
theorem extractSections_eq (text : List Char) : ∃ sections warnings, extractSections u text = some ⟨sections, warnings⟩ ∧
    findSections u text (u.lower text) SectionName.all = some sections := by
  obtain ⟨sections, found, -⟩ := @findSections_spec u text (u.lower text) SectionName.all
  have ran : ∃ warnings, extractSections u text = some ⟨sections, warnings⟩ := by
    rw [extractSections, found]
    exact ⟨_, rfl⟩
  obtain ⟨warnings, ran⟩ := ran
  exact ⟨sections, warnings, ran, found⟩

/-- **Section extraction is faithful if and only if no heading and no end boundary of the text stands
behind an `İ`.** -/
theorem extractSections_faithful (u : LowerTables) (text : List Char) : Faithful u text ↔ NoneBehindDotted u text := by
  constructor
  · exact fun h => (positions_iff text).1 h.positions
  · intro h
    refine ⟨(positions_iff text).2 h, ?_⟩
    obtain ⟨sections, warnings, ran, found⟩ := @extractSections_eq u text
    obtain ⟨sections', found', spec⟩ := @findSections_spec u text (u.lower text) SectionName.all
    obtain rfl := Option.some.inj (found.symm.trans found')
    refine ⟨_, ran, ?_⟩
    intro part mem
    obtain ⟨start, w, heading, long, stop, same, ending, short⟩ := spec part mem
    have headed := boundaries_wellFormed part.1 part.1.heading (List.mem_cons_self ..)
    have place := (h.found_iff (List.mem_cons_self ..)).1 heading
    refine ⟨long, start, w, stop, place, ?_, same, ?_, ?_⟩
    · rw [same]
      exact cleaned_prefix (place.opens headed) stop
    · exact ending.imp_right fun ⟨after, at_⟩ => ⟨after, (h.endFound_iff part.1).1 at_⟩
    · exact fun k after before_ at_ => short k after before_ ((h.endFound_iff part.1).2 at_)

/-- So it is for every text without `İ`. -/
theorem faithful_of_plain {text : List Char} (plain_ : 'İ' ∉ text) : Faithful u text :=
  (extractSections_faithful u text).2 fun _ _ _ _ _ _ mem => plain_ (List.mem_of_mem_take mem)

/-! ## A filing with a dotted capital -/

/-- Lower case of the letters of the sample. -/
def sampleLower (_ : List Char) (c : Char) (_ : List Char) : List Char :=
  if c = 'İ' then ['i', '\u0307'] else if 'A' ≤ c ∧ c ≤ 'Z' then [Char.ofNat (c.toNat + 32)] else [c]

theorem sampleLower_one (before : List Char) (c : Char) (after : List Char) (plain_ : c ≠ 'İ') :
    (sampleLower before c after).length = 1 := by
  rw [sampleLower, if_neg plain_]
  split
  · rfl
  · rfl

theorem sampleLower_space (before : List Char) (c : Char) (after : List Char) (space : isSpace c = true) :
    sampleLower before c after = [c] := by
  have plain_ : c ≠ 'İ' := by
    rintro rfl
    cases space
  rw [sampleLower, if_neg plain_, if_neg]
  rintro ⟨low, high⟩
  have low' : 65 ≤ c.toNat := low
  have high' : c.toNat ≤ 90 := high
  rw [isSpace] at space
  simp only [Bool.or_eq_true, Bool.and_eq_true, decide_eq_true_eq] at space
  omega

def sampleTables : LowerTables where
  lowerIn := sampleLower
  isWord := isAlnum
  lower_dotted _ _ := rfl
  lower_one := sampleLower_one
  lower_space := sampleLower_space

/-- An `İ` on the cover, and a heading with a long text behind it. -/
def dottedFiling : List Char :=
  "İ Item 1. Business\n".toList ++ List.replicate 1000 'x'

theorem dottedFiling_section :
    (extractSections sampleTables dottedFiling).map (fun r => r.sections.map fun found => (found.1, found.2.head?)) =
      some [(.business, some 't')] := by
  decide +kernel

/-- The section begins behind the first letter of its heading. -/
theorem dotted_filing_cut : ∃ text, ¬ Faithful sampleTables text := by
  refine ⟨dottedFiling, ?_⟩
  intro faithful
  obtain ⟨result, ran, sections⟩ := faithful.sections
  have parts := dottedFiling_section
  rw [ran, Option.map_some] at parts
  obtain ⟨found, rest, listed⟩ : ∃ found rest, result.sections = found :: rest := by
    cases listed : result.sections with
    | nil =>
      rw [listed] at parts
      cases parts
    | cons found rest => exact ⟨found, rest, rfl⟩
  rw [listed] at parts
  obtain ⟨first, -⟩ := List.cons.inj (Option.some.inj parts)
  obtain ⟨-, start, w, stop, ⟨left, place, matches_⟩, front, -⟩ := sections found (by rw [listed]; exact List.mem_cons_self ..)
  obtain ⟨content, opening⟩ : ∃ content, found.2 = 't' :: content := List.head?_eq_some_iff.1 (congrArg Prod.snd first)
  obtain ⟨d, w', rfl, letter⟩ := Boundary.spells_head (boundaries_wellFormed found.1 _ (List.mem_cons_self ..)) matches_.1
  rw [opening] at front
  obtain ⟨after, behind⟩ := front
  rw [← behind, List.cons_append, List.drop_zero, LowerTables.lowerFrom, contexts, List.flatMap_cons] at place
  obtain rfl : 't' = d := (List.cons.inj place).1
  exact absurd letter (by decide)

end Ingestion
