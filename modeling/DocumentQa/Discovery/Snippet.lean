import DocumentQa.Lib.Expansion
import DocumentQa.Lib.Intervals
import DocumentQa.Lib.Checked
import DocumentQa.Python.Search

/-!
# Snippets of discovery search

A hit is shown with an excerpt of its chunk and the ranges of the excerpt that match a word
of the query. Words are sought in the case-folded text, whose characters do not correspond one
to one to those of the text. The excerpt begins a little before the first match. It need not
hold it: the length of a query is bounded before it is folded, and a folded word can be longer
than the excerpt (`snippet_exact`).
-/

namespace Discovery

open Python Spacing Expansion Intervals

def maxQueryLength : Nat := 200
def minQueryLength : Nat := 2
def snippetMaxLength : Nat := 240
def snippetMaxRanges : Nat := 8
def snippetWindow : Nat := 24

/-- What Python's Unicode tables say of one character. Every character folds to one at least, and
the ellipsis is no letter and what folds to it is the ellipsis. -/
structure Letters where
  /-- `character.casefold()` -/
  casefold : Char → List Char
  /-- `\w` -/
  isWord : Char → Bool
  casefold_some : ∀ c, casefold c ≠ []
  casefold_ellipsis : casefold '…' = ['…']
  no_ellipsis : ∀ c, '…' ∈ casefold c → c = '…'
  ellipsis_not_word : isWord '…' = false

variable (u : Letters)

/-- `text.casefold()`. -/
def Letters.fold (text : List Char) : List Char :=
  text.flatMap u.casefold

/-- `" ".join(text.split())`. -/
def collapse (text : List Char) : List Char :=
  [' '].intercalate (words isSpace text)

/-! ## Queries -/

/-- `normalize_query` of a text. -/
def normalizeQuery (raw : List Char) : Except String (List Char) :=
  let collapsed := collapse raw
  if collapsed.length < minQueryLength then .error "discovery query must contain at least 2 non-space characters"
  else if maxQueryLength < collapsed.length then .error "discovery query must be at most 200 characters"
  else .ok (u.fold collapsed)

/-- `discovery_query_terms`: the runs of letters and digits, each once. -/
def discoveryQueryTerms (normalizedQuery : List Char) : List (List Char) :=
  (words (fun c => !(u.isWord c && c != '_')) (u.fold normalizedQuery)).eraseDups

/-- The terms are taken from a query that `normalize_query` accepts. -/
def TakenFromQuery (terms : List (List Char)) : Prop :=
  ∃ raw query, normalizeQuery u raw = .ok query ∧ ∀ term ∈ terms, term ∈ discoveryQueryTerms u query

/-! ## Snippets -/

structure Snippet where
  text : List Char
  ranges : List (Nat × Nat)
  truncated : Bool
deriving DecidableEq

/-- `_casefold_with_offsets`. -/
def casefoldWithOffsets (text : List Char) : List Char × List Nat :=
  (u.fold text, offsets u.casefold 0 text)

/-- `[term.casefold() for term in query_terms if term]`. -/
def foldedTerms (queryTerms : List (List Char)) : List (List Char) :=
  (queryTerms.filter fun term => !term.isEmpty).map u.fold

/-- `first_match` behind the loop, `none` for -1. -/
def firstMatch (lowered : List Char) (originalOffsets : List Nat) (terms : List (List Char)) : Option Nat :=
  terms.foldl (fun first term =>
    match find lowered term 0 with
    | none => first
    | some position =>
      let original := originalOffsets.getD position 0
      match first with
      | none => some original
      | some before => if original < before then some original else first) none

/-- The ranges of one term from a cursor on, as many as there is room for. -/
def termRanges (lowered : List Char) (windowOffsets : List Nat) (term : List Char) : Nat → Nat → List (Nat × Nat)
  | 0, _ => []
  | room + 1, cursor =>
    match find lowered term cursor with
    | none => []
    | some position =>
      (windowOffsets.getD position 0, windowOffsets.getD (position + term.length - 1) 0 + 1) ::
        termRanges lowered windowOffsets term room (position + term.length)

/-- The ranges of one more term, while there is room. -/
def addRanges (lowered : List Char) (windowOffsets : List Nat) (ranges : List (Nat × Nat)) (term : List Char) :
    List (Nat × Nat) :=
  ranges ++ termRanges lowered windowOffsets term (snippetMaxRanges - ranges.length) 0

/-- `ranges` before they are sorted. -/
def collectRanges (lowered : List Char) (windowOffsets : List Nat) (terms : List (List Char)) : List (Nat × Nat) :=
  terms.foldl (addRanges lowered windowOffsets) []

/-- The order of pairs. -/
def pairLe (a b : Nat × Nat) : Prop :=
  a.1 < b.1 ∨ a.1 = b.1 ∧ a.2 ≤ b.2

instance : DecidableRel pairLe := fun a b => inferInstanceAs (Decidable (a.1 < b.1 ∨ a.1 = b.1 ∧ a.2 ≤ b.2))

/-- `start`. -/
def windowStart (collapsed : List Char) (terms : List (List Char)) : Nat :=
  let (lowered, originalOffsets) := casefoldWithOffsets u collapsed
  match firstMatch lowered originalOffsets terms with
  | none => 0
  | some first => first - snippetWindow

/-- `collapsed[start : start + SNIPPET_MAX_LENGTH]`. -/
def windowBody (collapsed : List Char) (start : Nat) : List Char :=
  (collapsed.drop start).take snippetMaxLength

/-- The ellipsis before the window. -/
def leadOf (start : Nat) (window : List Char) : List Char :=
  if 0 < start ∧ window ≠ [] then ['…'] else []

/-- The ellipsis behind the window. -/
def trailOf (truncated : Bool) : List Char :=
  if truncated then ['…'] else []

/-- The ranges of the terms in the window, sorted and merged. -/
def excerptRanges (window : List Char) (terms : List (List Char)) : List (Nat × Nat) :=
  let (windowLowered, windowOffsets) := casefoldWithOffsets u window
  let ranges := (collectRanges windowLowered windowOffsets terms).insertionSort pairLe
  merge (ranges.take snippetMaxRanges)

/-- `build_snippet`. -/
def buildSnippet (text : List Char) (queryTerms : List (List Char)) : Snippet :=
  let collapsed := collapse text
  if collapsed = [] then ⟨[], [], false⟩
  else
    let terms := foldedTerms u queryTerms
    let start := windowStart u collapsed terms
    let body := windowBody collapsed start
    let truncated := decide (start + snippetMaxLength < collapsed.length)
    let window := leadOf start body ++ (body ++ trailOf truncated)
    ⟨window, excerptRanges u window terms, truncated⟩

/-! ## What a snippet should be -/

/-- A term of the query stands, case-folded, in the characters from `a` up to `b` and needs them all. -/
def Stands (text : List Char) (terms : List (List Char)) (a b : Nat) : Prop :=
  ∃ term ∈ foldedTerms u terms, Occurs u.casefold text term a b ∧ term <:+: u.fold ((text.drop a).take (b - a))

/-- The snippet is an excerpt of the collapsed text with an ellipsis at most at each end, its ranges
are sorted and disjoint parts of the excerpt, each is a union of occurrences of terms, and there is
one when a term occurs in the text. -/
structure Exact (text : List Char) (terms : List (List Char)) (s : Snippet) : Prop where
  excerpt : ∃ lead body trail, s.text = lead ++ (body ++ trail) ∧ body <:+: collapse text ∧
    body.length ≤ snippetMaxLength ∧ (lead = [] ∨ lead = ['…']) ∧ (trail = [] ∨ trail = ['…']) ∧
    ∀ r ∈ s.ranges, lead.length ≤ r.1 ∧ r.2 ≤ lead.length + body.length
  sorted : s.ranges.Pairwise fun a b => a.2 < b.1
  proper : ∀ r ∈ s.ranges, r.1 < r.2 ∧ r.2 ≤ s.text.length
  union : ∀ r ∈ s.ranges, ∃ occurrences, (∀ o ∈ occurrences, Stands u s.text terms o.1 o.2) ∧ Union occurrences r
  found : (∃ term ∈ foldedTerms u terms, term <:+: u.fold (collapse text)) → s.ranges ≠ []

/-- No term occurs, or some occurrence ends before the excerpt does that begins 24 characters before
the first one. -/
def FirstMatchFits (text : List Char) (terms : List (List Char)) : Prop :=
  ∀ p, IsLeast {a | ∃ b, Stands u (collapse text) terms a b} p →
    ∃ a b, Stands u (collapse text) terms a b ∧ b ≤ p - snippetWindow + snippetMaxLength

variable {u}

/-! ## Terms -/

theorem foldedTerms_ne_nil {terms : List (List Char)} {term : List Char} (mem : term ∈ foldedTerms u terms) : term ≠ [] := by
  obtain ⟨raw, kept, rfl⟩ := List.mem_map.1 mem
  have nonempty : raw ≠ [] := by simpa using (List.mem_filter.1 kept).2
  obtain ⟨c, cs, rfl⟩ := List.exists_cons_of_ne_nil nonempty
  rw [Letters.fold, List.flatMap_cons]
  exact List.append_ne_nil_of_left_ne_nil (u.casefold_some c) _

/-- A term of a query has no ellipsis. -/
theorem TakenFromQuery.no_ellipsis {terms : List (List Char)} (h : TakenFromQuery u terms) :
    ∀ term ∈ foldedTerms u terms, '…' ∉ term := by
  obtain ⟨raw, query, -, taken⟩ := h
  intro term mem inside
  obtain ⟨word, kept, rfl⟩ := List.mem_map.1 mem
  obtain ⟨c, known, folds⟩ := List.mem_flatMap.1 inside
  obtain rfl := u.no_ellipsis c folds
  have listed := List.mem_eraseDups.1 (taken word (List.mem_filter.1 kept).1)
  have solid := words_solid_mem listed '…' known
  rw [u.ellipsis_not_word] at solid
  cases solid

/-! ## Ranges -/

theorem termRanges_occurs {text term : List Char} (some_ : term ≠ []) {room cursor : Nat} {r : Nat × Nat}
    (mem : r ∈ termRanges (u.fold text) (offsets u.casefold 0 text) term room cursor) :
    Occurs u.casefold text term r.1 r.2 := by
  induction room generalizing cursor with
  | zero => cases mem
  | succ room ih =>
    rw [termRanges] at mem
    split at mem
    · cases mem
    · next position found =>
      rcases List.mem_cons.1 mem with rfl | later
      · obtain ⟨⟨x, y, whole, rfl⟩, -⟩ := find_eq_some some_ found
        exact (occurs_iff some_).2 ⟨x, y, whole, rfl, rfl⟩
      · exact ih later

theorem termRanges_eq_nil {text term : List Char} (some_ : term ≠ []) (room : Nat) :
    termRanges (u.fold text) (offsets u.casefold 0 text) term (room + 1) 0 = [] ↔ ¬ term <:+: u.fold text := by
  rw [← find_eq_none some_, termRanges]
  split
  · next absent => simp [absent]
  · next position found => simp [found]

theorem foldl_occurs {text : List Char} {terms : List (List Char)} (some_ : ∀ term ∈ terms, term ≠ [])
    {ranges : List (Nat × Nat)} {P : Nat × Nat → Prop} (known : ∀ r ∈ ranges, P r)
    (each : ∀ term ∈ terms, ∀ r : Nat × Nat, Occurs u.casefold text term r.1 r.2 → P r) :
    ∀ r ∈ terms.foldl (addRanges (u.fold text) (offsets u.casefold 0 text)) ranges, P r := by
  induction terms generalizing ranges with
  | nil => exact known
  | cons term rest ih =>
    rw [List.foldl_cons]
    apply ih (fun t later => some_ t (List.mem_cons_of_mem _ later)) _ fun t later => each t (List.mem_cons_of_mem _ later)
    intro r mem
    rcases List.mem_append.1 mem with old | new
    · exact known r old
    · exact each term (List.mem_cons_self ..) r (termRanges_occurs (some_ term (List.mem_cons_self ..)) new)

/-- Every range is an occurrence of a term. -/
theorem collectRanges_occurs {text : List Char} {terms : List (List Char)} (some_ : ∀ term ∈ terms, term ≠ []) :
    ∀ r ∈ collectRanges (u.fold text) (offsets u.casefold 0 text) terms,
      ∃ term ∈ terms, Occurs u.casefold text term r.1 r.2 :=
  foldl_occurs some_ (fun _ none_ => absurd none_ List.not_mem_nil) fun term mem _ occurs => ⟨term, mem, occurs⟩

theorem foldl_ne_nil (lowered : List Char) (windowOffsets : List Nat) (terms : List (List Char))
    {ranges : List (Nat × Nat)} (h : ranges ≠ []) : terms.foldl (addRanges lowered windowOffsets) ranges ≠ [] := by
  induction terms generalizing ranges with
  | nil => exact h
  | cons term rest ih => exact ih (List.append_ne_nil_of_left_ne_nil h _)

/-- There is a range when a term occurs. -/
theorem collectRanges_eq_nil {text : List Char} {terms : List (List Char)} (some_ : ∀ term ∈ terms, term ≠ []) :
    collectRanges (u.fold text) (offsets u.casefold 0 text) terms = [] ↔ ∀ term ∈ terms, ¬ term <:+: u.fold text := by
  induction terms with
  | nil => simp [collectRanges]
  | cons term rest ih =>
    have first := @termRanges_eq_nil u text term (some_ term (List.mem_cons_self ..)) 7
    have step : collectRanges (u.fold text) (offsets u.casefold 0 text) (term :: rest) =
        rest.foldl (addRanges (u.fold text) (offsets u.casefold 0 text))
          (termRanges (u.fold text) (offsets u.casefold 0 text) term 8 0) := rfl
    rw [step, List.forall_mem_cons]
    by_cases none_ : termRanges (u.fold text) (offsets u.casefold 0 text) term 8 0 = []
    · rw [none_, ← ih fun t later => some_ t (List.mem_cons_of_mem _ later)]
      exact ⟨fun h => ⟨first.1 none_, h⟩, fun h => h.2⟩
    · constructor
      · intro h
        exact absurd h (foldl_ne_nil _ _ _ none_)
      · rintro ⟨absent, -⟩
        exact absurd (first.2 absent) none_

/-- The first ranges in order are ranges in order, and there is one if there is any. -/
theorem sorted_take (ranges : List (Nat × Nat)) :
    (∀ r ∈ (ranges.insertionSort pairLe).take snippetMaxRanges, r ∈ ranges) ∧
      ((ranges.insertionSort pairLe).take snippetMaxRanges).Pairwise (fun a b => a.1 ≤ b.1) ∧
      ((ranges.insertionSort pairLe).take snippetMaxRanges = [] ↔ ranges = []) := by
  have total : Std.Total pairLe := ⟨fun a b => by simp only [pairLe]; omega⟩
  have trans : IsTrans (Nat × Nat) pairLe := ⟨fun a b c => by simp only [pairLe]; omega⟩
  have perm := List.perm_insertionSort pairLe ranges
  refine ⟨fun r mem => perm.mem_iff.1 (List.mem_of_mem_take mem), ?_, ?_⟩
  · apply ((List.pairwise_insertionSort pairLe ranges).sublist (List.take_sublist _ _)).imp
    intro a b h
    simp only [pairLe] at h
    omega
  · rw [List.take_eq_nil_iff]
    constructor
    · intro h
      have empty : ranges.insertionSort pairLe = [] := h.resolve_left (by decide)
      rw [empty] at perm
      exact perm.symm.eq_nil
    · rintro rfl
      exact .inr rfl

/-! ## The first match -/

theorem stands_iff {text : List Char} {terms : List (List Char)} {a b : Nat} :
    Stands u text terms a b ↔ ∃ term ∈ foldedTerms u terms, Occurs u.casefold text term a b := by
  constructor
  · rintro ⟨term, mem, occurs, -⟩
    exact ⟨term, mem, occurs⟩
  · rintro ⟨term, mem, occurs⟩
    exact ⟨term, mem, occurs, occurs.holds⟩

/-- A term occurs in the folded text exactly if it stands somewhere in the text. -/
theorem infix_iff {text term : List Char} (some_ : term ≠ []) :
    term <:+: u.fold text ↔ ∃ a b, Occurs u.casefold text term a b := by
  constructor
  · rintro ⟨x, y, whole⟩
    exact ⟨_, _, (occurs_iff some_).2 ⟨x, y, by rw [← List.append_assoc, whole]; rfl, rfl, rfl⟩⟩
  · rintro ⟨a, b, occurs⟩
    obtain ⟨x, y, whole, -⟩ := (occurs_iff some_).1 occurs
    exact ⟨x, y, by rw [List.append_assoc, ← whole]; rfl⟩

theorem firstMatch_eq (lowered : List Char) (originalOffsets : List Nat) (terms : List (List Char)) :
    firstMatch lowered originalOffsets terms =
      (terms.filterMap fun term => (find lowered term 0).map fun position => originalOffsets.getD position 0).min? := by
  have run : ∀ (terms : List (List Char)) (first : Option Nat), terms.foldl (fun first term =>
      match find lowered term 0 with
      | none => first
      | some position =>
        let original := originalOffsets.getD position 0
        match first with
        | none => some original
        | some before => if original < before then some original else first) first =
      (first.toList ++ terms.filterMap fun term =>
        (find lowered term 0).map fun position => originalOffsets.getD position 0).min? := by
    intro terms
    induction terms with
    | nil =>
      intro first
      cases first with
      | none => rfl
      | some before => rfl
    | cons term rest ih =>
      intro first
      rw [List.foldl_cons, ih]
      cases found : find lowered term 0 with
      | none => rw [List.filterMap_cons_none (by rw [found]; rfl)]
      | some position =>
        rw [List.filterMap_cons_some (b := originalOffsets.getD position 0) (by rw [found]; rfl)]
        cases first with
        | none => rfl
        | some before =>
          dsimp only
          rw [Option.toList_some, List.singleton_append, List.min?_cons', List.foldl_cons]
          split
          · next less =>
            rw [Nat.min_eq_right (Nat.le_of_lt less)]
            rfl
          · next more =>
            rw [Nat.min_eq_left (Nat.le_of_not_lt more)]
            rfl
  exact run terms none

theorem firstMatch_eq_none {text : List Char} {terms : List (List Char)} (some_ : ∀ term ∈ terms, term ≠ [])
    (h : firstMatch (u.fold text) (offsets u.casefold 0 text) terms = none) :
    ∀ term ∈ terms, ¬ term <:+: u.fold text := by
  rw [firstMatch_eq, List.min?_eq_none_iff, List.filterMap_eq_nil_iff] at h
  intro term mem
  exact (find_eq_none (some_ term mem)).1 (by simpa using h term mem)

/-- The first match is the least position at which an occurrence begins. -/
theorem firstMatch_least {text : List Char} {terms : List (List Char)} (some_ : ∀ term ∈ terms, term ≠ []) {p : Nat}
    (h : firstMatch (u.fold text) (offsets u.casefold 0 text) terms = some p) :
    IsLeast {a | ∃ b, ∃ term ∈ terms, Occurs u.casefold text term a b} p := by
  rw [firstMatch_eq, List.min?_eq_some_iff] at h
  obtain ⟨mem, least⟩ := h
  constructor
  · obtain ⟨term, known, found⟩ := List.mem_filterMap.1 mem
    obtain ⟨position, at_, rfl⟩ := Option.map_eq_some_iff.1 found
    obtain ⟨⟨x, y, whole, rfl⟩, -⟩ := find_eq_some (some_ term known) at_
    exact ⟨_, term, known, (occurs_iff (some_ term known)).2 ⟨x, y, whole, rfl, rfl⟩⟩
  · rintro a ⟨b, term, known, occurs⟩
    obtain ⟨x, y, whole, rfl, -⟩ := (occurs_iff (some_ term known)).1 occurs
    cases found : find (u.fold text) term 0 with
    | none => exact absurd ⟨x, y, by rw [List.append_assoc, ← whole]; rfl⟩ ((find_eq_none (some_ term known)).1 found)
    | some position =>
      obtain ⟨-, first⟩ := find_eq_some (some_ term known) found
      have early := first x y whole (Nat.zero_le _)
      have long := List.length_pos_of_ne_nil (some_ term known)
      apply Nat.le_trans (least _ (List.mem_filterMap.2 ⟨term, known, by rw [found]; rfl⟩))
      apply offsets_mono early
      rw [whole, List.length_append, List.length_append]
      omega

/-! ## The excerpt -/

theorem lead_cases (start : Nat) (window : List Char) : leadOf start window = [] ∨ leadOf start window = ['…'] := by
  rw [leadOf]
  split
  · exact .inr rfl
  · exact .inl rfl

theorem trail_cases (truncated : Bool) : trailOf truncated = [] ∨ trailOf truncated = ['…'] := by
  cases truncated with
  | false => exact .inl rfl
  | true => exact .inr rfl

/-- A pattern without an ellipsis does not stand on one that was added. -/
theorem occurs_between {lead body trail term : List Char} (leads : lead = [] ∨ lead = ['…'])
    (trails : trail = [] ∨ trail = ['…']) (some_ : term ≠ []) (plain : '…' ∉ term) {a b : Nat}
    (h : Occurs u.casefold (lead ++ (body ++ trail)) term a b) : lead.length ≤ a ∧ b ≤ lead.length + body.length := by
  obtain ⟨pre, mid, post, whole, rfl, rfl, tight⟩ := h
  have size := congrArg List.length whole
  simp only [List.length_append] at size
  constructor
  · by_contra early
    rcases leads with rfl | rfl
    · exact early (Nat.zero_le _)
    · obtain rfl : pre = [] := List.length_eq_zero_iff.1 (by rw [List.length_singleton] at early; omega)
      obtain ⟨c, rest, rfl⟩ := List.exists_cons_of_ne_nil tight.nonempty
      obtain rfl : '…' = c := (List.cons.inj whole).1
      exact plain (tight.head some_ u.casefold_ellipsis)
  · by_contra late
    rcases trails with rfl | rfl
    · rw [List.length_nil] at size
      omega
    · rw [List.length_singleton] at size
      obtain rfl : post = [] := List.length_eq_zero_iff.1 (by omega)
      obtain ⟨rest, c, rfl⟩ : ∃ rest c, mid = rest ++ [c] := ⟨_, _, (List.dropLast_append_getLast tight.nonempty).symm⟩
      have last := congrArg List.getLast? whole
      rw [List.append_nil, ← List.append_assoc, ← List.append_assoc, List.getLast?_concat, List.getLast?_concat] at last
      obtain rfl := Option.some.inj last
      exact plain (tight.last some_ u.casefold_ellipsis)

theorem window_split (collapsed : List Char) (start : Nat) :
    collapsed = collapsed.take start ++ (windowBody collapsed start ++ (collapsed.drop start).drop snippetMaxLength) := by
  rw [windowBody, List.take_append_drop, List.take_append_drop]

/-- A term stands in the excerpt exactly if it stands in the part of the text that was cut out. -/
theorem window_occurs {collapsed lead trail term : List Char} {start : Nat} (inside : start ≤ collapsed.length)
    (leads : lead = [] ∨ lead = ['…']) (trails : trail = [] ∨ trail = ['…']) (some_ : term ≠ []) (plain : '…' ∉ term) :
    (∃ a b, Occurs u.casefold (lead ++ (windowBody collapsed start ++ trail)) term a b) ↔
      ∃ a b, Occurs u.casefold collapsed term a b ∧ start ≤ a ∧ b ≤ start + snippetMaxLength := by
  have cut : (collapsed.take start).length = start := by
    rw [List.length_take]
    omega
  have size : (windowBody collapsed start).length = min snippetMaxLength (collapsed.length - start) := by
    rw [windowBody, List.length_take, List.length_drop]
  constructor
  · rintro ⟨a, b, occurs⟩
    obtain ⟨low, high⟩ := occurs_between leads trails some_ plain occurs
    have order := occurs.lt
    obtain ⟨i, rfl⟩ := Nat.exists_eq_add_of_le low
    obtain ⟨j, rfl⟩ := Nat.exists_eq_add_of_le (show lead.length ≤ b by omega)
    have body := occurs_inside.2 ⟨occurs, by omega⟩
    obtain ⟨whole, short⟩ := (@occurs_inside _ _ _ (collapsed.take start) _
      ((collapsed.drop start).drop snippetMaxLength) _ _ _).1 body
    rw [← window_split, cut] at whole
    exact ⟨_, _, whole, by omega, by omega⟩
  · rintro ⟨a, b, occurs, low, high⟩
    have order := occurs.lt
    have within := occurs.le
    obtain ⟨i, rfl⟩ := Nat.exists_eq_add_of_le low
    obtain ⟨j, rfl⟩ := Nat.exists_eq_add_of_le (show start ≤ b by omega)
    rw [window_split collapsed start] at occurs
    have body := @occurs_inside _ _ u.casefold (collapsed.take start) (windowBody collapsed start)
      ((collapsed.drop start).drop snippetMaxLength) term i j
    rw [cut] at body
    exact ⟨_, _, (occurs_inside.1 (body.2 ⟨occurs, by omega⟩)).1⟩

theorem excerptRanges_spec {window : List Char} {terms : List (List Char)} (some_ : ∀ term ∈ terms, term ≠ []) :
    (excerptRanges u window terms).Pairwise (fun a b => a.2 < b.1) ∧
      (∀ r ∈ excerptRanges u window terms, r.1 < r.2) ∧
      (∀ r ∈ excerptRanges u window terms, ∃ occurrences : List (Nat × Nat),
        (∀ o ∈ occurrences, ∃ term ∈ terms, Occurs u.casefold window term o.1 o.2) ∧ Union occurrences r) ∧
      (excerptRanges u window terms = [] ↔ ∀ term ∈ terms, ¬ term <:+: u.fold window) := by
  obtain ⟨sub, sorted, empty⟩ := sorted_take (collectRanges (u.fold window) (offsets u.casefold 0 window) terms)
  have occurs : ∀ r ∈ ((collectRanges (u.fold window) (offsets u.casefold 0 window) terms).insertionSort pairLe).take
      snippetMaxRanges, ∃ term ∈ terms, Occurs u.casefold window term r.1 r.2 :=
    fun r mem => collectRanges_occurs some_ r (sub r mem)
  have proper : ∀ r ∈ ((collectRanges (u.fold window) (offsets u.casefold 0 window) terms).insertionSort pairLe).take
      snippetMaxRanges, r.1 < r.2 := by
    intro r mem
    obtain ⟨term, -, stands⟩ := occurs r mem
    exact stands.lt
  obtain ⟨apart, wide, union, -⟩ := merge_spec proper sorted
  refine ⟨apart, wide, fun r mem => ⟨_, occurs, union r mem⟩, ?_⟩
  show merge _ = [] ↔ _
  rw [merge_eq_nil proper sorted, empty, collectRanges_eq_nil some_]

/-- What `build_snippet` gives. -/
theorem buildSnippet_cases (text : List Char) (terms : List (List Char)) :
    (collapse text = [] ∧ buildSnippet u text terms = ⟨[], [], false⟩) ∨
      ∃ lead trail truncated, (lead = [] ∨ lead = ['…']) ∧ (trail = [] ∨ trail = ['…']) ∧
        let window := lead ++ (windowBody (collapse text) (windowStart u (collapse text) (foldedTerms u terms)) ++ trail)
        buildSnippet u text terms = ⟨window, excerptRanges u window (foldedTerms u terms), truncated⟩ := by
  rw [buildSnippet]
  split
  · next empty => exact .inl ⟨empty, rfl⟩
  · exact .inr ⟨_, _, _, lead_cases _ _, trail_cases _, rfl⟩

theorem windowStart_le (collapsed : List Char) {terms : List (List Char)} (some_ : ∀ term ∈ terms, term ≠ []) :
    windowStart u collapsed terms ≤ collapsed.length := by
  rw [windowStart]
  dsimp only [casefoldWithOffsets]
  split
  · exact Nat.zero_le _
  · next first found =>
    obtain ⟨b, term, -, occurs⟩ := (firstMatch_least some_ found).1
    have order := occurs.lt
    have within := occurs.le
    omega

/-- A snippet has a range exactly if a term stands in the part of the text that was cut out. -/
theorem ranges_ne_nil {text : List Char} {terms : List (List Char)} (plain : ∀ term ∈ foldedTerms u terms, '…' ∉ term) :
    (buildSnippet u text terms).ranges ≠ [] ↔ ∃ a b, Stands u (collapse text) terms a b ∧
      windowStart u (collapse text) (foldedTerms u terms) ≤ a ∧
      b ≤ windowStart u (collapse text) (foldedTerms u terms) + snippetMaxLength := by
  have some_ : ∀ term ∈ foldedTerms u terms, term ≠ [] := fun _ mem => foldedTerms_ne_nil mem
  rcases @buildSnippet_cases u text terms with ⟨empty, same⟩ | ⟨lead, trail, truncated, leads, trails, same⟩
  · rw [same, empty]
    constructor
    · intro h
      exact absurd rfl h
    · rintro ⟨a, b, stands, -⟩
      obtain ⟨term, -, occurs⟩ := stands_iff.1 stands
      have order := occurs.lt
      have within := occurs.le
      rw [List.length_nil] at within
      omega
  · have start := @windowStart_le u (collapse text) _ some_
    rw [same, ne_eq, (excerptRanges_spec some_).2.2.2]
    push Not
    constructor
    · rintro ⟨term, mem, stands⟩
      obtain ⟨a, b, occurs, low, high⟩ := (window_occurs start leads trails (some_ term mem) (plain term mem)).1
        ((infix_iff (some_ term mem)).1 stands)
      exact ⟨a, b, stands_iff.2 ⟨term, mem, occurs⟩, low, high⟩
    · rintro ⟨a, b, stands, low, high⟩
      obtain ⟨term, mem, occurs⟩ := stands_iff.1 stands
      exact ⟨term, mem, (infix_iff (some_ term mem)).2
        ((window_occurs start leads trails (some_ term mem) (plain term mem)).2 ⟨a, b, occurs, low, high⟩)⟩

/-- Everything but the existence of a range holds of every snippet. -/
theorem buildSnippet_ranges (text : List Char) {terms : List (List Char)}
    (plain : ∀ term ∈ foldedTerms u terms, '…' ∉ term)
    (found : (∃ term ∈ foldedTerms u terms, term <:+: u.fold (collapse text)) → (buildSnippet u text terms).ranges ≠ []) :
    Exact u text terms (buildSnippet u text terms) := by
  have some_ : ∀ term ∈ foldedTerms u terms, term ≠ [] := fun _ mem => foldedTerms_ne_nil mem
  rcases @buildSnippet_cases u text terms with ⟨empty, same⟩ | ⟨lead, trail, truncated, leads, trails, same⟩
  · rw [same] at found ⊢
    refine ⟨⟨[], [], [], rfl, List.nil_infix, Nat.zero_le _, .inl rfl, .inl rfl, ?_⟩, List.Pairwise.nil, ?_, ?_, found⟩
    · exact fun r mem => absurd mem List.not_mem_nil
    · exact fun r mem => absurd mem List.not_mem_nil
    · exact fun r mem => absurd mem List.not_mem_nil
  · rw [same] at found ⊢
    obtain ⟨apart, proper, union, -⟩ := @excerptRanges_spec u
      (lead ++ (windowBody (collapse text) (windowStart u (collapse text) (foldedTerms u terms)) ++ trail)) _ some_
    refine ⟨⟨lead, _, trail, rfl, ?_, ?_, leads, trails, ?_⟩, apart, ?_, ?_, found⟩
    · rw [windowBody]
      exact (List.take_prefix _ _).isInfix.trans (List.drop_suffix _ _).isInfix
    · rw [windowBody, List.length_take]
      exact Nat.min_le_left _ _
    · intro r mem
      obtain ⟨occurrences, occurs, joined⟩ := union r mem
      apply joined.within (proper r mem)
      intro o known
      obtain ⟨term, listed, stands⟩ := occurs o known
      exact occurs_between leads trails (some_ term listed) (plain term listed) stands
    · intro r mem
      obtain ⟨occurrences, occurs, joined⟩ := union r mem
      refine ⟨proper r mem, (@Union.within _ _ joined (proper r mem) 0 _ ?_).2⟩
      intro o known
      obtain ⟨term, -, stands⟩ := occurs o known
      exact ⟨Nat.zero_le _, stands.le⟩
    · intro r mem
      obtain ⟨occurrences, occurs, joined⟩ := union r mem
      exact ⟨occurrences, fun o known => stands_iff.2 (occurs o known), joined⟩

/-- The excerpt begins 24 characters before the first occurrence. -/
theorem windowStart_eq {collapsed : List Char} {terms : List (List Char)} {p : Nat}
    (h : IsLeast {a | ∃ b, Stands u collapsed terms a b} p) :
    windowStart u collapsed (foldedTerms u terms) = p - snippetWindow := by
  have some_ : ∀ term ∈ foldedTerms u terms, term ≠ [] := fun _ mem => foldedTerms_ne_nil mem
  simp only [stands_iff] at h
  rw [windowStart]
  dsimp only [casefoldWithOffsets]
  split
  · next none_ =>
    obtain ⟨b, term, mem, occurs⟩ := h.1
    exact absurd ((infix_iff (some_ term mem)).2 ⟨p, b, occurs⟩) (firstMatch_eq_none some_ none_ term mem)
  · next first found => rw [(firstMatch_least some_ found).unique h]

theorem exists_least {collapsed : List Char} {terms : List (List Char)} {a b : Nat} (h : Stands u collapsed terms a b) :
    ∃ p, IsLeast {a | ∃ b, Stands u collapsed terms a b} p := by
  have some_ : ∃ a, ∃ b, Stands u collapsed terms a b := ⟨a, b, h⟩
  classical
  exact ⟨Nat.find some_, Nat.find_spec some_, fun c known => Nat.find_min' some_ known⟩

/-- **A snippet is exact if and only if an occurrence fits into the excerpt that begins 24
characters before the first one.** -/
theorem snippet_exact (text : List Char) {terms : List (List Char)} (taken : TakenFromQuery u terms) :
    Exact u text terms (buildSnippet u text terms) ↔ FirstMatchFits u text terms := by
  have plain := taken.no_ellipsis
  have some_ : ∀ term ∈ foldedTerms u terms, term ≠ [] := fun _ mem => foldedTerms_ne_nil mem
  constructor
  · intro exact_ p least
    obtain ⟨b, stands⟩ := least.1
    obtain ⟨term, mem, occurs⟩ := stands_iff.1 stands
    have shown := exact_.found ⟨term, mem, (infix_iff (some_ term mem)).2 ⟨p, b, occurs⟩⟩
    obtain ⟨a, b, stands, -, high⟩ := (ranges_ne_nil plain).1 shown
    rw [windowStart_eq least] at high
    exact ⟨a, b, stands, high⟩
  · intro fits
    apply buildSnippet_ranges text plain
    rintro ⟨term, mem, infix_⟩
    obtain ⟨a, b, occurs⟩ := (infix_iff (some_ term mem)).1 infix_
    obtain ⟨p, least⟩ := exists_least (stands_iff.2 ⟨term, mem, occurs⟩)
    obtain ⟨a, b, stands, high⟩ := fits p least
    apply (ranges_ne_nil plain).2
    refine ⟨a, b, stands, ?_, ?_⟩
    · have := least.2 ⟨b, stands⟩
      rw [windowStart_eq least]
      omega
    · rwa [windowStart_eq least]

/-- Terms of up to 216 characters always fit, so a query of that length when folded does. -/
theorem short_terms_fit (text : List Char) {terms : List (List Char)}
    (short : ∀ term ∈ foldedTerms u terms, term.length ≤ snippetMaxLength - snippetWindow) : FirstMatchFits u text terms := by
  intro p least
  obtain ⟨b, stands⟩ := least.1
  refine ⟨p, b, stands, ?_⟩
  obtain ⟨term, mem, pre, mid, post, -, rfl, rfl, tight⟩ := stands_iff.1 stands
  have bound := tight.length_le u.casefold_some (foldedTerms_ne_nil mem)
  have limit := short term mem
  simp only [snippetMaxLength, snippetWindow] at limit ⊢
  omega

/-! ## A query of sharp s -/

theorem casefoldChar_cases (c : Char) :
    ('A' ≤ c ∧ c ≤ 'Z' ∧ casefoldChar c = [Char.ofNat (c.toNat + 32)]) ∨ (∃ s ∈ foldedSpecials, casefoldChar c = s.2) ∨
      casefoldChar c = [c] := by
  rw [casefoldChar]
  split
  · next upper => exact .inl ⟨upper.1, upper.2, rfl⟩
  · split
    · next s found => exact .inr (.inl ⟨s, List.mem_of_find?_eq_some found, rfl⟩)
    · exact .inr (.inr rfl)

theorem casefoldChar_some (c : Char) : casefoldChar c ≠ [] := by
  rcases casefoldChar_cases c with ⟨-, -, same⟩ | ⟨s, mem, same⟩ | same
  · rw [same]
    exact List.cons_ne_nil _ _
  · have all : foldedSpecials.all (fun s => !s.2.isEmpty) = true := by decide
    rw [same]
    simpa using List.all_eq_true.1 all s mem
  · rw [same]
    exact List.cons_ne_nil _ _

theorem casefoldChar_no_ellipsis (c : Char) (h : '…' ∈ casefoldChar c) : c = '…' := by
  rcases casefoldChar_cases c with ⟨-, high, same⟩ | ⟨s, mem, same⟩ | same
  · rw [same] at h
    have bound : c.toNat ≤ 90 := high
    have small : ∀ n ≤ 90, Char.ofNat (n + 32) ≠ '…' := by decide
    exact absurd (List.mem_singleton.1 h).symm (small c.toNat bound)
  · have all : foldedSpecials.all (fun s => !s.2.contains '…') = true := by decide
    rw [same] at h
    have absent := List.all_eq_true.1 all s mem
    simp [h] at absent
  · rw [same] at h
    exact (List.mem_singleton.1 h).symm

theorem casefoldChar_ellipsis : casefoldChar '…' = ['…'] := by
  decide

/-- Python's tables on the letters of the samples. -/
def sampleLetters : Letters where
  casefold := casefoldChar
  isWord c := isAlnum c || c == '_'
  casefold_some := casefoldChar_some
  casefold_ellipsis := casefoldChar_ellipsis
  no_ellipsis := casefoldChar_no_ellipsis
  ellipsis_not_word := rfl

/-- A word of the query stands in the text. -/
theorem sample_taken : TakenFromQuery sampleLetters ["revenue".toList] :=
  ⟨"Revenue growth".toList, "revenue growth".toList, by decide +kernel, by decide +kernel⟩

theorem snippet_exact_sample :
    Exact sampleLetters "Total revenue".toList ["revenue".toList]
      (buildSnippet sampleLetters "Total revenue".toList ["revenue".toList]) :=
  (snippet_exact _ sample_taken).2 (short_terms_fit _ (by decide +kernel))

/-- A query of 121 sharp s is accepted. It folds to a word of 242 letters, which the excerpt of the
text that is this word does not hold. -/
theorem folded_query_outgrows_snippet :
    ∃ text terms, TakenFromQuery sampleLetters terms ∧ ¬ Exact sampleLetters text terms (buildSnippet sampleLetters text terms) := by
  refine ⟨List.replicate 242 's', [List.replicate 242 's'],
    ⟨List.replicate 121 'ß', List.replicate 242 's', by decide +kernel, by decide +kernel⟩, ?_⟩
  intro exact_
  have shown := exact_.found ⟨List.replicate 242 's', by decide +kernel, [], [], by decide +kernel⟩
  have none_ : (buildSnippet sampleLetters (List.replicate 242 's') [List.replicate 242 's']).ranges = [] := by
    decide +kernel
  exact shown none_

end Discovery
