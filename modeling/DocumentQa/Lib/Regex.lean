import Mathlib.Data.List.Basic
import Mathlib.Data.List.TakeWhile

/-!
# Regular expressions of a backtracking matcher

A pattern is run from a cursor in the subject and yields the cursors it may stop at, in the
order a backtracking matcher tries them; the first one is the match. `Reads` is the relation
that the order forgets, and for a pattern that looks at nothing but the characters it
consumes, `Spells` is its set of words.
-/

/-- A pattern over the characters `α` with group names `γ`. -/
inductive Regex (α γ : Type) where
  | empty
  | unit (p : α → Bool)
  /-- A zero-width test of the character before the cursor and of what follows it. -/
  | look (p : Option α → List α → Bool)
  | seq (a b : Regex α γ)
  | alt (a b : Regex α γ)
  /-- Any number of times, longest or (`lazy`) shortest first. -/
  | many (lazy : Bool) (a : Regex α γ)
  | group (name : γ) (a : Regex α γ)

namespace Regex

variable {α γ : Type}

/-- A position in the subject: what stands before it, nearest first, what follows it, and
the groups captured so far, latest first. -/
structure Cursor (α γ : Type) where
  before : List α
  rest : List α
  groups : List (γ × List α)

namespace Cursor

/-- The characters between a cursor and a later one. -/
def text (s t : Cursor α γ) : List α :=
  (t.before.take (t.before.length - s.before.length)).reverse

/-- The cursor behind the next character. -/
def next (s : Cursor α γ) (c : α) (cs : List α) : Cursor α γ :=
  { s with before := c :: s.before, rest := cs }

/-- The cursor with the group that was opened at `s`. -/
def capture (t s : Cursor α γ) (name : γ) : Cursor α γ :=
  { t with groups := (name, s.text t) :: t.groups }

end Cursor

/-! ## Building patterns -/

/-- `a?`. -/
def opt (a : Regex α γ) : Regex α γ :=
  alt a empty

/-- `a+`. -/
def plus (a : Regex α γ) : Regex α γ :=
  seq a (many false a)

/-- `a{n}`. -/
def times : Nat → Regex α γ → Regex α γ
  | 0, _ => empty
  | n + 1, a => seq a (times n a)

/-- `a{0,n}`. -/
def upTo : Nat → Regex α γ → Regex α γ
  | 0, _ => empty
  | n + 1, a => opt (seq a (upTo n a))

/-- One pattern after the other. -/
def cat : List (Regex α γ) → Regex α γ
  | [] => empty
  | [a] => a
  | a :: as => seq a (cat as)

/-- One of the patterns, the first ones first. -/
def oneOf : List (Regex α γ) → Regex α γ
  | [] => look fun _ _ => false
  | [a] => a
  | a :: as => alt a (oneOf as)

/-- The characters of a word, each as `same` compares it. -/
def word (same : α → α → Bool) : List α → Regex α γ
  | [] => empty
  | c :: cs => seq (unit (same c)) (word same cs)

/-! ## Running a pattern -/

/-- `f` any number of times, as long as it consumes something. -/
def loop (lazy : Bool) (f : Cursor α γ → List (Cursor α γ)) : Nat → Cursor α γ → List (Cursor α γ)
  | 0, s => [s]
  | fuel + 1, s =>
    let more := ((f s).filter fun t => t.rest.length < s.rest.length).flatMap (loop lazy f fuel)
    if lazy then s :: more else more ++ [s]

/-- The cursors a pattern may stop at, first choices first. -/
def run : Regex α γ → Cursor α γ → List (Cursor α γ)
  | empty, s => [s]
  | unit p, s =>
    match s.rest with
    | [] => []
    | c :: cs => if p c then [s.next c cs] else []
  | look p, s => if p s.before.head? s.rest then [s] else []
  | seq a b, s => (run a s).flatMap (run b)
  | alt a b, s => run a s ++ run b s
  | many lazy a, s => loop lazy (run a) s.rest.length s
  | group name a, s => (run a s).map fun t => t.capture s name

/-- `pattern.match` at a cursor. -/
def first (r : Regex α γ) (s : Cursor α γ) : Option (Cursor α γ) :=
  (r.run s).head?

/-- `pattern.search` from a position on: where the match starts and ends. -/
def searchFrom (r : Regex α γ) : List α → List α → Option (Cursor α γ × Cursor α γ)
  | before, [] => (r.first ⟨before, [], []⟩).map fun t => (⟨before, [], []⟩, t)
  | before, c :: cs =>
    match r.first ⟨before, c :: cs, []⟩ with
    | some t => some (⟨before, c :: cs, []⟩, t)
    | none => searchFrom r (c :: before) cs

/-- `pattern.search(subject)`. -/
def search (r : Regex α γ) (subject : List α) : Option (Cursor α γ × Cursor α γ) :=
  r.searchFrom [] subject

/-- `bool(pattern.search(subject))`. -/
def found (r : Regex α γ) (subject : List α) : Bool :=
  (r.search subject).isSome

/-- `bool(pattern.fullmatch(subject))`. -/
def fullmatch (r : Regex α γ) (subject : List α) : Bool :=
  (r.run ⟨[], subject, []⟩).any fun t => t.rest.isEmpty

/-- `pattern.finditer` of a pattern that matches no empty text, from a position on. -/
def iterate (r : Regex α γ) : Nat → List α → List α → List (Cursor α γ × Cursor α γ)
  | 0, _, _ => []
  | fuel + 1, before, rest =>
    match r.searchFrom before rest with
    | none => []
    | some (s, t) => (s, t) :: iterate r fuel t.before t.rest

/-- `pattern.finditer(subject)` of a pattern that matches no empty text. -/
def finditer (r : Regex α γ) (subject : List α) : List (Cursor α γ × Cursor α γ) :=
  r.iterate (subject.length + 1) [] subject

/-- `pattern.findall(subject)` of a pattern without groups that matches no empty text. -/
def findall (r : Regex α γ) (subject : List α) : List (List α) :=
  (r.finditer subject).map fun m => m.1.text m.2

/-- `re.sub(pattern, "", subject)` of a pattern that matches no empty text, from a position on. -/
def removeFrom (r : Regex α γ) : Nat → List α → List α → List α
  | 0, _, rest => rest
  | fuel + 1, before, rest =>
    match r.searchFrom before rest with
    | none => rest
    | some (s, t) => Cursor.text ⟨before, rest, []⟩ s ++ removeFrom r fuel t.before t.rest

/-- `re.sub(pattern, "", subject)` of a pattern that matches no empty text. -/
def remove (r : Regex α γ) (subject : List α) : List α :=
  r.removeFrom (subject.length + 1) [] subject

/-- `re.sub(pattern, replacement, subject)` of a pattern that matches no empty text, from a position on. -/
def replaceFrom (r : Regex α γ) (replacement : List α) : Nat → List α → List α → List α
  | 0, _, rest => rest
  | fuel + 1, before, rest =>
    match r.searchFrom before rest with
    | none => rest
    | some (s, t) => Cursor.text ⟨before, rest, []⟩ s ++ replacement ++ replaceFrom r replacement fuel t.before t.rest

/-- `re.sub(pattern, replacement, subject)` of a pattern that matches no empty text. -/
def replace (r : Regex α γ) (replacement subject : List α) : List α :=
  r.replaceFrom replacement (subject.length + 1) [] subject

/-- `match.group(name)`, `none` for a group that took no part. -/
def Cursor.group? [DecidableEq γ] (t : Cursor α γ) (name : γ) : Option (List α) :=
  (t.groups.find? fun g => g.1 = name).map Prod.snd

/-! ## What a pattern reads -/

/-- A pattern may take one cursor to the other. -/
inductive Reads : Regex α γ → Cursor α γ → Cursor α γ → Prop
  | empty (s) : Reads empty s s
  | unit {p : α → Bool} {s : Cursor α γ} {c : α} {cs : List α} (here : s.rest = c :: cs) (ok : p c = true) :
      Reads (unit p) s (s.next c cs)
  | look {p : Option α → List α → Bool} {s : Cursor α γ} (ok : p s.before.head? s.rest = true) : Reads (look p) s s
  | seq {a b : Regex α γ} {s t u : Cursor α γ} (first : Reads a s t) (second : Reads b t u) : Reads (seq a b) s u
  | left {a b : Regex α γ} {s t : Cursor α γ} (one : Reads a s t) : Reads (alt a b) s t
  | right {a b : Regex α γ} {s t : Cursor α γ} (one : Reads b s t) : Reads (alt a b) s t
  | stop {lazy : Bool} {a : Regex α γ} (s) : Reads (many lazy a) s s
  | more {lazy : Bool} {a : Regex α γ} {s t u : Cursor α γ} (one : Reads a s t) (shorter : t.rest.length < s.rest.length)
      (others : Reads (many lazy a) t u) : Reads (many lazy a) s u
  | group {name : γ} {a : Regex α γ} {s t : Cursor α γ} (one : Reads a s t) : Reads (group name a) s (t.capture s name)

theorem mem_loop {lazy : Bool} {a : Regex α γ} {f : Cursor α γ → List (Cursor α γ)}
    (each : ∀ s t, t ∈ f s ↔ Reads a s t) (fuel : Nat) (s t : Cursor α γ) (enough : s.rest.length ≤ fuel) :
    t ∈ loop lazy f fuel s ↔ Reads (many lazy a) s t := by
  induction fuel generalizing s with
  | zero =>
    constructor
    · intro mem
      rw [loop, List.mem_singleton] at mem
      subst mem
      exact .stop t
    · intro h
      cases h with
      | stop => exact List.mem_singleton.2 rfl
      | more one shorter others => omega
  | succ fuel ih =>
    have turn : t ∈ loop lazy f (fuel + 1) s ↔
        t = s ∨ ∃ u, Reads a s u ∧ u.rest.length < s.rest.length ∧ t ∈ loop lazy f fuel u := by
      have more : t ∈ ((f s).filter fun u => u.rest.length < s.rest.length).flatMap (loop lazy f fuel) ↔
          ∃ u, Reads a s u ∧ u.rest.length < s.rest.length ∧ t ∈ loop lazy f fuel u := by
        simp only [List.mem_flatMap, List.mem_filter, decide_eq_true_eq, each, and_assoc]
      rw [loop]
      cases lazy with
      | true => rw [if_pos rfl, List.mem_cons, more]
      | false => rw [if_neg Bool.false_ne_true, List.mem_append, List.mem_singleton, more, or_comm]
    rw [turn]
    constructor
    · rintro (rfl | ⟨u, one, shorter, mem⟩)
      · exact .stop t
      · exact .more one shorter ((ih u (by omega)).1 mem)
    · intro h
      cases h with
      | stop => exact .inl rfl
      | more one shorter others => exact .inr ⟨_, one, shorter, (ih _ (by omega)).2 others⟩

/-- **The matcher tries what the pattern reads.** -/
theorem mem_run (r : Regex α γ) (s t : Cursor α γ) : t ∈ r.run s ↔ Reads r s t := by
  induction r generalizing s t with
  | empty =>
    rw [run, List.mem_singleton]
    constructor
    · rintro rfl
      exact .empty t
    · rintro ⟨⟩
      rfl
  | unit p =>
    rw [run]
    constructor
    · intro mem
      split at mem
      · cases mem
      · next c cs here =>
        split at mem
        · next ok =>
          rw [List.mem_singleton] at mem
          exact mem ▸ .unit here ok
        · cases mem
    · intro h
      cases h with
      | unit here ok =>
        rw [here]
        dsimp only
        rw [if_pos ok]
        exact List.mem_singleton.2 rfl
  | look p =>
    rw [run]
    constructor
    · intro mem
      split at mem
      · next ok =>
        rw [List.mem_singleton] at mem
        subst mem
        exact .look ok
      · cases mem
    · intro h
      cases h with
      | look ok =>
        rw [if_pos ok]
        exact List.mem_singleton.2 rfl
  | seq a b iha ihb =>
    rw [run, List.mem_flatMap]
    constructor
    · rintro ⟨u, mem, mem'⟩
      exact .seq ((iha s u).1 mem) ((ihb u t).1 mem')
    · intro h
      cases h with
      | seq first second => exact ⟨_, (iha s _).2 first, (ihb _ t).2 second⟩
  | alt a b iha ihb =>
    rw [run, List.mem_append, iha, ihb]
    constructor
    · rintro (one | one)
      · exact .left one
      · exact .right one
    · intro h
      cases h with
      | left one => exact .inl one
      | right one => exact .inr one
  | many lazy a ih => exact mem_loop ih s.rest.length s t (Nat.le_refl _)
  | group name a ih =>
    rw [run, List.mem_map]
    constructor
    · rintro ⟨u, mem, rfl⟩
      exact .group ((ih s u).1 mem)
    · intro h
      cases h with
      | group one => exact ⟨_, (ih s _).2 one, rfl⟩

/-- What is read lies between the cursors. -/
theorem Reads.spans {r : Regex α γ} {s t : Cursor α γ} (h : Reads r s t) :
    ∃ u, s.rest = u ++ t.rest ∧ t.before = u.reverse ++ s.before := by
  induction h with
  | empty => exact ⟨[], rfl, rfl⟩
  | unit here => exact ⟨[_], here, rfl⟩
  | look => exact ⟨[], rfl, rfl⟩
  | stop => exact ⟨[], rfl, rfl⟩
  | left _ ih => exact ih
  | right _ ih => exact ih
  | group _ ih => exact ih
  | seq _ _ ih ih' =>
    obtain ⟨u, rest, before⟩ := ih
    obtain ⟨v, rest', before'⟩ := ih'
    exact ⟨u ++ v, by rw [rest, rest', List.append_assoc], by rw [before', before, List.reverse_append, List.append_assoc]⟩
  | more _ _ _ ih ih' =>
    obtain ⟨u, rest, before⟩ := ih
    obtain ⟨v, rest', before'⟩ := ih'
    exact ⟨u ++ v, by rw [rest, rest', List.append_assoc], by rw [before', before, List.reverse_append, List.append_assoc]⟩

/-! ## Searching -/

theorem first_reads {r : Regex α γ} {s t : Cursor α γ} (h : r.first s = some t) : Reads r s t :=
  (mem_run r s t).1 (List.mem_of_head? h)

theorem first_eq_none {r : Regex α γ} {s : Cursor α γ} : r.first s = none ↔ ∀ t, ¬ Reads r s t := by
  rw [first, List.head?_eq_none_iff, List.eq_nil_iff_forall_not_mem]
  exact forall_congr' fun t => not_congr (mem_run r s t)

/-- A match found is read, at a place of the subject. -/
theorem searchFrom_reads {r : Regex α γ} {before rest : List α} {s t : Cursor α γ}
    (h : r.searchFrom before rest = some (s, t)) :
    Reads r s t ∧ ∃ skipped, rest = skipped ++ s.rest ∧ s.before = skipped.reverse ++ before := by
  induction rest generalizing before with
  | nil =>
    rw [searchFrom, Option.map_eq_some_iff] at h
    obtain ⟨u, found, e⟩ := h
    cases e
    exact ⟨first_reads found, [], rfl, rfl⟩
  | cons c cs ih =>
    rw [searchFrom] at h
    split at h
    · next found =>
      cases h
      exact ⟨first_reads found, [], rfl, rfl⟩
    · obtain ⟨reads, skipped, e, e'⟩ := ih h
      refine ⟨reads, c :: skipped, by rw [e, List.cons_append], ?_⟩
      rw [e', List.reverse_cons, List.append_assoc]
      rfl

/-- A search fails only where the pattern reads nothing. -/
theorem searchFrom_eq_none {r : Regex α γ} {before rest : List α} :
    r.searchFrom before rest = none ↔
      ∀ skipped left, rest = skipped ++ left → ∀ t, ¬ Reads r ⟨skipped.reverse ++ before, left, []⟩ t := by
  induction rest generalizing before with
  | nil =>
    rw [searchFrom, Option.map_eq_none_iff, first_eq_none]
    constructor
    · intro h skipped left e
      obtain ⟨rfl, rfl⟩ := List.append_eq_nil_iff.1 e.symm
      exact h
    · exact fun h => h [] [] rfl
  | cons c cs ih =>
    rw [searchFrom]
    split
    · next t found =>
      refine ⟨fun h => absurd h (Option.some_ne_none _), ?_⟩
      exact fun h => absurd (first_reads found) (h [] (c :: cs) rfl t)
    · next none_ =>
      rw [ih]
      constructor
      · intro h skipped left e
        cases skipped with
        | nil =>
          rw [List.nil_append] at e
          subst e
          exact first_eq_none.1 none_
        | cons d skipped =>
          obtain ⟨same, more⟩ := List.cons.inj e
          subst same
          have there := h skipped left more
          rwa [List.reverse_cons, List.append_assoc]
      · intro h skipped left e
        have there := h (c :: skipped) left (by rw [e, List.cons_append])
        rwa [List.reverse_cons, List.append_assoc] at there

/-- A search finds the first place where the pattern reads something. -/
theorem searchFrom_least {r : Regex α γ} {before rest : List α} {s t : Cursor α γ}
    (h : r.searchFrom before rest = some (s, t)) {skipped left : List α} (parts : rest = skipped ++ left)
    {t' : Cursor α γ} (reads : Reads r ⟨skipped.reverse ++ before, left, []⟩ t') :
    s.before.length ≤ before.length + skipped.length := by
  induction rest generalizing before skipped with
  | nil =>
    rw [searchFrom, Option.map_eq_some_iff] at h
    obtain ⟨u, -, e⟩ := h
    cases e
    exact Nat.le_add_right _ _
  | cons c cs ih =>
    rw [searchFrom] at h
    split at h
    · cases h
      exact Nat.le_add_right _ _
    · next none_ =>
      cases skipped with
      | nil =>
        rw [List.nil_append] at parts
        subst parts
        exact absurd reads (first_eq_none.1 none_ t')
      | cons d skipped =>
        obtain ⟨rfl, more⟩ := List.cons.inj parts
        rw [List.reverse_cons, List.append_assoc] at reads
        have bound := ih h more reads
        simp only [List.length_cons] at bound ⊢
        omega

/-- `finditer` yields matches only. -/
theorem mem_iterate {r : Regex α γ} {fuel : Nat} {before rest : List α} {m : Cursor α γ × Cursor α γ}
    (mem : m ∈ r.iterate fuel before rest) :
    Reads r m.1 m.2 ∧ m.1.before.reverse ++ m.1.rest = before.reverse ++ rest := by
  induction fuel generalizing before rest with
  | zero => cases mem
  | succ fuel ih =>
    rw [iterate] at mem
    split at mem
    · cases mem
    · next s t found =>
      obtain ⟨reads, skipped, left, front⟩ := searchFrom_reads found
      have whole : s.before.reverse ++ s.rest = before.reverse ++ rest := by
        rw [front, left, List.reverse_append, List.reverse_reverse, List.append_assoc]
      rcases List.mem_cons.1 mem with rfl | later
      · exact ⟨reads, whole⟩
      · obtain ⟨reads', whole'⟩ := ih later
        obtain ⟨u, left', front'⟩ := reads.spans
        refine ⟨reads', ?_⟩
        rw [whole', ← whole, left', front', List.reverse_append, List.reverse_reverse, List.append_assoc]

/-- The first match `finditer` yields is not behind any other place where the pattern reads something. -/
theorem iterate_least {r : Regex α γ} {fuel : Nat} {before rest skipped left : List α} (parts : rest = skipped ++ left)
    {t' : Cursor α γ} (reads : Reads r ⟨skipped.reverse ++ before, left, []⟩ t') :
    ∃ m ∈ r.iterate (fuel + 1) before rest, m.1.before.length ≤ before.length + skipped.length := by
  rw [iterate]
  split
  · next none_ => exact absurd reads (searchFrom_eq_none.1 none_ skipped left parts t')
  · next s t found => exact ⟨(s, t), List.mem_cons_self .., searchFrom_least found parts reads⟩

theorem removeFrom_sublist (r : Regex α γ) (fuel : Nat) (before rest : List α) :
    (r.removeFrom fuel before rest).Sublist rest := by
  induction fuel generalizing before rest with
  | zero => exact List.Sublist.refl _
  | succ fuel ih =>
    rw [removeFrom]
    split
    · exact List.Sublist.refl _
    · next s t found =>
      obtain ⟨reads, skipped, left, front⟩ := searchFrom_reads found
      obtain ⟨u, left', -⟩ := reads.spans
      have between : Cursor.text ⟨before, rest, []⟩ s = skipped := by
        rw [Cursor.text, front, List.length_append, Nat.add_sub_cancel, List.take_left, List.reverse_reverse]
      rw [between, left, left']
      exact (List.Sublist.refl skipped).append ((ih t.before t.rest).trans (List.sublist_append_right u t.rest))

/-- Removing leaves the subject as it is, or what stands before a match and some of what stands behind it. -/
theorem remove_cases (r : Regex α γ) (subject : List α) :
    r.remove subject = subject ∨ ∃ skipped s t tail, Reads r s t ∧ skipped <+: subject ∧ tail.Sublist t.rest ∧
      r.remove subject = skipped ++ tail := by
  rw [remove, removeFrom]
  split
  · exact .inl rfl
  · next s t found =>
    right
    obtain ⟨reads, skipped, left, front⟩ := searchFrom_reads found
    have between : Cursor.text ⟨[], subject, []⟩ s = skipped := by
      rw [Cursor.text, front, List.length_append, Nat.add_sub_cancel, List.take_left, List.reverse_reverse]
    exact ⟨skipped, s, t, _, reads, ⟨s.rest, left.symm⟩, removeFrom_sublist r _ t.before t.rest, by rw [between]⟩

/-! ## Words -/

/-- A pattern without zero-width tests. -/
def plain : Regex α γ → Bool
  | empty => true
  | unit _ => true
  | look _ => false
  | seq a b => a.plain && b.plain
  | alt a b => a.plain && b.plain
  | many _ a => a.plain
  | group _ a => a.plain

/-- The words of a plain pattern. -/
inductive Spells : Regex α γ → List α → Prop
  | empty : Spells empty []
  | unit {p : α → Bool} {c : α} (ok : p c = true) : Spells (unit p) [c]
  | seq {a b : Regex α γ} {u v : List α} (first : Spells a u) (second : Spells b v) : Spells (seq a b) (u ++ v)
  | left {a b : Regex α γ} {u : List α} (one : Spells a u) : Spells (alt a b) u
  | right {a b : Regex α γ} {u : List α} (one : Spells b u) : Spells (alt a b) u
  | stop {lazy : Bool} {a : Regex α γ} : Spells (many lazy a) []
  | more {lazy : Bool} {a : Regex α γ} {u v : List α} (one : Spells a u) (some_ : u ≠ []) (others : Spells (many lazy a) v) :
      Spells (many lazy a) (u ++ v)
  | group {name : γ} {a : Regex α γ} {u : List α} (one : Spells a u) : Spells (group name a) u

theorem Reads.spells {r : Regex α γ} {s t : Cursor α γ} (h : Reads r s t) (p : r.plain = true) :
    ∃ u, Spells r u ∧ s.rest = u ++ t.rest := by
  induction h with
  | empty => exact ⟨[], .empty, rfl⟩
  | unit here ok => exact ⟨[_], .unit ok, here⟩
  | look => cases p
  | stop => exact ⟨[], .stop, rfl⟩
  | left _ ih =>
    obtain ⟨u, w, rest⟩ := ih (Bool.and_eq_true_iff.1 p).1
    exact ⟨u, .left w, rest⟩
  | right _ ih =>
    obtain ⟨u, w, rest⟩ := ih (Bool.and_eq_true_iff.1 p).2
    exact ⟨u, .right w, rest⟩
  | group _ ih =>
    obtain ⟨u, w, rest⟩ := ih p
    exact ⟨u, .group w, rest⟩
  | seq _ _ ih ih' =>
    obtain ⟨u, w, rest⟩ := ih (Bool.and_eq_true_iff.1 p).1
    obtain ⟨v, w', rest'⟩ := ih' (Bool.and_eq_true_iff.1 p).2
    exact ⟨u ++ v, .seq w w', by rw [rest, rest', List.append_assoc]⟩
  | more _ shorter _ ih ih' =>
    obtain ⟨u, w, rest⟩ := ih p
    obtain ⟨v, w', rest'⟩ := ih' p
    refine ⟨u ++ v, .more w ?_ w', by rw [rest, rest', List.append_assoc]⟩
    rintro rfl
    rw [rest] at shorter
    exact absurd shorter (Nat.lt_irrefl _)

theorem Spells.reads {r : Regex α γ} {u : List α} (h : Spells r u) (before rest : List α) (groups : List (γ × List α)) :
    ∃ groups', Reads r ⟨before, u ++ rest, groups⟩ ⟨u.reverse ++ before, rest, groups'⟩ := by
  induction h generalizing before rest groups with
  | empty => exact ⟨groups, .empty _⟩
  | unit ok => exact ⟨groups, .unit rfl ok⟩
  | stop => exact ⟨groups, .stop _⟩
  | left _ ih =>
    obtain ⟨g, one⟩ := ih before rest groups
    exact ⟨g, .left one⟩
  | right _ ih =>
    obtain ⟨g, one⟩ := ih before rest groups
    exact ⟨g, .right one⟩
  | group _ ih =>
    obtain ⟨g, one⟩ := ih before rest groups
    exact ⟨_, .group one⟩
  | @seq a b u v _ _ ih ih' =>
    obtain ⟨g, one⟩ := ih before (v ++ rest) groups
    obtain ⟨g', two⟩ := ih' (u.reverse ++ before) rest g
    refine ⟨g', ?_⟩
    rw [List.append_assoc, List.reverse_append, List.append_assoc]
    exact .seq one two
  | @more lazy a u v _ some_ _ ih ih' =>
    obtain ⟨g, one⟩ := ih before (v ++ rest) groups
    obtain ⟨g', two⟩ := ih' (u.reverse ++ before) rest g
    refine ⟨g', ?_⟩
    rw [List.append_assoc, List.reverse_append, List.append_assoc]
    refine .more one ?_ two
    have size := List.length_pos_iff.2 some_
    simp only [List.length_append]
    omega

/-- **A plain pattern matches exactly its words.** -/
theorem fullmatch_iff {r : Regex α γ} (p : r.plain = true) {u : List α} : r.fullmatch u = true ↔ Spells r u := by
  rw [fullmatch, List.any_eq_true]
  constructor
  · rintro ⟨t, mem, stop⟩
    obtain ⟨v, w, rest⟩ := ((mem_run r _ t).1 mem).spells p
    rw [List.isEmpty_iff.1 stop, List.append_nil] at rest
    exact (show u = v from rest) ▸ w
  · intro w
    obtain ⟨g, one⟩ := w.reads [] [] []
    rw [List.append_nil] at one
    exact ⟨_, (mem_run r _ _).2 one, rfl⟩

@[simp] theorem spells_empty {u : List α} : Spells (empty : Regex α γ) u ↔ u = [] := by
  constructor
  · rintro ⟨⟩
    rfl
  · rintro rfl
    exact .empty

@[simp] theorem spells_unit {p : α → Bool} {u : List α} : Spells (unit p : Regex α γ) u ↔ ∃ c, p c = true ∧ u = [c] := by
  constructor
  · rintro ⟨⟩
    exact ⟨_, by assumption, rfl⟩
  · rintro ⟨c, ok, rfl⟩
    exact .unit ok

@[simp] theorem spells_seq {a b : Regex α γ} {u : List α} :
    Spells (seq a b) u ↔ ∃ x y, Spells a x ∧ Spells b y ∧ u = x ++ y := by
  constructor
  · intro h
    cases h with
    | seq one two => exact ⟨_, _, one, two, rfl⟩
  · rintro ⟨x, y, one, two, rfl⟩
    exact .seq one two

@[simp] theorem spells_alt {a b : Regex α γ} {u : List α} : Spells (alt a b) u ↔ Spells a u ∨ Spells b u := by
  constructor
  · intro h
    cases h with
    | left one => exact .inl one
    | right one => exact .inr one
  · rintro (one | one)
    · exact .left one
    · exact .right one

@[simp] theorem spells_word [DecidableEq α] {w u : List α} : Spells (word (· == ·) w : Regex α γ) u ↔ u = w := by
  induction w generalizing u with
  | nil => exact spells_empty
  | cons c w ih =>
    rw [word, spells_seq]
    constructor
    · rintro ⟨x, y, one, two, rfl⟩
      obtain ⟨d, same, rfl⟩ := spells_unit.1 one
      rw [ih.1 two, eq_of_beq same]
      rfl
    · rintro rfl
      exact ⟨[c], w, spells_unit.2 ⟨c, beq_self_eq_true c, rfl⟩, ih.2 rfl, rfl⟩

/-- A plain pattern with a test behind it reads a word where the test holds. -/
theorem reads_guarded {a : Regex α γ} (p : a.plain = true) {f : Option α → List α → Bool} {s t : Cursor α γ}
    (h : Reads (seq a (look f)) s t) :
    ∃ u, Spells a u ∧ s.rest = u ++ t.rest ∧ t.before = u.reverse ++ s.before ∧ f t.before.head? t.rest = true := by
  cases h with
  | seq one two =>
    cases two with
    | look ok =>
      obtain ⟨u, word, left⟩ := one.spells p
      obtain ⟨u', left', front⟩ := one.spans
      obtain rfl := List.append_cancel_right (left.symm.trans left')
      exact ⟨u, word, left, front, ok⟩

@[simp] theorem spells_opt {a : Regex α γ} {u : List α} : Spells (opt a) u ↔ Spells a u ∨ u = [] := by
  constructor
  · intro h
    cases h with
    | left one => exact .inl one
    | right one => exact .inr (spells_empty.1 one)
  · rintro (one | rfl)
    · exact .left one
    · exact .right .empty

/-- A repeated character class spells the words over it. -/
@[simp] theorem spells_many_unit {lazy : Bool} {p : α → Bool} {u : List α} :
    Spells (many lazy (unit p) : Regex α γ) u ↔ ∀ c ∈ u, p c = true := by
  constructor
  · intro h
    generalize e : (many lazy (unit p) : Regex α γ) = r at h
    induction h with
    | stop => exact fun c mem => absurd mem List.not_mem_nil
    | more one _ _ _ ih =>
      cases e
      obtain ⟨c, ok, rfl⟩ := spells_unit.1 one
      intro d mem
      rcases List.mem_cons.1 mem with rfl | mem
      · exact ok
      · exact ih rfl d mem
    | _ => cases e
  · intro all
    induction u with
    | nil => exact .stop
    | cons c cs ih =>
      exact .more (.unit (all c (List.mem_cons_self ..))) (List.cons_ne_nil _ _)
        (ih fun d mem => all d (List.mem_cons_of_mem _ mem))

end Regex
