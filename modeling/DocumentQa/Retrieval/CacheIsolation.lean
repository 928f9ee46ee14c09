import DocumentQa.Lib.Json.Chars
import DocumentQa.Python.Search
import DocumentQa.Retrieval.SemanticCache
import Mathlib.Data.Set.Function

/-!
# The semantic cache keeps answers apart

What a hit serves was stored by a `set` since the last `clear` under the key of the query, is
not expired and is as similar as any such entry; the cache is bounded, and an entry only leaves
it when it is expired, cleared, or the least used of a full cache. Filters are kept apart as
far as their keys are: a bar inside a filter, or a filter that is written as the star of a
missing one, lets a query meet the answer to another.
-/

namespace SemanticCache

open JsonText Python

/-! ## Keys -/

theorem intText_chars {i : Int} {c : Char} (h : c ∈ intText i) : c = '-' ∨ c.isDigit = true := by
  rw [intText] at h
  split at h
  · rcases List.mem_cons.1 h with rfl | h
    · exact .inl rfl
    · exact .inr (natText_isDigit h)
  · exact .inr (natText_isDigit h)

theorem intText_unbarred (i : Int) : '|' ∉ intText i := by
  intro mem
  rcases intText_chars mem with h | h
  · cases h
  · cases h

theorem intText_injective {i j : Int} (h : intText i = intText j) : i = j := by
  have back := readNumber_int i Stops.nil
  rw [h, readNumber_int j Stops.nil, Option.some.injEq, Prod.mk.injEq, Json.int.injEq] at back
  exact back.1.symm

/-- A filter that a key spells so that it can be read again. -/
def PlainText (value : Option String) : Prop :=
  ∀ text, value = some text → text ≠ "" ∧ text ≠ "*" ∧ '|' ∉ text.toList

/-- Filters without bars, empty texts and stars, as the requests of the API have them. -/
structure Filters.Plain (f : Filters) : Prop where
  ticker : PlainText f.ticker
  section_ : PlainText f.section_
  language : ∀ text, f.answerLanguage = some text → '|' ∉ text.toList

theorem PlainText.unbarred {value : Option String} (h : PlainText value) : '|' ∉ orStar value := by
  cases value with
  | none => decide
  | some text =>
    obtain ⟨some_, -, unbarred⟩ := h text rfl
    rw [orStar, if_neg some_]
    exact unbarred

theorem PlainText.injective {a b : Option String} (ha : PlainText a) (hb : PlainText b) (h : orStar a = orStar b) : a = b := by
  have star {text : String} (some_ : text ≠ "") (other : text ≠ "*") : orStar (some text) ≠ orStar none := by
    intro same
    rw [orStar, orStar, if_neg some_] at same
    exact other (String.toList_injective same)
  cases a with
  | none =>
    cases b with
    | none => rfl
    | some text =>
      obtain ⟨some_, other, -⟩ := hb text rfl
      exact absurd h.symm (star some_ other)
  | some text =>
    obtain ⟨some_, other, -⟩ := ha text rfl
    cases b with
    | none => exact absurd h (star some_ other)
    | some text' =>
      obtain ⟨some_', -, -⟩ := hb text' rfl
      rw [orStar, orStar, if_neg some_, if_neg some_'] at h
      exact congrArg some (String.toList_injective h)

/-- **Plain filters are told apart.** -/
theorem makeFilterKey_plain : Set.InjOn makeFilterKey {f | f.Plain} := by
  intro f hf g hg same
  have base (h : baseKey f = baseKey g) : f.ticker = g.ticker ∧ f.section_ = g.section_ ∧ f.topK = g.topK := by
    obtain ⟨ticker, rest⟩ := separated_injective hf.ticker.unbarred hg.ticker.unbarred h
    obtain ⟨section_, topK⟩ := separated_injective hf.section_.unbarred hg.section_.unbarred rest
    exact ⟨hf.ticker.injective hg.ticker ticker, hf.section_.injective hg.section_ section_, intText_injective topK⟩
  -- a key with a language has one bar more
  have shorter {f g : Filters} {language : String} (hf : f.Plain) (hg : g.Plain) (plain : '|' ∉ language.toList) :
      baseKey f ≠ language.toList ++ '|' :: baseKey g := by
    intro h
    obtain ⟨-, rest⟩ := separated_injective hf.ticker.unbarred plain h
    obtain ⟨-, number⟩ := separated_injective hf.section_.unbarred hg.ticker.unbarred rest
    exact intText_unbarred f.topK (number ▸ List.mem_append_right _ List.mem_cons_self)
  obtain ⟨ticker, section_, topK, language⟩ := f
  obtain ⟨ticker', section_', topK', language'⟩ := g
  cases language with
  | none =>
    cases language' with
    | none =>
      obtain ⟨rfl, rfl, rfl⟩ := base (String.ofList_injective same)
      rfl
    | some l => exact absurd (String.ofList_injective same) (shorter hf hg (hg.language l rfl))
  | some l =>
    cases language' with
    | none => exact absurd (String.ofList_injective same).symm (shorter hg hf (hf.language l rfl))
    | some l' =>
      obtain ⟨spoken, rest⟩ := separated_injective (hf.language l rfl) (hg.language l' rfl) (String.ofList_injective same)
      obtain ⟨rfl, rfl, rfl⟩ := base rest
      rw [String.toList_injective spoken]

/-! ## The best candidate -/

theorem exceeds_trans {a b c : Score} (h : a.exceeds b = true) (h' : b.exceeds c = true) : a.exceeds c = true := by
  cases a with
  | none => cases h
  | some a =>
    cases b with
    | none => cases h
    | some b =>
      cases c with
      | none => cases h'
      | some c => exact decide_eq_true ((of_decide_eq_true h').trans (of_decide_eq_true h))

section Operations

variable {r : Runtime}

/-- No candidate exceeds the best one, which is a candidate with its score. -/
theorem best_spec (embedding : Embedding) (candidates : List (CacheEntry × Nat)) :
    (∀ c ∈ candidates, (r.similarity embedding c.1.queryEmbedding).exceeds (best r embedding candidates).1 = false) ∧
      ∀ c, (best r embedding candidates).2 = some c →
        c ∈ candidates ∧ (best r embedding candidates).1 = r.similarity embedding c.1.queryEmbedding := by
  induction candidates using List.reverseRecOn with
  | nil => exact ⟨fun c mem => absurd mem List.not_mem_nil, fun c none_ => absurd none_ (Option.some_ne_none c).symm⟩
  | append_singleton candidates last ih =>
    have unfold_ : best r embedding (candidates ++ [last]) = consider r embedding (best r embedding candidates) last :=
      List.foldl_concat ..
    rw [unfold_]
    unfold consider
    dsimp only
    split
    · next better =>
      refine ⟨?_, ?_⟩
      · intro c mem
        rcases List.mem_append.1 mem with earlier | here
        · by_contra exceeds
          rw [Bool.not_eq_false] at exceeds
          have above := exceeds_trans exceeds better
          rw [ih.1 c earlier] at above
          cases above
        · rw [List.mem_singleton.1 here]
          by_contra exceeds
          rw [Bool.not_eq_false] at exceeds
          revert exceeds
          cases r.similarity embedding last.1.queryEmbedding with
          | none => exact Bool.false_ne_true
          | some score => exact fun h => lt_irrefl score (of_decide_eq_true h)
      · intro c chosen
        cases chosen
        exact ⟨List.mem_append_right _ (List.mem_singleton_self _), rfl⟩
    · next worse =>
      refine ⟨?_, ?_⟩
      · intro c mem
        rcases List.mem_append.1 mem with earlier | here
        · exact ih.1 c earlier
        · rw [List.mem_singleton.1 here]
          exact Bool.eq_false_iff.2 worse
      · intro c chosen
        obtain ⟨mem, score⟩ := ih.2 c chosen
        exact ⟨List.mem_append_left _ mem, score⟩

/-! ## One call -/

/-- An entry without its hits, which is all of it that stays as it was stored. -/
def CacheEntry.unused (entry : CacheEntry) : CacheEntry :=
  { entry with hitCount := 0 }

theorem modify_hit (entries : List CacheEntry) (place : Nat) :
    (entries.modify place CacheEntry.hit).map CacheEntry.unused = entries.map CacheEntry.unused := by
  apply List.ext_getElem?
  intro i
  rw [List.getElem?_map, List.getElem?_map, List.getElem?_modify]
  cases entries[i]? with
  | none => rfl
  | some entry =>
    show some (CacheEntry.unused (if place = i then entry.hit else entry)) = some entry.unused
    split <;> rfl

/-- What a hit serves. -/
structure Served (r : Runtime) (s : State) (now : ℚ) (embedding : Embedding) (filters : Filters) (entry : CacheEntry) : Prop where
  stored : ∃ e ∈ s.entries, entry = e.hit
  keyed : entry.filterKey = makeFilterKey filters
  fresh : live r s.config now entry = true
  similar : ∃ score, r.similarity embedding entry.queryEmbedding = some score ∧ s.config.threshold ≤ score
  maximal : ∀ e ∈ s.entries, live r s.config now e = true → e.filterKey = makeFilterKey filters →
    (r.similarity embedding e.queryEmbedding).exceeds (r.similarity embedding entry.queryEmbedding) = false

theorem get_served {s : State} {now : ℚ} {embedding : Embedding} {filters : Filters} {entry : CacheEntry}
    (h : (s.get r now embedding filters).2 = some entry) : Served r s now embedding filters entry := by
  obtain ⟨exceeded, chosen⟩ := best_spec (r := r) embedding (s.candidates r now (makeFilterKey filters))
  rw [State.get] at h
  dsimp only at h
  have same : State.candidates r { s with stats := { s.stats with totalRequests := s.stats.totalRequests + 1 } } now
      (makeFilterKey filters) = s.candidates r now (makeFilterKey filters) := rfl
  rw [same] at h
  split at h
  · next score e place found =>
    split at h
    · next reached =>
      cases h
      rw [found] at chosen exceeded
      obtain ⟨mem, scored⟩ := chosen _ rfl
      obtain ⟨listed, here⟩ := List.mem_filter.1 mem
      rw [Bool.and_eq_true, decide_eq_true_eq] at here
      have stored := List.mem_iff_getElem?.2 ⟨place, List.mem_zipIdx_iff_getElem?.1 listed⟩
      refine ⟨⟨e, stored, rfl⟩, here.1, here.2, ⟨score, scored.symm, reached⟩, ?_⟩
      intro other mem' fresh keyed
      obtain ⟨place', there⟩ := List.mem_iff_getElem?.1 mem'
      have candidate : (other, place') ∈ s.candidates r now (makeFilterKey filters) := by
        refine List.mem_filter.2 ⟨List.mem_zipIdx_iff_getElem?.2 there, ?_⟩
        rw [Bool.and_eq_true, decide_eq_true_eq]
        exact ⟨keyed, fresh⟩
      show (r.similarity embedding other.queryEmbedding).exceeds (r.similarity embedding e.queryEmbedding) = false
      rw [← scored]
      exact exceeded _ candidate
    · cases h
  · cases h

/-- `get` only counts. -/
theorem get_keeps (s : State) (now : ℚ) (embedding : Embedding) (filters : Filters) :
    (s.get r now embedding filters).1.config = s.config ∧
      (s.get r now embedding filters).1.entries.map CacheEntry.unused = s.entries.map CacheEntry.unused := by
  rw [State.get]
  dsimp only
  split
  · split
    · exact ⟨rfl, modify_hit _ _⟩
    · exact ⟨rfl, rfl⟩
  · exact ⟨rfl, rfl⟩

theorem byUse_least {entries kept : List CacheEntry} {evicted : CacheEntry} (h : byUse entries = evicted :: kept) :
    entries.Perm (evicted :: kept) ∧ ∀ e ∈ entries, evicted.use ≤ e.use := by
  have perm : (byUse entries).Perm entries := List.perm_insertionSort _ entries
  have : Std.Total fun a b : CacheEntry => a.use ≤ b.use := ⟨fun a b => le_total a.use b.use⟩
  have : IsTrans CacheEntry fun a b => a.use ≤ b.use := ⟨fun _ _ _ => le_trans⟩
  have sorted : (byUse entries).Pairwise fun a b => a.use ≤ b.use := List.pairwise_insertionSort _ entries
  rw [h] at perm sorted
  refine ⟨perm.symm, ?_⟩
  intro e mem
  rcases List.mem_cons.1 (perm.mem_iff.2 mem) with rfl | later
  · exact le_refl _
  · exact (List.pairwise_cons.1 sorted).1 e later

/-- The entry that a `set` call makes. -/
def Timed.Made (c : Timed) (entry : CacheEntry) : Prop :=
  ∃ embedding filters answer sources modelUsed, c.call = .set embedding filters answer sources modelUsed ∧
    entry = ⟨embedding, makeFilterKey filters, answer, sources, modelUsed, c.now, 0, filters⟩

/-- What a call may do to the entries. -/
def Retained (r : Runtime) (s : State) (c : Timed) (s' : State) : Prop :=
  match c.call with
  | .get .. => s'.entries.map CacheEntry.unused = s.entries.map CacheEntry.unused
  | .getStats => s'.entries = s.entries.filter (live r s.config c.now)
  | .clear => s'.entries = []
  | .set .. => ∃ entry, c.Made entry ∧
      let fresh := s.entries.filter (live r s.config c.now)
      (fresh.length < s.config.maxEntries ∧ s'.entries = fresh ++ [entry]) ∨
        ∃ evicted kept, (s.config.maxEntries ≤ fresh.length ∧ fresh.Perm (evicted :: kept)) ∧
          (∀ e ∈ fresh, evicted.use ≤ e.use) ∧ s'.entries = kept ++ [entry]

theorem step_config (s : State) (c : Timed) : (step r s c).config = s.config := by
  unfold step
  split
  · exact (get_keeps s _ _ _).1
  · rw [State.set]
    dsimp only
    split
    · split <;> rfl
    · rfl
  · rfl
  · rfl

/-- **One call** loses an entry by expiry, `clear` or the eviction of a least used one. -/
theorem step_retained {s : State} (positive : 1 ≤ s.config.maxEntries) (c : Timed) : Retained r s c (step r s c) := by
  obtain ⟨now, call⟩ := c
  cases call with
  | get embedding filters => exact (get_keeps s now embedding filters).2
  | getStats => rfl
  | clear => rfl
  | set embedding filters answer sources modelUsed =>
    refine ⟨_, ⟨embedding, filters, answer, sources, modelUsed, rfl, rfl⟩, ?_⟩
    dsimp only
    rw [step]
    dsimp only
    rw [State.set]
    dsimp only
    rw [State.pruneExpired]
    dsimp only
    generalize s.entries.filter (live r s.config now) = fresh
    by_cases full : s.config.maxEntries ≤ fresh.length
    · right
      rw [if_pos full]
      cases sorted : byUse fresh with
      | nil =>
        exfalso
        have none_ : fresh.length = 0 := by
          rw [← (List.perm_insertionSort (fun a b : CacheEntry => a.use ≤ b.use) fresh).length_eq]
          exact congrArg List.length sorted
        omega
      | cons evicted kept =>
        obtain ⟨perm, least⟩ := byUse_least sorted
        exact ⟨evicted, kept, ⟨full, perm⟩, least, rfl⟩
    · left
      rw [if_neg full]
      exact ⟨Int.lt_of_not_ge full, rfl⟩

/-- What expired stays expired, as rounding is monotone. -/
theorem live_earlier {config : Config} {now later : ℚ} {entry : CacheEntry} (order : now ≤ later)
    (h : live r config later entry = true) : live r config now entry = true := by
  rw [live, decide_eq_true_eq] at h ⊢
  exact (r.rounding.mono (sub_le_sub_right order _)).trans h

/-! ## Runs -/

/-- The cache after the calls of a run. -/
def after (r : Runtime) (config : Config) (calls : List Timed) : State :=
  Runs.run (step r) (new config) calls

theorem after_concat (config : Config) (calls : List Timed) (c : Timed) :
    after r config (calls ++ [c]) = step r (after r config calls) c :=
  Runs.run_append _ _ _ _

theorem setsSince_concat (calls : List Timed) (c : Timed) : setsSince (calls ++ [c]) =
    match c.call with
    | .set .. => setsSince calls ++ [c]
    | .clear => []
    | _ => setsSince calls :=
  List.foldl_concat ..

theorem setsSince_subset (calls : List Timed) : setsSince calls ⊆ calls := by
  induction calls using List.reverseRecOn with
  | nil => exact List.Subset.refl []
  | append_singleton calls c ih =>
    have kept : setsSince calls ⊆ calls ++ [c] := fun x mem => List.mem_append_left _ (ih mem)
    rw [setsSince_concat]
    split
    · exact List.append_subset.2 ⟨kept, List.subset_append_right _ _⟩
    · exact List.nil_subset _
    · exact kept

/-- What holds of the cache after every run. -/
structure Invariant (config : Config) (sets : List Timed) (s : State) : Prop where
  configured : s.config = config
  made : ∀ e ∈ s.entries, ∃ c ∈ sets, c.Made e.unused
  bounded : (s.entries.length : Int) ≤ config.maxEntries

theorem Timed.Made.unused {c : Timed} {entry : CacheEntry} (h : c.Made entry) : c.Made entry.unused := by
  obtain ⟨embedding, filters, answer, sources, modelUsed, call, rfl⟩ := h
  exact ⟨embedding, filters, answer, sources, modelUsed, call, rfl⟩

/-- **One call** keeps the invariant. -/
theorem Invariant.step {config : Config} {calls : List Timed} {s : State} (positive : 1 ≤ config.maxEntries)
    (inv : Invariant config (setsSince calls) s) (c : Timed) :
    Invariant config (setsSince (calls ++ [c])) (step r s c) := by
  obtain ⟨rfl, made, bounded⟩ := inv
  have retained := step_retained (r := r) positive c
  have few : ((s.entries.filter (live r s.config c.now)).length : Int) ≤ s.config.maxEntries := by
    have shorter := List.length_filter_le (live r s.config c.now) s.entries
    omega
  obtain ⟨now, call⟩ := c
  rw [setsSince_concat]
  cases call with
  | get embedding filters =>
    refine ⟨step_config _ _, ?_, ?_⟩
    · intro e mem
      have there : e.unused ∈ s.entries.map CacheEntry.unused := retained ▸ List.mem_map_of_mem mem
      obtain ⟨e', mem', same⟩ := List.mem_map.1 there
      rw [← same]
      exact made e' mem'
    · have lengths := congrArg List.length retained
      rw [List.length_map, List.length_map] at lengths
      rw [lengths]
      exact bounded
  | getStats =>
    refine ⟨step_config _ _, ?_, ?_⟩
    · intro e mem
      rw [retained] at mem
      exact made e (List.mem_of_mem_filter mem)
    · rw [retained]
      exact few
  | clear =>
    refine ⟨step_config _ _, ?_, ?_⟩
    · intro e mem
      rw [retained] at mem
      exact absurd mem List.not_mem_nil
    · rw [retained]
      show (0 : Int) ≤ _
      omega
  | set embedding filters answer sources modelUsed =>
    obtain ⟨entry, new_, kept⟩ := retained
    have stored {fresh : List CacheEntry} (within : fresh ⊆ s.entries) : ∀ e ∈ fresh ++ [entry],
        ∃ c ∈ setsSince calls ++ [⟨now, .set embedding filters answer sources modelUsed⟩], c.Made e.unused := by
      intro e mem
      rcases List.mem_append.1 mem with old | here
      · obtain ⟨c, since, made_⟩ := made e (within old)
        exact ⟨c, List.mem_append_left _ since, made_⟩
      · rw [List.mem_singleton.1 here]
        exact ⟨_, List.mem_append_right _ (List.mem_singleton_self _), new_.unused⟩
    have fresh_ : s.entries.filter (live r s.config now) ⊆ s.entries :=
      fun _ mem => List.mem_of_mem_filter mem
    rcases kept with ⟨room, entries⟩ | ⟨evicted, kept, ⟨full, perm⟩, -, entries⟩
    · refine ⟨step_config _ _, ?_, ?_⟩
      · rw [entries]
        exact stored fresh_
      · have room' : ((s.entries.filter (live r s.config now)).length : Int) < s.config.maxEntries := room
        rw [entries, List.length_append, List.length_singleton]
        push_cast
        omega
    · refine ⟨step_config _ _, ?_, ?_⟩
      · rw [entries]
        exact stored fun e mem => fresh_ (perm.mem_iff.2 (List.mem_cons_of_mem _ mem))
      · have few' : ((s.entries.filter (live r s.config now)).length : Int) ≤ s.config.maxEntries := few
        have length : (s.entries.filter (live r s.config now)).length = kept.length + 1 := perm.length_eq
        rw [entries, List.length_append, List.length_singleton]
        push_cast
        omega

/-- **Runs** keep the invariant. -/
theorem invariant_after {config : Config} (positive : 1 ≤ config.maxEntries) (calls : List Timed) :
    Invariant config (setsSince calls) (after r config calls) := by
  induction calls using List.reverseRecOn with
  | nil =>
    refine ⟨rfl, fun e mem => absurd mem List.not_mem_nil, ?_⟩
    show (0 : Int) ≤ _
    omega
  | append_singleton calls c ih =>
    rw [after_concat]
    exact ih.step positive c

/-! ## Isolation -/

/-- What a cache promises of a call, after the calls before it. -/
structure Correct (r : Runtime) (config : Config) (before : List Timed) (c : Timed) : Prop where
  /-- A hit serves a live entry stored under the filters of the query, as similar as any of these. -/
  served : ∀ embedding filters entry, c.call = .get embedding filters →
    ((after r config before).get r c.now embedding filters).2 = some entry →
      (∃ set ∈ setsSince before, set.Made entry.unused) ∧ entry.filters = filters ∧ live r config c.now entry = true ∧
        (∃ score, r.similarity embedding entry.queryEmbedding = some score ∧ config.threshold ≤ score) ∧
        ∀ e ∈ (after r config before).entries, live r config c.now e = true → e.filters = filters →
          (r.similarity embedding e.queryEmbedding).exceeds (r.similarity embedding entry.queryEmbedding) = false
  bounded : ((step r (after r config before) c).entries.length : Int) ≤ config.maxEntries
  /-- Entries are lost by expiry, `clear` or an eviction. -/
  retained : Retained r (after r config before) c (step r (after r config before) c)
  /-- What expired is expired for good. -/
  expired : ∀ e later, c.now ≤ later → live r config c.now e = false → live r config later e = false

/-- The filters of a call. -/
def Call.filters : Call → Option Filters
  | .get _ filters => some filters
  | .set _ filters _ _ _ => some filters
  | _ => none

/-- The calls of a run pass filters of `F` only. -/
def Within (F : Set Filters) (calls : List Timed) : Prop :=
  ∀ c ∈ calls, ∀ filters, c.call.filters = some filters → filters ∈ F

theorem Timed.Made.filters {c : Timed} {entry : CacheEntry} (h : c.Made entry) :
    c.call.filters = some entry.filters ∧ entry.filterKey = makeFilterKey entry.filters ∧ entry.timestamp = c.now := by
  obtain ⟨embedding, filters, answer, sources, modelUsed, call, rfl⟩ := h
  exact ⟨by rw [call]; rfl, rfl, rfl⟩

/-- **Correctness of a call**, where the keys of `F` tell its filters apart or nothing is ever live. -/
theorem correct_of_injective {config : Config} (positive : 1 ≤ config.maxEntries) {F : Set Filters}
    (apart : config.ttl < 0 ∨ Set.InjOn makeFilterKey F) {before : List Timed} {c : Timed} (within : Within F (before ++ [c]))
    (order : ((before ++ [c]).map Timed.now).Pairwise (· ≤ ·)) : Correct r config before c := by
  have inv := invariant_after (r := r) positive before
  have past : ∀ c' ∈ before, c'.now ≤ c.now := by
    intro c' mem
    rw [List.map_append] at order
    exact (List.pairwise_append.1 order).2.2 c'.now (List.mem_map_of_mem mem) c.now (List.mem_singleton_self _)
  refine ⟨?_, ?_, ?_, ?_⟩
  · intro embedding filters entry call hit
    have served := get_served hit
    obtain ⟨e, stored, rfl⟩ := served.stored
    obtain ⟨set, since, made⟩ := inv.made e stored
    obtain ⟨passed, keyed, stamped⟩ := made.filters
    have fresh := served.fresh
    rw [inv.configured] at fresh
    have filters_ : e.filters = filters := by
      rcases apart with negative | injective
      · -- an entry is not younger than its query, so nothing is live
        exfalso
        have age : 0 ≤ c.now - e.timestamp := sub_nonneg.2 (stamped ▸ past set (setsSince_subset before since))
        have rounded := r.rounding.mono age
        rw [Rounding.fl_zero] at rounded
        rw [live, decide_eq_true_eq] at fresh
        have below : (config.ttl : ℚ) < 0 := by exact_mod_cast negative
        exact absurd (rounded.trans fresh) (not_le.2 below)
      · apply injective
        · exact within set (List.mem_append_left _ (setsSince_subset before since)) _ passed
        · apply within c (List.mem_append_right _ (List.mem_singleton_self c))
          rw [call]
          rfl
        · exact keyed.symm.trans served.keyed
    refine ⟨⟨set, since, made⟩, filters_, fresh, ?_, ?_⟩
    · obtain ⟨score, similar, reached⟩ := served.similar
      rw [inv.configured] at reached
      exact ⟨score, similar, reached⟩
    · intro other mem live_ same
      obtain ⟨set', -, made'⟩ := inv.made other mem
      have keyed' : other.filterKey = makeFilterKey other.filters := made'.filters.2.1
      exact served.maximal other mem (by rw [inv.configured]; exact live_) (by rw [keyed', same])
  · rw [← after_concat]
    exact (invariant_after positive (before ++ [c])).bounded
  · exact step_retained (by rw [inv.configured]; exact positive) c
  · intro e later order_ gone
    by_contra back
    rw [Bool.not_eq_false] at back
    rw [live_earlier order_ back] at gone
    cases gone

end Operations

/-! ## Collisions -/

/-- Every embedding is similar enough. -/
def alike (config : Config) : Runtime :=
  ⟨fun _ _ => some (max config.threshold 0), .exact⟩

/-- The only entry of a cache is served when its key, age and similarity allow. -/
theorem get_only {r : Runtime} {s : State} {now : ℚ} {embedding : Embedding} {filters : Filters} {e : CacheEntry}
    {score : WithBot (WithTop ℚ)} (only : s.entries = [e]) (keyed : e.filterKey = makeFilterKey filters)
    (fresh : live r s.config now e = true) (similar : r.similarity embedding e.queryEmbedding = some score)
    (above : finiteScore (-1) < score) (reached : s.config.threshold ≤ score) :
    (s.get r now embedding filters).2 = some e.hit := by
  have candidates : s.candidates r now (makeFilterKey filters) = [(e, 0)] := by
    have passes : (decide (e.filterKey = makeFilterKey filters) && live r s.config now e) = true := by
      rw [decide_eq_true keyed, fresh]
      rfl
    rw [State.candidates, only]
    show List.filter _ [(e, 0)] = _
    apply List.filter_eq_self.2
    intro c mem
    rw [List.mem_singleton.1 mem]
    exact passes
  have chosen : best r embedding [(e, 0)] = (some score, some (e, 0)) := by
    show consider r embedding (some (finiteScore (-1)), none) (e, 0) = _
    unfold consider
    dsimp only
    have exceeds : Score.exceeds (some score) (some (finiteScore (-1))) = true := decide_eq_true above
    rw [similar, if_pos exceeds]
  unfold State.get
  dsimp only
  rw [show State.candidates r { s with stats := { s.stats with totalRequests := s.stats.totalRequests + 1 } } now
      (makeFilterKey filters) = [(e, 0)] from candidates, chosen]
  dsimp only
  rw [if_pos reached]

/-- **A collision**: an answer stored under one key is served to every query with that key. -/
theorem collision_served {config : Config} (positive : 1 ≤ config.maxEntries) (keeps : 0 ≤ config.ttl) {f g : Filters}
    (same : makeFilterKey f = makeFilterKey g) :
    ∃ entry, ((after (alike config) config [⟨0, .set [] f "" [] ""⟩]).get (alike config) 0 [] g).2 = some entry ∧
      entry.filters = f := by
  have configured := (invariant_after (r := alike config) positive [⟨0, .set [] f "" [] ""⟩]).configured
  obtain ⟨e, ⟨_, _, _, _, _, call, rfl⟩, stored⟩ :=
    step_retained (r := alike config) (s := new config) positive ⟨0, .set [] f "" [] ""⟩
  cases call
  have only : (after (alike config) config [⟨0, .set [] f "" [] ""⟩]).entries =
      [⟨[], makeFilterKey f, "", [], "", 0, 0, f⟩] := by
    rcases stored with ⟨-, entries⟩ | ⟨evicted, kept, ⟨-, perm⟩, -⟩
    · exact entries
    · exact absurd perm.length_eq (Nat.succ_ne_zero _).symm
  refine ⟨_, get_only only same ?_ rfl ?_ ?_, rfl⟩
  · rw [configured]
    show decide ((id ((0 : ℚ) - 0)) ≤ (config.ttl : ℚ)) = true
    rw [decide_eq_true_eq, id, sub_self]
    exact_mod_cast keeps
  · refine lt_of_lt_of_le ?_ (le_max_right _ _)
    have negative : (-1 : ℚ) < 0 := by norm_num
    exact WithBot.coe_lt_coe.2 (WithTop.coe_lt_coe.2 negative)
  · rw [configured]
    exact le_max_left _ _

/-- **Cache isolation**: whatever the similarity, the rounding and the clock, every call of every run
over the filters `F` is correct exactly when the keys of `F` are apart, or nothing is ever live. -/
theorem isolated_iff {config : Config} (positive : 1 ≤ config.maxEntries) (F : Set Filters) :
    (∀ (r : Runtime) (calls : List Timed), Within F calls → (calls.map Timed.now).Pairwise (· ≤ ·) →
      ∀ before c rest, calls = before ++ c :: rest → Correct r config before c) ↔
    config.ttl < 0 ∨ Set.InjOn makeFilterKey F := by
  constructor
  · intro correct
    by_contra unmet
    rw [not_or, not_lt] at unmet
    apply unmet.2
    intro f hf g hg same
    obtain ⟨entry, hit, stored⟩ := collision_served positive unmet.1 same
    have within : Within F [⟨0, .set [] f "" [] ""⟩, ⟨0, .get [] g⟩] := by
      intro c mem filters passed
      rcases List.mem_cons.1 mem with rfl | mem
      · cases passed
        exact hf
      · rw [List.mem_singleton.1 mem] at passed
        cases passed
        exact hg
    have order : ([⟨0, .set [] f "" [] ""⟩, ⟨0, .get [] g⟩].map Timed.now).Pairwise (· ≤ ·) :=
      List.pairwise_pair.2 (le_refl 0)
    have served := (correct (alike config) _ within order [⟨0, .set [] f "" [] ""⟩] ⟨0, .get [] g⟩ [] rfl).served
    exact stored.symm.trans (served [] g entry rfl hit).2.1
  · rintro apart r calls within order before c rest rfl
    have split : before ++ c :: rest = (before ++ [c]) ++ rest := by
      rw [List.append_assoc]
      rfl
    rw [split] at within order
    refine correct_of_injective positive apart ?_ ?_
    · exact fun c mem => within c (List.mem_append_left _ mem)
    · rw [List.map_append] at order
      exact (List.pairwise_append.1 order).1

/-! ## Samples -/

/-- The defaults of the constructor. -/
def defaultConfig : Config :=
  ⟨finiteScore (19 / 20), 500, 3600⟩

def sampleFilters (ticker : String) (section_ answerLanguage : Option String) : Filters :=
  ⟨some ticker, section_, 5, answerLanguage⟩

/-- Requests with plain filters are served correctly, here one in each language. -/
theorem languages_apart : Correct (alike defaultConfig) defaultConfig
    [⟨0, .set [] (sampleFilters "AAPL" (some "business") (some "en")) "It sells phones." [] "model"⟩]
    ⟨1, .get [] (sampleFilters "AAPL" (some "business") (some "vi"))⟩ := by
  have plain (language : String) (h : '|' ∉ language.toList) :
      (sampleFilters "AAPL" (some "business") (some language)).Plain := by
    refine ⟨?_, ?_, ?_⟩
    · rintro text ⟨⟩
      decide
    · rintro text ⟨⟩
      decide
    · rintro text ⟨⟩
      exact h
  refine (isolated_iff (by decide) {f | f.Plain}).2 (.inr makeFilterKey_plain) (alike defaultConfig)
    [⟨0, .set [] (sampleFilters "AAPL" (some "business") (some "en")) "It sells phones." [] "model"⟩,
      ⟨1, .get [] (sampleFilters "AAPL" (some "business") (some "vi"))⟩] ?_ ?_ _ _ [] rfl
  · intro c mem filters passed
    rcases List.mem_cons.1 mem with rfl | mem
    · cases passed
      exact plain "en" (by decide)
    · rw [List.mem_singleton.1 mem] at passed
      cases passed
      exact plain "vi" (by decide)
  · exact List.pairwise_pair.2 zero_le_one

/-- **Bars move**: the answer about the section `risk|*` of a company is served for the section `*`
of the ticker `AAPL|risk`. -/
theorem bars_move :
    ∃ entry, ((after (alike defaultConfig) defaultConfig [⟨0, .set [] (sampleFilters "AAPL" (some "risk|*") none) "" [] ""⟩]).get
        (alike defaultConfig) 0 [] (sampleFilters "AAPL|risk" none none)).2 = some entry ∧
      entry.filters ≠ sampleFilters "AAPL|risk" none none := by
  have positive : 1 ≤ defaultConfig.maxEntries := by decide
  have keeps : 0 ≤ defaultConfig.ttl := by decide
  have same : makeFilterKey (sampleFilters "AAPL" (some "risk|*") none) = makeFilterKey (sampleFilters "AAPL|risk" none none) := by
    decide
  obtain ⟨entry, hit, stored⟩ := collision_served positive keeps same
  refine ⟨entry, hit, ?_⟩
  rw [stored]
  decide

end SemanticCache
