import DocumentQa.Generation.ComparativeContext

/-!
# What a selection for a comparison keeps

Both selectors return a subsequence of the retrieved chunks without repetition. The first one
keeps the leader and the promotions of every branch. The other keeps a chunk unless the last
branch that has it as leader, promotion or donor is one that replaces it, so it loses a
branch or a promotion exactly when such a leader was all a branch had, or was promoted.
-/

namespace Generation

variable {Score : Type} {order : ScoreOrder Score} {branches : List (ComparativeBranch Score)}

/-! ## Unique chunks -/

theorem mem_unseen {seen : List EntryKey} {k : EntryKey} {chunks : List (Entry Score)} :
    k ∈ (unseen seen chunks).map Entry.key ↔ k ∈ chunks.map Entry.key ∧ k ∉ seen := by
  induction chunks generalizing seen with
  | nil => simp [unseen]
  | cons c cs ih =>
    rw [unseen]
    split
    · next old =>
      rw [ih, List.map_cons, List.mem_cons]
      constructor
      · exact fun h => ⟨.inr h.1, h.2⟩
      · rintro ⟨rfl | mem, new⟩
        · exact absurd old new
        · exact ⟨mem, new⟩
    · next new =>
      rw [List.map_cons, List.mem_cons, ih, List.map_cons, List.mem_cons, List.mem_cons, not_or]
      constructor
      · rintro (rfl | ⟨mem, -, fresh⟩)
        · exact ⟨.inl rfl, new⟩
        · exact ⟨.inr mem, fresh⟩
      · rintro ⟨rfl | mem, fresh⟩
        · exact .inl rfl
        · by_cases same : k = c.key
          · exact .inl same
          · exact .inr ⟨mem, same, fresh⟩

theorem unseen_sublist (seen : List EntryKey) (chunks : List (Entry Score)) : (unseen seen chunks).Sublist chunks := by
  induction chunks generalizing seen with
  | nil => exact List.Sublist.slnil
  | cons c cs ih =>
    rw [unseen]
    split
    · exact (ih _).cons _
    · exact (ih _).cons_cons _

theorem unseen_nodup (seen : List EntryKey) (chunks : List (Entry Score)) : ((unseen seen chunks).map Entry.key).Nodup := by
  induction chunks generalizing seen with
  | nil => exact List.nodup_nil
  | cons c cs ih =>
    rw [unseen]
    split
    · exact ih _
    · rw [List.map_cons, List.nodup_cons, mem_unseen]
      exact ⟨fun h => h.2 (List.mem_cons_self ..), ih _⟩

theorem mem_uniqueChunks {k : EntryKey} {chunks : List (Entry Score)} :
    k ∈ (uniqueChunks chunks).map Entry.key ↔ k ∈ chunks.map Entry.key := by
  rw [uniqueChunks, mem_unseen]
  exact and_iff_left List.not_mem_nil

theorem uniqueChunks_eq_nil {chunks : List (Entry Score)} : uniqueChunks chunks = [] ↔ chunks = [] := by
  cases chunks with
  | nil => exact iff_of_true rfl rfl
  | cons c cs => exact iff_of_false (List.cons_ne_nil _ _) (List.cons_ne_nil _ _)

theorem mem_allEntries {k : EntryKey} :
    k ∈ (allEntries branches).map Entry.key ↔ ∃ b ∈ branches, k ∈ b.chunks.map Entry.key := by
  rw [allEntries, mem_uniqueChunks, List.map_flatMap, List.mem_flatMap]

/-! ## Donors -/

/-- The best candidate is a candidate. -/
theorem bestCandidate_mem {list : List (Rank Score × Entry Score)} {entry : Entry Score}
    (h : bestCandidate order list = some entry) : entry ∈ list.map Prod.snd := by
  cases list with
  | nil => cases h
  | cons first rest =>
    cases h
    refine List.mem_map_of_mem ?_
    induction rest generalizing first with
    | nil => exact List.mem_cons_self ..
    | cons c rest ih =>
      rw [List.foldl_cons]
      rcases List.mem_cons.1 (ih (if c.1.above order first.1 then c else first)) with same | mem
      · rw [same]
        split
        · exact List.mem_cons_of_mem _ (List.mem_cons_self ..)
        · exact List.mem_cons_self ..
      · exact List.mem_cons_of_mem _ (List.mem_cons_of_mem _ mem)

/-- A candidate is an entry of the branch and not its leader. -/
theorem mem_candidates {branch : List (Entry Score)} {primary entry : Entry Score} {counts : Entry Score → Option (List Nat)}
    (h : entry ∈ (candidates branch primary counts).map Prod.snd) : entry ∈ branch ∧ entry.key ≠ primary.key := by
  obtain ⟨ranked, mem, rfl⟩ := List.mem_map.1 h
  obtain ⟨⟨e, index⟩, at_, found⟩ := List.mem_filterMap.1 mem
  dsimp only at found
  split at found
  · cases found
  · next other =>
    obtain ⟨counts, -, rfl⟩ := Option.map_eq_some_iff.1 found
    exact ⟨List.fst_mem_of_mem_zipIdx at_, other⟩

theorem bestDonor_mem {branch : List (Entry Score)} {primary donor : Entry Score} {query : String}
    (h : bestDonor order branch primary query = some donor) : donor ∈ branch ∧ donor.key ≠ primary.key := by
  rw [bestDonor, Option.or_eq_some_iff] at h
  rcases h with hint | ⟨-, intent⟩
  · rw [bestHintDonor] at hint
    split at hint
    · cases hint
    · exact mem_candidates (bestCandidate_mem hint)
  · rw [bestIntentDonor] at intent
    dsimp only at intent
    split at intent
    · cases intent
    · split at intent
      · cases intent
      · exact mem_candidates (bestCandidate_mem intent)

/-! ## What one branch does -/

/-- The keys of the leader, the promotions and the donor of a branch. -/
def touchedKeys (order : ScoreOrder Score) (branch : ComparativeBranch Score) : List EntryKey :=
  match uniqueChunks branch.chunks with
  | [] => []
  | primary :: others =>
    leadingKeys order primary (primary :: others) ++
      (bestDonor order (primary :: others) primary branch.query).toList.map Entry.key

/-- The leader that the donor of the branch replaces. -/
def replacedKey (order : ScoreOrder Score) (branch : ComparativeBranch Score) : Option EntryKey :=
  match uniqueChunks branch.chunks with
  | [] => none
  | primary :: others =>
    (bestDonor order (primary :: others) primary branch.query).bind fun donor =>
      if replacesLeader primary donor (intentGroups branch.query) then some primary.key else none

theorem keepBranch_eq (kept : List EntryKey) (b : ComparativeBranch Score) :
    keepBranch order kept b = kept ++ touchedKeys order b := by
  rw [keepBranch, touchedKeys]
  cases uniqueChunks b.chunks with
  | nil => exact (List.append_nil kept).symm
  | cons primary others => rfl

/-- **One branch, intent first**: its keys join and its replaced leader leaves. -/
theorem mem_keepIntentFirst {kept : List EntryKey} {b : ComparativeBranch Score} {k : EntryKey} :
    k ∈ keepIntentFirst order kept b ↔ (k ∈ kept ∨ k ∈ touchedKeys order b) ∧ replacedKey order b ≠ some k := by
  rw [keepIntentFirst, touchedKeys, replacedKey]
  cases uniqueChunks b.chunks with
  | nil => simp
  | cons primary others =>
    dsimp only
    cases found : bestDonor order (primary :: others) primary b.query with
    | none => simp [List.mem_append]
    | some donor =>
      have other := (bestDonor_mem found).2
      by_cases replaced : replacesLeader primary donor (intentGroups b.query) = true
      · simp only [if_pos replaced, List.mem_append, List.mem_filter, decide_eq_true_eq, List.mem_singleton,
          Option.bind_some, ne_eq, Option.some.injEq, Option.toList_some, List.map_cons, List.map_nil]
        constructor
        · rintro (⟨mem | mem, off⟩ | rfl)
          · exact ⟨.inl mem, Ne.symm off⟩
          · exact ⟨.inr (.inl mem), Ne.symm off⟩
          · exact ⟨.inr (.inr rfl), Ne.symm other⟩
        · rintro ⟨mem | mem | rfl, off⟩
          · exact .inl ⟨.inl mem, Ne.symm off⟩
          · exact .inl ⟨.inr mem, Ne.symm off⟩
          · exact .inr rfl
      · simp only [if_neg replaced, List.mem_append, List.mem_singleton, Option.bind_some, ne_eq, reduceCtorEq,
          not_false_eq_true, and_true, Option.toList_some, List.map_cons, List.map_nil, or_assoc]

/-! ## What all branches do -/

/-- The last branch that has the chunk as leader, promotion or donor replaces it. -/
def LostLeader (order : ScoreOrder Score) (branches : List (ComparativeBranch Score)) (k : EntryKey) : Prop :=
  ∃ before b later, branches = before ++ b :: later ∧ replacedKey order b = some k ∧
    ∀ l ∈ later, k ∉ touchedKeys order l

theorem lostLeader_cons {b : ComparativeBranch Score} {k : EntryKey} :
    LostLeader order (b :: branches) k ↔
      (replacedKey order b = some k ∧ ∀ l ∈ branches, k ∉ touchedKeys order l) ∨ LostLeader order branches k := by
  constructor
  · rintro ⟨before, b', later, e, replaced, last⟩
    cases before with
    | nil =>
      cases e
      exact .inl ⟨replaced, last⟩
    | cons x before =>
      cases e
      exact .inr ⟨before, b', later, rfl, replaced, last⟩
  · rintro (⟨replaced, last⟩ | ⟨before, b', later, rfl, replaced, last⟩)
    · exact ⟨[], b, branches, rfl, replaced, last⟩
    · exact ⟨b :: before, b', later, rfl, replaced, last⟩

theorem mem_kept {kept : List EntryKey} {k : EntryKey} :
    k ∈ branches.foldl (keepBranch order) kept ↔ k ∈ kept ∨ ∃ b ∈ branches, k ∈ touchedKeys order b := by
  induction branches generalizing kept with
  | nil => simp
  | cons b bs ih =>
    rw [List.foldl_cons, ih, keepBranch_eq, List.mem_append]
    simp only [List.mem_cons, exists_eq_or_imp, or_assoc]

/-- **All branches, intent first**: a chunk stays when some branch has it as leader,
promotion or donor, unless the last such branch replaces it. -/
theorem mem_kept_intentFirst {kept : List EntryKey} {k : EntryKey} :
    k ∈ branches.foldl (keepIntentFirst order) kept ↔
      (k ∈ kept ∨ ∃ b ∈ branches, k ∈ touchedKeys order b) ∧ ¬ LostLeader order branches k := by
  induction branches generalizing kept with
  | nil =>
    have nothing : ¬ LostLeader order ([] : List (ComparativeBranch Score)) k := by
      rintro ⟨before, b, later, e, -⟩
      exact absurd e.symm (List.append_ne_nil_of_right_ne_nil _ (List.cons_ne_nil _ _))
    simp [nothing]
  | cons b bs ih =>
    rw [List.foldl_cons, ih, mem_keepIntentFirst, lostLeader_cons]
    simp only [List.mem_cons, exists_eq_or_imp, not_or, not_and]
    constructor
    · rintro ⟨⟨here, kept_⟩ | ⟨l, mem, touched⟩, stays⟩
      · exact ⟨here.elim .inl fun touched => .inr (.inl touched), fun replaced => absurd replaced kept_, stays⟩
      · exact ⟨.inr (.inr ⟨l, mem, touched⟩), fun _ none_ => none_ l mem touched, stays⟩
    · rintro ⟨here, last, stays⟩
      refine ⟨?_, stays⟩
      by_cases later : ∃ l ∈ bs, k ∈ touchedKeys order l
      · exact .inr later
      · left
        constructor
        · rcases here with mem | mem | mem
          · exact .inl mem
          · exact .inr mem
          · exact absurd mem later
        · exact fun replaced => last replaced fun l mem touched => later ⟨l, mem, touched⟩

/-! ## The selections -/

/-- A selection: a subsequence of the retrieved chunks in the order of their first appearance,
without repetition, that has a chunk of every non-empty branch and every structured promotion. -/
structure Keeps (order : ScoreOrder Score) (branches : List (ComparativeBranch Score)) (selected : List (Entry Score)) :
    Prop where
  retrieved : selected.Sublist (branches.flatMap ComparativeBranch.chunks)
  inOrder : selected.Sublist (allEntries branches)
  distinct : (selected.map Entry.key).Nodup
  everyBranch : ∀ b ∈ branches, b.chunks ≠ [] → ∃ e ∈ selected, e.key ∈ b.chunks.map Entry.key
  promotions : ∀ b ∈ branches, ∀ c ∈ b.chunks, order.structured c.score = true → c.key ∈ selected.map Entry.key

/-- Tickers name companies: chunks of one ID have one ticker. -/
def OneTicker (branches : List (ComparativeBranch Score)) : Prop :=
  ∀ c ∈ branches.flatMap ComparativeBranch.chunks, ∀ c' ∈ branches.flatMap ComparativeBranch.chunks,
    c.key = c'.key → c.ticker = c'.ticker

/-- The context has a chunk of every expected company that retrieval found a chunk of. -/
def Covers (branches : List (ComparativeBranch Score)) (context : List (Entry Score)) : Prop :=
  ∀ ticker ∈ expectedTickers branches, (∃ b ∈ branches, ∃ c ∈ b.chunks, c.ticker = some ticker) →
    ∃ e ∈ context, e.ticker = some ticker

/-- What is taken back does no harm. -/
structure NothingUndone (order : ScoreOrder Score) (branches : List (ComparativeBranch Score)) : Prop where
  /-- Every structured promotion is the leader, a promotion or the donor of a branch: it is not
  only listed behind a lower score of the same chunk. -/
  reached : ∀ b ∈ branches, ∀ c ∈ b.chunks, order.structured c.score = true → ∃ l ∈ branches, c.key ∈ touchedKeys order l
  /-- No replaced leader is a structured promotion. -/
  promotions : ∀ k, LostLeader order branches k → ∀ b ∈ branches, ∀ c ∈ b.chunks, order.structured c.score = true → c.key ≠ k
  /-- Every branch that retrieved a replaced leader has another chunk that stays. -/
  others : ∀ k, LostLeader order branches k → ∀ b ∈ branches, k ∈ b.chunks.map Entry.key →
    ∃ c ∈ b.chunks, (∃ l ∈ branches, c.key ∈ touchedKeys order l) ∧ ¬ LostLeader order branches c.key

/-- The entries whose keys were kept: what any selection is, whatever was kept. -/
theorem mem_selection {kept : List EntryKey} (within : ∀ k ∈ kept, ∃ b ∈ branches, k ∈ b.chunks.map Entry.key) {k : EntryKey} :
    k ∈ ((allEntries branches).filter fun entry => entry.key ∈ kept).map Entry.key ↔ k ∈ kept := by
  rw [List.mem_map]
  constructor
  · rintro ⟨e, mem, rfl⟩
    simpa using (List.mem_filter.1 mem).2
  · intro mem
    obtain ⟨e, there, rfl⟩ := List.mem_map.1 (mem_allEntries.2 (within k mem))
    exact ⟨e, List.mem_filter.2 ⟨there, by simpa using mem⟩, rfl⟩

theorem touched_retrieved {b : ComparativeBranch Score} {k : EntryKey} (h : k ∈ touchedKeys order b) :
    k ∈ b.chunks.map Entry.key := by
  rw [← mem_uniqueChunks]
  rw [touchedKeys] at h
  cases e : uniqueChunks b.chunks with
  | nil =>
    rw [e] at h
    cases h
  | cons primary others =>
    rw [e] at h
    rcases List.mem_append.1 h with lead | donor
    · rcases List.mem_cons.1 lead with rfl | promoted
      · exact List.mem_cons_self ..
      · exact (List.filter_sublist.map Entry.key).subset promoted
    · obtain ⟨d, found, rfl⟩ := List.mem_map.1 donor
      exact List.mem_map_of_mem (bestDonor_mem (Option.mem_toList.1 found)).1

/-- The leader of a branch is among its keys. -/
theorem leader_touched {b : ComparativeBranch Score} (some_ : b.chunks ≠ []) : ∃ k, k ∈ touchedKeys order b := by
  rw [touchedKeys]
  cases e : uniqueChunks b.chunks with
  | nil => exact absurd (uniqueChunks_eq_nil.1 e) some_
  | cons primary others => exact ⟨primary.key, List.mem_append_left _ (List.mem_cons_self ..)⟩

theorem selection_subsequence (kept : List EntryKey) :
    ((allEntries branches).filter fun entry => entry.key ∈ kept).Sublist (branches.flatMap ComparativeBranch.chunks) ∧
      (((allEntries branches).filter fun entry => entry.key ∈ kept).map Entry.key).Nodup :=
  ⟨List.filter_sublist.trans (unseen_sublist _ _),
    (unseen_nodup [] (branches.flatMap ComparativeBranch.chunks)).sublist (List.filter_sublist.map _)⟩

theorem mem_selectComparativeChunks {k : EntryKey} :
    k ∈ (selectComparativeChunks order branches).map Entry.key ↔ ∃ b ∈ branches, k ∈ touchedKeys order b := by
  have kept : ∀ k, k ∈ branches.foldl (keepBranch order) [] ↔ ∃ b ∈ branches, k ∈ touchedKeys order b := by
    intro k
    rw [mem_kept]
    exact or_iff_right List.not_mem_nil
  rw [selectComparativeChunks, ← kept]
  refine mem_selection fun k mem => ?_
  obtain ⟨b, there, touched⟩ := (kept k).1 mem
  exact ⟨b, there, touched_retrieved touched⟩

theorem mem_selectIntentFirst {k : EntryKey} :
    k ∈ (selectComparativeChunksIntentFirst order branches).map Entry.key ↔
      (∃ b ∈ branches, k ∈ touchedKeys order b) ∧ ¬ LostLeader order branches k := by
  have kept : ∀ k, k ∈ branches.foldl (keepIntentFirst order) [] ↔
      (∃ b ∈ branches, k ∈ touchedKeys order b) ∧ ¬ LostLeader order branches k := by
    intro k
    rw [mem_kept_intentFirst, or_iff_right List.not_mem_nil]
  rw [selectComparativeChunksIntentFirst, ← kept]
  refine mem_selection fun k mem => ?_
  obtain ⟨⟨b, there, touched⟩, -⟩ := (kept k).1 mem
  exact ⟨b, there, touched_retrieved touched⟩

/-! ## The context -/

theorem higher_eq (chunk : Entry Score) (old : Option (Entry Score)) :
    higher order chunk old = chunk ∨ old = some (higher order chunk old) := by
  cases old with
  | none => exact .inl rfl
  | some old =>
    rw [higher]
    split
    · exact .inl rfl
    · exact .inr rfl

/-- Every retrieved key is in the merged list, and every chunk there is a retrieved one. -/
theorem deduplicate_keys (branches : List (ComparativeBranch Score)) :
    (∀ c ∈ branches.flatMap ComparativeBranch.chunks, ∃ e ∈ deduplicate order branches, e.key = c.key) ∧
      ∀ e ∈ deduplicate order branches, e ∈ branches.flatMap ComparativeBranch.chunks := by
  rw [deduplicate]
  generalize branches.flatMap ComparativeBranch.chunks = chunks
  have entered : ∀ (todo : List (Entry Score)) (seen : List (EntryKey × Entry Score)),
      (∀ p ∈ seen, p.2.key = p.1 ∧ p.2 ∈ chunks) → (∀ c ∈ todo, c ∈ chunks) →
      ∀ table, table = todo.foldl (fun seen chunk => Ranking.put (higher order chunk) chunk.key seen) seen →
        (∀ p ∈ table, p.2.key = p.1 ∧ p.2 ∈ chunks) ∧
          ∀ k, k ∈ table.map Prod.fst ↔ k ∈ seen.map Prod.fst ∨ k ∈ todo.map Entry.key := by
    intro todo
    induction todo with
    | nil =>
      rintro seen sound - table rfl
      exact ⟨sound, fun k => by simp⟩
    | cons c todo ih =>
      rintro seen sound within table rfl
      have sound' : ∀ p ∈ Ranking.put (higher order c) c.key seen, p.2.key = p.1 ∧ p.2 ∈ chunks := by
        intro p mem
        rcases Ranking.of_mem_put mem with mem | ⟨old, rfl, before⟩
        · exact sound p mem
        · rcases @higher_eq _ order c old with same | kept
          · rw [same]
            exact ⟨rfl, within c (List.mem_cons_self ..)⟩
          · exact sound _ (before _ kept)
      obtain ⟨all, keys⟩ := ih _ sound' (fun d mem => within d (List.mem_cons_of_mem _ mem)) _ rfl
      refine ⟨all, fun k => ?_⟩
      rw [List.foldl_cons, keys, Ranking.mem_put, List.map_cons, List.mem_cons]
      tauto
  obtain ⟨sound, keys⟩ := entered chunks [] (fun p mem => absurd mem List.not_mem_nil) (fun c mem => mem) _ rfl
  constructor
  · intro c mem
    obtain ⟨p, there, e⟩ := List.mem_map.1 ((keys c.key).2 (.inr (List.mem_map_of_mem mem)))
    exact ⟨p.2, List.mem_map_of_mem there, (sound p there).1.trans e⟩
  · intro e mem
    obtain ⟨p, there, rfl⟩ := List.mem_map.1 mem
    exact (sound p there).2

/-- **The context for synthesis** has a chunk of every expected company with a retrieved chunk. -/
theorem context_covers (one : OneTicker branches) :
    Covers branches (selectComparativeContext order branches (deduplicate order branches)) := by
  obtain ⟨keys, retrieved⟩ := @deduplicate_keys _ order branches
  have merged : Covers branches (deduplicate order branches) := by
    rintro ticker - ⟨b, there, c, mem, named⟩
    have found := List.mem_flatMap.2 ⟨b, there, mem⟩
    obtain ⟨e, inside, same⟩ := keys c found
    exact ⟨e, inside, (one e (retrieved e inside) c found same).trans named⟩
  rw [selectComparativeContext]
  dsimp only
  split
  · exact merged
  · split
    · exact merged
    · next full =>
      simp only [Bool.or_eq_true, decide_eq_true_eq, Bool.not_eq_true', not_or, Bool.not_eq_false] at full
      intro ticker expected _
      have found := List.all_eq_true.1 full.2 ticker expected
      obtain ⟨e, mem, named⟩ := List.any_eq_true.1 found
      exact ⟨e, mem, by simpa using named⟩

/-! ## Both selections -/

theorem selectComparativeChunks_keeps
    (reached : ∀ b ∈ branches, ∀ c ∈ b.chunks, order.structured c.score = true → ∃ l ∈ branches, c.key ∈ touchedKeys order l) :
    Keeps order branches (selectComparativeChunks order branches) where
  retrieved := (selection_subsequence _).1
  inOrder := List.filter_sublist
  distinct := (selection_subsequence _).2
  everyBranch := by
    intro b mem some_
    obtain ⟨k, touched⟩ := @leader_touched _ order _ some_
    obtain ⟨e, there, rfl⟩ := List.mem_map.1 (mem_selectComparativeChunks.2 ⟨b, mem, touched⟩)
    exact ⟨e, there, touched_retrieved touched⟩
  promotions := by
    intro b mem c within structured
    exact mem_selectComparativeChunks.2 (reached b mem c within structured)

theorem selectIntentFirst_keeps (h : NothingUndone order branches) :
    Keeps order branches (selectComparativeChunksIntentFirst order branches) where
  retrieved := (selection_subsequence _).1
  inOrder := List.filter_sublist
  distinct := (selection_subsequence _).2
  everyBranch := by
    intro b mem some_
    obtain ⟨k, touched⟩ := @leader_touched _ order _ some_
    by_cases lost : LostLeader order branches k
    · obtain ⟨c, within, stays⟩ := h.others k lost b mem (touched_retrieved touched)
      obtain ⟨e, there, same⟩ := List.mem_map.1 (mem_selectIntentFirst.2 stays)
      exact ⟨e, there, same ▸ List.mem_map_of_mem within⟩
    · obtain ⟨e, there, rfl⟩ := List.mem_map.1 (mem_selectIntentFirst.2 ⟨⟨b, mem, touched⟩, lost⟩)
      exact ⟨e, there, touched_retrieved touched⟩
  promotions := by
    intro b mem c within structured
    exact mem_selectIntentFirst.2
      ⟨h.reached b mem c within structured, fun lost => h.promotions _ lost b mem c within structured rfl⟩

theorem nothingUndone_of_keeps (h : Keeps order branches (selectComparativeChunksIntentFirst order branches)) :
    NothingUndone order branches where
  reached b mem c within structured := (mem_selectIntentFirst.1 (h.promotions b mem c within structured)).1
  promotions := by
    rintro k lost b mem c within structured rfl
    exact (mem_selectIntentFirst.1 (h.promotions b mem c within structured)).2 lost
  others := by
    intro k lost b mem retrieved
    obtain ⟨c, within, -⟩ := List.mem_map.1 retrieved
    obtain ⟨e, there, same⟩ := h.everyBranch b mem (List.ne_nil_of_mem within)
    obtain ⟨d, within', key⟩ := List.mem_map.1 same
    exact ⟨d, within', key ▸ mem_selectIntentFirst.1 (List.mem_map_of_mem there)⟩

/-- **Comparative selection.** Both selectors keep every branch and every promotion, and the
context for synthesis has every company, exactly when nothing is undone. -/
theorem comparative_selection (order : ScoreOrder Score) (branches : List (ComparativeBranch Score)) :
    (Keeps order branches (selectComparativeChunks order branches) ∧
        Keeps order branches (selectComparativeChunksIntentFirst order branches) ∧
        (OneTicker branches → Covers branches (selectComparativeContext order branches (deduplicate order branches)))) ↔
      NothingUndone order branches := by
  constructor
  · rintro ⟨-, intentFirst, -⟩
    exact nothingUndone_of_keeps intentFirst
  · intro h
    exact ⟨selectComparativeChunks_keeps h.reached, selectIntentFirst_keeps h, context_covers⟩

/-- Natural numbers as scores. -/
def naturalScores : ScoreOrder Nat where
  same a b := a == b
  above a b := decide (b < a)
  structured a := decide (10 ≤ a)

/-- A branch whose leader is a structured promotion without the word asked for. -/
def promotedLeader : ComparativeBranch Nat :=
  ⟨"subs", none, [⟨.chunk "a", none, 12, "x"⟩, ⟨.chunk "b", none, 1, "subs"⟩]⟩

theorem promotedLeader_lost : (selectComparativeChunksIntentFirst naturalScores [promotedLeader]).map Entry.key = [.chunk "b"] := by
  decide +kernel

/-- The promoted leader is replaced. -/
theorem intent_first_drops_a_promotion :
    ¬ ∀ branches : List (ComparativeBranch Nat),
      Keeps naturalScores branches (selectComparativeChunks naturalScores branches) ∧
        Keeps naturalScores branches (selectComparativeChunksIntentFirst naturalScores branches) ∧
        (OneTicker branches →
          Covers branches (selectComparativeContext naturalScores branches (deduplicate naturalScores branches))) := by
  intro h
  have kept := (h [promotedLeader]).2.1.promotions promotedLeader (List.mem_singleton_self _)
    ⟨.chunk "a", none, 12, "x"⟩ (List.mem_cons_self ..) rfl
  rw [promotedLeader_lost] at kept
  revert kept
  decide

end Generation
