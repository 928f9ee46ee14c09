import DocumentQa.Retrieval.HybridRetriever

/-!
# Inspection and production

Where every id the vector store returns is the id of a loaded chunk, `inspect` succeeds
whenever production does and goes through the same fused order, the same pool and the same
ranking; where one is not, production passes it over and `inspect` raises. What production
returns has distinct ids, is at most `top_k` chunks, and is inside the filter when the
chunks behind the ids are.
-/

namespace Retrieval

open Python

/-! ## The chunks behind the ids -/

section Chunks

variable {Vector Score : Type} {r : HybridRetriever Vector Score}

theorem chunkById_spec {id : String} {c : Chunk} (h : r.chunkById id = some c) : c.chunkId = id ∧ c ∈ r.allChunks := by
  have same := List.find?_some h
  have mem := List.mem_of_find?_eq_some h
  exact ⟨of_decide_eq_true same, List.mem_reverse.1 mem⟩

/-- Every loaded chunk's id names a chunk. -/
theorem chunkById_loaded {c : Chunk} (h : c ∈ r.allChunks) : (r.chunkById c.chunkId).isSome = true := by
  rw [HybridRetriever.chunkById, List.find?_isSome]
  exact ⟨c, List.mem_reverse.2 h, decide_eq_true rfl⟩

/-- Passing over the ids that name no chunk keeps the others, in order. -/
theorem pool_ids (ids : List String) :
    (ids.filterMap r.chunkById).map Chunk.chunkId = ids.filter fun id => (r.chunkById id).isSome := by
  induction ids with
  | nil => rfl
  | cons id ids ih =>
    cases found : r.chunkById id with
    | none => rw [List.filterMap_cons_none found, ih, List.filter_cons_of_neg (by simp [found])]
    | some c =>
      rw [List.filterMap_cons_some found, List.map_cons, ih, (chunkById_spec found).1,
        List.filter_cons_of_pos (by simp [found])]

/-- Requiring each chunk is passing over none. -/
theorem requireChunks {ids : List String} (loaded : ∀ id ∈ ids, (r.chunkById id).isSome = true) :
    Checked.collect r.requireChunk ids = .ok (ids.filterMap r.chunkById) := by
  induction ids with
  | nil => rfl
  | cons id ids ih =>
    obtain ⟨c, found⟩ := Option.isSome_iff_exists.1 (loaded id (by simp))
    rw [List.filterMap_cons_some found, Checked.collect, Checked.bind_eq_ok]
    refine ⟨c, Checked.orRaise_eq_ok.2 found, ?_⟩
    rw [ih fun id' mem => loaded id' (List.mem_cons_of_mem _ mem)]
    rfl

end Chunks

/-! ## The fused order -/

theorem addRanks_mem {scores : List (String × Binary64.Float)} {ids : List String} {id : String} :
    id ∈ (addRanks scores ids).map Prod.fst ↔ id ∈ scores.map Prod.fst ∨ id ∈ ids :=
  Ranking.mem_putAll

theorem fusionOrder_mem {scores : List (String × Binary64.Float)} {id : String} :
    id ∈ fusionOrder scores ↔ id ∈ scores.map Prod.fst :=
  (Ranking.descending_perm.map Prod.fst).mem_iff

theorem fusionOrder_nodup {scores : List (String × Binary64.Float)} (h : (scores.map Prod.fst).Nodup) :
    (fusionOrder scores).Nodup :=
  (Ranking.descending_perm.map Prod.fst).nodup_iff.2 h

/-- The three rankings fused. -/
def fused (bm25Ids denseIds lexicalIds : List String) : List String :=
  fusionOrder (addRanks (addRanks (addRanks [] bm25Ids) denseIds) lexicalIds)

theorem mem_fused {bm25Ids denseIds lexicalIds : List String} {id : String} :
    id ∈ fused bm25Ids denseIds lexicalIds ↔ id ∈ bm25Ids ∨ id ∈ denseIds ∨ id ∈ lexicalIds := by
  rw [fused, fusionOrder_mem, addRanks_mem, addRanks_mem, addRanks_mem]
  simp only [List.map_nil, List.not_mem_nil, false_or, or_assoc]

theorem fused_nodup (bm25Ids denseIds lexicalIds : List String) : (fused bm25Ids denseIds lexicalIds).Nodup := by
  apply fusionOrder_nodup
  apply Ranking.putAll_nodup
  apply Ranking.putAll_nodup
  apply Ranking.putAll_nodup
  exact List.nodup_nil

section Pipeline

variable {Vector Score : Type} {r : HybridRetriever Vector Score} [LinearOrder Score] {q : Query}

theorem bm25Candidates_mem {chunks : List Chunk} {n : Nat} {c : Chunk} (h : c ∈ r.bm25Candidates q chunks n) : c ∈ chunks :=
  Ranking.mem_descending.1 (List.mem_of_mem_take h)

omit [LinearOrder Score] in
/-- The ids found by their words are ids of filtered chunks. -/
theorem lexicalIds_mem {chunks : List Chunk} {n : Nat} {id : String} (h : id ∈ r.lexicalIds q chunks n) :
    id ∈ chunks.map Chunk.chunkId := by
  obtain ⟨candidate, mem, rfl⟩ := List.mem_map.1 h
  exact List.mem_map_of_mem (lexicalLadder_chunk mem)

omit [LinearOrder Score] in
theorem filteredChunks_loaded {id : String} (h : id ∈ (r.filteredChunks q).map Chunk.chunkId) :
    (r.chunkById id).isSome = true := by
  obtain ⟨c, mem, rfl⟩ := List.mem_map.1 h
  exact chunkById_loaded (List.mem_of_mem_filter mem)

/-! ## What production ranks -/

/-- What the stages of production leave, where they succeed. -/
structure RankedBy (r : HybridRetriever Vector Score) (q : Query) (embedding : Vector) (n : Nat) (ladder : Bool)
    (hits : List (Hit Score)) (ranked : Ranked Score) : Prop where
  found : r.search embedding n q.ticker q.section = .ok hits
  order : ranked.fusionOrder = fused ((r.bm25Candidates q (r.filteredChunks q) n).map Chunk.chunkId) (hits.map Hit.chunkId)
    (if ladder then r.lexicalIds q (r.filteredChunks q) n else [])
  pool : ranked.pool = (ranked.fusionOrder.take n).filterMap r.chunkById
  scored : ∃ scores, r.crossEncoder.predict (ranked.pool.map fun c => (q.text, c.text)) = .ok scores ∧
    ranked.reranked = Ranking.descending (· ≤ ·) Prod.snd (ranked.pool.zip scores)

theorem rankCandidates_eq_ok {embedding : Vector} {n : Nat} {ladder : Bool} {ranked : Ranked Score}
    (h : rankCandidates r q embedding n ladder = .ok ranked) : ∃ hits, RankedBy r q embedding n ladder hits ranked := by
  simp only [rankCandidates, Checked.bind_eq_ok, Checked.pure_eq_ok] at h
  obtain ⟨hits, found, scores, predicted, rfl⟩ := h
  exact ⟨hits, found, rfl, rfl, scores, predicted, rfl⟩

variable {embedding : Vector} {n : Nat} {ladder : Bool} {hits : List (Hit Score)} {ranked : Ranked Score}

/-- Where an id of the fused order comes from. -/
theorem RankedBy.source (h : RankedBy r q embedding n ladder hits ranked) {id : String} (mem : id ∈ ranked.fusionOrder) :
    id ∈ hits.map Hit.chunkId ∨ id ∈ (r.filteredChunks q).map Chunk.chunkId := by
  rw [h.order, mem_fused] at mem
  rcases mem with bm25 | dense | lexical
  · obtain ⟨c, found, rfl⟩ := List.mem_map.1 bm25
    exact .inr (List.mem_map_of_mem (bm25Candidates_mem found))
  · exact .inl dense
  · cases ladder with
    | false => cases lexical
    | true => exact .inr (lexicalIds_mem lexical)

theorem RankedBy.pool_nodup (h : RankedBy r q embedding n ladder hits ranked) : (ranked.pool.map Chunk.chunkId).Nodup := by
  rw [h.pool, pool_ids, h.order]
  exact ((fused_nodup _ _ _).sublist (List.take_sublist _ _)).filter _

/-- The ranking is one of the pool. -/
theorem RankedBy.perm (h : RankedBy r q embedding n ladder hits ranked) : (ranked.reranked.map Prod.fst).Perm ranked.pool := by
  obtain ⟨scores, predicted, is⟩ := h.scored
  have length := r.crossEncoder.predict_length _ _ predicted
  rw [List.length_map] at length
  rw [is]
  refine (Ranking.descending_perm.map Prod.fst).trans ?_
  rw [List.map_fst_zip length.ge]

/-! ## What production returns -/

theorem cutBelow_sublist [Zero Score] (reranked : List (Chunk × Score)) : (cutBelow r reranked).Sublist reranked := by
  unfold cutBelow
  split
  · exact List.Sublist.refl _
  · split
    · exact List.filter_sublist
    · exact List.Sublist.refl _

omit [LinearOrder Score] in
/-- The ids of a promotion are distinct, as those it promotes over are. -/
theorem promote_nodup {reranked : List (Chunk × Score)} {m : StructuredMatch} {topK : Nat}
    (h : (reranked.map fun entry => entry.1.chunkId).Nodup) :
    ((promoteStructuredMatch r reranked m topK).map fun entry => entry.1.chunkId).Nodup := by
  rw [promoteStructuredMatch, List.map_cons, List.nodup_cons]
  constructor
  · intro mem
    obtain ⟨entry, kept, same⟩ := List.mem_map.1 mem
    have other := List.of_mem_filter (List.mem_of_mem_take kept)
    rw [decide_eq_true_eq] at other
    exact other same
  · refine h.sublist (List.Sublist.map _ ?_)
    exact (List.take_sublist _ _).trans List.filter_sublist

omit [LinearOrder Score] in
theorem promote_mem {reranked : List (Chunk × Score)} {m : StructuredMatch} {topK : Nat} {entry : Chunk × Score}
    (h : entry ∈ promoteStructuredMatch r reranked m topK) : entry.1 = m.chunk ∨ entry ∈ reranked := by
  rcases List.mem_cons.1 h with rfl | mem
  · exact .inl rfl
  · exact .inr (List.mem_of_mem_filter (List.mem_of_mem_take mem))

theorem retrieve_eq_ok [Zero Score] {topK : Nat} {out : List (Chunk × Score)}
    (h : retrieveWithEmbedding r q embedding topK n ladder = .ok out) :
    ∃ ranked, rankCandidates r q embedding n ladder = .ok ranked ∧
      out = (match r.structuredMatch q with
        | some m => promoteStructuredMatch r (cutBelow r ranked.reranked) m topK
        | none => cutBelow r ranked.reranked).take topK := by
  simp only [retrieveWithEmbedding, Checked.bind_eq_ok, Checked.pure_eq_ok] at h
  obtain ⟨ranked, ok, rfl⟩ := h
  exact ⟨ranked, ok, rfl⟩

theorem retrieve_nodup [Zero Score] {topK : Nat} {out : List (Chunk × Score)}
    (h : retrieveWithEmbedding r q embedding topK n ladder = .ok out) : (out.map fun entry => entry.1.chunkId).Nodup := by
  obtain ⟨ranked, ok, rfl⟩ := retrieve_eq_ok h
  obtain ⟨hits, by_⟩ := rankCandidates_eq_ok ok
  have distinct : (ranked.reranked.map fun entry => entry.1.chunkId).Nodup := by
    have perm := by_.perm.map Chunk.chunkId
    rw [List.map_map] at perm
    exact perm.nodup_iff.2 by_.pool_nodup
  have kept : ((cutBelow r ranked.reranked).map fun entry => entry.1.chunkId).Nodup :=
    distinct.sublist ((cutBelow_sublist _).map _)
  rw [List.map_take]
  refine List.Nodup.sublist (List.take_sublist _ _) ?_
  cases r.structuredMatch q with
  | none => exact kept
  | some m => exact promote_nodup kept

omit [LinearOrder Score] in
theorem structuredMatch_admits {m : StructuredMatch} (h : r.structuredMatch q = some m) : q.admits m.chunk = true := by
  unfold HybridRetriever.structuredMatch at h
  split at h
  · obtain ⟨found, inSection⟩ := Option.filter_eq_some_iff.1 h
    have ticker := (structuredLookup_chunk found).2
    rw [Query.admits, Bool.and_eq_true, given, given, ticker]
    constructor
    · rw [Option.filter_some]
      split <;> simp
    · cases hs : q.section with
      | none => rfl
      | some s =>
        rw [hs, Option.all_some] at inSection
        rw [Option.filter_some]
        split
        · exact inSection
        · rfl
  · cases h

/-- The chunks behind the ids that the filter or the store names are inside the filter. -/
def InScope (r : HybridRetriever Vector Score) (q : Query) (hits : List (Hit Score)) : Prop :=
  ∀ id, id ∈ hits.map Hit.chunkId ∨ id ∈ (r.filteredChunks q).map Chunk.chunkId →
    ∀ c, r.chunkById id = some c → q.admits c = true

theorem retrieve_admits [Zero Score] {topK : Nat} {out : List (Chunk × Score)}
    (h : retrieveWithEmbedding r q embedding topK n ladder = .ok out)
    (found : r.search embedding n q.ticker q.section = .ok hits) (inScope : InScope r q hits) :
    ∀ entry ∈ out, q.admits entry.1 = true := by
  obtain ⟨ranked, ok, rfl⟩ := retrieve_eq_ok h
  obtain ⟨hits', by_⟩ := rankCandidates_eq_ok ok
  obtain rfl : hits' = hits := Except.ok.inj (by_.found.symm.trans found)
  have pool : ∀ entry ∈ cutBelow r ranked.reranked, q.admits entry.1 = true := by
    intro entry mem
    have inPool : entry.1 ∈ ranked.pool :=
      by_.perm.mem_iff.1 (List.mem_map_of_mem ((cutBelow_sublist _).subset mem))
    rw [by_.pool] at inPool
    obtain ⟨id, inOrder, named⟩ := List.mem_filterMap.1 inPool
    exact inScope id (by_.source (List.mem_of_mem_take inOrder)) _ named
  intro entry mem
  have before := List.mem_of_mem_take mem
  cases hm : r.structuredMatch q with
  | none =>
    rw [hm] at before
    exact pool entry before
  | some m =>
    rw [hm] at before
    rcases promote_mem before with same | mem
    · rw [same]
      exact structuredMatch_admits hm
    · exact pool entry mem

/-! ## Inspection goes through the same stages -/

omit [LinearOrder Score] in
/-- The entry of a key that occurs once. -/
theorem lookup_entry {κ : Type} [BEq κ] [LawfulBEq κ] {table : List (κ × Score)} (distinct : (table.map Prod.fst).Nodup) {k : κ}
    {v : Score} (mem : (k, v) ∈ table) : table.lookup k = some v := by
  induction table with
  | nil => cases mem
  | cons entry rest ih =>
    obtain ⟨k', v'⟩ := entry
    rw [List.map_cons, List.nodup_cons] at distinct
    rcases List.mem_cons.1 mem with same | later
    · cases same
      exact List.lookup_cons_self
    · have other : (k == k') = false := by
        rw [beq_eq_false_iff_ne]
        rintro rfl
        exact distinct.1 (List.mem_map.2 ⟨(k, v), later, rfl⟩)
      rw [List.lookup_cons, other]
      exact ih distinct.2 later

/-- Reading the scores back by id pairs each chunk with its own. -/
theorem rerank_eq_ok {pool : List Chunk} (distinct : (pool.map Chunk.chunkId).Nodup) {scores : List Score}
    (predicted : r.crossEncoder.predict (pool.map fun c => (q.text, c.text)) = .ok scores) :
    rerank r q pool = .ok (Ranking.descending (· ≤ ·) Prod.snd (pool.zip scores)) := by
  have length := r.crossEncoder.predict_length _ _ predicted
  rw [List.length_map] at length
  have keys : ((((pool.map Chunk.chunkId).zip scores).reverse).map Prod.fst).Nodup := by
    rw [List.map_reverse, List.nodup_reverse, List.map_fst_zip (by rw [List.length_map]; exact length.ge)]
    exact distinct
  rw [rerank, predicted, Checked.ok_bind, Checked.bind_eq_ok]
  refine ⟨pool.zip scores, ?_, rfl⟩
  apply Checked.collect_zip length.symm
  intro c score mem
  have entry : (c.chunkId, score) ∈ ((pool.map Chunk.chunkId).zip scores).reverse := by
    rw [List.mem_reverse, List.zip_map_left]
    exact List.mem_map.2 ⟨(c, score), mem, rfl⟩
  rw [lookup_entry keys entry]
  rfl

/-- Every id the store returns is the id of a loaded chunk. -/
def StoreLoaded (r : HybridRetriever Vector Score) (hits : List (Hit Score)) : Prop :=
  ∀ hit ∈ hits, (r.chunkById hit.chunkId).isSome = true

/-- The stages of an inspection, given those of production. -/
def stagesOf (r : HybridRetriever Vector Score) (q : Query) (n topK : Nat) (preset : Preset) (hits : List (Hit Score))
    (ranked : Ranked Score) : Stages Score :=
  let bm25Ids := (r.bm25Candidates q (r.filteredChunks q) n).map Chunk.chunkId
  let lexicalIds := r.lexicalIds q (r.filteredChunks q) n
  let reranked := if preset = .hybridRerank then ranked.reranked else []
  ⟨bm25Ids, hits, lexicalIds, addRanks (addRanks (addRanks [] bm25Ids) (hits.map Hit.chunkId)) lexicalIds,
    ranked.fusionOrder, ranked.pool, reranked,
    finalIds preset topK bm25Ids (hits.map Hit.chunkId) (ranked.fusionOrder.take n) reranked⟩

/-- Every id of the stages names a chunk. -/
theorem stagesOf_loaded (h : RankedBy r q embedding n true hits ranked) (loaded : StoreLoaded r hits) {topK : Nat}
    {preset : Preset} {id : String} (mem : id ∈ (stagesOf r q n topK preset hits ranked).allIds n) :
    (r.chunkById id).isSome = true := by
  have dense : ∀ id ∈ hits.map Hit.chunkId, (r.chunkById id).isSome = true := by
    intro id mem
    obtain ⟨hit, found, rfl⟩ := List.mem_map.1 mem
    exact loaded hit found
  rw [Stages.allIds, List.mem_eraseDups, List.mem_append, List.mem_append, List.mem_append] at mem
  rcases mem with ((bm25 | inStore) | lexical) | hybrid
  · obtain ⟨c, found, rfl⟩ := List.mem_map.1 bm25
    exact filteredChunks_loaded (List.mem_map_of_mem (bm25Candidates_mem found))
  · exact dense id inStore
  · exact filteredChunks_loaded (lexicalIds_mem lexical)
  · rcases h.source (List.mem_of_mem_take hybrid) with inStore | filtered
    · exact dense id inStore
    · exact filteredChunks_loaded filtered

/-- **The stages of an inspection** are those of production. -/
theorem inspectStages_eq_ok (h : RankedBy r q embedding n true hits ranked) (embedded : r.embedQuery q.text = .ok embedding)
    (loaded : StoreLoaded r hits) (topK : Nat) (preset : Preset) :
    inspectStages r q topK n preset none = .ok (stagesOf r q n topK preset hits ranked) := by
  have required : Checked.collect r.requireChunk (ranked.fusionOrder.take n) = .ok ranked.pool := by
    rw [h.pool]
    apply requireChunks
    intro id mem
    have listed : id ∈ (stagesOf r q n topK preset hits ranked).allIds n := by
      rw [Stages.allIds, List.mem_eraseDups]
      exact List.mem_append_right _ mem
    exact stagesOf_loaded h loaded listed
  obtain ⟨scores, predicted, is⟩ := h.scored
  have reranked : rerank r q ranked.pool = .ok ranked.reranked := by
    rw [is]
    exact rerank_eq_ok h.pool_nodup predicted
  have order := h.order
  rw [if_pos rfl] at order
  have unfiltered : (r.filteredChunks q).filter (fun _ => true) = r.filteredChunks q := List.filter_eq_self.2 fun _ _ => rfl
  rw [order] at required
  simp only [inspectStages, Checked.bind_eq_ok, Option.all_none, unfiltered]
  refine ⟨embedding, embedded, hits, h.found, ranked.pool, required,
    if preset = .hybridRerank then ranked.reranked else [], ?_, ?_⟩
  · unfold rerankStage
    split
    · exact reranked
    · rfl
  · rw [Checked.pure_eq_ok, stagesOf, order]
    rfl

/-! ## The claim of both -/

/-- A request both paths take: a question that is not blank, and limits within the schema's. -/
structure Asked where
  query : Query
  topK : Nat
  candidatePool : Nat
  notBlank : strip query.text ≠ ""
  topK_pos : 1 ≤ topK
  topK_le : topK ≤ 10
  pool_ge : topK ≤ candidatePool
  pool_le : candidatePool ≤ 50

/-- Inspection succeeds, through the fused order and the pool of production; where it reranks, the ranking is
production's before the cutoff and the promotion, and it selects the best of it. -/
def InspectionAgrees (r : HybridRetriever Vector Score) (a : Asked) (preset : Preset) (ranked : Ranked Score) : Prop :=
  ∃ trace s, inspect r a.query a.topK a.candidatePool preset none = .ok trace ∧
    inspectStages r a.query a.topK a.candidatePool preset none = .ok s ∧
    s.fusionOrder = ranked.fusionOrder ∧ s.hybridChunks = ranked.pool ∧
    (preset = .hybridRerank → s.reranked = ranked.reranked ∧
      trace.selectedChunkIds = (ranked.reranked.take a.topK).map fun entry => entry.1.chunkId)

theorem inspect_asked (a : Asked) (preset : Preset) :
    inspect r a.query a.topK a.candidatePool preset none =
      inspectStages r a.query a.topK a.candidatePool preset none >>=
        traceOf r a.query a.candidatePool preset := by
  have topK : max 1 (min a.topK 10) = a.topK := by
    have := a.topK_pos
    have := a.topK_le
    omega
  have pool : max a.topK (min a.candidatePool 50) = a.candidatePool := by
    have := a.pool_ge
    have := a.pool_le
    omega
  rw [inspect, if_neg a.notBlank]
  dsimp only
  rw [topK, pool]

/-- A trace names a chunk for every id of the store. -/
theorem inspect_loaded {a : Asked} {preset : Preset} {trace : Trace Score}
    (h : inspect r a.query a.topK a.candidatePool preset none = .ok trace)
    (embedded : r.embedQuery a.query.text = .ok embedding)
    (found : r.search embedding a.candidatePool a.query.ticker a.query.section = .ok hits) : StoreLoaded r hits := by
  rw [inspect_asked, Checked.bind_eq_ok] at h
  obtain ⟨s, stages, h⟩ := h
  obtain ⟨candidates, collected, -⟩ := Checked.bind_eq_ok.1 h
  have dense : s.denseHits = hits := by
    simp only [inspectStages, embedded, Checked.ok_bind, found] at stages
    obtain ⟨chunks, -, stages⟩ := Checked.bind_eq_ok.1 stages
    obtain ⟨reranked, -, stages⟩ := Checked.bind_eq_ok.1 stages
    rw [← Checked.pure_eq_ok.1 stages]
    rfl
  intro hit mem
  have listed : hit.chunkId ∈ s.allIds a.candidatePool := by
    rw [Stages.allIds, List.mem_eraseDups]
    apply List.mem_append_left
    apply List.mem_append_left
    apply List.mem_append_right
    rw [Stages.denseIds, dense]
    exact List.mem_map_of_mem mem
  obtain ⟨entry, -, made⟩ := Checked.collect_mem collected listed
  obtain ⟨c, required, -⟩ := Checked.bind_eq_ok.1 made
  rw [Checked.orRaise_eq_ok.1 required]
  rfl

/-- **Inspection agrees with production exactly where the store returns loaded chunks.** -/
theorem inspectionAgrees_iff {a : Asked} {preset : Preset} (h : RankedBy r a.query embedding a.candidatePool true hits ranked)
    (embedded : r.embedQuery a.query.text = .ok embedding) :
    InspectionAgrees r a preset ranked ↔ StoreLoaded r hits := by
  constructor
  · rintro ⟨trace, s, inspected, -⟩
    exact inspect_loaded inspected embedded h.found
  · intro loaded
    have stages := inspectStages_eq_ok h embedded loaded a.topK preset
    have listed := @stagesOf_loaded _ _ r _ a.query embedding a.candidatePool hits ranked h loaded a.topK preset
    generalize hs : stagesOf r a.query a.candidatePool a.topK preset hits ranked = s at stages listed
    obtain ⟨candidates, collected⟩ : ∃ candidates, Checked.collect (candidate r a.query preset s) (s.allIds a.candidatePool) =
        .ok candidates := by
      apply Checked.collect_exists
      intro id mem
      obtain ⟨c, named⟩ := Option.isSome_iff_exists.1 (listed mem)
      exact ⟨_, Checked.bind_eq_ok.2 ⟨c, Checked.orRaise_eq_ok.2 named, rfl⟩⟩
    refine ⟨⟨candidates, s.finalIds⟩, s, ?_, stages, ?_, ?_, ?_⟩
    · rw [inspect_asked, stages, Checked.ok_bind, traceOf, collected]
      rfl
    · rw [← hs]
      rfl
    · rw [← hs]
      rfl
    · rintro rfl
      rw [← hs]
      exact ⟨rfl, rfl⟩

/-- **Retrieval and its inspection.** Where production answers, inspection goes through the same stages exactly when every id
the store returned is loaded; what production returns has distinct ids, is at most `top_k` chunks, and is inside the
filter when the chunks behind the ids are. -/
theorem retrieval_inspection [Zero Score] (r : HybridRetriever Vector Score) (a : Asked) (preset : Preset) {embedding : Vector}
    (embedded : r.embedQuery a.query.text = .ok embedding) {out : List (Chunk × Score)}
    (h : retrieveWithEmbedding r a.query embedding a.topK a.candidatePool true = .ok out) :
    ∃ hits ranked, r.search embedding a.candidatePool a.query.ticker a.query.section = .ok hits ∧
      rankCandidates r a.query embedding a.candidatePool true = .ok ranked ∧
      (InspectionAgrees r a preset ranked ↔ StoreLoaded r hits) ∧
      (InScope r a.query hits → ∀ entry ∈ out, a.query.admits entry.1 = true) ∧
      (out.map fun entry => entry.1.chunkId).Nodup ∧ out.length ≤ a.topK := by
  obtain ⟨ranked, ok, is⟩ := retrieve_eq_ok h
  obtain ⟨hits, by_⟩ := rankCandidates_eq_ok ok
  refine ⟨hits, ranked, by_.found, ok, inspectionAgrees_iff by_ embedded, retrieve_admits h by_.found, retrieve_nodup h, ?_⟩
  rw [is]
  exact List.length_take_le _ _

end Pipeline

/-! ## A store ahead of the loaded chunks -/

/-- One loaded chunk, and a store that returns the points of `ids`. -/
def sampleRetriever (ids : List String) : HybridRetriever Unit Int where
  allChunks := [⟨"c1", "AAPL", "business", "2025-10-31", "Apple sells phones."⟩]
  embedQuery := fun _ => .ok ()
  search := fun _ topK _ _ => .ok ((ids.map fun id => ⟨id, 1⟩).take topK)
  bm25Scores := fun _ _ => 1
  crossEncoder :=
    { predict := fun pairs => .ok (pairs.map fun pair => pair.2.length)
      predict_length := by
        intro pairs scores h
        rw [← Except.ok.inj h, List.length_map] }
  relativeCutoff := fun score => score / 2
  promotedScore := 10
  similarity := ⟨fun _ _ => ⟨0, 1⟩, fun _ => ⟨0, 1⟩⟩
  patterns := ⟨fun _ => false, fun _ _ => false, fun _ => false, fun _ => [], fun _ _ => false, fun _ => []⟩

def sampleAsked : Asked :=
  ⟨⟨"What does Apple sell?", some "AAPL", none⟩, 5, 10, by decide, by decide, by decide, by decide, by decide⟩

theorem retrieval_inspection_sample :
    ∃ ranked, rankCandidates (sampleRetriever ["c1"]) sampleAsked.query () 10 true = .ok ranked ∧
      InspectionAgrees (sampleRetriever ["c1"]) sampleAsked .hybridRerank ranked := by
  have ran : retrieveWithEmbedding (sampleRetriever ["c1"]) sampleAsked.query () 5 10 true =
      .ok ((sampleRetriever []).allChunks.map fun c => (c, 19)) := by
    decide +kernel
  obtain ⟨hits, ranked, found, ok, agrees, -⟩ := retrieval_inspection (sampleRetriever ["c1"]) sampleAsked .hybridRerank rfl ran
  refine ⟨ranked, ok, agrees.2 ?_⟩
  intro hit mem
  rw [← Except.ok.inj found] at mem
  obtain rfl := List.mem_singleton.1 mem
  decide

/-- The store returns a point indexed after the chunks were loaded: production passes it over, inspection raises. -/
theorem unloaded_point_fails :
    retrieveWithEmbedding (sampleRetriever ["new", "c1"]) sampleAsked.query () 5 10 true =
        .ok ((sampleRetriever []).allChunks.map fun c => (c, 19)) ∧
      (inspect (sampleRetriever ["new", "c1"]) sampleAsked.query 5 10 .hybridRerank none).isOk = false := by
  constructor
  · decide +kernel
  · decide +kernel

end Retrieval
