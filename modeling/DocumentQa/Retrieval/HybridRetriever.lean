import DocumentQa.Python.Errors
import DocumentQa.Retrieval.Lookup

/-!
# `hybrid_retriever`

The two copies of the retrieval pipeline: `_retrieve_with_embedding`, which answers queries,
and `inspect`, which traces the stages. Both rank the filtered chunks by BM25, ask the
vector store, climb the lexical ladder, fuse the three rankings by reciprocal rank and
rerank the pool with the cross-encoder. The store, the two scoring models and the embedding
are parameters; scores are of any linear order. A trace keeps the candidates with their
ranks and scores; its labels, timings and rounding are left out.
-/

namespace Retrieval

open Python

/-- A point the store returns: the payload's chunk and the similarity. -/
structure Hit (Score : Type) where
  chunkId : String
  score : Score

/-- A reranker scores every pair of a batch. -/
structure CrossEncoder (Score : Type) where
  predict : List (String × String) → Except PyError (List Score)
  predict_length : ∀ pairs scores, predict pairs = .ok scores → scores.length = pairs.length

/-- A `HybridRetriever` and the services it was built with. -/
structure HybridRetriever (Vector Score : Type) where
  allChunks : List Chunk
  embedQuery : String → Except PyError Vector
  /-- `self.store.search(query_vector, top_k, ticker, section)`. -/
  search : Vector → Nat → Option String → Option String → Except PyError (List (Hit Score))
  /-- `self.bm25.get_scores(tokens)[index]`. -/
  bm25Scores : List (List Char) → Nat → Score
  crossEncoder : CrossEncoder Score
  /-- `score * CE_RELATIVE_CUTOFF`. -/
  relativeCutoff : Score → Score
  /-- The score `10.0` of a structured match. -/
  promotedScore : Score
  similarity : Similarity
  patterns : Patterns

/-- A query with the filter it asks for. -/
structure Query where
  text : String
  ticker : Option String
  «section» : Option String

/-- The value of an optional string that is truthy. -/
def given (filter : Option String) : Option String :=
  filter.filter (· ≠ "")

/-- The filter as the indexes read it: an empty string asks for nothing. -/
def Query.admits (q : Query) (c : Chunk) : Bool :=
  (given q.ticker).all (c.ticker = ·) && (given q.section).all (c.section = ·)

def keyError (key : String) : PyError :=
  ⟨.keyError, key⟩

/-- The last place of `key`, as `{key: place for place, key in enumerate(keys)}` keeps it. -/
def lastIndex? (key : String) : List String → Option Nat
  | [] => none
  | k :: ks => match lastIndex? key ks with
    | some n => some (n + 1)
    | none => if k = key then some 0 else none

/-! ## Fusion -/

def rrfK : Nat := 60

/-- `rrf_scores[chunk_id] = rrf_scores.get(chunk_id, 0.0) + 1 / (RRF_K + rank + 1)` for each rank. -/
def addRanks (rrfScores : List (String × Binary64.Float)) (ids : List String) : List (String × Binary64.Float) :=
  Ranking.putAll (fun rank before => (before.getD ⟨0, 1⟩).add (Binary64.nearest 1 (rrfK + rank + 1))) rrfScores ids

/-- `sorted(rrf_scores, key=rrf_scores.get, reverse=True)`. -/
def fusionOrder (rrfScores : List (String × Binary64.Float)) : List String :=
  (Ranking.descending (fun x y => x.le y = true) Prod.snd rrfScores).map Prod.fst

section Pipeline

variable {Vector Score : Type} (r : HybridRetriever Vector Score)

/-- `self._chunks_by_id.get(chunk_id)`: of chunks that share an id the last. -/
def HybridRetriever.chunkById (id : String) : Option Chunk :=
  r.allChunks.reverse.find? (·.chunkId = id)

/-- The chunks of the query's filter, in the order they were loaded. -/
def HybridRetriever.filteredChunks (q : Query) : List Chunk :=
  r.allChunks.filter q.admits

variable [LinearOrder Score]

/-- `bm25_scores[self._chunk_index_map[chunk["chunk_id"]]]`. -/
def HybridRetriever.bm25Score (q : Query) (c : Chunk) : Score :=
  r.bm25Scores (words (lower q.text)) ((lastIndex? c.chunkId (r.allChunks.map Chunk.chunkId)).getD 0)

/-- The best chunks of a list by BM25. -/
def HybridRetriever.bm25Candidates (q : Query) (chunks : List Chunk) (candidatePool : Nat) : List Chunk :=
  (Ranking.descending (· ≤ ·) (r.bm25Score q) chunks).take candidatePool

/-- The ids of the ladder's candidates. -/
def HybridRetriever.lexicalIds (q : Query) (chunks : List Chunk) (candidatePool : Nat) : List String :=
  (lexicalLadderCandidates r.similarity chunks q.ticker q.section (shapeRetrievalQuery q.text) candidatePool).map
    fun candidate => candidate.chunk.chunkId

/-! ## `_retrieve_with_embedding` -/

/-- The candidate pool in its fused order and as the cross-encoder ranks it. -/
structure Ranked (Score : Type) where
  fusionOrder : List String
  pool : List Chunk
  reranked : List (Chunk × Score)

/-- The stages up to the ranking of the cross-encoder. -/
def rankCandidates (q : Query) (embedding : Vector) (candidatePool : Nat) (useLexicalLadder : Bool) :
    Except PyError (Ranked Score) := do
  let filteredChunks := r.filteredChunks q
  let bm25Ids := (r.bm25Candidates q filteredChunks candidatePool).map Chunk.chunkId
  let semanticResults ← r.search embedding candidatePool q.ticker q.section
  let semanticIds := semanticResults.map Hit.chunkId
  let lexicalIds := if useLexicalLadder then r.lexicalIds q filteredChunks candidatePool else []
  let rrfScores := addRanks (addRanks (addRanks [] bm25Ids) semanticIds) lexicalIds
  let order := fusionOrder rrfScores
  -- an id of the store that names no loaded chunk is passed over
  let topCandidates := (order.take candidatePool).filterMap r.chunkById
  let ceScores ← r.crossEncoder.predict (topCandidates.map fun c => (q.text, c.text))
  pure ⟨order, topCandidates, Ranking.descending (· ≤ ·) Prod.snd (topCandidates.zip ceScores)⟩

/-- The relative cutoff: with a positive best score, what scores under half of it goes. -/
def cutBelow [Zero Score] (reranked : List (Chunk × Score)) : List (Chunk × Score) :=
  match reranked with
  | [] => []
  | best :: _ => if 0 < best.2 then reranked.filter fun entry => r.relativeCutoff best.2 ≤ entry.2 else reranked

/-- `_promote_structured_match`, with one backup chunk. -/
def promoteStructuredMatch (reranked : List (Chunk × Score)) (m : StructuredMatch) (topK : Nat) : List (Chunk × Score) :=
  let remaining := reranked.filter fun entry => entry.1.chunkId ≠ m.chunk.chunkId
  let limit := max 1 (min topK 2)
  (m.chunk, r.promotedScore) :: remaining.take (limit - 1)

/-- The structured match, unless it is of another section than the one asked for. -/
def HybridRetriever.structuredMatch (q : Query) : Option StructuredMatch :=
  if q.section ∈ [none, some "financial_table", some "financial_statements"] then
    (structuredLookup r.patterns q.text q.ticker r.allChunks).filter fun m => q.section.all (m.chunk.section = ·)
  else none

def retrieveWithEmbedding [Zero Score] (q : Query) (embedding : Vector) (topK candidatePool : Nat)
    (useLexicalLadder : Bool) : Except PyError (List (Chunk × Score)) := do
  let ranked ← rankCandidates r q embedding candidatePool useLexicalLadder
  let reranked := cutBelow r ranked.reranked
  let reranked := match r.structuredMatch q with
    | some m => promoteStructuredMatch r reranked m topK
    | none => reranked
  pure (reranked.take topK)

/-! ## `inspect` -/

inductive Preset where
  | bm25
  | dense
  | hybrid
  | hybridRerank
deriving DecidableEq

/-- What the stages of an inspection leave. -/
structure Stages (Score : Type) where
  bm25Ids : List String
  /-- The hits inside the restriction; their ids are `dense_ids`, their scores `dense_scores`. -/
  denseHits : List (Hit Score)
  lexicalIds : List String
  rrfScores : List (String × Binary64.Float)
  fusionOrder : List String
  hybridChunks : List Chunk
  /-- The pool as the cross-encoder ranks it, with the scores; empty for the other presets. -/
  reranked : List (Chunk × Score)
  finalIds : List String

def Stages.denseIds {Score : Type} (s : Stages Score) : List String :=
  s.denseHits.map Hit.chunkId

/-- `self._chunks_by_id[chunk_id]`. -/
def HybridRetriever.requireChunk (id : String) : Except PyError Chunk :=
  Checked.orRaise (r.chunkById id) (keyError id)

/-- The rerank stage: `cross_encoder_scores` is a dictionary, read back by id. -/
def rerank (q : Query) (hybridChunks : List Chunk) : Except PyError (List (Chunk × Score)) := do
  let scores ← r.crossEncoder.predict (hybridChunks.map fun c => (q.text, c.text))
  let crossEncoderScores := ((hybridChunks.map Chunk.chunkId).zip scores).reverse
  let scored ← Checked.collect (fun c => do
    let score ← Checked.orRaise (crossEncoderScores.lookup c.chunkId) (keyError c.chunkId)
    pure (c, score)) hybridChunks
  pure (Ranking.descending (· ≤ ·) Prod.snd scored)

/-- Only one preset runs the cross-encoder. -/
def rerankStage (q : Query) (preset : Preset) (hybridChunks : List Chunk) : Except PyError (List (Chunk × Score)) :=
  if preset = .hybridRerank then rerank r q hybridChunks else pure []

/-- The hits a restriction keeps. -/
def HybridRetriever.restrict (chunkFilter : Option (Chunk → Bool)) (results : List (Hit Score)) : List (Hit Score) :=
  match chunkFilter with
  | none => results
  | some keeps => results.filter fun hit => (r.chunkById hit.chunkId).any keeps

/-- The ids a preset selects. -/
def finalIds (preset : Preset) (topK : Nat) (bm25Ids denseIds hybridIds : List String) (reranked : List (Chunk × Score)) :
    List String :=
  match preset with
  | .hybridRerank => (reranked.take topK).map fun entry => entry.1.chunkId
  | .bm25 => bm25Ids.take topK
  | .dense => denseIds.take topK
  | .hybrid => hybridIds.take topK

def inspectStages (q : Query) (topK candidatePool : Nat) (preset : Preset) (chunkFilter : Option (Chunk → Bool)) :
    Except PyError (Stages Score) := do
  let queryEmbedding ← r.embedQuery q.text
  let filteredChunks := (r.filteredChunks q).filter fun c => chunkFilter.all (· c)
  let bm25Ids := (r.bm25Candidates q filteredChunks candidatePool).map Chunk.chunkId
  let semanticResults ← r.search queryEmbedding candidatePool q.ticker q.section
  let denseHits := r.restrict chunkFilter semanticResults
  let denseIds := denseHits.map Hit.chunkId
  let lexicalIds := r.lexicalIds q filteredChunks candidatePool
  let rrfScores := [bm25Ids, denseIds, lexicalIds].foldl addRanks []
  let order := fusionOrder rrfScores
  let hybridIds := order.take candidatePool
  let hybridChunks ← Checked.collect r.requireChunk hybridIds
  let reranked ← rerankStage r q preset hybridChunks
  pure ⟨bm25Ids, denseHits, lexicalIds, rrfScores, order, hybridChunks, reranked,
    finalIds preset topK bm25Ids denseIds hybridIds reranked⟩

/-- One entry of `candidates`. -/
structure Candidate (Score : Type) where
  chunk : Chunk
  bm25Score : Option Score
  bm25Rank : Option Nat
  denseScore : Option Score
  denseRank : Option Nat
  lexicalRank : Option Nat
  fusionRank : Option Nat
  rrfScore : Option Binary64.Float
  crossEncoderScore : Option Score
  finalRank : Option Nat
  selected : Bool
  droppedReason : Option String

structure Trace (Score : Type) where
  candidates : List (Candidate Score)
  selectedChunkIds : List String

/-- `{chunk_id: rank + 1 for rank, chunk_id in enumerate(ids)}.get(id)`. -/
def rankOf (ids : List String) (id : String) : Option Nat :=
  (lastIndex? id ids).map (· + 1)

def droppedReason (preset : Preset) (s : Stages Score) (id : String) : Option String :=
  if id ∈ s.finalIds then none
  else match preset with
    | .hybridRerank =>
      if id ∈ s.hybridChunks.map Chunk.chunkId then some "ranked_below_top_k" else some "outside_candidate_pool"
    | .bm25 => if id ∈ s.bm25Ids then some "ranked_below_top_k" else some "not_in_selected_preset_stage"
    | .dense => if id ∈ s.denseIds then some "ranked_below_top_k" else some "not_in_selected_preset_stage"
    | .hybrid => if id ∈ s.fusionOrder then some "ranked_below_top_k" else some "not_in_selected_preset_stage"

def candidate (q : Query) (preset : Preset) (s : Stages Score) (id : String) : Except PyError (Candidate Score) := do
  let chunk ← r.requireChunk id
  pure {
    chunk
    bm25Score := (rankOf s.bm25Ids id).map fun _ => r.bm25Score q chunk
    bm25Rank := rankOf s.bm25Ids id
    denseScore := (s.denseHits.reverse.find? (·.chunkId = id)).map Hit.score
    denseRank := rankOf s.denseIds id
    lexicalRank := rankOf s.lexicalIds id
    fusionRank := rankOf s.fusionOrder id
    rrfScore := s.rrfScores.lookup id
    crossEncoderScore := (s.reranked.find? (·.1.chunkId = id)).map Prod.snd
    finalRank := rankOf s.finalIds id
    selected := id ∈ s.finalIds
    droppedReason := droppedReason preset s id }

/-- `list(dict.fromkeys((*bm25_ids, *dense_ids, *lexical_ids, *hybrid_ids)))`. -/
def Stages.allIds (s : Stages Score) (candidatePool : Nat) : List String :=
  (s.bm25Ids ++ s.denseIds ++ s.lexicalIds ++ s.fusionOrder.take candidatePool).eraseDups

/-- The trace of the stages. -/
def traceOf (q : Query) (candidatePool : Nat) (preset : Preset) (s : Stages Score) : Except PyError (Trace Score) := do
  let candidates ← Checked.collect (candidate r q preset s) (s.allIds candidatePool)
  pure ⟨candidates, s.finalIds⟩

def inspect (q : Query) (topK candidatePool : Nat) (preset : Preset) (chunkFilter : Option (Chunk → Bool)) :
    Except PyError (Trace Score) :=
  if strip q.text = "" then pure ⟨[], []⟩
  else do
    let topK := max 1 (min topK 10)
    let candidatePool := max topK (min candidatePool 50)
    let s ← inspectStages r q topK candidatePool preset chunkFilter
    traceOf r q candidatePool preset s

end Pipeline

end Retrieval
