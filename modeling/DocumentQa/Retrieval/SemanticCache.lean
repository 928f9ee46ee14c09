import DocumentQa.Lib.Json.Number
import DocumentQa.Lib.Rounding
import DocumentQa.Lib.Runs
import DocumentQa.Python.Json
import Mathlib.Algebra.Order.Ring.WithTop
import Mathlib.Data.Prod.Lex

/-!
# The semantic cache

Answers are kept with the embedding of their query and one key made of the request's filters.
`get` scans the entries under the key of the query for the most similar one, `set` prunes what
is expired, evicts the least used entry of a full cache and appends. Every call reads the clock
once, under a lock.
-/

namespace SemanticCache

open JsonText Python

/-- The filters of a request and the language of its answer. -/
structure Filters where
  ticker : Option String
  section_ : Option String
  topK : Int
  answerLanguage : Option String
deriving DecidableEq, Repr

/-- `value or '*'`. -/
def orStar (value : Option String) : List Char :=
  match value with
  | none => ['*']
  | some text => if text = "" then ['*'] else text.toList

/-- `f"{ticker or '*'}|{section or '*'}|{top_k}"`. -/
def baseKey (f : Filters) : List Char :=
  orStar f.ticker ++ '|' :: (orStar f.section_ ++ '|' :: intText f.topK)

/-- `make_filter_key`. -/
def makeFilterKey (f : Filters) : String :=
  match f.answerLanguage with
  | none => String.ofList (baseKey f)
  | some language => String.ofList (language.toList ++ '|' :: baseKey f)

/-- `list[float]`. -/
abbrev Embedding := List Double

/-- A similarity, `none` for NaN. -/
abbrev Score := Option (WithBot (WithTop ℚ))

/-- A finite score. -/
def finiteScore (x : ℚ) : WithBot (WithTop ℚ) :=
  WithBot.some (WithTop.some x)

/-- `score > best`. -/
def Score.exceeds (score best : Score) : Bool :=
  match score, best with
  | some a, some b => b < a
  | _, _ => false

/-- An entry, with the filters it was stored under, of which the cache itself only keeps the key. -/
structure CacheEntry where
  queryEmbedding : Embedding
  filterKey : String
  answer : String
  sources : List JsonObject
  modelUsed : String
  timestamp : ℚ
  hitCount : Nat
  filters : Filters

structure CacheStats where
  totalRequests : Nat
  cacheHits : Nat
  entries : Nat

structure Config where
  threshold : WithBot (WithTop ℚ)
  maxEntries : Int
  ttl : Int

/-- What the cache computes with: the similarity of two embeddings, and the rounding of a difference
of clock readings. -/
structure Runtime where
  similarity : Embedding → Embedding → Score
  rounding : Rounding

structure State where
  config : Config
  entries : List CacheEntry
  stats : CacheStats

def new (config : Config) : State :=
  ⟨config, [], ⟨0, 0, 0⟩⟩

section Operations

variable (r : Runtime)

/-- `(now - entry.timestamp) <= self.ttl`. -/
def live (config : Config) (now : ℚ) (entry : CacheEntry) : Bool :=
  r.rounding.fl (now - entry.timestamp) ≤ config.ttl

/-- `_prune_expired`. -/
def State.pruneExpired (s : State) (now : ℚ) : State :=
  { s with entries := s.entries.filter (live r s.config now) }

/-- The entries under a key that are not expired, with their places. -/
def State.candidates (s : State) (now : ℚ) (key : String) : List (CacheEntry × Nat) :=
  s.entries.zipIdx.filter fun c => c.1.filterKey = key && live r s.config now c.1

/-- One candidate of the loop over them. -/
def consider (embedding : Embedding) (best : Score × Option (CacheEntry × Nat)) (c : CacheEntry × Nat) :
    Score × Option (CacheEntry × Nat) :=
  let score := r.similarity embedding c.1.queryEmbedding
  if score.exceeds best.1 then (score, some c) else best

/-- The best candidate and its score, from `-1.0` on. -/
def best (embedding : Embedding) (candidates : List (CacheEntry × Nat)) : Score × Option (CacheEntry × Nat) :=
  candidates.foldl (consider r embedding) (some (finiteScore (-1)), none)

def CacheEntry.hit (entry : CacheEntry) : CacheEntry :=
  { entry with hitCount := entry.hitCount + 1 }

/-- `get`: the cache it leaves, and the entry. -/
def State.get (s : State) (now : ℚ) (embedding : Embedding) (filters : Filters) : State × Option CacheEntry :=
  let s := { s with stats := { s.stats with totalRequests := s.stats.totalRequests + 1 } }
  match best r embedding (s.candidates r now (makeFilterKey filters)) with
  | (some score, some (entry, place)) =>
    if s.config.threshold ≤ score then
      ({ s with
        entries := s.entries.modify place CacheEntry.hit
        stats := { s.stats with cacheHits := s.stats.cacheHits + 1 } }, some entry.hit)
    else (s, none)
  | _ => (s, none)

/-- `(entry.hit_count, entry.timestamp)`. -/
def CacheEntry.use (entry : CacheEntry) : Lex (ℕ × ℚ) :=
  toLex (entry.hitCount, entry.timestamp)

/-- The entries in the order of their use. -/
def byUse (entries : List CacheEntry) : List CacheEntry :=
  entries.insertionSort fun a b => a.use ≤ b.use

/-- `set`; the flag is `False` when `pop` finds nothing to evict. -/
def State.set (s : State) (now : ℚ) (embedding : Embedding) (filters : Filters) (answer : String)
    (sources : List JsonObject) (modelUsed : String) : State × Bool :=
  let s := s.pruneExpired r now
  let append (kept : List CacheEntry) : State :=
    let entries := kept ++ [⟨embedding, makeFilterKey filters, answer, sources, modelUsed, now, 0, filters⟩]
    { s with entries := entries, stats := { s.stats with entries := entries.length } }
  if s.config.maxEntries ≤ s.entries.length then
    match byUse s.entries with
    | [] => (s, false)
    | _ :: kept => (append kept, true)
  else (append s.entries, true)

/-- `get_stats`: the cache it leaves, and the counts. -/
def State.getStats (s : State) (now : ℚ) : State × CacheStats :=
  let s := s.pruneExpired r now
  let stats := { s.stats with entries := s.entries.length }
  ({ s with stats := stats }, stats)

/-- `clear`: the cache it leaves, and the number of entries it held. -/
def State.clear (s : State) : State × Nat :=
  (new s.config, s.entries.length)

/-! ## Calls -/

inductive Call where
  | get (embedding : Embedding) (filters : Filters)
  | set (embedding : Embedding) (filters : Filters) (answer : String) (sources : List JsonObject) (modelUsed : String)
  | getStats
  | clear

/-- A call at a reading of the clock. -/
structure Timed where
  now : ℚ
  call : Call

def step (s : State) (c : Timed) : State :=
  match c.call with
  | .get embedding filters => (s.get r c.now embedding filters).1
  | .set embedding filters answer sources modelUsed => (s.set r c.now embedding filters answer sources modelUsed).1
  | .getStats => (s.getStats r c.now).1
  | .clear => s.clear.1

end Operations

/-- The `set` calls since the last `clear`. -/
def setsSince (calls : List Timed) : List Timed :=
  calls.foldl (fun sets c =>
    match c.call with
    | .set .. => sets ++ [c]
    | .clear => []
    | _ => sets) []

end SemanticCache
