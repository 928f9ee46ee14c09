import DocumentQa.Lib.Binary64
import DocumentQa.Lib.Ranking
import DocumentQa.Python.Text

/-!
# Lexical lookups

What retrieval finds in the loaded chunks by their words: the hints `shape_retrieval_query`
draws from a question, the ladder `lexical_ladder_candidates` climbs with them, and the
row `structured_lookup` matches. Each looks only at chunks of the scope it is given. The
regular expressions of the structured lookup and the similarity of two words are
parameters; nothing here depends on what they compute.
-/

namespace Retrieval

open Python

/-- A loaded chunk. -/
structure Chunk where
  chunkId : String
  ticker : String
  «section» : String
  filingDate : String
  text : String
deriving DecidableEq

/-! ## `lexical_ladder` -/

/-- `re.findall(r"[a-z0-9]+", text)`. -/
def words : List Char → List (List Char)
  | [] => []
  | c :: cs =>
    if isLowerAlnum c then
      match words cs, cs.head?.any isLowerAlnum with
      | word :: rest, true => (c :: word) :: rest
      | rest, _ => [c] :: rest
    else words cs

def tokens (text : String) : List (List Char) :=
  words (casefold text.toList)

/-- `" ".join(_tokens(text))`. -/
def normalized (text : String) : List Char :=
  [' '].intercalate (tokens text)

/-- `text.count(phrase)`, of occurrences that do not overlap; an empty phrase is between all characters. -/
def count (phrase : List Char) : Nat → List Char → Nat
  | 0, _ => 0
  | fuel + 1, text =>
    if phrase.isPrefixOf text then
      match phrase, text with
      | [], [] => 1
      | [], _ :: rest => 1 + count phrase fuel rest
      | _ :: _, _ => 1 + count phrase fuel (text.drop phrase.length)
    else match text with
      | [] => 0
      | _ :: rest => count phrase fuel rest

structure LexicalCandidate where
  chunk : Chunk
  tier : String
  matchedTerms : Nat
  score : Binary64.Float

def scopeChunks (chunks : List Chunk) (ticker «section» : Option String) : List Chunk :=
  chunks.filter fun c => ticker.all (c.ticker = ·) && «section».all (c.section = ·)

/-- `(-score, -matched_terms, chunk_id)` in ascending order. -/
def precedes (a b : LexicalCandidate) : Bool :=
  if a.score.le b.score && b.score.le a.score then
    if a.matchedTerms = b.matchedTerms then a.chunk.chunkId ≤ b.chunk.chunkId
    else b.matchedTerms < a.matchedTerms
  else b.score.le a.score

def rank (found : List LexicalCandidate) (maxCandidates : Nat) : List LexicalCandidate :=
  (found.insertionSort fun a b => precedes a b = true).take maxCandidates

def exactPhraseCandidates (chunks : List Chunk) (phrases : List String) : List LexicalCandidate :=
  let normalizedPhrases := (phrases.filter (· ≠ "")).map normalized
  chunks.filterMap fun chunk =>
    let text := normalized chunk.text
    let hits := (normalizedPhrases.map fun phrase => count phrase (text.length + 1) text).foldl (· + ·) 0
    if hits ≠ 0 then some ⟨chunk, "exact_phrase", hits, Binary64.nearest hits 1⟩ else none

/-- `tuple(dict.fromkeys(_normalized(term) for term in terms if term))`. -/
def normalizedTerms (terms : List String) : List (List Char) :=
  ((terms.filter (· ≠ "")).map normalized).eraseDups

def termCandidates (chunks : List Chunk) (terms : List (List Char)) (tier : String) (minimumHits : Nat) :
    List LexicalCandidate :=
  let terms := terms.filter (· ≠ [])
  chunks.filterMap fun chunk =>
    let text := normalized chunk.text
    let hits := (terms.filter fun term => if ' ' ∈ term then isInfix term text else term ∈ tokens chunk.text).length
    if minimumHits ≤ hits then some ⟨chunk, tier, hits, Binary64.nearest hits (max 1 terms.length)⟩ else none

/-- How alike words are. -/
structure Similarity where
  /-- `SequenceMatcher(None, term, token).ratio()`. -/
  ratio : List Char → List Char → Binary64.Float
  /-- `sum(similarities) / len(similarities)`. -/
  mean : List Binary64.Float → Binary64.Float

def larger (x y : Binary64.Float) : Binary64.Float :=
  if x.le y && !y.le x then y else x

/-- `0.88` as a double. -/
def fuzzySimilarity : Binary64.Float :=
  Binary64.nearest 88 100

def fuzzyCandidates (similarity : Similarity) (chunks : List Chunk) (terms : List String) : List LexicalCandidate :=
  let guarded := (normalizedTerms terms).filter fun term => 5 ≤ term.length
  if guarded = [] then []
  else chunks.filterMap fun chunk =>
    let similarities := guarded.map fun term => ((tokens chunk.text).map (similarity.ratio term)).foldl larger ⟨0, 1⟩
    if similarities.all fuzzySimilarity.le then
      some ⟨chunk, "fuzzy", similarities.length, similarity.mean similarities⟩
    else none

/-- The phrases and terms of `ShapedQuery`. -/
structure Hints where
  exactPhrases : List String
  fullTerms : List String
  partialTerms : List String
  fuzzyTerms : List String

/-- A tier whose terms are given. -/
def termTier (chunks : List Chunk) (terms : List (List Char)) (tier : String) (minimumHits : Nat) : List LexicalCandidate :=
  if terms = [] then [] else termCandidates chunks terms tier minimumHits

/-- The first tier that finds a chunk. -/
def lexicalLadderCandidates (similarity : Similarity) (chunks : List Chunk) (ticker «section» : Option String) (hints : Hints)
    (maxCandidates : Nat) : List LexicalCandidate :=
  let inScope := scopeChunks chunks ticker «section»
  if inScope = [] ∨ maxCandidates = 0 then []
  else
    let exact := exactPhraseCandidates inScope hints.exactPhrases
    let fullTerms := normalizedTerms hints.fullTerms
    let full := termTier inScope fullTerms "full_terms" fullTerms.length
    let partialTerms := normalizedTerms hints.partialTerms
    let found := termTier inScope partialTerms "partial_terms" (max 2 ((partialTerms.length * 2 + 2) / 3))
    let fuzzy := if ticker.isSome then fuzzyCandidates similarity inScope hints.fuzzyTerms else []
    if !exact.isEmpty then rank exact maxCandidates
    else if !full.isEmpty then rank full maxCandidates
    else if !found.isEmpty then rank found maxCandidates
    else rank fuzzy (min maxCandidates 3)

/-! ## `shape_retrieval_query` -/

def trendTerms : List String :=
  ["growth", "trend", "change", "changed", "year over year", "year-over-year", "yoy"]

def hasTrendIntent (query : String) : Bool :=
  trendTerms.any fun term => isInfix term.toList (casefold query.toList)

def hasAggregateCloudPhrase (query : String) : Bool :=
  let normalized := casefold query.toList
  isInfix "revenue".toList normalized &&
    ["cloud and azure", "azure and cloud"].any fun phrase => isInfix phrase.toList normalized

/-- The hints of `shape_retrieval_query`. -/
def shapeRetrievalQuery (query : String) : Hints :=
  let mentions := fun phrase : String => isInfix phrase.toList (casefold query.toList)
  let aws := mentions "aws" && hasTrendIntent query
  let cloud := mentions "microsoft" && (mentions "cloud" || mentions "azure") &&
    (hasTrendIntent query || hasAggregateCloudPhrase query)
  let terms := (if aws then ["AWS", "net", "sales"] else []) ++ if cloud then ["Microsoft", "Cloud", "revenue"] else []
  { exactPhrases := (if aws then ["AWS net sales"] else []) ++ if cloud then ["Microsoft Cloud revenue"] else []
    fullTerms := terms
    partialTerms := terms
    fuzzyTerms := (if aws then ["sales"] else []) ++ if cloud then ["revenue"] else [] }

/-! ## `structured_lookup` -/

/-- The regular expressions of the structured lookup. -/
structure Patterns where
  /-- `_is_auditor_query`. -/
  isAuditorQuery : List Char → Bool
  /-- `re.search(rf"\b{re.escape(key)}\b", normalized)`. -/
  asksFor : String → List Char → Bool
  /-- `_contains_auditor_signature`. -/
  containsAuditorSignature : String → Bool
  /-- `_iter_markdown_rows`. -/
  markdownRows : String → List (String × String)
  /-- `_label_matches_canonical`. -/
  labelMatches : String → List String → Bool
  /-- `_caption_text(chunk).lower()`. -/
  caption : String → List Char

/-- `text.lower()`, as far as it can give ASCII letters and digits. -/
def lower (text : String) : List Char :=
  text.toList.flatMap fun c =>
    if c = Char.ofNat 0x212A then ['k']
    else if c = Char.ofNat 0x130 then ['i', Char.ofNat 0x307]
    else [c.toLower]

def canonicalLabels : List (String × List String) :=
  [("total assets", ["assets - total assets", "total assets"]),
    ("total liabilities", ["liabilities - total liabilities", "total liabilities"]),
    ("total revenue", ["total revenue", "total revenues", "total net sales", "net sales - total net sales",
      "revenues - total revenues"]),
    ("total equity", ["stockholders' equity - total stockholders' equity",
      "shareholders' equity - total shareholders' equity", "total stockholders' equity", "total shareholders' equity",
      "total equity", "commitments and contingencies - total stockholders' equity",
      "commitments and contingencies - total shareholders' equity"]),
    ("net income", ["net income"])]

def consolidatedCaptionMarkers : List String :=
  ["consolidated balance sheet", "consolidated balance sheets", "consolidated statement", "consolidated statements"]

structure StructuredMatch where
  chunk : Chunk
  canonicalKey : String
  label : String
  line : String

def pickBestTableMatch (p : Patterns) (candidates : List StructuredMatch) (canonicalKey : String) : Option StructuredMatch :=
  let preferredMarkers :=
    if canonicalKey = "net income" then
      ["consolidated income statement", "consolidated statements of income", "consolidated statement of operations"]
    else consolidatedCaptionMarkers
  (candidates.find? fun candidate => preferredMarkers.any fun marker => isInfix marker.toList (p.caption candidate.chunk.text))
    <|> candidates.head?

def tableCandidates (p : Patterns) (canonicalKey : String) (variants : List String) (ticker : String)
    (allChunks : List Chunk) : List StructuredMatch :=
  (allChunks.filter fun c => c.ticker = ticker && c.section = "financial_table").flatMap fun chunk =>
    ((p.markdownRows chunk.text).filter fun row => p.labelMatches row.1 variants).map fun row =>
      ⟨chunk, canonicalKey, row.1, row.2⟩

def structuredLookup (p : Patterns) (question : String) (ticker : Option String) (allChunks : List Chunk) :
    Option StructuredMatch :=
  ticker.bind fun ticker =>
    let normalized := lower question
    if p.isAuditorQuery normalized then
      (allChunks.find? fun c =>
        c.ticker = ticker && c.section = "financial_statements" && p.containsAuditorSignature c.text).map fun chunk =>
          ⟨chunk, "auditor signature", "auditor signature", "auditor signature"⟩
    else
      (canonicalLabels.find? fun entry => p.asksFor entry.1 normalized).bind fun entry =>
        pickBestTableMatch p (tableCandidates p entry.1 entry.2 ticker allChunks) entry.1

/-! ## Where the candidates come from -/

theorem mem_rank {c : LexicalCandidate} {found : List LexicalCandidate} {n : Nat} (h : c ∈ rank found n) : c ∈ found := by
  have sorted := List.mem_of_mem_take h
  rwa [List.mem_insertionSort] at sorted

theorem exactPhrase_chunk {chunks : List Chunk} {phrases : List String} {c : LexicalCandidate}
    (h : c ∈ exactPhraseCandidates chunks phrases) : c.chunk ∈ chunks := by
  obtain ⟨chunk, mem, found⟩ := List.mem_filterMap.1 h
  dsimp only at found
  split at found
  · cases found
    exact mem
  · cases found

theorem termTier_chunk {chunks : List Chunk} {terms : List (List Char)} {tier : String} {n : Nat} {c : LexicalCandidate}
    (h : c ∈ termTier chunks terms tier n) : c.chunk ∈ chunks := by
  unfold termTier at h
  split at h
  · cases h
  · obtain ⟨chunk, mem, found⟩ := List.mem_filterMap.1 h
    dsimp only at found
    split at found
    · cases found
      exact mem
    · cases found

theorem fuzzy_chunk {similarity : Similarity} {chunks : List Chunk} {terms : List String} {c : LexicalCandidate}
    (h : c ∈ fuzzyCandidates similarity chunks terms) : c.chunk ∈ chunks := by
  simp only [fuzzyCandidates] at h
  split at h
  · cases h
  · obtain ⟨chunk, mem, found⟩ := List.mem_filterMap.1 h
    split at found
    · cases found
      exact mem
    · cases found

/-- **The ladder finds chunks of the list it searches.** -/
theorem lexicalLadder_chunk {similarity : Similarity} {chunks : List Chunk} {ticker «section» : Option String} {hints : Hints}
    {n : Nat} {c : LexicalCandidate} (h : c ∈ lexicalLadderCandidates similarity chunks ticker «section» hints n) :
    c.chunk ∈ chunks := by
  have within : ∀ chunk ∈ scopeChunks chunks ticker «section», chunk ∈ chunks := fun _ => List.mem_of_mem_filter
  apply within
  simp only [lexicalLadderCandidates] at h
  split at h
  · cases h
  split_ifs at h
  · exact exactPhrase_chunk (mem_rank h)
  · exact termTier_chunk (mem_rank h)
  · exact termTier_chunk (mem_rank h)
  · exact fuzzy_chunk (mem_rank h)
  · cases mem_rank h

theorem pickBestTableMatch_mem {p : Patterns} {candidates : List StructuredMatch} {key : String} {m : StructuredMatch}
    (h : pickBestTableMatch p candidates key = some m) : m ∈ candidates := by
  unfold pickBestTableMatch at h
  rcases (Option.orElse_eq_some _ _ _).1 h with found | ⟨-, first⟩
  · exact List.mem_of_find?_eq_some found
  · exact List.mem_of_head? first

theorem pickBestTableMatch_isSome {p : Patterns} {candidates : List StructuredMatch} {key : String} :
    (pickBestTableMatch p candidates key).isSome = true ↔ ∃ m, m ∈ candidates := by
  cases candidates with
  | nil => simp [pickBestTableMatch]
  | cons m candidates => simp [pickBestTableMatch]

/-- **A structured match** is a loaded chunk of the ticker. -/
theorem structuredLookup_chunk {p : Patterns} {question : String} {ticker : Option String} {allChunks : List Chunk}
    {m : StructuredMatch} (h : structuredLookup p question ticker allChunks = some m) :
    m.chunk ∈ allChunks ∧ ticker = some m.chunk.ticker := by
  cases ticker with
  | none => cases h
  | some ticker =>
    rw [structuredLookup, Option.bind_some] at h
    dsimp only at h
    split at h
    · obtain ⟨chunk, found, rfl⟩ := Option.map_eq_some_iff.1 h
      have matched := List.find?_some found
      simp only [Bool.and_eq_true, decide_eq_true_eq] at matched
      exact ⟨List.mem_of_find?_eq_some found, congrArg some matched.1.1.symm⟩
    · obtain ⟨entry, -, picked⟩ := Option.bind_eq_some_iff.1 h
      have member : m ∈ tableCandidates p entry.1 entry.2 ticker allChunks := pickBestTableMatch_mem picked
      simp only [tableCandidates, List.mem_flatMap, List.mem_filter, List.mem_map, Bool.and_eq_true, decide_eq_true_eq] at member
      obtain ⟨chunk, ⟨mem, same, -⟩, row, -, rfl⟩ := member
      exact ⟨mem, congrArg some same.symm⟩

end Retrieval
