import DocumentQa.Lib.Checked
import DocumentQa.Lib.Regex
import DocumentQa.Retrieval.Lookup

/-!
# Context selection for comparisons

`select_comparative_chunks` keeps of every branch its leader, its structured promotions and
one donor. `select_comparative_chunks_intent_first` takes a leader back when its donor covers
more, also one that another branch or the promotion rule keeps: exactly the chunks some
branch keeps and no later branch takes back remain.
-/

namespace Generation

open Python Retrieval Regex

/-! ## Chunks and branches -/

/-- What the selector compares of two scores, whatever numbers they are: `==`, `>`, and
`>= 10.0` of one. -/
structure ScoreOrder (Score : Type) where
  same : Score → Score → Bool
  above : Score → Score → Bool
  structured : Score → Bool

/-- `_entry_key`: the chunk ID, or the identity of an object without one. -/
inductive EntryKey where
  | chunk (id : String)
  | object (address : Nat)
deriving DecidableEq

structure Entry (Score : Type) where
  key : EntryKey
  ticker : Option String
  score : Score
  text : String

structure ComparativeBranch (Score : Type) where
  query : String
  ticker : Option String
  chunks : List (Entry Score)

variable {Score : Type}

/-- The entries whose key was not seen before. -/
def unseen : List EntryKey → List (Entry Score) → List (Entry Score)
  | _, [] => []
  | seen, entry :: entries =>
    if entry.key ∈ seen then unseen seen entries else entry :: unseen (entry.key :: seen) entries

/-- `_unique_chunks`. -/
def uniqueChunks (chunks : List (Entry Score)) : List (Entry Score) :=
  unseen [] chunks

/-! ## Donors -/

def phraseHits (text : String) (phrases : List String) : Nat :=
  phrases.foldl (fun hits phrase => hits + count (normalized phrase) ((normalized text).length + 1) (normalized text)) 0

/-- A candidate's counts, its score and its place in the branch. -/
structure Rank (Score : Type) where
  counts : List Nat
  score : Score
  index : Nat

/-- `>` of the tuples `(*counts, score, -index)`. -/
def Rank.above (order : ScoreOrder Score) (a b : Rank Score) : Bool :=
  if a.counts ≠ b.counts then decide (b.counts < a.counts)
  else if !order.same a.score b.score then order.above a.score b.score
  else decide (a.index < b.index)

/-- `max(candidates, key=lambda item: item[:-1])[-1]`: the first of the greatest. -/
def bestCandidate (order : ScoreOrder Score) : List (Rank Score × Entry Score) → Option (Entry Score)
  | [] => none
  | first :: rest =>
    some (rest.foldl (fun best candidate => if candidate.1.above order best.1 then candidate else best) first).2

/-- The entries of a branch but its leader, with the counts that make them candidates. -/
def candidates (branch : List (Entry Score)) (primary : Entry Score) (counts : Entry Score → Option (List Nat)) :
    List (Rank Score × Entry Score) :=
  branch.zipIdx.filterMap fun (entry, index) =>
    if entry.key = primary.key then none else (counts entry).map fun counts => (⟨counts, entry.score, index⟩, entry)

/-- `_best_hint_donor`. -/
def bestHintDonor (order : ScoreOrder Score) (branch : List (Entry Score)) (primary : Entry Score) (query : String) :
    Option (Entry Score) :=
  let phrases := (shapeRetrievalQuery query).exactPhrases.filter (· ≠ "")
  if phrases.isEmpty || phraseHits primary.text phrases ≠ 0 then none
  else bestCandidate order <| candidates branch primary fun entry =>
    let hits := phraseHits entry.text phrases
    if hits = 0 then none else some [hits]

def intentStopwords : List String :=
  ["amazon", "apple", "approach", "business", "company", "compare", "depends", "disclosures", "fiscal", "from", "higher",
    "microsoft", "more", "segment", "terms", "their", "total", "which", "with", "year"]

def intentSynonyms : List (String × List String) :=
  [("cloud", ["cloud", "azure", "aws"]),
    ("cybersecurity", ["cybersecurity", "cyber", "security incident", "data loss", "unauthorized access"]),
    ("growth", ["growth", "increase", "increased", "grew", "year-over-year"]),
    ("international", ["international", "foreign", "global"]),
    ("operations", ["operations", "operational"]),
    ("revenue", ["revenue", "sales", "net sales"]),
    ("risk", ["risk", "risks", "threat"]),
    ("services", ["services", "service"]),
    ("subscription", ["subscription", "subscriptions"])]

/-- The group of a token, unless it is too short or too common. -/
def intentGroup (token : List Char) : Option (List String) :=
  if token.length < 4 || intentStopwords.contains (String.ofList token) then none
  else some ((intentSynonyms.lookup (String.ofList token)).getD [String.ofList token])

/-- `_intent_groups`. -/
def intentGroups (query : String) : List (List String) :=
  ((tokens query).filterMap intentGroup).foldl (fun groups group => if group ∈ groups then groups else groups ++ [group]) []

/-- `_matched_intent_groups`, as the ascending list of the indices. -/
def matchedIntentGroups (entry : Entry Score) (groups : List (List String)) : List Nat :=
  groups.zipIdx.filterMap fun (alternatives, index) =>
    if alternatives.any fun term => isInfix (normalized term) (normalized entry.text) then some index else none

/-- `\b` in a text of lower-case letters, digits and spaces. -/
def wordBoundary : Regex Char String :=
  look fun before rest => before.any isLowerAlnum != rest.head?.any isLowerAlnum

/-- `\b20\d{2}\b`. -/
def periodPattern : Regex Char String :=
  cat [wordBoundary, unit (· == '2'), unit (· == '0'), unit (·.isDigit), unit (·.isDigit), wordBoundary]

def literal (text : String) : Regex Char String :=
  word (· == ·) text.toList

/-- `\b\d[\d,.]*(?:%|bn|billion|million)?\b`. -/
def periodValuePattern : Regex Char String :=
  cat [wordBoundary, unit (·.isDigit), many false (unit fun c => c.isDigit || c == ',' || c == '.'),
    opt (oneOf [literal "%", literal "bn", literal "billion", literal "million"]), wordBoundary]

/-- `_has_multiple_period_value_pairs`. -/
def hasMultiplePeriodValuePairs (text : String) : Bool :=
  2 ≤ (periodPattern.findall (normalized text)).length && 2 ≤ (periodValuePattern.findall (normalized text)).length

/-- `max(text.count(_normalize(term)) for term in groups[group_index])`. -/
def groupOccurrences (text : List Char) (alternatives : List String) : Nat :=
  (alternatives.map fun term => count (normalized term) (text.length + 1) text).foldl max 0

/-- `_best_intent_donor`. -/
def bestIntentDonor (order : ScoreOrder Score) (branch : List (Entry Score)) (primary : Entry Score)
    (groups : List (List String)) : Option (Entry Score) :=
  let covered := matchedIntentGroups primary groups
  let missing := (List.range groups.length).filter fun index => !covered.contains index
  if missing.isEmpty then none
  else if (missing.any fun index => (groups[index]?.getD []).contains "growth") && hasMultiplePeriodValuePairs primary.text then none
  else bestCandidate order <| candidates branch primary fun entry =>
    let matched := (matchedIntentGroups entry groups).filter missing.contains
    if matched.isEmpty then none
    else some [matched.length,
      matched.foldl (fun sum index => sum + groupOccurrences (normalized entry.text) (groups[index]?.getD [])) 0]

/-- The donor of a branch: one for an exact filing phrase, else one for a missing intent. -/
def bestDonor (order : ScoreOrder Score) (branch : List (Entry Score)) (primary : Entry Score) (query : String) :
    Option (Entry Score) :=
  (bestHintDonor order branch primary query).or (bestIntentDonor order branch primary (intentGroups query))

/-! ## Selection -/

/-- The keys of the leader and of the structured promotions. -/
def leadingKeys (order : ScoreOrder Score) (primary : Entry Score) (entries : List (Entry Score)) : List EntryKey :=
  primary.key :: (entries.filter fun entry => order.structured entry.score).map Entry.key

/-- What a branch adds to the kept keys. -/
def keepBranch (order : ScoreOrder Score) (kept : List EntryKey) (branch : ComparativeBranch Score) : List EntryKey :=
  match uniqueChunks branch.chunks with
  | [] => kept
  | primary :: others =>
    let entries := primary :: others
    kept ++ (leadingKeys order primary entries ++ (bestDonor order entries primary branch.query).toList.map Entry.key)

/-- The retrieved chunks in the order of their first appearance. -/
def allEntries (branches : List (ComparativeBranch Score)) : List (Entry Score) :=
  uniqueChunks (branches.flatMap ComparativeBranch.chunks)

/-- `select_comparative_chunks`. -/
def selectComparativeChunks (order : ScoreOrder Score) (branches : List (ComparativeBranch Score)) : List (Entry Score) :=
  let kept := branches.foldl (keepBranch order) []
  (allEntries branches).filter fun entry => entry.key ∈ kept

/-- The donor takes the place of the leader: it covers strictly more of the groups, and the
leader carries no trend of its own. -/
def replacesLeader (primary donor : Entry Score) (groups : List (List String)) : Bool :=
  !hasMultiplePeriodValuePairs primary.text &&
    (matchedIntentGroups primary groups).length < (matchedIntentGroups donor groups).length

/-- What a branch adds to the kept keys and takes from them. -/
def keepIntentFirst (order : ScoreOrder Score) (kept : List EntryKey) (branch : ComparativeBranch Score) : List EntryKey :=
  match uniqueChunks branch.chunks with
  | [] => kept
  | primary :: others =>
    let entries := primary :: others
    let kept := kept ++ leadingKeys order primary entries
    match bestDonor order entries primary branch.query with
    | none => kept
    | some donor =>
      if replacesLeader primary donor (intentGroups branch.query) then kept.filter (· ≠ primary.key) ++ [donor.key]
      else kept ++ [donor.key]

/-- `select_comparative_chunks_intent_first`. -/
def selectComparativeChunksIntentFirst (order : ScoreOrder Score) (branches : List (ComparativeBranch Score)) :
    List (Entry Score) :=
  let kept := branches.foldl (keepIntentFirst order) []
  (allEntries branches).filter fun entry => entry.key ∈ kept

/-! ## The context of a decomposed query -/

/-- The chunk that stays for an ID: the one with the higher score. -/
def higher (order : ScoreOrder Score) (chunk : Entry Score) : Option (Entry Score) → Entry Score
  | none => chunk
  | some old => if order.above chunk.score old.score then chunk else old

/-- `_deduplicate`. -/
def deduplicate (order : ScoreOrder Score) (subQueries : List (ComparativeBranch Score)) : List (Entry Score) :=
  ((subQueries.flatMap ComparativeBranch.chunks).foldl
    (fun seen chunk => Ranking.put (higher order chunk) chunk.key seen) []).map Prod.snd

/-- The distinct tickers the sub-queries name. -/
def expectedTickers (subQueries : List (ComparativeBranch Score)) : List String :=
  (subQueries.filterMap ComparativeBranch.ticker).dedup

def minChunksForSynthesis : Nat := 2

/-- `_select_comparative_context`. -/
def selectComparativeContext (order : ScoreOrder Score) (subQueries : List (ComparativeBranch Score))
    (allChunks : List (Entry Score)) : List (Entry Score) :=
  let expected := expectedTickers subQueries
  if expected.length < 2 then allChunks
  else
    let selected := selectComparativeChunks order subQueries
    if selected.length < minChunksForSynthesis || !expected.all fun ticker => selected.any fun chunk => chunk.ticker = some ticker
    then allChunks else selected

end Generation
