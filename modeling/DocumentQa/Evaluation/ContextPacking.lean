import DocumentQa.Generation.ComparativeContext
import DocumentQa.Lib.Ranking
import DocumentQa.Python.Search

/-!
# Context packing

`pack_case_context` keeps a subset of the frozen evidence of a case, under the three
route-aware strategies. The generic packer collects mandatory chunks and fills up by score.
The summary packers fill up by the groups of query words a chunk adds; the later of them then
exchanges chunks of this selection for direct anchors of the sub-queries, one by one, and
protects of every required keyword the chunk that names it first.
-/

namespace ContextPacking

open Python Generation

/-- `str.lower` and `str.casefold`. -/
structure Folding where
  lower : List Char → List Char
  casefold : List Char → List Char

/-- The comparisons of scores, and `float("-inf")` for a chunk without one. -/
structure Scores (Score : Type) extends ScoreOrder Score where
  lowest : Score

structure Entry (Score : Type) where
  chunkId : Option String
  ticker : String
  score : Option Score
  text : String
deriving DecidableEq

/-- A query of a case with what was retrieved for it; a missing text or ticker is empty. -/
structure QueryEntry (Score : Type) where
  effectiveQuery : String
  retrievalQuery : String
  ticker : String
  chunks : List (Entry Score)

structure CasePayload (Score : Type) where
  category : String
  queries : List (QueryEntry Score)

structure PackedContext (Score : Type) where
  kept : List (Entry Score)
  dropped : List (Entry Score)
  uncoveredKeywords : List String
deriving DecidableEq

inductive Strategy where
  | routeAware
  | routeAwareV3
  | routeAwareV4
deriving DecidableEq

section Packers

variable {Score : Type} (f : Folding) (s : Scores Score)

/-! ## Entries -/

/-- `_compact`. -/
def compact (text : String) : List Char :=
  f.lower (text.toList.filter fun c => !isSpace c)

/-- `_compact(keyword) in _compact(entry["text"])`. -/
def mentions (keyword : String) (entry : Entry Score) : Bool :=
  isInfix (compact f keyword) (compact f entry.text)

/-- `float(score)`, or `float("-inf")` without one. -/
def numericScore (entry : Entry Score) : Score :=
  entry.score.getD s.lowest

/-- `score >= STRUCTURED_PROMOTION_SCORE`. -/
def promoted (entry : Entry Score) : Bool :=
  entry.score.any s.structured

/-- The chunks with an ID not seen before. -/
def unseen : List (Option String) → List (Entry Score) → List (Entry Score)
  | _, [] => []
  | seen, chunk :: chunks =>
    if chunk.chunkId ∈ seen then unseen seen chunks else chunk :: unseen (chunk.chunkId :: seen) chunks

/-- `collect_entries`. -/
def collectEntries (payload : CasePayload Score) : List (Entry Score) :=
  unseen [] (payload.queries.flatMap QueryEntry.chunks)

/-- `query.get("effective_query") or query.get("retrieval_query") or ""`. -/
def queryText (query : QueryEntry Score) : String :=
  if query.effectiveQuery ≠ "" then query.effectiveQuery else query.retrievalQuery

def keptIds (kept : List (Entry Score)) : List (Option String) :=
  kept.map Entry.chunkId

/-- The closure `add` of the packers. -/
def add (kept : List (Entry Score)) (entry : Entry Score) : List (Entry Score) :=
  if entry.chunkId ∈ keptIds kept then kept else kept ++ [entry]

/-- `add(entry)` of an entry that may be `None`. -/
def addFound (kept : List (Entry Score)) (entry : Option (Entry Score)) : List (Entry Score) :=
  entry.elim kept (add kept)

/-- The entries whose IDs are kept, and the others, in source order. -/
def restore (entries : List (Entry Score)) (ids : List (Option String)) (uncovered : List String) : PackedContext Score where
  kept := entries.filter fun entry => entry.chunkId ∈ ids
  dropped := entries.filter fun entry => entry.chunkId ∉ ids
  uncoveredKeywords := uncovered

/-- The first of the greatest of a list. -/
def greatest {α : Type} (above : α → α → Bool) : List α → Option α
  | [] => none
  | first :: rest => some (rest.foldl (fun best candidate => if above candidate best then candidate else best) first)

/-- `_FILL_TARGETS["summary"]`. -/
def summaryTarget : Nat :=
  4

/-! ## `route_aware_v2` -/

/-- `_top_by(predicate)`. -/
def topBy (entries : List (Entry Score)) (predicate : Entry Score → Bool) : Option (Entry Score) :=
  (greatest (fun a b => a.1.above s.toScoreOrder b.1)
    ((entries.filter predicate).zipIdx.map fun (entry, index) => ((⟨[], numericScore s entry, index⟩ : Rank Score), entry))).map
      Prod.snd

/-- `_chunk_ticker`. -/
def chunkTicker (entry : Entry Score) : String :=
  if entry.ticker ≠ "" then entry.ticker
  else String.ofList ((entry.chunkId.getD "").toList.takeWhile (· ≠ '_'))

/-- `sorted({...})` of the tickers of the queries. -/
def expectedTickers (payload : CasePayload Score) : List String :=
  (((payload.queries.map QueryEntry.ticker).filter (· ≠ "")).dedup).insertionSort fun a b => a ≤ b

/-- A direct fact lookup keeps one chunk next to a single structured row. -/
def addSupport (category : String) (entries kept : List (Entry Score)) : List (Entry Score) :=
  if category = "fact_lookup" ∧ kept.any (promoted s) = true ∧ kept.length < 2 then
    addFound kept (topBy s entries fun entry => !promoted s entry)
  else kept

/-- The loop over the required keywords: the kept chunks, and the keywords no chunk mentions. The
packers differ in the donor they take. -/
def coverKeyword (donor : String → Option (Entry Score)) (state : List (Entry Score) × List String) (keyword : String) :
    List (Entry Score) × List String :=
  if (compact f keyword).isEmpty = true ∨ state.1.any (mentions f keyword) = true then state
  else match donor keyword with
    | none => (state.1, state.2 ++ [keyword])
    | some entry => (add state.1 entry, state.2)

/-- `_FILL_TARGETS.get(category)`. -/
def fillTarget (category : String) : Nat :=
  if category = "summary" ∨ category = "enumeration" then 4 else 0

/-- The chunks in descending order of their scores fill up to the target. -/
def fill (target : Nat) (entries kept : List (Entry Score)) : List (Entry Score) :=
  (Ranking.descending (fun a b => s.above a b = false) (numericScore s) entries).foldl
    (fun kept entry => if target ≤ kept.length then kept else add kept entry) kept

/-- The mandatory chunks of `pack_case_context`. -/
def mandatory (payload : CasePayload Score) (entries : List (Entry Score)) : List (Entry Score) :=
  let first := addFound [] entries.head?
  let structured := (entries.filter (promoted s)).foldl add first
  let supported := addSupport s payload.category entries structured
  (expectedTickers payload).foldl (fun kept ticker => addFound kept (topBy s entries fun entry => chunkTicker entry = ticker))
    supported

/-- The packer of `pack_case_context` itself. -/
def packRouteAware (payload : CasePayload Score) (required : List String) : PackedContext Score :=
  let entries := collectEntries payload
  let covered := required.foldl (coverKeyword f fun keyword => topBy s entries (mentions f keyword))
    (mandatory s payload entries, [])
  restore entries (keptIds (fill s (fillTarget payload.category) entries covered.1)) covered.2

/-! ## `route_aware_v3_intent` -/

def summaryStopwords : List String :=
  intentStopwords ++ ["about", "and", "does", "face", "factors", "from", "how", "in", "its", "key", "mention", "of", "related",
    "risks", "say", "summarize", "the", "to", "what"]

/-- `re.findall(r"[a-z0-9]+", text.casefold())`. -/
def queryTokens (text : String) : List (List Char) :=
  Retrieval.words (f.casefold text.toList)

/-- The words of a query with their alternatives, each group once. -/
def wordGroups (alternatives : String → List String) (texts : List String) : List (List String) :=
  (((texts.flatMap (queryTokens f)).filter fun token =>
      4 ≤ token.length && !summaryStopwords.contains (String.ofList token)).map fun token =>
        alternatives (String.ofList token)).foldl (fun groups group => if groups.contains group then groups else groups ++ [group]) []

/-- `_summary_intent_groups`. -/
def summaryIntentGroups (payload : CasePayload Score) : List (List String) :=
  wordGroups f (fun token => (intentSynonyms.lookup token).getD [token]) (payload.queries.map queryText)

/-- `_summary_intent_matches`, as the ascending list of the indices. -/
def summaryIntentMatches (groups : List (List String)) (entry : Entry Score) : List Nat :=
  groups.zipIdx.filterMap fun (alternatives, index) =>
    if alternatives.any fun term => isInfix (compact f term) (compact f entry.text) then some index else none

/-- The candidates of one round: chunks not kept that match a group, ranked by the groups they add. -/
def intentCandidates (groups : List (List String)) (entries kept : List (Entry Score)) (covered : List Nat) :
    List (Rank Score × Entry Score) :=
  entries.zipIdx.filterMap fun (entry, index) =>
    let matched := summaryIntentMatches f groups entry
    if entry.chunkId ∈ keptIds kept ∨ matched.isEmpty = true then none
    else some (⟨[(matched.filter fun group => group ∉ covered).length, matched.length], numericScore s entry, index⟩, entry)

/-- `while len(kept) < target`, so many places left: each round takes one. -/
def fillByIntent (groups : List (List String)) (entries : List (Entry Score)) :
    Nat → List (Entry Score) → List Nat → List (Entry Score)
  | 0, kept, _ => kept
  | places + 1, kept, covered =>
    match greatest (fun a b => a.1.above s.toScoreOrder b.1) (intentCandidates f s groups entries kept covered) with
    | none => kept
    | some selected =>
      fillByIntent groups entries places (add kept selected.2) (covered ++ summaryIntentMatches f groups selected.2)

/-- The chunks `_pack_summary_intent_first` keeps before it looks at the keywords. -/
def intentSelection (payload : CasePayload Score) (entries : List (Entry Score)) : List (Entry Score) :=
  let groups := summaryIntentGroups f payload
  let structured := (entries.filter (promoted s)).foldl add []
  let filled := if groups.isEmpty then structured
    else fillByIntent f s groups entries (summaryTarget - structured.length) structured []
  if filled.isEmpty then addFound filled entries.head? else filled

/-- `_pack_summary_intent_first`. -/
def packSummaryIntentFirst (payload : CasePayload Score) (required : List String) : PackedContext Score :=
  let entries := collectEntries payload
  if entries.isEmpty then ⟨[], [], []⟩
  else
    let covered := required.foldl (coverKeyword f fun keyword => entries.find? (mentions f keyword))
      (intentSelection f s payload entries, [])
    restore entries (keptIds covered.1) covered.2

/-! ## `route_aware_v4_anchor` -/

def anchorVariants : List (String × List String) :=
  [("component", ["component", "components"]),
    ("compliance", ["compliance", "comply", "compliant"]),
    ("control", ["control", "controls"]),
    ("currency", ["currency", "currencies", "exchange"]),
    ("geopolitical", ["geopolitical", "geopolitics"]),
    ("growth", ["growth", "grew", "increase", "increased"]),
    ("international", ["international", "internationally", "foreign", "global"]),
    ("manufacturing", ["manufacturing", "manufacture", "manufactured"]),
    ("operations", ["operations", "operational"]),
    ("quality", ["quality", "defect", "defects"]),
    ("regulatory", ["regulatory", "regulation", "regulations"]),
    ("services", ["services", "service"]),
    ("sourcing", ["sourcing", "source", "sources", "supplier", "suppliers"]),
    ("tariff", ["tariff", "tariffs", "trade"])]

/-- `_summary_anchor_groups`. -/
def summaryAnchorGroups (query : String) : List (List String) :=
  wordGroups f (fun token => (anchorVariants.lookup token).getD [token]) [query]

/-- The tuple `_summary_anchor_profile` returns, `earliest` without its sign. -/
structure AnchorProfile (Score : Type) where
  core : Nat
  early : Nat
  signals : Nat
  veryEarly : Nat
  score : Score
  earliest : Nat

def AnchorProfile.rank (p : AnchorProfile Score) : Rank Score :=
  ⟨[p.core, p.early, p.signals, p.veryEarly], p.score, p.earliest⟩

/-- `>` of two profiles. -/
def AnchorProfile.above (p q : AnchorProfile Score) : Bool :=
  p.rank.above s.toScoreOrder q.rank

/-- `==` of two profiles. -/
def AnchorProfile.same (p q : AnchorProfile Score) : Bool :=
  p.rank.counts = q.rank.counts && s.same p.score q.score && p.earliest = q.earliest

/-- `_summary_anchor_profile`. -/
def summaryAnchorProfile (entry : Entry Score) (query : String) : AnchorProfile Score :=
  let text := [' '].intercalate (Spacing.words isSpace (f.casefold entry.text.toList))
  let positions := (summaryAnchorGroups f query).filterMap fun alternatives =>
    (alternatives.filterMap fun term => find text (f.casefold term.toList) 0).min?
  { core := (positions.filter (· < 250)).length
    early := (positions.filter (· < 750)).length
    signals := positions.length
    veryEarly := (positions.filter (· < 150)).length
    score := numericScore s entry
    earliest := positions.min?.getD 1000000000 }

/-- Two early signals, or one very early signal and another one anywhere. -/
def isDirect (p : AnchorProfile Score) : Bool :=
  2 ≤ p.core || (1 ≤ p.veryEarly && 2 ≤ p.signals)

/-- The most direct chunk of a query, with its profile. -/
def directAnchor (query : QueryEntry Score) : Option (AnchorProfile Score × Entry Score) :=
  let ranked := (query.chunks.map fun entry => (summaryAnchorProfile f s entry (queryText query), entry)).zipIdx.filter fun c =>
    isDirect c.1.1
  (greatest (fun a b => if a.1.1.same s b.1.1 then a.2 < b.2 else a.1.1.above s b.1.1) ranked).map Prod.fst

/-- The anchor of a query enters the table with its profile, unless it is there with no smaller one. -/
def recordAnchor (anchors : List (String × AnchorProfile Score)) (query : QueryEntry Score) :
    List (String × AnchorProfile Score) :=
  if (summaryAnchorGroups f (queryText query)).isEmpty then anchors
  else match directAnchor f s query with
    | none => anchors
    | some (profile, anchor) => anchor.chunkId.elim anchors fun chunkId =>
      Ranking.put (fun previous => match previous with
        | none => profile
        | some previous => if profile.above s previous then profile else previous) chunkId anchors

def anchorsOf (payload : CasePayload Score) : List (String × AnchorProfile Score) :=
  payload.queries.foldl (recordAnchor f s) []

/-- The donor of a keyword that is protected: the one that mentions it first. -/
def protectedDonor (entries : List (Entry Score)) (keyword : String) : Option (Entry Score) :=
  let donors := (entries.filter (mentions f keyword)).zipIdx.map fun (entry, index) =>
    ((find (compact f entry.text) (compact f keyword) 0, (⟨[], numericScore s entry, index⟩ : Rank Score)), entry)
  (greatest (fun a b => if a.1.1 ≠ b.1.1 then a.1.1.getD 0 < b.1.1.getD 0 else a.1.2.above s.toScoreOrder b.1.2) donors).map Prod.snd

/-- `protected_ids`, before the exchanges. -/
def protectedIds (payload : CasePayload Score) (entries : List (Entry Score)) (kept : List (Option String))
    (required : List String) : List (Option String) :=
  entries.head?.toList.map Entry.chunkId ++ (entries.filter (promoted s)).map Entry.chunkId ++
    ((required.filter fun keyword => !(compact f keyword).isEmpty).filterMap (protectedDonor f s entries)).map Entry.chunkId ++
    ((anchorsOf f s payload).filter fun anchor => some anchor.1 ∈ kept && 1 ≤ anchor.2.core).map fun anchor => some anchor.1

/-- `coverage(ids)`: the indices of the groups some chunk of these IDs matches. -/
def coverage (groups : List (List String)) (entries : List (Entry Score)) (ids : List (Option String)) : List Nat :=
  (List.range groups.length).filter fun group =>
    entries.any fun entry => entry.chunkId ∈ ids && group ∈ summaryIntentMatches f groups entry

/-- What the exchanges read and do not change. -/
structure Exchange (Score : Type) where
  entries : List (Entry Score)
  groups : List (List String)
  protectedIds : List (Option String)

/-- `kept_ids` with one ID exchanged for another. -/
def exchange (kept : List (Option String)) (victim anchor : Option String) : List (Option String) :=
  kept.filter (· ≠ victim) ++ [anchor]

/-- The removable chunk whose removal loses the fewest groups, then the one of the least score, then the last. -/
def victim (x : Exchange Score) (kept : List (Option String)) (anchor : Option String) : Option (Entry Score) :=
  let removable := x.entries.zipIdx.filter fun c => c.1.chunkId ∈ kept && c.1.chunkId ∉ x.protectedIds
  let ranked := removable.map fun c =>
    (((coverage f x.groups x.entries kept).filter fun group =>
        group ∉ coverage f x.groups x.entries (exchange kept c.1.chunkId anchor)).length, c)
  (greatest (fun a b =>
      if a.1 ≠ b.1 then a.1 < b.1
      else if !s.same (numericScore s a.2.1) (numericScore s b.2.1) then s.above (numericScore s b.2.1) (numericScore s a.2.1)
      else b.2.2 < a.2.2) ranked).map fun c => c.2.1

/-- The body of the loop over the anchors. -/
def exchangeStep (x : Exchange Score) (kept : List (Option String)) (anchor : Option String) : List (Option String) :=
  if anchor ∈ kept ∨ anchor ∉ x.entries.map Entry.chunkId then kept
  else if kept.length < summaryTarget then kept ++ [anchor]
  else match victim f s x kept anchor with
    | none => kept
    | some entry => exchange kept entry.chunkId anchor

/-- `sorted(anchors.items(), key=lambda item: item[1], reverse=True)`. -/
def sortedAnchors (payload : CasePayload Score) : List (Option String) :=
  (Ranking.descending (fun p q => p.above s q = false) Prod.snd (anchorsOf f s payload)).map fun anchor => some anchor.1

/-- What the exchanges of a case start from. -/
def exchangeOf (payload : CasePayload Score) (required : List String) : Exchange Score :=
  let entries := collectEntries payload
  { entries := entries
    groups := summaryIntentGroups f payload
    protectedIds := protectedIds f s payload entries (keptIds (packSummaryIntentFirst f s payload required).kept) required }

/-- `_pack_summary_with_direct_anchors`. -/
def packSummaryWithDirectAnchors (payload : CasePayload Score) (required : List String) : PackedContext Score :=
  let base := packSummaryIntentFirst f s payload required
  let entries := collectEntries payload
  if entries.isEmpty then ⟨[], [], []⟩
  else
    restore entries ((sortedAnchors f s payload).foldl (exchangeStep f s (exchangeOf f s payload required)) (keptIds base.kept))
      base.uncoveredKeywords

/-- `pack_case_context`, under a route-aware strategy. -/
def packCaseContext (payload : CasePayload Score) (required : List String) (strategy : Strategy) : PackedContext Score :=
  if strategy = .routeAwareV3 ∧ payload.category = "summary" then packSummaryIntentFirst f s payload required
  else if strategy = .routeAwareV4 ∧ payload.category = "summary" then packSummaryWithDirectAnchors f s payload required
  else packRouteAware f s payload required

end Packers

end ContextPacking
