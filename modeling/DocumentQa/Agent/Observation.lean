import DocumentQa.Agent.Evaluation
import DocumentQa.Evaluation.Evidence
import DocumentQa.Lib.Json.Text
import DocumentQa.Lib.Regex
import DocumentQa.Lib.Shrinking

/-!
# Projections of tool output

`project_observation` turns the output of a tool into a bounded observation: records of
canonical identities, checked scores and redacted excerpts. While its JSON text is larger than
the budget, the excerpt of the last record, the record itself and, behind the records, the last
stage are dropped. The word characters of Python's Unicode tables and the number texts of the
JSON encoder are parameters.
-/

namespace Agent.Observation

open Python JsonText Regex

structure TextTables where
  /-- `\w` -/
  isWord : Char → Bool
  /-- The text of a finite float. -/
  number : Double → List Char

inductive ProjectionError where
  | integrity (message : String)
  | limit (message : String)
deriving DecidableEq

/-! ## Patterns -/

/-- `\b`. -/
def TextTables.boundary (T : TextTables) : Regex Char String :=
  look fun before rest => before.any T.isWord != rest.head?.any T.isWord

/-- A text in lower case, compiled with `re.IGNORECASE`. -/
def anyCase (text : String) : Regex Char String :=
  word (fun p c => if p.isLower then matchesIgnoringCase p c else c == p) text.toList

/-- `\s*` -/
def blanks : Regex Char String :=
  many false (unit isSpace)

/-- One of the characters. -/
def among (choices : List Char) : Regex Char String :=
  unit choices.contains

/-- `[^\s,;]`. -/
def valueChar : Regex Char String :=
  unit fun c => !isSpace c && !([',', ';'].contains c)

/-- `[A-Z]` and `[a-z]`, compiled with `re.IGNORECASE`. -/
def isLetter (c : Char) : Bool :=
  c.isAlpha || [0x130, 0x131, 0x17F, 0x212A].contains c.toNat

/-- `\bbearer\s+` -/
def TextTables.bearer (T : TextTables) : Regex Char String :=
  cat [T.boundary, anyCase "bearer", plus (unit isSpace)]

/-- `\bauthorization\s*:` -/
def TextTables.authorization (T : TextTables) : Regex Char String :=
  cat [T.boundary, anyCase "authorization", blanks, among [':']]

/-- `\b(?:groq_)?api[_-]?key\d*\s*[:=]` -/
def TextTables.apiKey (T : TextTables) : Regex Char String :=
  cat [T.boundary, opt (anyCase "groq_"), anyCase "api", opt (among ['_', '-']), anyCase "key", many false (unit Evidence.isDecimal),
    blanks, among [':', '=']]

/-- `\blocal_workspace_token\s*[:=]` -/
def TextTables.workspaceToken (T : TextTables) : Regex Char String :=
  cat [T.boundary, anyCase "local_workspace_token", blanks, among [':', '=']]

/-- `\bsk-[A-Za-z0-9_-]{8,}`, the letters given. -/
def TextTables.secretKey (T : TextTables) (sk : Regex Char String) (letter : Char → Bool) : Regex Char String :=
  let c := unit fun c => letter c || c.isDigit || ['_', '-'].contains c
  cat [T.boundary, sk, times 8 c, many false c]

/-- `_MACHINE_PATH`. -/
def TextTables.machinePath (T : TextTables) : Regex Char String :=
  oneOf [cat [T.boundary, unit isLetter, among [':'], among ['\\', '/']], anyCase "/home/", anyCase "/users/", anyCase "file://"]

/-- `_CREDENTIAL`. -/
def TextTables.credential (T : TextTables) : Regex Char String :=
  oneOf [T.authorization, cat [T.bearer, plus (unit fun c => !isSpace c)], T.apiKey, T.workspaceToken,
    T.secretKey (anyCase "sk-") isLetter]

/-- `contains_sensitive_text`. -/
def TextTables.containsSensitiveText (T : TextTables) (value : String) : Bool :=
  T.credential.found value.toList || T.machinePath.found value.toList

/-- `_REDACTIONS`. -/
def TextTables.redactions (T : TextTables) : List (Regex Char String × String) :=
  [(cat [T.bearer, plus valueChar], "[redacted credential]"),
    (cat [T.authorization, blanks, plus valueChar, opt (cat [plus (unit isSpace), plus valueChar])], "[redacted credential]"),
    (cat [T.apiKey, blanks, plus valueChar], "[redacted credential]"),
    (cat [T.workspaceToken, blanks, plus valueChar], "[redacted credential]"),
    (T.secretKey (word (· == ·) "sk-".toList) Char.isAlpha, "[redacted credential]"),
    (cat [T.machinePath, many false valueChar], "[redacted path]")]

/-- `_safe_text`. -/
def TextTables.safeText (T : TextTables) (value : Option String) (limit : Nat) : String × Bool :=
  let given := (value.getD "").toList
  let text := T.redactions.foldl (fun text redaction => redaction.1.replace redaction.2.toList text) given
  (String.ofList (text.take limit), decide (limit < text.length) || !decide (text = given))

/-! ## Tool output -/

structure DiscoveryHit where
  documentId : String
  chunkId : String
  score : Double
  snippet : String

inductive DiscoveryItem where
  | group (hits : List DiscoveryHit)
  | hit (hit : DiscoveryHit)

structure DiscoverySnapshotResponse where
  searchId : String
  engineKey : String
  items : List DiscoveryItem
  total : Nat

structure RetrievalCandidate where
  chunkId : String
  documentId : Option String
  citation : Option String
  textPreview : String
  bm25Score : Option Double
  denseScore : Option Double
  rrfScore : Option Double
  crossEncoderScore : Option Double

inductive StageStatus where
  | executed
  | skipped
  | notExecuted
deriving DecidableEq

def StageStatus.text : StageStatus → String
  | .executed => "executed"
  | .skipped => "skipped"
  | .notExecuted => "not_executed"

/-- A stage of a trace, and the fact about it. -/
structure StageFact where
  name : String
  status : StageStatus
  elapsedMs : Option Double
deriving DecidableEq

structure RetrievalTrace where
  candidates : List RetrievalCandidate
  stages : List StageFact
  candidateCount : Int

structure DocumentChunkPreview where
  chunkId : Option String
  textPreview : String

structure DocumentObservation where
  documentId : String
  items : List DocumentChunkPreview
  total : Int

inductive ScoreKind where
  | retrieval
  | crossEncoder
  | rrf
  | unknown

def ScoreKind.text : ScoreKind → String
  | .retrieval => "retrieval"
  | .crossEncoder => "cross_encoder"
  | .rrf => "rrf"
  | .unknown => "unknown"

structure SourceChunk where
  citation : String
  score : Double
  textPreview : String
  chunkId : Option String
  documentId : Option String
  rank : Option Int
  scoreKind : Option ScoreKind
  rerankerScore : Option Double

structure QueryResponse where
  sources : List SourceChunk
  numChunksRetrieved : Int

inductive ToolData where
  | discovery (data : DiscoverySnapshotResponse)
  | retrieval (trace : RetrievalTrace)
  | document (data : DocumentObservation)
  | query (data : QueryResponse)

structure ToolObservation where
  toolName : String
  data : ToolData

/-! ## Observations -/

structure EvidenceRecord where
  documentId : Option String := none
  chunkId : Option String := none
  sourceLabel : Option String := none
  citation : Option String := none
  scoreKind : Option String := none
  scores : List (String × Option Double) := []
  excerpt : String := ""
deriving DecidableEq

structure AgentObservation where
  toolName : String
  searchId : Option String
  evidence : List EvidenceRecord
  stages : List StageFact
  reportedItems : Int
  truncated : Bool
deriving DecidableEq

def textJson (value : Option String) : Json :=
  (value.map Json.str).getD .null

def floatJson (value : Option Double) : Json :=
  (value.map Json.float).getD .null

def EvidenceRecord.json (r : EvidenceRecord) : Json :=
  .obj [("document_id", textJson r.documentId), ("chunk_id", textJson r.chunkId), ("source_label", textJson r.sourceLabel),
    ("citation", textJson r.citation), ("score_kind", textJson r.scoreKind),
    ("scores", .obj (r.scores.map fun s => (s.1, floatJson s.2))), ("excerpt", .str r.excerpt)]

def StageFact.json (s : StageFact) : Json :=
  .obj [("name", .str s.name), ("status", .str s.status.text), ("elapsed_ms", floatJson s.elapsedMs)]

def AgentObservation.json (o : AgentObservation) : Json :=
  .obj [("tool_name", .str o.toolName), ("content_trust", .str "untrusted_data"), ("search_id", textJson o.searchId),
    ("evidence", .arr (o.evidence.map EvidenceRecord.json)), ("stages", .arr (o.stages.map StageFact.json)),
    ("reported_items", .int o.reportedItems), ("truncated", .bool o.truncated)]

/-- `len(projected.model_dump_json().encode("utf-8"))`. -/
def AgentObservation.size (T : TextTables) (o : AgentObservation) : Nat :=
  utf8Length (String.ofList ((⟨T.number, []⟩ : Printer).text o.json))

/-!
## `_extract`

The error is the message of the `ObservationIntegrityError`.
-/

/-- The arguments of `_record`. -/
structure SourceItem where
  documentId : Option String := none
  chunkId : Option String := none
  sourceLabel : Option String := none
  citation : Option String := none
  scoreKind : Option String := none
  scores : List (String × Option Double) := []
  excerpt : String := ""

/-- `_scores` returns. -/
def finiteScores (scores : List (String × Option Double)) : Bool :=
  scores.all fun score => score.2.all Double.isFinite

/-- `_canonical`. -/
def canonical (kind : EvidenceKind) (value : Option String) : Except String (Option String) :=
  if value.all kind.accepts then .ok value else .error "invalid canonical identity"

/-- `_record`, its scores checked first. -/
def record (T : TextTables) (item : SourceItem) (excerptLimit : Nat) : Except String (EvidenceRecord × Bool) := do
  Checked.require (finiteScores item.scores = true) "non-finite source score"
  Checked.require (item.scoreKind.all (fun kind => kind.length ≤ 64 && !T.containsSensitiveText kind) = true)
    "unsafe score family"
  let (boundedExcerpt, truncated) := T.safeText (some item.excerpt) excerptLimit
  let (boundedCitation, citationTruncated) := T.safeText item.citation 256
  let canonicalDocumentId ← canonical .documentId item.documentId
  let canonicalChunkId ← canonical .chunkId item.chunkId
  Checked.require (canonicalChunkId.all (sourcePairFits canonicalDocumentId) = true) "conflicting source identity"
  pure ({ documentId := canonicalDocumentId
          chunkId := canonicalChunkId
          sourceLabel := item.sourceLabel
          citation := if boundedCitation = "" then none else some boundedCitation
          scoreKind := item.scoreKind
          scores := item.scores
          excerpt := boundedExcerpt }, truncated || citationTruncated)

def DiscoveryItem.hits : DiscoveryItem → List DiscoveryHit
  | .group hits => hits
  | .hit single => [single]

def DiscoveryHit.item (engineKey : String) (hit : DiscoveryHit) : SourceItem where
  documentId := some hit.documentId
  chunkId := some hit.chunkId
  scoreKind := some engineKey
  scores := [("score", some hit.score)]
  excerpt := hit.snippet

def RetrievalCandidate.item (candidate : RetrievalCandidate) : SourceItem where
  documentId := candidate.documentId
  chunkId := some candidate.chunkId
  citation := candidate.citation
  scores := [("bm25_score", candidate.bm25Score), ("dense_score", candidate.denseScore), ("rrf_score", candidate.rrfScore),
    ("cross_encoder_score", candidate.crossEncoderScore)]
  excerpt := candidate.textPreview

def DocumentChunkPreview.item (documentId : String) (chunk : DocumentChunkPreview) : SourceItem where
  documentId := some documentId
  chunkId := chunk.chunkId
  excerpt := chunk.textPreview

/-- `f"[Source {rank}]"` for a positive rank. -/
def sourceLabel (rank : Option Int) : Option String :=
  (rank.filter fun r => 0 < r).map fun r => "[Source " ++ String.ofList (intText r) ++ "]"

def SourceChunk.item (source : SourceChunk) : SourceItem where
  documentId := source.documentId
  chunkId := source.chunkId
  sourceLabel := sourceLabel source.rank
  citation := some source.citation
  scoreKind := source.scoreKind.map ScoreKind.text
  scores := [("score", some source.score), ("reranker_score", source.rerankerScore)]
  excerpt := source.textPreview

structure Extracted where
  searchId : Option String := none
  records : List EvidenceRecord
  stages : List StageFact := []
  reportedItems : Int
  truncated : Bool

/-- The records of the first items, and whether something was cut. -/
def records (T : TextTables) (limits : AgentLimits) (items : List SourceItem) :
    Except String (List EvidenceRecord × Bool) := do
  let kept ← Checked.collect (record T · limits.maxExcerptChars) (items.take limits.maxEvidencePerObservation)
  pure (kept.map Prod.fst, kept.any Prod.snd || decide (limits.maxEvidencePerObservation < items.length))

/-- The first stages, checked. -/
def stageFacts (T : TextTables) (stages : List StageFact) : Except String (List StageFact) := do
  let facts := stages.take 8
  Checked.require (facts.all (fun s => s.name.length ≤ 64 && !T.containsSensitiveText s.name) = true) "unsafe stage name"
  Checked.require (facts.all (fun s => s.elapsedMs.all Double.isFinite) = true) "non-finite stage timing"
  pure facts

/-- `_extract`. -/
def extract (T : TextTables) (limits : AgentLimits) : ToolData → Except String Extracted
  | .discovery data => do
    let searchId ← canonical .searchId (some data.searchId)
    let hits := data.items.flatMap DiscoveryItem.hits
    let (records, truncated) ← records T limits (hits.map (DiscoveryHit.item data.engineKey))
    pure { searchId, records, reportedItems := data.total, truncated }
  | .retrieval trace => do
    let (records, truncated) ← records T limits (trace.candidates.map RetrievalCandidate.item)
    let stages ← stageFacts T trace.stages
    pure { records, stages, reportedItems := trace.candidateCount, truncated := truncated || decide (8 < trace.stages.length) }
  | .document data =>
    if data.items.isEmpty then do
      let documentId ← canonical .documentId (some data.documentId)
      pure { records := [{ documentId }], reportedItems := data.total, truncated := false }
    else do
      let (records, truncated) ← records T limits (data.items.map (DocumentChunkPreview.item data.documentId))
      pure { records, reportedItems := data.total, truncated }
  | .query data => do
    let (records, truncated) ← records T limits (data.sources.map SourceChunk.item)
    pure { records, reportedItems := data.numChunksRetrieved, truncated }

/-! ## `project_observation` -/

/-- What one round of the loop drops, `none` where it raises. -/
def AgentObservation.shrink (o : AgentObservation) : Option AgentObservation :=
  match o.evidence.getLast? with
  | some last =>
    if last.excerpt ≠ "" then
      some { o with truncated := true, evidence := o.evidence.dropLast ++ [{ last with excerpt := "" }] }
    else some { o with truncated := true, evidence := o.evidence.dropLast }
  | none =>
    if o.stages.isEmpty then none else some { o with truncated := true, stages := o.stages.dropLast }

/-- Each round lowers it. -/
def AgentObservation.weight (o : AgentObservation) : Nat :=
  2 * o.evidence.length + (o.evidence.getLast?.elim 0 fun last => if last.excerpt = "" then 0 else 1) + o.stages.length

/-- `project_observation`. -/
def projectObservation (T : TextTables) (observation : ToolObservation) (limits : AgentLimits) (remainingBytes : Int) :
    Except ProjectionError AgentObservation := do
  let budget := min (limits.maxObservationBytes : Int) remainingBytes
  let { searchId, records, stages, reportedItems, truncated } ← (extract T limits observation.data).mapError .integrity
  let projected : AgentObservation :=
    { toolName := observation.toolName, searchId, evidence := records, stages, reportedItems, truncated }
  Checked.orRaise (Shrinking.fit AgentObservation.shrink (fun o => decide ((o.size T : Int) ≤ budget)) projected.weight projected)
    (.limit "minimum observation exceeds byte budget")

end Agent.Observation
