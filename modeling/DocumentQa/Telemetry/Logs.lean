import DocumentQa.Jobs.Contract
import DocumentQa.Jobs.Model
import DocumentQa.Lib.Base64
import DocumentQa.Lib.Json.Ascii
import DocumentQa.Lib.Ranking
import DocumentQa.Lib.Utf8
import DocumentQa.Python.Datetime
import Mathlib.Data.Prod.Lex
import Mathlib.Data.String.Basic

/-!
# Operational logs

Terminal requests are rows of `telemetry_events`, terminal jobs are rows of `jobs`. `logs`
reads a bounded candidate page of each behind a cursor, merges them by time and identity,
newest first, and issues a cursor that names the last record of a page which is not the last.
-/

namespace Telemetry

open Python JsonText Jobs

/-! ## Errors and limits -/

inductive ErrorKind where
  | validation
  | data
deriving DecidableEq, Repr

/-- `TelemetryValidationError` or `TelemetryDataError`. -/
structure TelemetryError where
  kind : ErrorKind
  message : String
deriving DecidableEq, Repr

def validationError (message : String) : TelemetryError :=
  ⟨.validation, message⟩

def dataError (message : String) : TelemetryError :=
  ⟨.data, message⟩

def telemetryRetentionDays : Nat := 30
def logRetentionDays : Nat := 7
def maxMetadataBytes : Nat := 2048
def maxDurationMs : Rat := 86400000
def maxLogLimit : Nat := 100
def maxCursorChars : Nat := 512

/-! ## Rows and records -/

/-- The values the `subsystem` column admits. -/
inductive TelemetrySubsystem where
  | api
  | query
  | search
  | retrieval
deriving DecidableEq, Repr

/-- The values the `severity` column admits. -/
inductive TelemetrySeverity where
  | info
  | warning
  | error
deriving DecidableEq, Repr

inductive LogCategory where
  | request
  | job
deriving DecidableEq, Repr

def TelemetrySubsystem.text : TelemetrySubsystem → String
  | .api => "api"
  | .query => "query"
  | .search => "search"
  | .retrieval => "retrieval"

/-- A row of `telemetry_events`. -/
structure TelemetryRow where
  telemetryId : String
  eventName : String
  routeTemplate : Option String
  capability : Option String
  status : String
  durationMs : Option Rat
  occurredAt : String
  retentionUntil : String
  subsystem : TelemetrySubsystem
  severity : TelemetrySeverity
  correlationId : Option String
  errorCode : Option String
  metadataJson : String
deriving DecidableEq

structure OperationalLogRecord where
  recordId : String
  occurredAt : String
  category : LogCategory
  level : TelemetrySeverity
  kind : String
  subsystem : String
  outcome : String
  correlationId : String
  domainId : Option String
  routeTemplate : Option String
  errorCode : Option String
  durationMs : Option Rat
  metadata : JsonObject

structure OperationalLogPage where
  items : List OperationalLogRecord
  nextCursor : Option String
  hasMore : Bool
  limit : Nat

/-- The two tables. -/
structure Tables where
  events : List TelemetryRow
  jobs : List JobRow

/-! ## Checks of texts -/

/-- `_OPAQUE_ID`. -/
def opaqueId : NamePattern :=
  ⟨isAlnum, fun c => isAlnum c || c = '.' || c = '_' || c = ':' || c = '-', 128⟩

/-- `[A-Za-z0-9][A-Za-z0-9_-]{0,123}`. -/
def telemetrySuffix : NamePattern :=
  ⟨isAlnum, fun c => isAlnum c || c = '_' || c = '-', 124⟩

/-- `_TELEMETRY_ID`. -/
def isTelemetryId (value : String) : Bool :=
  value.toList.take 4 = "tel_".toList && telemetrySuffix.fullmatch (String.ofList (value.toList.drop 4))

/-- `_SAFE_CODE`. -/
def safeCode : NamePattern :=
  ⟨isLower, fun c => isLowerAlnum c || c = '_', 64⟩

/-- `_ROUTE_PROFILES`. -/
def routeProfiles : List (String × TelemetrySubsystem × String) :=
  [("/query", .query, "provider_backed"), ("/query/decomposed", .query, "provider_backed"),
    ("/query/stream", .query, "provider_backed"), ("/query/decomposed/stream", .query, "provider_backed"),
    ("/search", .search, "public_provider_free"), ("/retrieval/inspect", .retrieval, "public_provider_free")]

/-- `_OUTCOMES`. -/
def outcomes : List String :=
  ["succeeded", "rejected", "failed", "cancelled", "interrupted"]

/-- `_ALLOWED_METADATA`. -/
def allowedMetadata : List String :=
  ["http_method", "streaming", "decomposed", "status_code"]

/-- `_CREDENTIAL_PREFIX`. -/
def startsLikeCredential (value : String) : Bool :=
  (["sk-", "ghp_", "github_pat_", "aiza"].any fun word => (dropWord word.toList value.toList).isSome) ||
    match dropWord "xox".toList value.toList with
    | some (c :: '-' :: _) => "baprs".toList.any fun letter => matchesIgnoringCase letter c
    | _ => false

/-- `_reject_sensitive_text`: what the text cannot contain. -/
def sensitiveText (forbidden : List String) (value : String) : Option String :=
  if value.toList.any (fun c => c.toNat < 32 || c.toNat = 127) then some " contains control characters"
  else if looksAbsolutePath value then some " cannot contain an absolute path"
  else if mentionsCredential value || startsLikeCredential value then some " cannot contain credential-shaped text"
  else if forbidden.any (fun secret => value = secret || (8 ≤ secret.length && isInfix secret.toList value.toList)) then
    some " cannot contain configured secret values"
  else none

/-! ## Times -/

/-- `_format_utc`, of microseconds since 1970. -/
def formatUtc (instant : Nat) : String :=
  isoText true instant

/-- `utcoffset()` of what `datetime.fromisoformat` reads, `none` for a naive value. -/
def utcOffset (cs : List Char) : Option Int := do
  let separator ← findSeparator cs
  let clock := cs.drop (separator + 1)
  if clock.any isZoneMark then (parseTime clock).map Prod.snd else none

/-- `_parse_utc`. -/
def parseUtc (value label : String) : Except TelemetryError Int := do
  Checked.require (value.toList.getLast? = some 'Z' ∧ value.toList.length ≤ 40)
    (validationError (label ++ " must be a bounded UTC timestamp"))
  let text := value.toList.dropLast ++ "+00:00".toList
  let parsed ← Checked.orRaise (fromisoformat text) (validationError (label ++ " must be a valid UTC timestamp"))
  Checked.require (utcOffset text = some 0) (validationError (label ++ " must use UTC"))
  pure parsed

/-- A clock that `_parse_utc` takes, late enough for a week before it. -/
structure Instant where
  micros : Nat
  late : logRetentionDays * dayMicros ≤ micros
  dated : micros < maxMicros

/-- `_format_utc(ended_at)` and `_format_utc(ended_at - timedelta(days=LOG_RETENTION_DAYS))`. -/
def Instant.endedAt (now : Instant) : String :=
  formatUtc now.micros

def Instant.startedAt (now : Instant) : String :=
  formatUtc (now.micros - logRetentionDays * dayMicros)

/-! ## Cursors -/

/-- `_encode_cursor`. -/
def encodeCursor (occurredAt recordId : String) : String :=
  String.ofList (Base64.unpadded (Base64.encode (Utf8.encode (asciiStrings [occurredAt, recordId]))))

/-- `json.loads(base64.b64decode(...))`. -/
def decodeText (value : String) : Option Json := do
  let raw ← Base64.decode (Base64.padded value.toList)
  if Utf8.encode (Utf8.decode raw) = raw then loads (Utf8.decode raw) else none

/-- `_decode_cursor`. -/
def decodeCursor (value : String) : Except TelemetryError (String × String) := do
  Checked.require (value ≠ "" ∧ value.toList.length ≤ maxCursorChars) (validationError "log cursor is invalid")
  match decodeText value with
  | some (.arr [.str occurredAt, .str recordId]) =>
    let _ ← parseUtc occurredAt "log cursor timestamp"
    Checked.require (opaqueId.fullmatch recordId = true) (validationError "log cursor identity is invalid")
    pure (occurredAt, recordId)
  | _ => .error (validationError "log cursor is invalid")

/-! ## Requests -/

/-- `_decode_metadata`. -/
def decodeMetadata (raw : String) : Except TelemetryError JsonObject := do
  let malformed := dataError "persisted telemetry metadata is malformed"
  Checked.require (utf8Length raw ≤ maxMetadataBytes) malformed
  let value ← Checked.orRaise (loadsObject raw) malformed
  Checked.require (∀ field ∈ value.fields, field.1 ∈ allowedMetadata) malformed
  pure value

/-- The identity and the times of a row, as `_record_from_row` checks them. -/
def checkIdentity (forbidden : List String) (row : TelemetryRow) : Except TelemetryError Unit := do
  Checked.require (isTelemetryId row.telemetryId = true) (validationError "telemetry ID is invalid")
  Checked.require (opaqueId.fullmatch (row.correlationId.getD "None") = true)
    (validationError "telemetry correlation ID must be a bounded opaque identifier")
  match sensitiveText forbidden (row.correlationId.getD "None") with
  | some reason => .error (validationError ("telemetry correlation ID" ++ reason))
  | none =>
    let occurred ← parseUtc row.occurredAt "telemetry occurrence"
    let retained ← parseUtc row.retentionUntil "telemetry retention"
    Checked.require (retained = occurred + telemetryRetentionDays * dayMicros)
      (validationError "telemetry retention boundary is invalid")

/-- The log record of a row. -/
def TelemetryRow.record (row : TelemetryRow) (metadata : JsonObject) : OperationalLogRecord where
  recordId := row.telemetryId
  occurredAt := row.occurredAt
  category := .request
  level := row.severity
  kind := "request_terminal"
  subsystem := row.subsystem.text
  outcome := row.status
  correlationId := row.correlationId.getD "None"
  domainId := none
  routeTemplate := some (row.routeTemplate.getD "None")
  errorCode := row.errorCode
  durationMs := row.durationMs
  metadata := metadata

/-- `_record_from_row`, and the log record made of what it returns. -/
def recordFromRow (forbidden : List String) (row : TelemetryRow) : Except TelemetryError OperationalLogRecord := do
  Checked.require (row.subsystem ≠ .api ∧ row.status ∈ outcomes) (dataError "persisted telemetry enum is invalid")
  Checked.require (routeProfiles.lookup (row.routeTemplate.getD "None") = some (row.subsystem, row.capability.getD "None"))
    (dataError "persisted telemetry source binding is invalid")
  match checkIdentity forbidden row with
  | .error _ => .error (dataError "persisted telemetry identity or time is invalid")
  | .ok _ =>
    Checked.require (∀ duration, row.durationMs = some duration → 0 ≤ duration ∧ duration ≤ maxDurationMs)
      (dataError "persisted telemetry duration is invalid")
    Checked.require (row.errorCode.all safeCode.fullmatch = true) (dataError "persisted telemetry error code is invalid")
    let metadata ← decodeMetadata row.metadataJson
    pure (row.record metadata)

/-- `prune_expired`. -/
def Tables.prune (t : Tables) (now : Instant) : Tables :=
  { t with events := t.events.filter fun row => now.endedAt < row.retentionUntil }

/-- `(occurred_at, record_id)`, as a page is sorted by it. -/
abbrev Key := Lex (String × String)

def key (occurredAt recordId : String) : Key :=
  toLex (occurredAt, recordId)

def OperationalLogRecord.key (r : OperationalLogRecord) : Key :=
  Telemetry.key r.occurredAt r.recordId

def TelemetryRow.key (row : TelemetryRow) : Key :=
  Telemetry.key row.occurredAt row.telemetryId

/-- `(occurred_at < ? OR (occurred_at = ? AND record_id < ?))`, of no cursor always. -/
def behind (cursor : Option (String × String)) (occurredAt recordId : String) : Bool :=
  cursor.all fun c => occurredAt < c.1 || (occurredAt = c.1 && recordId < c.2)

/-- The clauses of `request_log_candidates` but the cursor's. -/
def TelemetryRow.selected (now : Instant) (level : Option TelemetrySeverity) (row : TelemetryRow) : Bool :=
  row.eventName = "request_terminal" && now.startedAt ≤ row.occurredAt && row.occurredAt < now.endedAt &&
    now.endedAt < row.retentionUntil && level.all (row.severity = ·)

/-- `request_log_candidates`, of tables that are pruned. -/
def Tables.requestLogCandidates (t : Tables) (forbidden : List String) (now : Instant) (level : Option TelemetrySeverity)
    (cursor : Option (String × String)) (limit : Nat) : Except TelemetryError (List OperationalLogRecord) :=
  let rows := t.events.filter fun row => row.selected now level && behind cursor row.occurredAt row.telemetryId
  Checked.collect (recordFromRow forbidden) ((Ranking.descending (· ≤ ·) TelemetryRow.key rows).take limit)

/-! ## Jobs -/

/-- `_severity_for_job`, and the `CASE` of `job_log_candidates`. -/
def severityForJob (state : JobState) (failureCode : Option String) : TelemetrySeverity :=
  if state = .failed ∧ failureCode ≠ some "budget_exhausted" then .error
  else if state = .interrupted ∨ failureCode = some "budget_exhausted" then .warning
  else .info

def namespaceText : JobNamespace → String
  | .pipeline => "pipeline"
  | .evaluation => "evaluation"
  | .modelTest => "model_test"
  | .agent => "agent"

/-- `'job:' || job_id || ':' || revision`. -/
def jobRecordId (row : JobRow) : String :=
  String.ofList ("job:".toList ++ row.jobId.toList ++ ':' :: natText row.revision)

/-- `finished_at`, of rows where it is not null. -/
def finishedAt (row : JobRow) : String :=
  row.finishedAt.getD ""

def jobKey (row : JobRow) : Key :=
  key (finishedAt row) (jobRecordId row)

/-- The clauses of `job_log_candidates` but the cursor's. -/
def jobSelected (now : Instant) (level : Option TelemetrySeverity) (row : JobRow) : Bool :=
  row.state.terminal && row.jobNamespace ≠ .agent && row.finishedAt.isSome && now.startedAt ≤ finishedAt row &&
    finishedAt row < now.endedAt && level.all (severityForJob row.state row.failureCode = ·)

/-- The log record of a terminal job. -/
def jobRecord (row : JobRow) : OperationalLogRecord where
  recordId := jobRecordId row
  occurredAt := finishedAt row
  category := .job
  level := severityForJob row.state row.failureCode
  kind := "job_terminal"
  subsystem := namespaceText row.jobNamespace
  outcome := row.state.text
  correlationId := row.jobId
  domainId := some row.jobId
  routeTemplate := none
  errorCode := row.failureCode
  durationMs := none
  metadata := ⟨[], JsonObject.distinct_nil⟩

/-- The projection of a terminal job. -/
def projectJob (row : JobRow) : Except TelemetryError OperationalLogRecord := do
  Checked.require (opaqueId.fullmatch row.jobId = true ∧ row.failureCode.all safeCode.fullmatch = true)
    (dataError "persisted terminal job projection is invalid")
  pure (jobRecord row)

/-- `job_log_candidates`. -/
def Tables.jobLogCandidates (t : Tables) (now : Instant) (level : Option TelemetrySeverity)
    (cursor : Option (String × String)) (limit : Nat) : Except TelemetryError (List OperationalLogRecord) :=
  let rows := t.jobs.filter fun row => jobSelected now level row && behind cursor (finishedAt row) (jobRecordId row)
  Checked.collect projectJob ((Ranking.descending (· ≤ ·) jobKey rows).take limit)

/-! ## Pages -/

/-- The filters and the page size of a request. -/
structure LogRequest where
  category : Option LogCategory
  level : Option TelemetrySeverity
  limit : Nat

/-- The page of the merged candidates. -/
def pageOf (combined : List OperationalLogRecord) (limit : Nat) : OperationalLogPage :=
  let sorted := Ranking.descending (· ≤ ·) OperationalLogRecord.key combined
  let hasMore : Bool := limit < sorted.length
  let items := sorted.take limit
  let nextCursor := if hasMore then items.getLast?.map fun last => encodeCursor last.occurredAt last.recordId else none
  ⟨items, nextCursor, hasMore, limit⟩

/-- The checks `logs` makes before it reads: the cursor's value. -/
def checkRequest (request : LogRequest) (cursor : Option String) : Except TelemetryError (Option (String × String)) := do
  Checked.require (1 ≤ request.limit ∧ request.limit ≤ maxLogLimit) (validationError "log limit is out of bounds")
  match cursor with
  | none => pure none
  | some cursor => (decodeCursor cursor).map some

/-- The candidates of the sources that the category admits. -/
def Tables.combined (t : Tables) (forbidden : List String) (now : Instant) (request : LogRequest)
    (cursor : Option (String × String)) : Except TelemetryError (List OperationalLogRecord) :=
  let requestLogs := if request.category ≠ some .job then
      t.requestLogCandidates forbidden now request.level cursor (request.limit + 1)
    else .ok []
  let jobLogs := if request.category ≠ some .request then t.jobLogCandidates now request.level cursor (request.limit + 1)
    else .ok []
  do
    let requests ← requestLogs
    let jobs ← jobLogs
    pure (requests ++ jobs)

/-- `TelemetryService.logs`: the tables it leaves, and what it returns. -/
def Tables.logs (t : Tables) (forbidden : List String) (now : Instant) (request : LogRequest) (cursor : Option String) :
    Tables × Except TelemetryError OperationalLogPage :=
  match checkRequest request cursor with
  | .error e => (t, .error e)
  | .ok cursor =>
    let t := if request.category ≠ some .job then t.prune now else t
    (t, (t.combined forbidden now request cursor).map fun combined => pageOf combined request.limit)

end Telemetry
