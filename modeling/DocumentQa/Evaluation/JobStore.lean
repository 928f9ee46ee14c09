import DocumentQa.Evaluation.NativeProtocol
import DocumentQa.Jobs.Repository
import DocumentQa.Lib.Json.Parse

/-!
# `EvaluationJobStore`

The evaluation tables beside the job tables: frozen artifacts, reserved provider attempts,
committed case results and stored reports. A job has its attempts by ordinal and by case and
phase, its results by case and by ordinal, and at most one report. Every mutator is one write
transaction that checks the job first.

A frozen payload names its cases by texts; an artifact is the text its UTF-8 bytes decode to.
-/

namespace EvaluationJobs

open Python SqlTable Jobs
open JsonText (Json)

/-! ## Exceptions -/

/-- The classes of the exceptions that meet in the worker. -/
inductive ErrorClass where
  | python (kind : ErrorKind)
  | attributeError
  | indexError
  | evaluationStore
  | evaluationBudgetExhausted
  | frozenPlan
  | answerCompletion
  | cancelled
  | providerFailed
  | reportFailed
deriving DecidableEq, Repr

structure Raised where
  kind : ErrorClass
  message : String
deriving DecidableEq, Repr

/-- An exception and its causes, outermost first. -/
structure Exn where
  raised : Raised
  causes : List Raised
deriving DecidableEq, Repr

/-- `raise kind(message)`. -/
def raising (kind : ErrorClass) (message : String) : Exn :=
  ⟨⟨kind, message⟩, []⟩

/-- `raise kind(message) from error`. -/
def Exn.wrapped (kind : ErrorClass) (message : String) (error : Exn) : Exn :=
  ⟨⟨kind, message⟩, error.raised :: error.causes⟩

def storeError (message : String) : Exn :=
  raising .evaluationStore message

def pythonError (e : PyError) : Exn :=
  raising (.python e.kind) e.message

/-- A call whose exceptions are Python's own. -/
def lift {α : Type} (x : Except PyError α) : Except Exn α :=
  x.mapError pythonError

/-- `except Exception as error: raise kind(message) from error`. -/
def rewrap {α : Type} (kind : ErrorClass) (message : String) : Except Exn α → Except Exn α
  | .ok a => .ok a
  | .error error => .error (error.wrapped kind message)

/-! ## Tables -/

def maxArtifactBytes : Nat := 16000000
def maxCaseResultBytes : Nat := 1200000
def maxBudget : Int := 15000

/-- What a provider is called for. -/
inductive Phase where
  | generation
  | correction
  | judging
deriving DecidableEq, Repr

/-- A row of `evaluation_artifacts`. -/
structure ArtifactRow where
  artifactDigest : String
  content : String
  byteCount : Nat

/-- A row of `evaluation_attempts`. -/
structure AttemptRow where
  jobId : String
  ordinal : Nat
  caseId : String
  phase : Phase
  attemptedAt : String
deriving DecidableEq

/-- A row of `evaluation_case_results`. -/
structure ResultRow where
  jobId : String
  ordinal : Nat
  caseId : String
  resultJson : String
  committedAt : String
deriving DecidableEq

/-- A row of `evaluation_reports`. -/
structure ReportRow where
  jobId : String
  reportJson : String
  committedAt : String
deriving DecidableEq

instance : Row ArtifactRow where
  Identity := String
  identity r := r.artifactDigest
  clash a b := a = b
  clash_comm a b := by simp only [eq_comm (a := a)]

instance : Row AttemptRow where
  Identity := String × Nat × String × Phase
  identity r := (r.jobId, r.ordinal, r.caseId, r.phase)
  clash a b := a.1 = b.1 && (a.2.1 = b.2.1 || a.2.2 = b.2.2)
  clash_comm a b := by simp only [eq_comm (a := a.1), eq_comm (a := a.2.1), eq_comm (a := a.2.2)]

instance : Row ResultRow where
  Identity := String × Nat × String
  identity r := (r.jobId, r.ordinal, r.caseId)
  clash a b := a.1 = b.1 && (a.2.1 = b.2.1 || a.2.2 = b.2.2)
  clash_comm a b := by simp only [eq_comm (a := a.1), eq_comm (a := a.2.1), eq_comm (a := a.2.2)]

instance : Row ReportRow where
  Identity := String
  identity r := r.jobId
  clash a b := a = b
  clash_comm a b := by simp only [eq_comm (a := a)]

/-- The job tables and the evaluation tables of one workspace database. -/
structure Store where
  jobs : JobStore
  artifacts : Table ArtifactRow
  attempts : Table AttemptRow
  results : Table ResultRow
  reports : Table ReportRow

namespace Store

def empty : Store :=
  ⟨.empty, .empty, .empty, .empty, .empty⟩

/-- `SELECT * FROM evaluation_attempts WHERE job_id = ?`. -/
def attemptsOf (db : Store) (jobId : String) : List AttemptRow :=
  db.attempts.select (·.jobId = jobId)

/-- `SELECT * FROM evaluation_case_results WHERE job_id = ?`. -/
def resultsOf (db : Store) (jobId : String) : List ResultRow :=
  db.results.select (·.jobId = jobId)

/-- `SELECT report_json FROM evaluation_reports WHERE job_id = ?`. -/
def report? (db : Store) (jobId : String) : Option ReportRow :=
  db.reports.find? (·.jobId = jobId)

/-- `attempted_count`. -/
def attemptedCount (db : Store) (jobId : String) : Nat :=
  (db.attemptsOf jobId).length

end Store

def integrity : Exn :=
  pythonError JobStore.integrity

/-! ## The frozen payload -/

/-- `json.loads(job["payload_json"])`, of which only an object has `get`. -/
def snapshotOf (payloadJson : Option String) : Except Exn (List (String × Json)) := do
  let text ← Checked.orRaise payloadJson (raising (.python .typeError) "the JSON object must be str, bytes or bytearray, not NoneType")
  let payload ← Checked.orRaise (Python.loads text) (pythonError (valueError "Expecting value"))
  match payload with
  | .obj fields => pure fields
  | _ => throw (raising .attributeError "object has no attribute 'get'")

/-- `snapshot.get(key, [])`. -/
def getOrEmpty (key : String) (snapshot : List (String × Json)) : Json :=
  (Json.lookup key snapshot).getD (.arr [])

/-- `snapshot[key]`. -/
def required (key : String) (snapshot : List (String × Json)) : Except Exn Json :=
  Checked.orRaise (Json.lookup key snapshot) (raising (.python .keyError) key)

/-- `case_id in container`. -/
def contains (caseId : String) : Json → Except Exn Bool
  | .arr items => pure (items.any (· = .str caseId))
  | .str text => pure (isInfix caseId.toList text.toList)
  | .obj fields => pure ((fields.map Prod.fst).contains caseId)
  | _ => throw (raising (.python .typeError) "argument is not iterable")

/-- `0 <= ordinal < len(identifiers) and identifiers[ordinal] == case_id`. -/
def named (ordinal : Int) (caseId : String) : Json → Except Exn Bool
  | .arr items => pure (0 ≤ ordinal && items[ordinal.toNat]? = some (.str caseId))
  | .str text => pure (0 ≤ ordinal && (text.toList[ordinal.toNat]?).map String.singleton = some caseId)
  | .obj fields =>
    if 0 ≤ ordinal && ordinal.toNat < fields.length then throw (raising (.python .keyError) "identifiers")
    else pure false
  | _ => throw (raising (.python .typeError) "object has no len()")

/-- The elements a loop over the value meets. -/
def elements : Json → Except Exn (List Json)
  | .arr items => pure items
  | .str text => pure (text.toList.map fun c => .str (String.singleton c))
  | .obj fields => pure (fields.map fun f => .str f.1)
  | _ => throw (raising (.python .typeError) "object is not iterable")

def hashable : Json → Bool
  | .arr _ | .obj _ => false
  | _ => true

/-- `len(cases) == len(values) and set(cases) == set(values)`. -/
def sameIds (cases : List String) (values : Json) : Except Exn Bool := do
  let items ← elements values
  if items.length = cases.length then
    Checked.require (items.all hashable = true) (raising (.python .typeError) "unhashable type")
    pure (cases.all (fun c => items.any (· = .str c)) && items.all fun item => cases.any fun c => item = .str c)
  else pure false

/-! ## Artifacts -/

/-- `json.loads(content, object_pairs_hook=_unique_object)`. -/
def loadsDistinct (text : String) : Option Json :=
  (JsonText.loadsWith { JsonText.Hooks.strict with constants := true } text.toList).filter printable

/-- `"sha256:" + hashlib.sha256(content).hexdigest()`. -/
def contentDigest (content : String) : String :=
  "sha256:" ++ Sha256.hexdigest content

/-- `register_artifact`. -/
def registerArtifact (repo : JobRepository) (content : String) (db : Store) : Except Exn (Store × String) := do
  Checked.require (content ≠ "" ∧ utf8Length content ≤ maxArtifactBytes) (storeError "frozen artifact is empty or too large")
  rewrap .evaluationStore "frozen artifact contains unsafe private data" do
    let value ← Checked.orRaise (loadsDistinct content) (pythonError (valueError "Expecting value"))
    lift (validateSafeTree repo.forbidden value)
  let digest := contentDigest content
  let artifacts := (db.artifacts.insert? ⟨digest, content, utf8Length content⟩).getD db.artifacts
  let stored ← Checked.orRaise (artifacts.find? (·.artifactDigest = digest))
    (storeError "frozen artifact digest collision or corruption")
  Checked.require (stored.content = content ∧ stored.byteCount = utf8Length content)
    (storeError "frozen artifact digest collision or corruption")
  pure ({ db with artifacts }, digest)

/-- `artifact`. -/
def artifact (digest : String) (db : Store) : Except Exn String := do
  let row ← Checked.orRaise (db.artifacts.find? (·.artifactDigest = digest)) (storeError "frozen artifact is unavailable")
  Checked.require (contentDigest row.content = digest) (storeError "frozen artifact digest mismatch")
  pure row.content

/-! ## Attempts, results and reports -/

/-- The job row when the job is an evaluation in one of the states. -/
def evaluationJob (db : Store) (jobId : String) (states : List JobState) (e : Exn) : Except Exn JobRow := do
  let job ← Checked.orRaise (db.jobs.job? jobId) e
  Checked.require (job.jobNamespace = .evaluation ∧ job.state ∈ states) e
  pure job

/-- `type(limit) is not int or not 1 <= limit <= 15000`, or the limit. -/
def budgetLimit (snapshot : List (String × Json)) : Option Int :=
  match Json.lookup "budget_limit" snapshot with
  | some (.int limit) => if 1 ≤ limit ∧ limit ≤ maxBudget then some limit else none
  | _ => none

/-- `reserve_attempt`. -/
def reserveAttempt (repo : JobRepository) (jobId caseId : String) (phase : Phase) (db : Store) :
    Except Exn (Store × Nat) := do
  let job ← evaluationJob db jobId [.running] (storeError "evaluation job is not executing")
  let snapshot ← snapshotOf job.payloadJson
  let mismatch := storeError "provider attempt does not match the frozen job"
  let limit ← Checked.orRaise (budgetLimit snapshot) mismatch
  let known ← contains caseId (getOrEmpty "case_ids" snapshot)
  Checked.require (known = true) mismatch
  let used := db.attemptedCount jobId
  Checked.require ((used : Int) < limit) (raising .evaluationBudgetExhausted "frozen provider attempt budget exhausted")
  Checked.require ((db.attempts.find? fun r => r.jobId = jobId && r.caseId = caseId && r.phase = phase).isNone = true)
    (storeError "provider attempt was already reserved")
  let attempts ← Checked.orRaise (db.attempts.insert? ⟨jobId, used + 1, caseId, phase, repo.clock⟩) integrity
  pure ({ db with attempts }, used + 1)

/-- `commit_case`. -/
def commitCase (repo : JobRepository) (jobId : String) (ordinal : Int) (caseId : String) (result : JsonObject) (db : Store) :
    Except Exn (Store × Unit) := do
  let encoded ← Checked.orRaise (canonicalJsonText result.json) (pythonError Native.outOfRange)
  Checked.require (utf8Length encoded ≤ maxCaseResultBytes) (storeError "private case result is too large")
  rewrap .evaluationStore "private case result contains unsafe private data"
    (lift (validateSafeTree repo.forbidden result.json))
  let job ← evaluationJob db jobId [.running, .cancelling] (storeError "evaluation job cannot commit a case")
  let snapshot ← snapshotOf job.payloadJson
  let matching ← named ordinal caseId (getOrEmpty "case_ids" snapshot)
  Checked.require (matching = true ∧ result.get? "case_id" = some (.str caseId))
    (storeError "case result does not match the frozen job")
  match db.results.find? fun r => r.jobId = jobId && r.caseId = caseId with
  | some existing =>
    Checked.require (existing.ordinal = ordinal.toNat ∧ existing.resultJson = encoded)
      (storeError "evaluation case result conflict")
    pure (db, ())
  | none => do
    let results ← Checked.orRaise (db.results.insert? ⟨jobId, ordinal.toNat, caseId, encoded, repo.clock⟩) integrity
    pure ({ db with results }, ())

/-- `ORDER BY ordinal`. -/
def ordinalOrder (a b : ResultRow) : Prop :=
  a.ordinal ≤ b.ordinal

instance : DecidableRel ordinalOrder := fun a b =>
  inferInstanceAs (Decidable (a.ordinal ≤ b.ordinal))

/-- `all_cases`. -/
def allCases (jobId : String) (db : Store) : Except Exn (List JsonObject) :=
  Checked.collect (fun row => Checked.orRaise (loadsObject row.resultJson) (pythonError (valueError "Expecting value")))
    ((db.resultsOf jobId).insertionSort ordinalOrder)

section Reports

variable (m : Native.Machine)

/-- The text `commit_report` stores, after the report was validated. -/
def reportContent (report : Native.NativeReport) : Except Exn String := do
  let content ← Checked.orRaise (Native.canonicalReport report) (pythonError Native.outOfRange)
  Checked.require (utf8Length content ≤ Native.maxReportBytes) (storeError "native report did not validate")
  let parsed ← lift (Native.parseNativeReport m (.text content))
  Checked.require (parsed = report) (storeError "native report did not validate")
  pure content

/-- Whether the report is about the frozen cases under the frozen binding. -/
def matchesFrozen (jobId : String) (snapshot : List (String × Json)) (report : Native.NativeReport) : Except Exn Bool := do
  if report.runId = jobId then
    let ids ← required "case_ids" snapshot
    let same ← sameIds (report.cases.map (·.caseId)) ids
    if same = true then
      let ours ← Checked.orRaise (canonicalJsonText (.obj report.binding.fields)) (pythonError Native.outOfRange)
      let binding ← required "binding" snapshot
      let theirs ← Checked.orRaise (canonicalJsonText binding) (pythonError Native.outOfRange)
      pure (ours = theirs)
    else pure false
  else pure false

/-- `commit_report`. -/
def commitReport (repo : JobRepository) (jobId : String) (report : Native.NativeReport) (db : Store) :
    Except Exn (Store × Unit) := do
  let content ← reportContent m report
  let job ← evaluationJob db jobId [.running, .cancelling] (storeError "evaluation job cannot commit a report")
  let snapshot ← snapshotOf job.payloadJson
  let matching ← matchesFrozen jobId snapshot report
  Checked.require (matching = true) (storeError "native report does not match the frozen job")
  match db.report? jobId with
  | some row =>
    Checked.require (row.reportJson = content) (storeError "private report conflict")
    pure (db, ())
  | none => do
    let reports ← Checked.orRaise (db.reports.insert? ⟨jobId, content, repo.clock⟩) integrity
    pure ({ db with reports }, ())

end Reports

end EvaluationJobs
