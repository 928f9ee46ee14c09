import DocumentQa.Jobs.Contract

/-!
# `SQLiteJobRepository`

The nine mutators. Each body runs inside one write transaction: a body that raises, at
whatever point, leaves the store as it was (`perform`).
-/

namespace Jobs

open Python

/-- What one call finds outside the database: the clock reading, the identifiers the
factory hands out in turn, what the failure injector does and the configured secrets. -/
structure JobRepository where
  clock : String
  idFactory : Nat → String
  failureInjector : String → String → Except PyError Unit
  secretValues : List String

namespace JobRepository

/-- `_forbidden_secret_values`. -/
def forbidden (repo : JobRepository) : List String :=
  repo.secretValues.filter (· ≠ "")

/-- `_new_id`, for the `k`-th identifier of the call. -/
def newId (repo : JobRepository) (pre : String) (k : Nat) : Except PyError String := do
  let value := pre ++ "_" ++ repo.idFactory k
  validateOpaque value (pre ++ " ID")
  pure value

end JobRepository

/-- `_assert_revision`. -/
def assertRevision (actual : Nat) (expected : Int) : Except PyError Unit := do
  Checked.require (1 ≤ expected) (valueError "expected revision must be a positive integer")
  Checked.require ((actual : Int) = expected) (conflictError "durable job revision conflict")

/-- The job row after an `UPDATE` that bumps its revision. -/
def JobRow.bumped (r : JobRow) (timestamp : String) : JobRow :=
  { r with revision := r.revision + 1, updatedAt := timestamp }

/-- The step row after an `UPDATE` of its state. -/
def StepRow.moved (r : StepRow) (state : JobStepState) (startedAt finishedAt : Option String) : StepRow :=
  { r with state, revision := r.revision + 1, startedAt, finishedAt }

/-- The step row after a bulk `UPDATE job_steps SET state = ?, finished_at = ?`. -/
def StepRow.finished (state : JobStepState) (timestamp : String) (r : StepRow) : StepRow :=
  r.moved state r.startedAt (some timestamp)

/-- `_append_event_in`; the event gets the `k`-th identifier of the call. -/
def appendEventIn (repo : JobRepository) (k : Nat) (db : JobStore) (jobId : String) (eventType : JobEventType)
    (state : JobState) (reasonCode : Option String) (progress : JobProgress) (timestamp : String) :
    Except PyError JobStore :=
  reraise [.integrityError] (conflictError "durable job event identity or sequence conflict") do
    let eventId ← repo.newId "event" k
    db.insertEvent {
      eventId, jobId, sequence := db.nextSequence jobId, eventType, state := some state, reasonCode, progress,
      occurredAt := timestamp, agentEventKey := none, agentPayloadJson := none }

/-! ## Admission -/

/-- The arguments of `create_job`. -/
structure JobRequest where
  jobNamespace : JobNamespace
  jobType : String
  idempotencyKey : String
  configurationFingerprint : String
  payload : JsonObject
  artifactReferences : List String
  steps : List String

/-- `hashlib.sha256(idempotency_key.encode("utf-8")).hexdigest()`. -/
def keyHash (idempotencyKey : String) : String :=
  Sha256.hexdigest idempotencyKey

/-- `json.dumps(artifacts, separators=(",", ":"))`; the references are ASCII. -/
def artifactsText (artifacts : List String) : String :=
  String.ofList (JsonText.pythonPrinter.text (.arr (artifacts.map .str)))

/-- The checks of `create_job` before its transaction; the canonical payload text. -/
def validateRequest (forbidden : List String) (req : JobRequest) : Except PyError String := do
  validateName req.jobType "job type"
  Checked.require (strip req.idempotencyKey ≠ "" ∧ req.idempotencyKey.length ≤ 256)
    (valueError "idempotency key is empty or too long")
  Checked.require ((req.idempotencyKey.toList.all fun c => 33 ≤ c.toNat && c.toNat ≠ 127) = true)
    (valueError "idempotency key contains whitespace or control characters")
  Checked.require (isSha256Text req.configurationFingerprint = true)
    (valueError "configuration fingerprint must be lowercase SHA-256")
  let payloadJson ← canonicalObject req.payload "job payload" maxJobPayloadBytes forbidden
  Checked.require (req.artifactReferences.length ≤ maxArtifactReferences) (limitError "too many artifact references")
  Checked.require (∀ item ∈ req.artifactReferences, artifactReference.fullmatch item = true)
    (valueError "artifact references must be portable opaque identifiers")
  Checked.require req.artifactReferences.Nodup (valueError "artifact references must be unique")
  Checked.require (req.steps.length ≤ maxJobSteps) (limitError "too many job steps")
  Checked.each (fun name => validateName name "job step name") req.steps
  Checked.require req.steps.Nodup (valueError "job step names must be unique")
  pure payloadJson

/-- `SELECT * FROM jobs WHERE namespace = ? AND idempotency_key_hash = ?`. -/
def JobStore.keyed? (db : JobStore) (jobNamespace : JobNamespace) (hash : String) : Option JobRow :=
  db.jobs.find? fun r => r.jobNamespace = jobNamespace && r.idempotencyKeyHash = some hash

/-- The stored job answers the request. -/
def sameRequest (stored : DurableJob) (req : JobRequest) (payloadJson : String) : Prop :=
  stored.jobType = req.jobType ∧ stored.configurationFingerprint = req.configurationFingerprint ∧
    dumps stored.payload.json = some payloadJson ∧ stored.artifactReferences = req.artifactReferences ∧
    stored.steps.map (·.name) = req.steps

instance (stored : DurableJob) (req : JobRequest) (payloadJson : String) :
    Decidable (sameRequest stored req payloadJson) :=
  inferInstanceAs (Decidable (_ ∧ _ ∧ _ ∧ _ ∧ _))

/-- The row `create_job` inserts. -/
def newJobRow (jobId : String) (req : JobRequest) (payloadJson timestamp : String) : JobRow where
  jobId := jobId
  jobNamespace := req.jobNamespace
  jobType := req.jobType
  state := .queued
  configurationFingerprint := req.configurationFingerprint
  failureCode := none
  revision := 1
  createdAt := timestamp
  updatedAt := timestamp
  startedAt := none
  finishedAt := none
  recordSchemaVersion := some jobRecordSchemaVersion
  idempotencyKeyHash := some (keyHash req.idempotencyKey)
  payloadJson := some payloadJson
  artifactReferencesJson := some (artifactsText req.artifactReferences)
  progress := ⟨none, none, none⟩
  resultJson := none
  failureMessage := none
  cancellationRequestedAt := none

def newStepRow (stepId jobId : String) (step : String × Nat) : StepRow :=
  ⟨stepId, jobId, step.2, step.1, .pending, 1, none, none⟩

/-- The loop that inserts the steps, each with the next identifier of the call. -/
def insertSteps (repo : JobRepository) (jobId : String) : List (String × Nat) → JobStore → Except PyError JobStore
  | [], db => pure db
  | step :: steps, db => do
    let stepId ← repo.newId "step" (step.2 + 1)
    let db ← db.insertStep (newStepRow stepId jobId step)
    insertSteps repo jobId steps db

/-- The body of `create_job` for a key that is not in use. -/
def admitJob (repo : JobRepository) (req : JobRequest) (payloadJson : String) (db : JobStore) :
    Except PyError (JobStore × DurableJob) := do
  let jobId ← repo.newId "job" 0
  let db ← reraise [.integrityError] (conflictError "durable job identity already exists") do
    let db ← db.insertJob (newJobRow jobId req payloadJson repo.clock)
    insertSteps repo jobId req.steps.zipIdx db
  let db ← appendEventIn repo (req.steps.length + 1) db jobId .created .queued none ⟨none, none, none⟩ repo.clock
  repo.failureInjector "after_create" jobId
  let job ← jobIn repo.forbidden db jobId
  pure (db, job)

/-- `create_job`. -/
def createJob (repo : JobRepository) (req : JobRequest) (db : JobStore) : Except PyError (JobStore × DurableJob) := do
  let payloadJson ← validateRequest repo.forbidden req
  match db.keyed? req.jobNamespace (keyHash req.idempotencyKey) with
  | some existing =>
    let stored ← jobFromRow repo.forbidden db existing
    if sameRequest stored req payloadJson then pure (db, stored)
    else throw (conflictError "idempotency key was already used for a different job request")
  | none => admitJob repo req payloadJson db

/-! ## Transitions -/

/-- The result and failure columns a transition writes, after their checks. -/
def transitionColumns (repo : JobRepository) (jobNamespace : JobNamespace) (target : JobState)
    (result : Option JsonObject) (failureCode failureMessage : Option String) :
    Except PyError (Option String × Option String × Option String) := do
  match target with
  | .succeeded =>
    let encoded ← canonicalObject (result.getD ⟨[], JsonObject.distinct_nil⟩) "job result" maxJobResultBytes repo.forbidden
    pure (some encoded, none, none)
  | .failed | .interrupted =>
    let (code, message) ← validateFailure failureCode failureMessage repo.forbidden
    match result with
    | none => pure (none, some code, some message)
    | some result =>
      Checked.require (jobNamespace = .agent) (valueError "failed or interrupted jobs cannot persist a success result")
      let encoded ← canonicalObject result "agent terminal result" maxJobResultBytes repo.forbidden
      pure (some encoded, some code, some message)
  | _ =>
    Checked.require (result.isNone = true ∧ failureCode.isNone = true ∧ failureMessage.isNone = true)
      (valueError "running transition cannot persist a result or failure")
    pure (none, none, none)

/-- The state a bulk update gives the running steps of a job that fails or is interrupted. -/
def stoppedStep (target : JobState) : JobStepState :=
  if target = .failed then .failed else .interrupted

/-- `_transition_job_in`. -/
def transitionJobIn (repo : JobRepository) (db : JobStore) (jobId : String) (expectedRevision : Int)
    (target : JobState) (result : Option JsonObject) (failureCode failureMessage : Option String) :
    Except PyError (JobStore × DurableJob) := do
  let timestamp := repo.clock
  let current ← jobIn repo.forbidden db jobId
  assertRevision current.revision expectedRevision
  validateJobTransition current.state target
  Checked.require (target = .succeeded → ∀ step ∈ current.steps, step.state = .succeeded ∨ step.state = .skipped)
    (transitionError "a job cannot succeed before every step succeeds or is skipped")
  let (resultJson, code, message) ←
    transitionColumns repo current.jobNamespace target result failureCode failureMessage
  let startedAt := if target = .running then some timestamp else current.startedAt
  let finishedAt := if target.terminal then some timestamp else none
  let db :=
    if target = .failed ∨ target = .interrupted then
      db.updateSteps jobId (·.state = .running) (StepRow.finished (stoppedStep target) timestamp) fun _ => rfl
    else db
  let db ← db.updateJob jobId current.revision (fun r => { r.bumped timestamp with
    state := target, startedAt, finishedAt, resultJson, failureCode := code, failureMessage := message }) fun _ => rfl
  repo.failureInjector "after_job_update" jobId
  let db ← appendEventIn repo 0 db jobId .stateChanged target code current.progress timestamp
  let job ← jobIn repo.forbidden db jobId
  pure (db, job)

/-- `transition_job`. -/
def transitionJob (repo : JobRepository) (jobId : String) (expectedRevision : Int) (target : JobState)
    (result : Option JsonObject) (failureCode failureMessage : Option String) (db : JobStore) :
    Except PyError (JobStore × DurableJob) := do
  Checked.require (target ≠ .cancelling ∧ target ≠ .cancelled)
    (transitionError "use the explicit cancellation operations")
  transitionJobIn repo db jobId expectedRevision target result failureCode failureMessage

/-- `ORDER BY created_at ASC, job_id ASC`. -/
def createdOrder (a b : JobRow) : Prop :=
  a.createdAt < b.createdAt ∨ (a.createdAt = b.createdAt ∧ a.jobId ≤ b.jobId)

instance : DecidableRel createdOrder := fun a b =>
  inferInstanceAs (Decidable (a.createdAt < b.createdAt ∨ (a.createdAt = b.createdAt ∧ a.jobId ≤ b.jobId)))

/-- The first row in creation order. -/
def oldest (rows : List JobRow) : Option JobRow :=
  (rows.insertionSort createdOrder).head?

/-- The oldest queued job of each registered executor. -/
def candidates (db : JobStore) (eligible : List (JobNamespace × String)) : List JobRow :=
  eligible.filterMap fun e =>
    oldest (db.jobs.select fun r => r.jobNamespace = e.1 && r.state = .queued && r.jobType = e.2)

/-- `claim_next_job`. -/
def claimNextJob (repo : JobRepository) (eligible : List (JobNamespace × String)) (db : JobStore) :
    Except PyError (JobStore × Option DurableJob) := do
  Checked.require (eligible ≠ [] ∧ eligible.length ≤ 4) (valueError "worker eligibility is empty or out of bounds")
  Checked.each (fun e => validateName e.2 "worker job type") eligible
  match oldest (candidates db eligible) with
  | none => pure (db, none)
  | some row =>
    let (db, job) ← transitionJobIn repo db row.jobId row.revision .running none none none
    pure (db, some job)

/-- `report_progress`. -/
def reportProgress (repo : JobRepository) (jobId : String) (expectedRevision : Int) (progress : JobProgress)
    (db : JobStore) : Except PyError (JobStore × DurableJob) := do
  validateProgress progress
  let timestamp := repo.clock
  let job ← jobIn repo.forbidden db jobId
  assertRevision job.revision expectedRevision
  Checked.require (job.state = .running) (transitionError "progress can be recorded only while a job is running")
  -- SQLite binds 64-bit integers only
  Checked.each bindInteger (progress.current.toList ++ progress.total.toList)
  let db ← db.updateJob jobId job.revision (fun r => { r.bumped timestamp with progress }) fun _ => rfl
  repo.failureInjector "after_progress_update" jobId
  let db ← appendEventIn repo 0 db jobId .progress .running none progress timestamp
  let job ← jobIn repo.forbidden db jobId
  pure (db, job)

/-- The step states a job in this state lets its steps move to. -/
def allowedStepTargets : JobState → List JobStepState
  | .running => [.running, .succeeded, .failed, .skipped, .interrupted]
  | .cancelling => [.cancelled, .interrupted]
  | _ => []

/-- `transition_step`. -/
def transitionStep (repo : JobRepository) (jobId stepId : String) (expectedJobRevision expectedStepRevision : Int)
    (target : JobStepState) (db : JobStore) : Except PyError (JobStore × DurableJob) := do
  validateOpaque stepId "step ID"
  let timestamp := repo.clock
  let job ← jobIn repo.forbidden db jobId
  assertRevision job.revision expectedJobRevision
  let row ← Checked.orRaise (db.steps.find? fun r => r.stepId = stepId && r.jobId = jobId)
    (notFoundError "durable job step does not exist")
  Checked.require ((row.revision : Int) = expectedStepRevision) (conflictError "durable job step revision conflict")
  validateStepTransition row.state target
  Checked.require (target ∈ allowedStepTargets job.state)
    (transitionError "job state does not permit that step transition")
  let startedAt := if target = .running then some timestamp else row.startedAt
  let finishedAt := if target.terminal then some timestamp else none
  let matching (r : StepRow) : Bool := r.stepId = stepId && r.revision = row.revision
  Checked.require ((db.steps.select fun r => r.jobId = jobId && matching r).length = 1)
    (conflictError "durable job step revision conflict")
  let db := db.updateSteps jobId matching (·.moved target startedAt finishedAt) fun _ => rfl
  let db ← db.updateJob jobId job.revision (·.bumped timestamp) fun _ => rfl
  repo.failureInjector "after_step_update" jobId
  let db ← appendEventIn repo 0 db jobId .stepChanged job.state none job.progress timestamp
  let job ← jobIn repo.forbidden db jobId
  pure (db, job)

/-! ## Cancellation and recovery -/

/-- `request_cancellation`. -/
def requestCancellation (repo : JobRepository) (jobId : String) (expectedRevision : Int) (db : JobStore) :
    Except PyError (JobStore × DurableJob) := do
  let timestamp := repo.clock
  let job ← jobIn repo.forbidden db jobId
  assertRevision job.revision expectedRevision
  if job.state = .cancelling ∨ job.state = .cancelled then pure (db, job)
  else
    Checked.require (job.state = .queued ∨ job.state = .running) (transitionError "terminal jobs cannot be cancelled")
    let target : JobState := if job.state = .queued then .cancelled else .cancelling
    validateJobTransition job.state target
    let db :=
      if target = .cancelled then
        db.updateSteps jobId (·.state = .pending) (StepRow.finished .cancelled timestamp) fun _ => rfl
      else db
    let finishedAt := if target = .cancelled then some timestamp else none
    let db ← db.updateJob jobId job.revision (fun r => { r.bumped timestamp with
      state := target, finishedAt, cancellationRequestedAt := some timestamp }) fun _ => rfl
    repo.failureInjector "after_cancel_request" jobId
    let db ← appendEventIn repo 0 db jobId .cancellationRequested target none job.progress timestamp
    let job ← jobIn repo.forbidden db jobId
    pure (db, job)

/-- The result column an acknowledgement writes. -/
def acknowledgedResult (repo : JobRepository) (jobNamespace : JobNamespace) (result : Option JsonObject) :
    Except PyError (Option String) := do
  match result with
  | none => pure none
  | some result =>
    Checked.require (jobNamespace = .agent)
      (valueError "only Agent cancellation may include a safe terminal result")
    some <$> canonicalObject result "agent terminal result" maxJobResultBytes repo.forbidden

/-- `acknowledge_cancellation`. -/
def acknowledgeCancellation (repo : JobRepository) (jobId : String) (expectedRevision : Int)
    (result : Option JsonObject) (db : JobStore) : Except PyError (JobStore × DurableJob) := do
  let timestamp := repo.clock
  let job ← jobIn repo.forbidden db jobId
  assertRevision job.revision expectedRevision
  validateJobTransition job.state .cancelled
  let resultJson ← acknowledgedResult repo job.jobNamespace result
  let db := db.updateSteps jobId (fun r => r.state = .pending || r.state = .running)
    (StepRow.finished .cancelled timestamp) fun _ => rfl
  let db ← db.updateJob jobId job.revision (fun r => { r.bumped timestamp with
    state := .cancelled, finishedAt := some timestamp, resultJson }) fun _ => rfl
  repo.failureInjector "after_cancel_acknowledgement" jobId
  let db ← appendEventIn repo 0 db jobId .cancelled .cancelled none job.progress timestamp
  let job ← jobIn repo.forbidden db jobId
  pure (db, job)

/-- `ORDER BY updated_at, job_id`. -/
def updatedOrder (a b : JobRow) : Prop :=
  a.updatedAt < b.updatedAt ∨ (a.updatedAt = b.updatedAt ∧ a.jobId ≤ b.jobId)

instance : DecidableRel updatedOrder := fun a b =>
  inferInstanceAs (Decidable (a.updatedAt < b.updatedAt ∨ (a.updatedAt = b.updatedAt ∧ a.jobId ≤ b.jobId)))

/-- The jobs a restart finds running or cancelling. -/
def stranded (db : JobStore) (limit : Nat) : List JobRow :=
  ((db.jobs.select fun r => r.state = .running || r.state = .cancelling).insertionSort updatedOrder).take limit

/-- One round of the recovery loop, with the `k`-th identifier of the call. -/
def recoverJob (repo : JobRepository) (k : Nat) (jobId : String) (db : JobStore) :
    Except PyError (JobStore × DurableJob) := do
  let timestamp := repo.clock
  let job ← jobIn repo.forbidden db jobId
  validateJobTransition job.state .interrupted
  let db := db.updateSteps jobId (·.state = .running) (StepRow.finished .interrupted timestamp) fun _ => rfl
  let db ← db.updateJob jobId job.revision (fun r => { r.bumped timestamp with
    state := .interrupted, finishedAt := some timestamp, failureCode := some "process_interrupted",
    failureMessage := some "Execution stopped before the process completed the job." }) fun _ => rfl
  repo.failureInjector "after_recovery_update" jobId
  let db ← appendEventIn repo k db jobId .interrupted .interrupted (some "process_interrupted") job.progress timestamp
  let job ← jobIn repo.forbidden db jobId
  pure (db, job)

/-- The recovery loop from the `k`-th identifier on. -/
def recoverJobs (repo : JobRepository) : Nat → List String → JobStore → Except PyError (JobStore × List DurableJob)
  | _, [], db => pure (db, [])
  | k, jobId :: rest, db => do
    let (db, job) ← recoverJob repo k jobId db
    let (db, jobs) ← recoverJobs repo (k + 1) rest db
    pure (db, job :: jobs)

/-- `recover_interrupted_jobs`. -/
def recoverInterruptedJobs (repo : JobRepository) (limit : Int) (db : JobStore) :
    Except PyError (JobStore × List DurableJob) := do
  Checked.require (1 ≤ limit ∧ limit ≤ maxListLimit) (limitError "recovery limit is out of bounds")
  recoverJobs repo 0 ((stranded db limit.toNat).map (·.jobId)) db

/-! ## Agent decision events -/

/-- `_AGENT_EVENT_FIELDS_V1`. -/
def agentEventFieldsV1 : List String :=
  ["decision_index", "decision_kind", "tool_name", "argument_names", "outcome", "evidence_count", "evidence_refs",
    "step_count", "tool_call_count", "failure_code"]

/-- `_AGENT_EVENT_FIELDS`. -/
def agentEventFields : List String :=
  "objective_id" :: agentEventFieldsV1

/-- `set(payload) in (_AGENT_EVENT_FIELDS, _AGENT_EVENT_FIELDS_V1)`. -/
def hasAgentEventFields (payload : JsonObject) : Bool :=
  let same (fields : List String) : Bool :=
    payload.keys.all (fields.contains ·) && fields.all (payload.keys.contains ·)
  same agentEventFields || same agentEventFieldsV1

/-- `_agent_event_from_row`. -/
def agentEventFromRow (forbidden : List String) (row : EventRow) : Except PyError AgentJobEvent := do
  let payload ← match row.agentPayloadJson with
    | none => pure ⟨[], JsonObject.distinct_nil⟩
    | some raw =>
      let payload ← decodeObject (some raw) "Agent event" maxAgentEventBytes
      Checked.require (hasAgentEventFields payload = true) (dataError "persisted Agent event has invalid fields")
      pure payload
  reraise [.valueError] (dataError "persisted Agent event is unsafe") (validateSafeTree forbidden payload.json)
  pure ⟨row.eventId, row.sequence, row.eventType, row.state, row.reasonCode, row.occurredAt, payload⟩

/-- The decision index of an event payload, when it is the one its key names. -/
def decisionIndex (eventKey : String) (payload : JsonObject) : Except PyError Nat := do
  let mismatch := valueError "Agent event key must match one bounded decision"
  match payload.get? "decision_index" with
  | some (.int i) =>
    Checked.require (1 ≤ i ∧ i ≤ maxAgentDecisionEvents ∧ eventKey = "decision_" ++ toString i.toNat) mismatch
    pure i.toNat
  | _ => throw mismatch

/-- `append_agent_decision_event`. -/
def appendAgentDecisionEvent (repo : JobRepository) (jobId eventKey : String) (payload : JsonObject)
    (stepCount maxSteps : Int) (db : JobStore) : Except PyError (JobStore × AgentJobEvent) := do
  Checked.require (hasAgentEventFields payload = true)
    (valueError "Agent event must contain only safe operational fields")
  validateName eventKey "Agent event key"
  let index ← decisionIndex eventKey payload
  Checked.require (0 ≤ stepCount ∧ stepCount ≤ maxSteps ∧ maxSteps ≤ 20) (valueError "Agent progress is out of bounds")
  Checked.require ((index : Int) ≤ maxSteps) (valueError "Agent decision exceeds the frozen step ceiling")
  let encoded ← canonicalObject payload "Agent event" maxAgentEventBytes repo.forbidden
  let timestamp := repo.clock
  let job ← jobIn repo.forbidden db jobId
  Checked.require (job.jobNamespace = .agent) (notFoundError "Agent run does not exist")
  match db.events.find? fun e => e.jobId = jobId && e.agentEventKey = some eventKey with
  | some existing =>
    Checked.require (existing.agentPayloadJson = some encoded)
      (conflictError "Agent event key was reused with different data")
    let event ← agentEventFromRow repo.forbidden existing
    pure (db, event)
  | none =>
    Checked.require (job.state = .running ∨ job.state = .cancelling)
      (transitionError "Agent decision events require an active run")
    let count := (db.events.select fun e => e.jobId = jobId && e.agentEventKey.isSome).length
    Checked.require (count < maxAgentDecisionEvents) (limitError "Agent decision event history is full")
    Checked.require (index = count + 1) (conflictError "Agent decision event order is not monotonic")
    let sequence := db.nextSequence jobId
    let progress : JobProgress := ⟨some "execute_agent", some stepCount, some maxSteps⟩
    let db ← db.updateJob jobId job.revision (fun r => { r.bumped timestamp with progress }) fun _ => rfl
    let eventId ← repo.newId "event" 0
    let row : EventRow := {
      eventId, jobId, sequence, eventType := .agentDecision, state := some job.state, reasonCode := none, progress,
      occurredAt := timestamp, agentEventKey := some eventKey, agentPayloadJson := some encoded }
    let db ← db.insertEvent row
    let event ← agentEventFromRow repo.forbidden row
    pure (db, event)

/-! ## Calls -/

/-- A call of one of the mutators. -/
inductive JobCall where
  | createJob (request : JobRequest)
  | claimNextJob (eligible : List (JobNamespace × String))
  | transitionJob (jobId : String) (expectedRevision : Int) (target : JobState) (result : Option JsonObject)
      (failureCode failureMessage : Option String)
  | reportProgress (jobId : String) (expectedRevision : Int) (progress : JobProgress)
  | transitionStep (jobId stepId : String) (expectedJobRevision expectedStepRevision : Int) (target : JobStepState)
  | requestCancellation (jobId : String) (expectedRevision : Int)
  | acknowledgeCancellation (jobId : String) (expectedRevision : Int) (result : Option JsonObject)
  | recoverInterruptedJobs (limit : Int)
  | appendAgentDecisionEvent (jobId eventKey : String) (payload : JsonObject) (stepCount maxSteps : Int)

/-- What a call returns. -/
inductive JobReply where
  | job (job : DurableJob)
  | claimed (job : Option DurableJob)
  | recovered (jobs : List DurableJob)
  | event (event : AgentJobEvent)

/-- Tag what a body returns. -/
def tagged {α : Type} (tag : α → JobReply) (x : Except PyError (JobStore × α)) : Except PyError (JobStore × JobReply) := do
  let (db, a) ← x
  pure (db, tag a)

/-- The body of a call. -/
def body (repo : JobRepository) (call : JobCall) (db : JobStore) : Except PyError (JobStore × JobReply) :=
  match call with
  | .createJob request => tagged .job (createJob repo request db)
  | .claimNextJob eligible => tagged .claimed (claimNextJob repo eligible db)
  | .transitionJob jobId revision target result code message =>
    tagged .job (transitionJob repo jobId revision target result code message db)
  | .reportProgress jobId revision progress => tagged .job (reportProgress repo jobId revision progress db)
  | .transitionStep jobId stepId jobRevision stepRevision target =>
    tagged .job (transitionStep repo jobId stepId jobRevision stepRevision target db)
  | .requestCancellation jobId revision => tagged .job (requestCancellation repo jobId revision db)
  | .acknowledgeCancellation jobId revision result =>
    tagged .job (acknowledgeCancellation repo jobId revision result db)
  | .recoverInterruptedJobs limit => tagged .recovered (recoverInterruptedJobs repo limit db)
  | .appendAgentDecisionEvent jobId key payload stepCount maxSteps =>
    tagged .event (appendAgentDecisionEvent repo jobId key payload stepCount maxSteps db)

/-- One call as a transaction: commit what the body leaves, or roll back when it raises. -/
def perform (db : JobStore) (input : JobRepository × JobCall) : JobStore :=
  Checked.commit (body input.1 input.2 db) db

end Jobs
