import DocumentQa.Lib.SqlTable
import DocumentQa.Python.Errors
import DocumentQa.Python.Json

/-!
# Durable jobs: rows and tables

The three tables of the job store. Primary keys, unique indexes and foreign keys are
those of the schema: a job is unique by its ID and by namespace and key hash, a step by
its ID and by job and ordinal, an event by its ID, by job and sequence, and by job and
agent event key.
-/

namespace Jobs

open Python SqlTable

inductive JobNamespace where
  | pipeline
  | evaluation
  | modelTest
  | agent
deriving DecidableEq, Repr

inductive JobState where
  | queued
  | running
  | cancelling
  | cancelled
  | succeeded
  | failed
  | interrupted
deriving DecidableEq, Repr

inductive JobStepState where
  | pending
  | running
  | cancelled
  | succeeded
  | failed
  | skipped
  | interrupted
deriving DecidableEq, Repr

/-- The value of the `event_type` column. -/
inductive JobEventType where
  | created
  | stateChanged
  | progress
  | stepChanged
  | cancellationRequested
  | cancelled
  | interrupted
  | agentDecision
deriving DecidableEq, Repr

def JobState.text : JobState → String
  | .queued => "queued"
  | .running => "running"
  | .cancelling => "cancelling"
  | .cancelled => "cancelled"
  | .succeeded => "succeeded"
  | .failed => "failed"
  | .interrupted => "interrupted"

def JobStepState.text : JobStepState → String
  | .pending => "pending"
  | .running => "running"
  | .cancelled => "cancelled"
  | .succeeded => "succeeded"
  | .failed => "failed"
  | .skipped => "skipped"
  | .interrupted => "interrupted"

/-- `TERMINAL_JOB_STATES`. -/
def JobState.terminal : JobState → Bool
  | .cancelled | .succeeded | .failed | .interrupted => true
  | .queued | .running | .cancelling => false

/-- `TERMINAL_STEP_STATES`. -/
def JobStepState.terminal : JobStepState → Bool
  | .cancelled | .succeeded | .failed | .skipped | .interrupted => true
  | .pending | .running => false

/-- `_JOB_TRANSITIONS`. -/
def jobTransitions : JobState → List JobState
  | .queued => [.running, .cancelled]
  | .running => [.cancelling, .succeeded, .failed, .interrupted]
  | .cancelling => [.cancelled, .interrupted]
  | .cancelled | .succeeded | .failed | .interrupted => []

/-- `_STEP_TRANSITIONS`. -/
def stepTransitions : JobStepState → List JobStepState
  | .pending => [.running, .cancelled, .skipped]
  | .running => [.cancelled, .succeeded, .failed, .interrupted]
  | .cancelled | .succeeded | .failed | .skipped | .interrupted => []

structure JobProgress where
  stage : Option String
  current : Option Int
  total : Option Int
deriving DecidableEq, Repr

/-- A row of `jobs`. -/
structure JobRow where
  jobId : String
  jobNamespace : JobNamespace
  jobType : String
  state : JobState
  configurationFingerprint : String
  failureCode : Option String
  revision : Nat
  createdAt : String
  updatedAt : String
  startedAt : Option String
  finishedAt : Option String
  recordSchemaVersion : Option Int
  idempotencyKeyHash : Option String
  payloadJson : Option String
  artifactReferencesJson : Option String
  progress : JobProgress
  resultJson : Option String
  failureMessage : Option String
  cancellationRequestedAt : Option String
deriving DecidableEq, Repr

/-- A row of `job_steps`. -/
structure StepRow where
  stepId : String
  jobId : String
  ordinal : Nat
  stepName : String
  state : JobStepState
  revision : Nat
  startedAt : Option String
  finishedAt : Option String
deriving DecidableEq, Repr

/-- A row of `job_events`. -/
structure EventRow where
  eventId : String
  jobId : String
  sequence : Nat
  eventType : JobEventType
  state : Option JobState
  reasonCode : Option String
  progress : JobProgress
  occurredAt : String
  agentEventKey : Option String
  agentPayloadJson : Option String
deriving DecidableEq, Repr

/-- Two values of a nullable indexed column clash when neither is `NULL`. -/
def sameKey (a b : Option String) : Bool :=
  a.isSome && a = b

theorem sameKey_comm (a b : Option String) : sameKey a b = sameKey b a := by
  unfold sameKey
  by_cases h : a = b
  · rw [h]
  · simp [h, Ne.symm h]

instance : Row JobRow where
  Identity := String × JobNamespace × Option String
  identity r := (r.jobId, r.jobNamespace, r.idempotencyKeyHash)
  clash a b := a.1 = b.1 || (a.2.1 = b.2.1 && sameKey a.2.2 b.2.2)
  clash_comm a b := by simp only [sameKey_comm a.2.2, eq_comm (a := a.1), eq_comm (a := a.2.1)]

instance : Row StepRow where
  Identity := String × String × Nat
  identity r := (r.stepId, r.jobId, r.ordinal)
  clash a b := a.1 = b.1 || (a.2.1 = b.2.1 && a.2.2 = b.2.2)
  clash_comm a b := by simp only [eq_comm (a := a.1), eq_comm (a := a.2.1), eq_comm (a := a.2.2)]

instance : Row EventRow where
  Identity := String × String × Nat × Option String
  identity r := (r.eventId, r.jobId, r.sequence, r.agentEventKey)
  clash a b := a.1 = b.1 || (a.2.1 = b.2.1 && (a.2.2.1 = b.2.2.1 || sameKey a.2.2.2 b.2.2.2))
  clash_comm a b := by
    simp only [sameKey_comm a.2.2.2, eq_comm (a := a.1), eq_comm (a := a.2.1), eq_comm (a := a.2.2.1)]

/-- The job tables of one workspace database. -/
structure JobStore where
  jobs : Table JobRow
  steps : Table StepRow
  events : Table EventRow

namespace JobStore

def empty : JobStore :=
  ⟨.empty, .empty, .empty⟩

/-- `SELECT * FROM jobs WHERE job_id = ?`. -/
def job? (db : JobStore) (jobId : String) : Option JobRow :=
  db.jobs.find? (·.jobId = jobId)

/-- The steps of a job. -/
def stepsOf (db : JobStore) (jobId : String) : List StepRow :=
  db.steps.select (·.jobId = jobId)

/-- The events of a job. -/
def eventsOf (db : JobStore) (jobId : String) : List EventRow :=
  db.events.select (·.jobId = jobId)

/-- `SELECT COALESCE(MAX(sequence), 0) + 1 FROM job_events WHERE job_id = ?`. -/
def nextSequence (db : JobStore) (jobId : String) : Nat :=
  ((db.eventsOf jobId).map (·.sequence)).foldl max 0 + 1

def integrity : PyError :=
  ⟨.integrityError, "constraint failed"⟩

def insertJob (db : JobStore) (r : JobRow) : Except PyError JobStore := do
  let jobs ← Checked.orRaise (db.jobs.insert? r) integrity
  pure { db with jobs }

/-- `INSERT INTO job_steps`: the job must exist. -/
def insertStep (db : JobStore) (r : StepRow) : Except PyError JobStore := do
  let steps ← Checked.orRaise (db.steps.insert? r) integrity
  Checked.require ((db.job? r.jobId).isSome = true) integrity
  pure { db with steps }

/-- `INSERT INTO job_events`: the job must exist. -/
def insertEvent (db : JobStore) (r : EventRow) : Except PyError JobStore := do
  let events ← Checked.orRaise (db.events.insert? r) integrity
  Checked.require ((db.job? r.jobId).isSome = true) integrity
  pure { db with events }

/-- `UPDATE job_steps SET ... WHERE job_id = ? AND p`. -/
def updateSteps (db : JobStore) (jobId : String) (p : StepRow → Bool) (f : StepRow → StepRow)
    (keep : ∀ r, Row.identity (f r) = Row.identity r) : JobStore :=
  { db with steps := db.steps.update (fun r => r.jobId = jobId && p r) f keep }

/-- `UPDATE jobs SET ... WHERE job_id = ? AND revision = ?`, and the conflict when no row matched. -/
def updateJob (db : JobStore) (jobId : String) (revision : Nat) (f : JobRow → JobRow)
    (keep : ∀ r, Row.identity (f r) = Row.identity r) : Except PyError JobStore := do
  let matching (r : JobRow) : Bool := r.jobId = jobId && r.revision = revision
  Checked.require ((db.jobs.select matching).length = 1) ⟨.jobConflict, "durable job revision conflict"⟩
  pure { db with jobs := db.jobs.update matching f keep }

end JobStore

end Jobs
