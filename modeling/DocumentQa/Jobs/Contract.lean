import DocumentQa.Jobs.Model
import DocumentQa.Lib.Json.Walk
import DocumentQa.Lib.Sha256

/-!
# The contract of job data

The checks every job field passes before it is written and again when it is read, and
the decoding of a row. `_validate_safe_tree` is a scan of the nodes of a tree, so it does
not depend on the order of keys (`validateSafeTree_sorted`).

An argument that is typed here (a state, a namespace, an integer that is no `bool`, a
mapping with `str` keys) is one the source's own `isinstance` and membership checks let pass.
-/

namespace Jobs

open Python JsonText

def valueError (message : String) : PyError :=
  ⟨.valueError, message⟩

def dataError (message : String) : PyError :=
  ⟨.jobData, message⟩

def limitError (message : String) : PyError :=
  ⟨.jobLimit, message⟩

def conflictError (message : String) : PyError :=
  ⟨.jobConflict, message⟩

def notFoundError (message : String) : PyError :=
  ⟨.jobNotFound, message⟩

def transitionError (message : String) : PyError :=
  ⟨.jobTransition, message⟩

def maxJobPayloadBytes : Nat := 64 * 1024
def maxJobResultBytes : Nat := 256 * 1024
def maxAgentEventBytes : Nat := 2048
def maxAgentDecisionEvents : Nat := 20
def maxJobSteps : Nat := 64
def maxArtifactReferences : Nat := 128
def maxFailureMessageChars : Nat := 2048
def maxListLimit : Nat := 100
def jobRecordSchemaVersion : Int := 1

/-- `_OPAQUE_ID`. -/
def opaqueId : NamePattern :=
  ⟨isAlnum, fun c => isAlnum c || c = '_' || c = '-', 128⟩

/-- `_TYPE_NAME`, and `_FAILURE_CODE`, which is the same pattern. -/
def typeName : NamePattern :=
  ⟨isLower, fun c => isLowerAlnum c || c = '_', 64⟩

/-- `_ARTIFACT_REFERENCE`. -/
def artifactReference : NamePattern :=
  ⟨isAlnum, fun c => isAlnum c || c = '_' || c = '.' || c = '-', 256⟩

/-- `_FORBIDDEN_KEYS`. -/
def forbiddenKeys : List (List Char) :=
  ["api_key", "apikey", "authorization", "bearer", "bearer_token", "credential", "credentials", "groq_api_key",
    "local_workspace_token", "password", "provider_credential", "provider_key", "secret", "token"].map String.toList

/-- `_COMPACT_FORBIDDEN_KEYS`. -/
def compactForbiddenKeys : List (List Char) :=
  forbiddenKeys.map withoutUnderscores

/-- A key that names a credential. -/
def isCredentialKey (key : String) : Bool :=
  let normalized := normalKey key
  let compact := withoutUnderscores normalized
  forbiddenKeys.contains normalized || compactForbiddenKeys.contains compact ||
    (["_api_key", "_password", "_secret", "_token"].any fun s => endsWith normalized s.toList) ||
    (["apikey", "credential", "password", "secret", "token"].any fun s => endsWith compact s.toList)

/-- A text that carries a credential. -/
def isCredentialValue (forbidden : List String) (value : String) : Bool :=
  mentionsCredential value || forbidden.any fun secret =>
    value = secret || (8 ≤ secret.length && isInfix secret.toList value.toList)

def checkText (forbidden : List String) (value : String) : Except PyError Unit := do
  Checked.require (looksAbsolutePath value = false) (valueError "job data cannot persist absolute filesystem paths")
  Checked.require (isCredentialValue forbidden value = false) (valueError "job data cannot persist credential values")

def checkKey (key : String) : Except PyError Unit :=
  Checked.require (isCredentialKey key = false) (valueError "job data cannot persist credential fields")

/-- `_validate_safe_tree`. -/
def validateSafeTree (forbidden : List String) (j : Json) : Except PyError Unit :=
  Json.Scan.run ⟨checkKey, checkText forbidden⟩ j

/-- `_canonical_object`. -/
def canonicalObject (value : JsonObject) (label : String) (maxBytes : Nat) (forbidden : List String) :
    Except PyError String := do
  validateSafeTree forbidden value.json
  let encoded ← Checked.orRaise (dumpsFinite value.json) (valueError (label ++ " must be finite JSON"))
  Checked.require (utf8Length encoded ≤ maxBytes) (limitError (label ++ " exceeds its UTF-8 byte limit"))
  pure encoded

/-- `_decode_object`. -/
def decodeObject (raw : Option String) (label : String) (maxBytes : Nat) : Except PyError JsonObject := do
  let malformed := dataError ("persisted " ++ label ++ " is malformed")
  let text ← Checked.orRaise raw malformed
  Checked.require (utf8Length text ≤ maxBytes) malformed
  Checked.orRaise (loadsObject text) malformed

/-- `_validate_opaque`. -/
def validateOpaque (value label : String) : Except PyError Unit :=
  Checked.require (opaqueId.fullmatch value = true) (valueError (label ++ " must be an opaque identifier"))

/-- `_validate_name`. -/
def validateName (value label : String) : Except PyError Unit :=
  Checked.require (typeName.fullmatch value = true) (valueError (label ++ " is invalid"))

/-- `_validate_progress`. -/
def validateProgress (p : JobProgress) : Except PyError Unit := do
  match p.stage with
  | some stage => validateName stage "progress stage"
  | none => pure ()
  match p.current, p.total with
  | none, none => pure ()
  | some current, some total =>
    Checked.require (1 ≤ total ∧ 0 ≤ current ∧ current ≤ total)
      (valueError "progress counts must satisfy 0 <= current <= total")
  | _, _ => throw (valueError "progress current and total must both be known or both be unknown")

/-- `_validate_failure`. -/
def validateFailure (code message : Option String) (forbidden : List String) : Except PyError (String × String) := do
  let missing := valueError "failed or interrupted jobs require a safe failure code and message"
  let code ← Checked.orRaise code missing
  let message ← Checked.orRaise message missing
  validateName code "failure code"
  Checked.require (strip message ≠ "" ∧ message.length ≤ maxFailureMessageChars)
    (limitError "failure message is empty or exceeds its character limit")
  Checked.require ((message.toList.all fun c => 32 ≤ c.toNat || c = '\t') = true)
    (valueError "failure message contains control characters")
  validateSafeTree forbidden (.str message)
  pure (code, message)

/-- `validate_job_transition`. -/
def validateJobTransition (current target : JobState) : Except PyError Unit :=
  Checked.require (target ∈ jobTransitions current)
    (transitionError ("job transition " ++ current.text ++ "->" ++ target.text ++ " is not allowed"))

/-- `validate_step_transition`. -/
def validateStepTransition (current target : JobStepState) : Except PyError Unit :=
  Checked.require (target ∈ stepTransitions current)
    (transitionError ("job step transition " ++ current.text ++ "->" ++ target.text ++ " is not allowed"))

/-! ## Decoded rows -/

structure JobStep where
  stepId : String
  jobId : String
  ordinal : Nat
  name : String
  state : JobStepState
  revision : Nat
  startedAt : Option String
  finishedAt : Option String
deriving DecidableEq

structure DurableJob where
  jobId : String
  jobNamespace : JobNamespace
  jobType : String
  state : JobState
  revision : Nat
  configurationFingerprint : String
  payload : JsonObject
  artifactReferences : List String
  progress : JobProgress
  result : Option JsonObject
  failureCode : Option String
  failureMessage : Option String
  createdAt : String
  updatedAt : String
  startedAt : Option String
  finishedAt : Option String
  cancellationRequestedAt : Option String
  steps : List JobStep
deriving DecidableEq

structure AgentJobEvent where
  eventId : String
  sequence : Nat
  eventType : JobEventType
  state : Option JobState
  reasonCode : Option String
  occurredAt : String
  payload : JsonObject
deriving DecidableEq

/-- `ORDER BY ordinal, step_id`. -/
def stepOrder (a b : StepRow) : Prop :=
  a.ordinal < b.ordinal ∨ (a.ordinal = b.ordinal ∧ a.stepId ≤ b.stepId)

instance : DecidableRel stepOrder := fun a b =>
  inferInstanceAs (Decidable (a.ordinal < b.ordinal ∨ (a.ordinal = b.ordinal ∧ a.stepId ≤ b.stepId)))

/-- One round of `_steps_in`: the row at position `ordinal`. -/
def readStep (row : StepRow × Nat) : Except PyError JobStep := do
  reraise [.valueError] (dataError "persisted job step identity or name is invalid") do
    validateOpaque row.1.stepId "step ID"
    validateName row.1.stepName "job step name"
  Checked.require (row.1.ordinal = row.2 ∧ 1 ≤ row.1.revision)
    (dataError "persisted job step ordering or revision is invalid")
  pure ⟨row.1.stepId, row.1.jobId, row.1.ordinal, row.1.stepName, row.1.state, row.1.revision, row.1.startedAt,
    row.1.finishedAt⟩

/-- `_steps_in`. -/
def stepsIn (db : JobStore) (jobId : String) : Except PyError (List JobStep) :=
  Checked.collect readStep ((db.stepsOf jobId).insertionSort stepOrder).zipIdx

/-- The `str` items of an array. -/
def textItems (items : List Json) : Option (List String) :=
  items.mapM fun
    | .str s => some s
    | _ => none

/-- The artifact references of a row. -/
def decodeArtifacts (raw : Option String) : Except PyError (List String) := do
  let malformed := dataError "persisted artifact references are malformed"
  match raw.bind Python.loads with
  | some (.arr items) =>
    let artifacts ← Checked.orRaise (textItems items) malformed
    Checked.require (artifacts.length ≤ maxArtifactReferences ∧
      (∀ item ∈ artifacts, artifactReference.fullmatch item = true) ∧ artifacts.Nodup) malformed
    pure artifacts
  | _ => throw malformed

/-- The checks of a row's progress, payload, result and failure. -/
def validateStored (forbidden : List String) (row : JobRow) (payload : JsonObject) (result : Option JsonObject) :
    Except PyError Unit := do
  validateProgress row.progress
  validateSafeTree forbidden payload.json
  match result with
  | some result => validateSafeTree forbidden result.json
  | none => pure ()
  if row.failureCode.isSome ∨ row.failureMessage.isSome then
    let _ ← validateFailure row.failureCode row.failureMessage forbidden
    pure ()
  else pure ()

/-- `_decode_object` of a column that may be `NULL`. -/
def decodeResult (raw : Option String) : Except PyError (Option JsonObject) :=
  match raw with
  | none => pure none
  | some text => some <$> decodeObject (some text) "job result" maxJobResultBytes

/-- `_job_from_row`. -/
def jobFromRow (forbidden : List String) (db : JobStore) (row : JobRow) : Except PyError DurableJob := do
  Checked.require (row.recordSchemaVersion = some jobRecordSchemaVersion)
    (dataError "legacy job row is not compatible with DATA-004")
  reraise [.valueError] (dataError "persisted job identity or type is invalid") do
    validateOpaque row.jobId "job ID"
    validateName row.jobType "job type"
  Checked.require (isSha256Text row.configurationFingerprint = true)
    (dataError "persisted configuration fingerprint is invalid")
  Checked.require (1 ≤ row.revision) (dataError "persisted job revision is invalid")
  let payload ← decodeObject row.payloadJson "job payload" maxJobPayloadBytes
  let artifacts ← decodeArtifacts row.artifactReferencesJson
  let result ← decodeResult row.resultJson
  reraise [.jobLimit, .valueError] (dataError "persisted job data violates the durable contract")
    (validateStored forbidden row payload result)
  Checked.require (row.state = .succeeded → result.isSome = true) (dataError "persisted successful job has no result")
  Checked.require (row.state = .failed ∨ row.state = .interrupted →
      row.failureCode.isSome = true ∧ row.failureMessage.isSome = true)
    (dataError "persisted failed job has no safe failure detail")
  let steps ← stepsIn db row.jobId
  pure {
    jobId := row.jobId, jobNamespace := row.jobNamespace, jobType := row.jobType, state := row.state,
    revision := row.revision, configurationFingerprint := row.configurationFingerprint, payload := payload,
    artifactReferences := artifacts, progress := row.progress, result := result, failureCode := row.failureCode,
    failureMessage := row.failureMessage, createdAt := row.createdAt, updatedAt := row.updatedAt,
    startedAt := row.startedAt, finishedAt := row.finishedAt, cancellationRequestedAt := row.cancellationRequestedAt,
    steps := steps }

/-- `_job_in`. -/
def jobIn (forbidden : List String) (db : JobStore) (jobId : String) : Except PyError DurableJob := do
  validateOpaque jobId "job ID"
  let row ← Checked.orRaise (db.job? jobId) (notFoundError "durable job does not exist")
  jobFromRow forbidden db row

end Jobs
