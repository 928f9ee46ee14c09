import DocumentQa.Evaluation.FrozenJobs
import DocumentQa.Evaluation.NativeRoundTrip
import DocumentQa.Jobs.Outcomes
import DocumentQa.Lib.Interleaving

/-!
# `EvaluationJobService.run`

A worker of the evaluation service is a program of transactions on the workspace database and of
provider calls; between two of them anybody else may have written. It claims its job, reserves
an attempt before every provider call, commits the result of every case and in the end the
report, and turns whatever it raises into a terminal state of the job.

`owner` and `calls` are a record kept beside the program: the slot a worker has reserved and
not used yet, and the provider calls made so far.
-/

namespace EvaluationJobs

open Python SqlTable Jobs Interleaving
open JsonText (Json)

def evaluationJobType : String := "frozen_native_evaluation"

/-- One attempt slot of a job. -/
structure Slot where
  jobId : String
  caseId : String
  phase : Phase
deriving DecidableEq

def AttemptRow.slot (a : AttemptRow) : Slot :=
  ⟨a.jobId, a.caseId, a.phase⟩

/-- A call of a provider, with the prompt it was given. -/
structure ProviderCall where
  slot : Slot
  prompt : String

/-- The database, with the record of slots and calls. -/
structure Site where
  store : Store
  owner : Nat → Option Slot
  calls : List ProviderCall

def Site.start : Site :=
  ⟨.empty, fun _ => none, []⟩

/-- What one step gets from outside: the clock and the identifiers of a transaction, and what
the provider answers, `none` where it raises. -/
structure Outside where
  repo : JobRepository
  factory : Bool
  text : Option String
  scores : Option JsonObject

abbrev Run (β : Type) := Program Site Outside Exn β

/-! ## Local work -/

/-- A case of the frozen artifact, with its rendered evidence. -/
structure FrozenCase where
  caseHash : String
  context : String
  question : String
  groundTruth : String
  requiredKeywords : List String
  expectsFallback : Bool

/-- What the completion policy does with a draft: return an answer, raise, or ask for a correction. -/
inductive Completion where
  | answer (text : String)
  | raise (e : Exn)
  | correct (prompt : String) (next : String → Completion)

/-- The local work of a worker that touches neither the database nor a provider. -/
structure Tools where
  assertRuntimeBinding : JsonObject → Except Exn Unit
  validateArtifact : String → Except Exn (List FrozenCase)
  generationPrompt : FrozenCase → String
  postprocess : FrozenCase → String → Completion
  judgePrompt : FrozenCase → String → String

/-- `NativeReportBinding(**snapshot["binding"])`. -/
def bindingOf (snapshot : JsonObject) : Except Exn Native.NativeReportBinding := do
  let raw ← required "binding" snapshot.fields
  let fields ← lift (exactFields Native.bindingNames ⟨.typeError, "unexpected or missing keyword argument"⟩ raw)
  pure (Native.bindingOf fields)

/-- `values[ordinal]` of a list of texts. -/
def textAt (values : Json) (ordinal : Nat) : Except Exn String :=
  match values with
  | .arr items =>
    match items[ordinal]? with
    | some (.str text) => pure text
    | _ => throw (raising .indexError "list index out of range")
  | _ => throw (raising (.python .typeError) "object is not subscriptable")

theorem scores_distinct {raw : JsonObject} {a b c : Json} (ha : raw.get? "faithfulness" = some a)
    (hb : raw.get? "answer_relevancy" = some b) (hc : raw.get? "context_precision" = some c) :
    (Json.obj [("native.faithfulness", a), ("native.answer_relevancy", b), ("native.context_precision", c)]).distinctKeys =
      true := by
  have inside : ∀ {key : String} {j : Json}, raw.get? key = some j → j.distinctKeys = true := by
    intro key j found
    have fields := (Json.distinctKeys_obj _).1 raw.distinct
    exact fields.2 _ (Json.lookup_mem found)
  refine (Json.distinctKeys_obj _).2 ⟨by simp, ?_⟩
  simp only [List.mem_cons, List.not_mem_nil, or_false, forall_eq_or_imp, forall_eq]
  exact ⟨inside ha, inside hb, inside hc⟩

/-- The three scores of a case, each required of the judge's answer. -/
def scoresOf (raw : JsonObject) : Except Exn JsonObject :=
  match ha : raw.get? "faithfulness", hb : raw.get? "answer_relevancy", hc : raw.get? "context_precision" with
  | some _, some _, some _ => pure ⟨_, scores_distinct ha hb hc⟩
  | _, _, _ => throw (raising (.python .keyError) "score")

def optionalJson {α : Type} (f : α → Json) : Option α → Json
  | some a => f a
  | none => .null

/-- `asdict(native_input)`. -/
def inputFields (c : Native.NativeCaseInput) : List (String × Json) :=
  [("case_id", .str c.caseId), ("answer", optionalJson .str c.answer), ("rendered_context", optionalJson .str c.renderedContext),
    ("ground_truth", optionalJson .str c.groundTruth),
    ("required_keywords", optionalJson (fun words => .arr (words.map .str)) c.requiredKeywords),
    ("expects_fallback", optionalJson .bool c.expectsFallback), ("judge_scores", optionalJson JsonObject.json c.judgeScores),
    ("generation_context_sha256", optionalJson .str c.generationContextSha256),
    ("judge_context_sha256", optionalJson .str c.judgeContextSha256),
    ("generation_binding", optionalJson .str c.generationBinding), ("judge_binding", optionalJson .str c.judgeBinding)]

theorem optionalJson_distinct {α : Type} {f : α → Json} (h : ∀ a, (f a).distinctKeys = true) (x : Option α) :
    (optionalJson f x).distinctKeys = true := by
  cases x with
  | none => rfl
  | some a => exact h a

theorem inputFields_distinct (c : Native.NativeCaseInput) : (Json.obj (inputFields c)).distinctKeys = true := by
  have text : ∀ x : Option String, (optionalJson Json.str x).distinctKeys = true := optionalJson_distinct fun _ => rfl
  have words : ∀ ws : List String, (Json.arr (ws.map .str)).distinctKeys = true := by
    intro ws
    rw [Json.distinctKeys_arr]
    intro j mem
    obtain ⟨w, -, rfl⟩ := List.mem_map.1 mem
    rfl
  refine (Json.distinctKeys_obj _).2 ⟨by simp [inputFields], ?_⟩
  simp only [inputFields, List.mem_cons, List.not_mem_nil, or_false, forall_eq_or_imp, forall_eq]
  exact ⟨rfl, text _, text _, text _, optionalJson_distinct words _, optionalJson_distinct (fun _ => rfl) _,
    optionalJson_distinct JsonObject.distinct _, text _, text _, text _, text _⟩

/-- What `commit_case` is given. -/
def caseResult (case_ : FrozenCase) (input : Native.NativeCaseInput) (metrics : List Native.CaseMetricResult)
    (promptHash : String) : JsonObject where
  fields := [("case_id", .str input.caseId), ("question", .str case_.question), ("input", .obj (inputFields input)),
    ("metrics", .arr (metrics.map Native.CaseMetricResult.json)), ("judge_prompt_sha256", .str promptHash)]
  distinct := by
    refine (Json.distinctKeys_obj _).2 ⟨by simp, ?_⟩
    simp only [List.mem_cons, List.not_mem_nil, or_false, forall_eq_or_imp, forall_eq]
    refine ⟨rfl, rfl, inputFields_distinct input, ?_, rfl⟩
    rw [Json.distinctKeys_arr]
    intro j mem
    obtain ⟨r, -, rfl⟩ := List.mem_map.1 mem
    exact Json.orderly_distinctKeys r.json_orderly

/-! ## Reading the committed cases -/

/-- The value under a key. -/
def valueAt (o : JsonObject) (key : String) : Option JsonValue :=
  match found : o.get? key with
  | some j => some ⟨j, ((Json.distinctKeys_obj _).1 o.distinct).2 _ (Json.lookup_mem found)⟩
  | none => none

def badField : Exn :=
  raising (.python .typeError) "field of another type"

/-- A text. -/
def text? : Json → Option String
  | .str text => some text
  | _ => none

/-- A text or null. -/
def readText (input : JsonObject) (key : String) : Except Exn (Option String) :=
  match input.get? key with
  | some (.str text) => pure (some text)
  | some .null => pure none
  | _ => throw badField

/-- `tuple(row["input"]["required_keywords"])`. -/
def readWords (input : JsonObject) : Except Exn (List String) :=
  match input.get? "required_keywords" with
  | some (.arr items) => Checked.orRaise (textItems items) badField
  | _ => throw badField

def readFlag (input : JsonObject) : Except Exn (Option Bool) :=
  match input.get? "expects_fallback" with
  | some (.bool b) => pure (some b)
  | some .null => pure none
  | _ => throw badField

def readScores (input : JsonObject) : Except Exn (Option JsonObject) := do
  let value ← Checked.orRaise (valueAt input "judge_scores") badField
  if value.json = .null then pure none
  else some <$> Checked.orRaise value.object? badField

def inputNames : List String :=
  ["case_id", "answer", "rendered_context", "ground_truth", "required_keywords", "expects_fallback", "judge_scores",
    "generation_context_sha256", "judge_context_sha256", "generation_binding", "judge_binding"]

/-- `NativeCaseInput(**row["input"])`, its fields of their types. -/
def readInput (row : JsonObject) : Except Exn Native.NativeCaseInput := do
  let value ← Checked.orRaise (valueAt row "input") (raising (.python .keyError) "input")
  let input ← Checked.orRaise value.object? badField
  Checked.require ((input.keys.all (inputNames.contains ·) && inputNames.all (input.keys.contains ·)) = true)
    (raising (.python .typeError) "unexpected or missing keyword argument")
  let caseId ← Checked.orRaise ((input.get? "case_id").bind text?) badField
  let answer ← readText input "answer"
  let renderedContext ← readText input "rendered_context"
  let groundTruth ← readText input "ground_truth"
  let words ← readWords input
  let expectsFallback ← readFlag input
  let judgeScores ← readScores input
  let generationContextSha256 ← readText input "generation_context_sha256"
  let judgeContextSha256 ← readText input "judge_context_sha256"
  let generationBinding ← readText input "generation_binding"
  let judgeBinding ← readText input "judge_binding"
  pure {
    caseId := caseId, answer, renderedContext, groundTruth, requiredKeywords := some words, expectsFallback, judgeScores,
    generationContextSha256, judgeContextSha256, generationBinding, judgeBinding }

/-! ## Steps of a worker -/

/-- `_job`. -/
def jobOf (repo : JobRepository) (jobId : String) (db : Store) : Except Exn DurableJob := do
  let job ← lift (jobIn repo.forbidden db.jobs jobId)
  Checked.require (job.jobNamespace = .evaluation ∧ job.jobType = evaluationJobType)
    (pythonError (notFoundError "evaluation job does not exist"))
  pure job

def readJob (jobId : String) : Run DurableJob :=
  .look fun a s => jobOf a.repo jobId s.store

/-- A transaction of the job repository or of the evaluation store. -/
def onStore {β : Type} (f : JobRepository → Store → Except Exn (Store × β)) : Run β :=
  .transact fun a s => (f a.repo s.store).map fun r => ({ s with store := r.1 }, r.2)

/-- A mutator of the job repository. -/
def onJobs (f : JobRepository → JobStore → Except PyError (JobStore × DurableJob)) : Run DurableJob :=
  onStore fun repo db => (lift (f repo db.jobs)).map fun r => ({ db with jobs := r.1 }, r.2)

/-- `_check_cancel`. -/
def checkCancel (jobId : String) : Run Unit := do
  let job ← readJob jobId
  if job.state = .cancelling then .fail (raising .cancelled "") else pure ()

/-- The reservation of a slot; from now on it is the worker's to use. -/
def reserve (worker : Nat) (slot : Slot) : Run Nat :=
  .transact fun a s => (reserveAttempt a.repo slot.jobId slot.caseId slot.phase s.store).map fun r =>
    ({ s with store := r.1, owner := fun j => if j = worker then some slot else s.owner j }, r.2)

/-- The call of the provider for the reserved slot. -/
def invoke {β : Type} (worker : Nat) (slot : Slot) (prompt : String) (reply : Outside → Option β) : Run β :=
  .step (fun s _ => { s with owner := fun j => if j = worker then none else s.owner j, calls := s.calls ++ [⟨slot, prompt⟩] })
    fun _ a => .ofExcept (rewrap .providerFailed "" (Checked.orRaise (reply a) (raising (.python .injected) "provider")))

/-- `_attempt`. -/
def attempt {β : Type} (worker : Nat) (slot : Slot) (prompt : String) (reply : Outside → Option β) : Run β := do
  checkCancel slot.jobId
  let _ ← reserve worker slot
  invoke worker slot prompt reply

/-- The postprocessor with `corrected_call` as its way to generate; what that raises becomes an
`AnswerCompletionError`. -/
def completed (worker : Nat) (slot : Slot) : Completion → Run String
  | .answer text => .done text
  | .raise e => .fail e
  | .correct prompt next =>
    .bind (fun text => completed worker slot (next text))
      (.handle (fun e => .fail (e.wrapped .answerCompletion e.raised.message))
        (attempt worker slot prompt (·.text)))

section Worker

variable (m : Native.Machine) (tools : Tools)

/-- The native input of an answered and judged case. -/
def nativeInput (binding : Native.NativeReportBinding) (caseId answer : String) (scores : JsonObject) (case_ : FrozenCase) :
    Except Exn Native.NativeCaseInput := do
  let generationBinding ← Checked.orRaise (text? binding.generationBinding) badField
  let judgeBinding ← Checked.orRaise (text? binding.judgeBinding) badField
  pure {
    caseId := caseId, answer := some answer, renderedContext := some case_.context, groundTruth := some case_.groundTruth,
    requiredKeywords := some case_.requiredKeywords, expectsFallback := some case_.expectsFallback, judgeScores := some scores,
    generationContextSha256 := some (m.fingerprintOf case_.context), judgeContextSha256 := some (m.fingerprintOf case_.context),
    generationBinding := some generationBinding, judgeBinding := some judgeBinding }

/-- The generation, correction and judging of one case; the result to commit. -/
def answerCase (worker : Nat) (jobId caseId : String) (binding : Native.NativeReportBinding) (case_ : FrozenCase) :
    Run JsonObject := do
  let draft ← attempt worker ⟨jobId, caseId, .generation⟩ (tools.generationPrompt case_) (·.text)
  let answer ← completed worker ⟨jobId, caseId, .correction⟩ (tools.postprocess case_ draft)
  let prompt := tools.judgePrompt case_ answer
  let raw ← attempt worker ⟨jobId, caseId, .judging⟩ prompt (·.scores)
  let scores ← .ofExcept (scoresOf raw)
  let input ← .ofExcept (nativeInput m binding caseId answer scores case_)
  let result ← .ofExcept (lift (Native.evaluateCase m binding input))
  pure (caseResult case_ input result.metrics (m.fingerprintOf prompt))

/-- One round of the loop over the cases. -/
def runCase (worker : Nat) (jobId : String) (snapshot : JsonObject) (binding : Native.NativeReportBinding) (total : Nat)
    (_job : DurableJob) (entry : FrozenCase × Nat) : Run DurableJob := do
  checkCancel jobId
  let ids ← .ofExcept (required "case_ids" snapshot.fields)
  let caseId ← .ofExcept (textAt ids entry.2)
  let hashes ← .ofExcept (required "context_hashes" snapshot.fields)
  let hash ← .ofExcept (textAt hashes entry.2)
  .ofExcept (Checked.require (m.fingerprintOf entry.1.context = hash) (raising .frozenPlan "frozen rendered evidence changed"))
  let result ← answerCase m tools worker jobId caseId binding entry.1
  onStore fun repo db => commitCase repo jobId entry.2 caseId result db
  checkCancel jobId
  let current ← readJob jobId
  onJobs fun repo db => reportProgress repo jobId current.revision ⟨some "execute_cases", some (entry.2 + 1), some total⟩ db

/-- A step of the job by its position. -/
def stepAt (job : DurableJob) (i : Nat) : Except Exn JobStep :=
  Checked.orRaise job.steps[i]? (raising .indexError "tuple index out of range")

/-- `transition_step` of the step at a position of the job as it was last read. -/
def moveStep (jobId : String) (job : DurableJob) (i : Nat) (target : JobStepState) : Run DurableJob := do
  let step ← .ofExcept (stepAt job i)
  onJobs fun repo db => transitionStep repo jobId step.stepId job.revision step.revision target db

/-- The preparation of a run: the frozen cases and the binding. -/
def prepare (snapshot : JsonObject) : Run (List FrozenCase × Native.NativeReportBinding) := do
  .ofExcept (tools.assertRuntimeBinding snapshot)
  let digest ← .ofExcept (required "artifact_digest" snapshot.fields)
  let content ← .look fun _ s => rewrap .frozenPlan "frozen artifact is unavailable or corrupt" do
    let digest ← Checked.orRaise (text? digest) badField
    artifact digest s.store
  let cases ← .ofExcept (tools.validateArtifact content)
  let hashes ← .ofExcept (required "case_hashes" snapshot.fields)
  .ofExcept (Checked.require (hashes = .arr (cases.map fun c => .str c.caseHash)) (raising .frozenPlan "frozen case identity changed"))
  let binding ← .ofExcept (bindingOf snapshot)
  .look fun a _ => Checked.require (a.factory = true) (raising .providerFailed "")
  pure (cases, binding)

def nativeProtocolErrors : List ErrorKind :=
  [.nativeProtocol, .missingGroundTruth, .emptyEvaluationSet, .corruptNativeReport, .unsupportedNativeProtocolVersion,
    .unknownNativeMetric, .incompatibleNativeReports]

/-- `except (NativeProtocolError, EvaluationStoreError)`. -/
def isReportError (e : Exn) : Bool :=
  match e.raised.kind with
  | .evaluationStore | .evaluationBudgetExhausted => true
  | .python kind => nativeProtocolErrors.contains kind
  | _ => false

/-- The aggregation of the committed cases into the stored report. -/
def aggregateReport (jobId : String) (binding : Native.NativeReportBinding) (inputs : List Native.NativeCaseInput) :
    Run Native.NativeReport :=
  .handle (fun e => .fail (if isReportError e = true then e.wrapped .reportFailed "" else e)) do
    let report ← .ofExcept (lift (Native.buildNativeReport m jobId inputs binding))
    .ofExcept (Checked.require (report.status = .complete) (raising .reportFailed "native report is incomplete"))
    onStore fun repo db => commitReport m repo jobId report db
    pure report

theorem outcome_distinct (digest : String) (consumed : Nat) :
    (Json.obj [("report_digest", .str digest), ("budget_consumed", .int consumed)]).distinctKeys = true := by
  rw [Json.distinctKeys_obj]
  simp [Json.distinctKeys, Json.all]

/-- The end of a run: the report of the committed cases, and the job's success. -/
def conclude (jobId : String) (binding : Native.NativeReportBinding) (total : Nat) (job : DurableJob) : Run Unit := do
  let rows ← .look fun _ s => allCases jobId s.store
  .ofExcept (Checked.require (rows.length = total) (storeError "frozen cases are incomplete"))
  let inputs ← .ofExcept (Checked.collect readInput rows)
  let report ← aggregateReport m jobId binding inputs
  checkCancel jobId
  let job ← moveStep jobId job 1 .succeeded
  let consumed ← .look fun _ s => pure (s.store.attemptedCount jobId)
  let _ ← onJobs fun repo db => transitionJob repo jobId job.revision .succeeded
    (some ⟨_, outcome_distinct report.digest consumed⟩) none none db
  pure ()

/-- The work of a claimed job. -/
def execute (worker : Nat) (jobId : String) (claimed : DurableJob) : Run Unit := do
  let (cases, binding) ← prepare tools claimed.payload
  let job ← moveStep jobId claimed 0 .running
  let job ← onJobs fun repo db => reportProgress repo jobId job.revision ⟨some "execute_cases", some 0, some cases.length⟩ db
  let job ← .fold (runCase m tools worker jobId claimed.payload binding cases.length) job cases.zipIdx
  let job ← moveStep jobId job 0 .succeeded
  let job ← moveStep jobId job 1 .running
  conclude m jobId binding cases.length job

end Worker

/-! ## Failures -/

def conflicts (e : Exn) : Bool :=
  e.raised.kind = .python .jobConflict

/-- `_finish_failure`, the rounds that are left. -/
def finishFailure (jobId code message : String) : Nat → Run Unit
  | 0 => .fail (pythonError (conflictError "evaluation terminal revision conflict"))
  | rounds + 1 => do
    let current ← readJob jobId
    let finish : Run Unit :=
      if current.state = .cancelling then do
        let _ ← onJobs fun repo db => acknowledgeCancellation repo jobId current.revision none db
        pure ()
      else if current.state = .running then do
        let _ ← onJobs fun repo db => transitionJob repo jobId current.revision .failed none (some code) (some message) db
        pure ()
      else pure ()
    finish.handle fun e => if conflicts e = true then finishFailure jobId code message rounds else .fail e

/-- The first causes of an exception, itself included. -/
def Exn.chain (e : Exn) : List ErrorClass :=
  ((e.raised :: e.causes).take 4).map (·.kind)

/-- `isinstance(error, (KeyError, TypeError, ValueError))`. -/
def isCaseError : ErrorClass → Bool
  | .evaluationStore | .evaluationBudgetExhausted | .frozenPlan => true
  | .python kind => kind = .keyError || kind = .typeError || kind = .valueError || nativeProtocolErrors.contains kind
  | _ => false

/-- The fixed code and message an exception is persisted as. -/
def failureOf (e : Exn) : String × String :=
  if e.chain.contains .evaluationBudgetExhausted = true then ("budget_exhausted", "Frozen provider attempt budget exhausted")
  else if e.chain.contains .frozenPlan = true then ("invalid_frozen_snapshot", "Frozen evaluation binding is invalid")
  else if e.chain.contains .providerFailed = true then ("provider_failure", "Evaluation provider call failed")
  else if e.chain.contains .reportFailed = true then ("report_validation_failure", "Native evaluation report did not validate")
  else if isCaseError e.raised.kind = true then ("case_failure", "Evaluation case result is invalid")
  else ("infrastructure_failure", "Evaluation worker failed")

/-- The `except` clauses of `run`. -/
def recover (jobId : String) (e : Exn) : Run Unit :=
  if e.raised.kind = .cancelled then finishFailure jobId "infrastructure_failure" "Evaluation worker stopped" 3
  else do
    let current ← readJob jobId
    if current.state = .cancelling then finishFailure jobId "infrastructure_failure" "Evaluation worker stopped" 3
    else if current.state = .running then finishFailure jobId (failureOf e).1 (failureOf e).2 3
    else pure ()

/-- The claim of a queued job, `none` where another worker was faster. -/
def claim (jobId : String) (job : DurableJob) : Run (Option DurableJob) :=
  .handle (fun e => if e.raised.kind = .python .jobConflict ∨ e.raised.kind = .python .jobTransition then .done none else .fail e)
    (some <$> onJobs fun repo db => transitionJob repo jobId job.revision .running none none none db)

/-- `run`. -/
def run (m : Native.Machine) (tools : Tools) (worker : Nat) (jobId : String) : Run Unit := do
  let job ← readJob jobId
  if job.state = .queued then do
    let claimed ← claim jobId job
    claimed.elim (pure ()) fun job => (execute m tools worker jobId job).handle (recover jobId)
  else pure ()

/-! ## The service -/

/-- What is asked of the service and, through the same database, of the others. -/
inductive Request where
  | run (jobId : String)
  | registerArtifact (content : String)
  | call (call : JobCall)

/-- The job a call would mark as succeeded. -/
def success? : JobCall → Option String
  | .transitionJob jobId _ .succeeded _ _ _ => some jobId
  | _ => none

/-- A call of anybody else. Who marks a job as succeeded has read it before, and goes on only
with a job of a namespace of its own. -/
def foreignCall (repo : JobRepository) (call : JobCall) (db : Store) : Except Exn (Store × JobReply) := do
  Checked.require (((success? call).bind db.jobs.job?).all (fun r => r.jobNamespace ≠ .evaluation) = true)
    (pythonError (notFoundError "job does not exist"))
  jobBody repo call db

/-- How a request is served. -/
def serve (m : Native.Machine) (tools : Tools) (worker : Nat) : Request → Run Unit
  | .run jobId => run m tools worker jobId
  | .registerArtifact content => do
    let _ ← onStore fun repo db => registerArtifact repo content db
    pure ()
  | .call call => do
    let _ ← onStore fun repo db => foreignCall repo call db
    pure ()

end EvaluationJobs
