import DocumentQa.Agent.Evaluation
import DocumentQa.Jobs.Invariants
import DocumentQa.Lib.Json.Chars
import DocumentQa.Lib.Numbered

/-!
# Pages of the event log of a run

`GET /agent/runs/{run_id}/events`: the events behind `Last-Event-ID`, at most a hundred of them,
each framed for the stream. The run is looked up in one transaction and its events are read in the
next, so a writer can come in between.
-/

namespace Jobs

def JobEventType.text : JobEventType → String
  | .created => "created"
  | .stateChanged => "state_changed"
  | .progress => "progress"
  | .stepChanged => "step_changed"
  | .cancellationRequested => "cancellation_requested"
  | .cancelled => "cancelled"
  | .interrupted => "interrupted"
  | .agentDecision => "agent_decision"

end Jobs

namespace Agent

open Python JsonText Jobs SqlTable

/-- `AGENT_JOB_TYPE`. -/
def agentJobType : String := "bounded_agent_run"

/-- `"job_" + match.group(1)`. -/
def jobName (runId : String) : String :=
  "job_" ++ String.ofList (runId.toList.drop 6)

/-- `_job_id`. -/
def jobIdOf (runId : String) : Except PyError String := do
  Checked.require (isRunId runId = true) (notFoundError "Agent run does not exist")
  pure (jobName runId)

/-- `_job`. -/
def runJob (repo : JobRepository) (runId : String) (db : JobStore) : Except PyError DurableJob := do
  let jobId ← jobIdOf runId
  let job ← jobIn repo.forbidden db jobId
  Checked.require (job.jobNamespace = .agent ∧ job.jobType = agentJobType) (notFoundError "Agent run does not exist")
  pure job

/-- `WHERE job_id = ? AND sequence > ? ORDER BY sequence LIMIT ?`. -/
def eventPage (db : JobStore) (jobId : String) (afterSequence limit : Nat) : List EventRow :=
  let rows := db.events.select fun e => e.jobId = jobId && afterSequence < e.sequence
  (rows.insertionSort fun a b => a.sequence ≤ b.sequence).take limit

/-- `list_agent_events`. -/
def listAgentEvents (repo : JobRepository) (jobId : String) (afterSequence limit : Nat) (db : JobStore) :
    Except PyError (List AgentJobEvent) := do
  Checked.require (1 ≤ limit ∧ (limit : Int) ≤ maxListLimit) (limitError "event list limit is out of bounds")
  let job ← jobIn repo.forbidden db jobId
  Checked.require (job.jobNamespace = .agent) (notFoundError "Agent run does not exist")
  Checked.collect (agentEventFromRow repo.forbidden) (eventPage db jobId afterSequence limit)

/-! ## Views -/

/-- `AgentRunEventResponse` with the time of the event. -/
structure StreamedEvent extends AgentRunEventResponse where
  occurredAt : String

/-- `event.model_dump(mode="json")`. -/
def StreamedEvent.dump (e : StreamedEvent) : List (String × Json) :=
  [("run_id", .str e.runId), ("event_id", .str e.eventId), ("sequence", .int e.sequence), ("event_type", .str e.eventType),
    ("state", textOrNull (e.state.map JobState.text)), ("reason_code", textOrNull e.reasonCode),
    ("occurred_at", .str e.occurredAt), ("summary", (e.summary.map AgentEventSummary.json).getD .null)]

section Views

-- `AgentEventSummary.model_validate`, `none` where it raises
variable (validateSummary : JsonObject → Option AgentEventSummary)

/-- `AgentEventSummary.model_validate(row.payload) if row.payload else None`. -/
def eventSummary (payload : JsonObject) : Except PyError (Option AgentEventSummary) := do
  if payload.fields = [] then pure none
  else
    let summary ← Checked.orRaise (validateSummary payload) (dataError "persisted Agent event summary is invalid")
    pure (some summary)

/-- `_event_view`. -/
def eventView (runId : String) (row : AgentJobEvent) : Except PyError StreamedEvent := do
  let summary ← eventSummary validateSummary row.payload
  pure { toAgentRunEventResponse := ⟨runId, row.eventId, row.sequence, row.eventType.text, row.state, row.reasonCode, summary⟩
         occurredAt := row.occurredAt }

/-- `MAX_SEQUENCE`. -/
def maxSequence : Nat := 9223372036854775807

/-- `_sequence` of a `Last-Event-ID` header. -/
def lastSequence (value : List Char) : Except PyError Nat := do
  let rejected := valueError "Last-Event-ID must be a non-negative sequence"
  Checked.require (value = ['0'] ∨ value.head?.any (fun c => '1' ≤ c && c ≤ '9') = true ∧ value.all Char.isDigit = true) rejected
  Checked.require (value.length ≤ 19) rejected
  Checked.require (Nat.ofDigitChars 10 value 0 ≤ maxSequence) (valueError "Last-Event-ID is out of bounds")
  pure (Nat.ofDigitChars 10 value 0)

/-- The second half of `events`: the page behind the run's lookup. -/
def eventsBehind (repo : JobRepository) (runId : String) (afterSequence : Nat) (db : JobStore) :
    Except PyError (List StreamedEvent) := do
  let jobId ← jobIdOf runId
  let rows ← listAgentEvents repo jobId afterSequence 100 db
  Checked.collect (eventView validateSummary runId) rows

end Views

/-- One frame of `_frames`. -/
def StreamedEvent.frame (e : StreamedEvent) : List Char :=
  "id: ".toList ++ intText e.sequence ++ "\nevent: ".toList ++ e.eventType.toList ++ "\ndata: ".toList ++
    pythonPrinter.text (.obj e.dump) ++ "\n\n".toList

/-- `_frames`, joined. -/
def frames (events : List StreamedEvent) : List Char :=
  events.flatMap StreamedEvent.frame

/-! ## What a page holds -/

section Pages

variable {db : JobStore} {jobId : String}

/-- The events of a numbered log behind a number. -/
theorem eventPage_eq (numbered : Numbered.InOrder EventRow.sequence (db.eventsOf jobId)) (afterSequence limit : Nat) :
    eventPage db jobId afterSequence limit = ((db.eventsOf jobId).drop afterSequence).take limit := by
  have rows : db.events.select (fun e => e.jobId = jobId && afterSequence < e.sequence) = (db.eventsOf jobId).drop afterSequence := by
    rw [← numbered.behind, JobStore.eventsOf, Table.select, Table.select, List.filter_filter]
    congr 1
    funext e
    exact Bool.and_comm _ _
  have sorted := numbered.sorted.sublist (List.drop_sublist afterSequence (db.eventsOf jobId))
  rw [eventPage, rows, sorted.insertionSort_eq]

end Pages

/-! ## What a frame holds -/

/-- A value that prints and reads back. -/
def Dumpable (j : Json) : Prop :=
  j.distinctKeys = true ∧ j.finite = true

theorem Dumpable.text (s : String) : Dumpable (.str s) :=
  ⟨rfl, rfl⟩

theorem Dumpable.integer (i : Int) : Dumpable (.int i) :=
  ⟨rfl, rfl⟩

theorem Dumpable.textOrNull (s : Option String) : Dumpable (textOrNull s) := by
  cases s with
  | none => exact ⟨rfl, rfl⟩
  | some s => exact .text s

theorem Dumpable.arr {items : List Json} (h : ∀ j ∈ items, Dumpable j) : Dumpable (.arr items) :=
  ⟨(Json.distinctKeys_arr items).2 fun j mem => (h j mem).1, (Json.finite_arr items).2 fun j mem => (h j mem).2⟩

theorem Dumpable.obj {fields : List (String × Json)} (distinct : (fields.map Prod.fst).Nodup) (h : ∀ f ∈ fields, Dumpable f.2) :
    Dumpable (.obj fields) :=
  ⟨(Json.distinctKeys_obj fields).2 ⟨distinct, fun f mem => (h f mem).1⟩, (Json.finite_obj fields).2 fun f mem => (h f mem).2⟩

theorem EvidenceRef.dumpable (ref : EvidenceRef) : Dumpable ref.json := by
  refine .obj (by simp) fun f mem => ?_
  simp only [List.mem_cons, List.not_mem_nil, or_false] at mem
  rcases mem with rfl | rfl
  · exact .text _
  · exact .text _

theorem AgentEventSummary.dumpable (s : AgentEventSummary) : Dumpable s.json := by
  refine .obj (by simp) fun f mem => ?_
  have names : Dumpable (.arr (s.argumentNames.map .str)) := by
    refine .arr fun j mem => ?_
    obtain ⟨name, -, rfl⟩ := List.mem_map.1 mem
    exact .text name
  have refs : Dumpable (.arr (s.evidenceRefs.map EvidenceRef.json)) := by
    refine .arr fun j mem => ?_
    obtain ⟨ref, -, rfl⟩ := List.mem_map.1 mem
    exact ref.dumpable
  simp only [List.mem_cons, List.not_mem_nil, or_false] at mem
  rcases mem with rfl | rfl | rfl | rfl | rfl | rfl | rfl | rfl | rfl | rfl | rfl
  · exact .integer _
  · exact .text _
  · exact .textOrNull _
  · exact .textOrNull _
  · exact names
  · exact .text _
  · exact .integer _
  · exact refs
  · exact .integer _
  · exact .integer _
  · exact .textOrNull _

/-- **The payload of a frame** reads back. -/
theorem StreamedEvent.dumpable (e : StreamedEvent) : Dumpable (.obj e.dump) := by
  refine .obj (by simp [StreamedEvent.dump]) fun f mem => ?_
  have summary : Dumpable ((e.summary.map AgentEventSummary.json).getD .null) := by
    cases e.summary with
    | none => exact ⟨rfl, rfl⟩
    | some s => exact s.dumpable
  simp only [StreamedEvent.dump, List.mem_cons, List.not_mem_nil, or_false] at mem
  rcases mem with rfl | rfl | rfl | rfl | rfl | rfl | rfl | rfl
  · exact .text _
  · exact .text _
  · exact .integer _
  · exact .text _
  · exact .textOrNull _
  · exact .textOrNull _
  · exact .text _
  · exact summary

theorem all_of_forall {p : Json → Bool} (h : ∀ j, p j = true) (j : Json) : Json.all p j = true := by
  induction j with
  | arr items ih => exact (Json.all_arr p items).2 ⟨h _, ih⟩
  | obj fields ih => exact (Json.all_obj p fields).2 ⟨h _, ih⟩
  | _ => exact h _

/-- A character of a JSON text is no control character. -/
theorem payload_visible {j : Json} {c : Char} (mem : c ∈ pythonPrinter.text j) : 32 ≤ c.toNat := by
  have either (c : Char) : (c.toNat < 32 || decide (32 ≤ c.toNat)) = true := by
    simp only [Bool.or_eq_true, decide_eq_true_eq]
    omega
  have within : j.printsWithin (fun c => 32 ≤ c.toNat) = true := by
    refine all_of_forall (fun v => ?_) j
    split
    · exact List.all_eq_true.2 fun c _ => either c
    · exact List.all_eq_true.2 fun f _ => List.all_eq_true.2 fun c _ => either c
    · rfl
  have visible := Printer.text_within (p := pythonPrinter) (q := fun c => decide (32 ≤ c.toNat))
    (fun x c hc => pythonNumberText_graphic hc) (by simp [pythonPrinter]) (fun c graphic => ?_) within c mem
  · exact of_decide_eq_true visible
  · simp only [isGraphic, Bool.and_eq_true, decide_eq_true_eq] at graphic
    exact decide_eq_true graphic.1

end Agent
