import DocumentQa.Agent.RunView
import DocumentQa.Lib.Binary64
import DocumentQa.Lib.Sha256

/-!
# `evaluation`

What `evaluate_agent_run` asks of a finished run and its events, and the report it makes of
them: twenty-one metrics in a fixed order, the facts they rest on, the hashes of what was read
and a digest of it all.
-/

namespace Agent

open Python JsonText Jobs

def snapshotError (message : String) : PyError :=
  ⟨.corruptAgentSnapshot, message⟩

def outOfRange : PyError :=
  ⟨.valueError, "Out of range float values are not JSON compliant"⟩

/-- `_RUN_ID`: `agent_[A-Za-z0-9_-]{1,122}`. -/
def isRunId (value : String) : Bool :=
  let tail := value.toList.drop 6
  "agent_".toList.isPrefixOf value.toList && tail ≠ [] && tail.length ≤ 122 &&
    tail.all fun c => isAlnum c || c = '_' || c = '-'

/-- `[A-Za-z0-9_-]{1,128}`. -/
def isEventId (value : String) : Bool :=
  value.toList ≠ [] && value.toList.length ≤ 128 && value.toList.all fun c => isAlnum c || c = '_' || c = '-'

/-- `_SAFE_CODE.fullmatch(value)`. -/
def isSafeCode (value : String) : Bool :=
  codePattern.fullmatch value

def policyDenialCodes : List String :=
  ["tool_not_allowed", "tool_provider_required", "max_steps", "max_tool_calls", "per_tool_limit", "max_observations",
    "observation_bytes", "research_objective_required", "research_scope_mismatch", "research_search_limit"]

def invalidToolCodes : List String :=
  ["unknown_tool", "invalid_arguments"]

def toolFailureCodes : List String :=
  ["tool_unavailable", "tool_execution_failed", "invalid_observation", "observation_bytes"]

def missingReasons : List String :=
  ["no_tool_decisions", "no_admitted_tools", "no_terminal_result", "zero_tool_limit", "nonresearch", "no_evidence",
    "no_final", "no_final_refs", "source_pairs_not_persisted", "incomplete_observation_refs"]

def maxEvents : Nat := 40
def maxReportBytes : Nat := 64 * 1024

/-- `_sha`. -/
def sha (value : Json) : Except PyError String := do
  let text ← Checked.orRaise (canonicalJsonText value) outOfRange
  pure ("sha256:" ++ Sha256.hexdigest text)

/-! ## Metrics -/

inductive ValueKind where
  | boolean
  | count
  | ratio
deriving DecidableEq, Repr

def ValueKind.text : ValueKind → String
  | .boolean => "boolean"
  | .count => "count"
  | .ratio => "ratio"

inductive Direction where
  | higherIsBetter
  | lowerIsBetter
  | neutral
deriving DecidableEq, Repr

def Direction.text : Direction → String
  | .higherIsBetter => "higher_is_better"
  | .lowerIsBetter => "lower_is_better"
  | .neutral => "neutral"

/-- A definition; its ID is `native_agent.` and the suffix, its description the meaning, its version 1. -/
structure AgentMetricDefinition where
  suffix : String
  label : String
  valueKind : ValueKind
  direction : Direction
  applicability : String
  numerator : String
  denominator : Option String
  sourceFields : List String
  meaning : String
  nonMeaning : String

def metricId (suffix : String) : String :=
  "native_agent." ++ suffix

/-- `METRIC_DEFINITIONS`. -/
def metricDefinitions : List AgentMetricDefinition :=
  [⟨"execution_completed", "Execution completed", .boolean, .higherIsBetter, "terminal run",
      "run.state == succeeded and result.agent_status == completed", some "one run",
      ["run.state", "result.agent_status"], "Execution ended with an answer.",
      "Does not establish factual correctness."⟩,
    ⟨"recorded_tool_decision_count", "Recorded tool decisions", .count, .neutral, "terminal run",
      "number of tool decision events", none, ["events.summary.decision_kind"], "Counts recorded tool choices.",
      "Does not include an action without a committed event."⟩,
    ⟨"admitted_tool_call_count", "Recorded admitted tool calls", .count, .neutral, "terminal run",
      "tool events with observed or failed outcome", none, ["events.summary.outcome"],
      "Counts recorded calls admitted to execution.", "Does not measure optimal tool use."⟩,
    ⟨"tool_admission_fraction", "Tool admission fraction", .ratio, .higherIsBetter,
      "at least one recorded tool decision", "admitted tool events", some "all tool decision events",
      ["events.summary.decision_kind", "events.summary.outcome"],
      "Fraction of recorded tool choices admitted to execution.", "Does not mean that an admitted tool succeeded."⟩,
    ⟨"invalid_tool_attempt_count", "Invalid tool attempts", .count, .lowerIsBetter, "terminal run",
      "rejected tool events with unknown_tool or invalid_arguments", none, ["events.summary.failure_code"],
      "Counts structurally invalid recorded tool choices.", "Does not infer malicious intent."⟩,
    ⟨"policy_denial_attempt_count", "Policy denial attempts", .count, .lowerIsBetter, "terminal run",
      "rejected tool policy/research events plus decision_provider_required terminal denial", none,
      ["events.summary.failure_code", "result.failure.code"],
      "Counts recorded actions denied by frozen tool or decision-provider policy.",
      "Does not assign a security score or attacker intent."⟩,
    ⟨"duplicate_rejection_count", "Duplicate rejections", .count, .lowerIsBetter, "terminal run",
      "rejected tool events with duplicate_tool_call", none, ["events.summary.failure_code"],
      "Counts exact repeated work rejected by the loop.", "Does not detect every unnecessary call."⟩,
    ⟨"tool_failure_fraction", "Tool failure fraction", .ratio, .lowerIsBetter, "at least one admitted tool call",
      "admitted tool events with failed outcome", some "admitted tool events", ["events.summary.outcome"],
      "Fraction of admitted calls ending in a typed failure.",
      "Does not count invalid tool selection as a service failure."⟩,
    ⟨"tool_unavailable_count", "Tool unavailable count", .count, .neutral, "terminal run",
      "failed tool events with tool_unavailable", none, ["events.summary.failure_code"],
      "Counts recorded tool availability failures.", "Does not measure Agent reasoning quality."⟩,
    ⟨"invalid_final_attempt_count", "Invalid final attempts", .count, .lowerIsBetter, "terminal run",
      "rejected final decision events", none, ["events.summary.decision_kind", "events.summary.outcome"],
      "Counts recorded final-contract rejections.", "Does not verify claim truth."⟩,
    ⟨"step_budget_utilization", "Step budget utilization", .ratio, .neutral, "terminal result present",
      "result.step_count", some "frozen.limits.max_steps", ["result.step_count", "frozen.limits.max_steps"],
      "Fraction of frozen step capacity used.", "Neither high nor low use is inherently better."⟩,
    ⟨"tool_budget_utilization", "Tool budget utilization", .ratio, .neutral,
      "terminal result and positive tool limit", "result.tool_call_count", some "frozen.limits.max_tool_calls",
      ["result.tool_call_count", "frozen.limits.max_tool_calls"], "Fraction of frozen tool-call capacity used.",
      "Neither high nor low use is inherently better."⟩,
    ⟨"budget_exhausted", "Budget exhausted", .boolean, .neutral, "terminal result present",
      "result.agent_status == budget_exhausted", some "one run", ["result.agent_status"],
      "Reports the actual terminal budget outcome.", "Cannot be inferred from utilization alone."⟩,
    ⟨"decision_provider_unavailable", "Decision provider unavailable", .boolean, .neutral,
      "terminal result present", "result.failure.code == decision_provider_unavailable", some "one run",
      ["result.failure.code"], "Reports a decision-provider availability outcome.",
      "Does not mean the Agent answered incorrectly."⟩,
    ⟨"evidence_identity_validity", "Evidence identity validity", .ratio, .higherIsBetter,
      "research ledger has evidence entries", "structurally valid ledger entries", some "ledger entries",
      ["result.research.evidence"], "Checks canonical document/chunk identity consistency.",
      "Does not establish relevance, source truth or claim support."⟩,
    ⟨"final_reference_validity", "Final reference validity", .ratio, .higherIsBetter,
      "completed final has refs and complete current-run ID metadata", "current-run structured refs",
      some "final refs", ["result.evidence_refs", "result.research.evidence", "events.summary.evidence_refs"],
      "Checks structured final IDs against retained current-run source IDs.",
      "Does not resolve Source labels or verify semantic citation support."⟩,
    ⟨"objective_coverage", "Objective coverage", .ratio, .higherIsBetter, "research result present",
      "sufficient objective statuses", some "configured objectives",
      ["frozen.research.objectives", "result.research.objectives"],
      "Fraction meeting the bounded agent_research_v1 evidence threshold.", "Does not prove factual completeness."⟩,
    ⟨"unresolved_gap_fraction", "Unresolved gap fraction", .ratio, .lowerIsBetter, "research result present",
      "typed unresolved gaps", some "configured objectives",
      ["result.research.gaps", "frozen.research.objectives"],
      "Fraction of configured objectives with a typed unresolved gap.",
      "Does not prove that the answer is incorrect."⟩,
    ⟨"research_evidence_count", "Research evidence entries", .count, .neutral, "research result present",
      "canonical ledger entries", none, ["result.research.evidence"], "Counts retained canonical entries.",
      "Does not measure source relevance."⟩,
    ⟨"distinct_document_count", "Distinct documents", .count, .neutral, "research result present",
      "distinct non-null document IDs in ledger", none, ["result.research.evidence.document_id"],
      "Counts distinct represented documents.", "More documents are not automatically better."⟩,
    ⟨"distinct_chunk_count", "Distinct chunks", .count, .neutral, "research result present",
      "distinct chunk IDs in ledger", none, ["result.research.evidence.chunk_id"],
      "Counts distinct represented chunks.", "More chunks are not automatically better."⟩]

/-- `asdict(definition)`; the canonical text sorts the keys, so they are listed sorted. -/
def AgentMetricDefinition.json (d : AgentMetricDefinition) : Json :=
  .obj [("applicability", .str d.applicability), ("denominator", textOrNull d.denominator), ("description", .str d.meaning),
    ("direction", .str d.direction.text), ("label", .str d.label),
    ("maximum", if d.valueKind = .count then .null else .int 1), ("meaning", .str d.meaning),
    ("metric_id", .str (metricId d.suffix)), ("metric_version", .int 1), ("minimum", .int 0),
    ("non_meaning", .str d.nonMeaning), ("numerator", .str d.numerator),
    ("source_fields", .arr (d.sourceFields.map .str)), ("value_kind", .str d.valueKind.text)]

inductive MetricStatus where
  | computed
  | unavailable
  | notApplicable
deriving DecidableEq, Repr

def MetricStatus.text : MetricStatus → String
  | .computed => "computed"
  | .unavailable => "unavailable"
  | .notApplicable => "not_applicable"

structure AgentMetricResult where
  metricId : String
  status : MetricStatus
  value : Json
  numerator : Json
  denominator : Json
  reasonCode : Json
deriving DecidableEq

def AgentMetricResult.json (r : AgentMetricResult) : Json :=
  .obj [("denominator", r.denominator), ("metric_id", .str r.metricId), ("metric_version", .int 1),
    ("numerator", r.numerator), ("reason_code", r.reasonCode), ("status", .str r.status.text), ("value", r.value)]

/-- `_count`. -/
def count (suffix : String) (value : Nat) : AgentMetricResult :=
  ⟨metricId suffix, .computed, .int value, .int value, .null, .null⟩

/-- `_boolean`. -/
def boolean (suffix : String) (value : Bool) : AgentMetricResult :=
  ⟨metricId suffix, .computed, .bool value, .int (if value then 1 else 0), .int 1, .null⟩

/-- `round(numerator / denominator, 4)`, for denominators too small for a tie or a rounding to matter. -/
def fourDecimals (numerator denominator : Nat) : Double :=
  .ofScaled false (Binary64.roundHalfEven (10000 * numerator) denominator) (-4)

/-- `_ratio`. -/
def ratio (suffix : String) (numerator denominator : Nat) : Except PyError AgentMetricResult := do
  Checked.require (0 < denominator ∧ numerator ≤ denominator) (snapshotError "invalid Agent ratio inputs")
  pure ⟨metricId suffix, .computed, .float (fourDecimals numerator denominator), .int numerator, .int denominator, .null⟩

/-- `_missing`; every reason that is given is a known one. -/
def missing (suffix : String) (status : MetricStatus) (reason : String) : AgentMetricResult :=
  ⟨metricId suffix, status, .null, .null, .null, .str reason⟩

/-- `_ratio(...) if denominator else _missing(...)`. -/
def ratioOr (suffix : String) (numerator denominator : Nat) (reason : String) : Except PyError AgentMetricResult :=
  if denominator = 0 then pure (missing suffix .notApplicable reason) else ratio suffix numerator denominator

/-! ## The snapshot -/

/-- Whether an event's identifiers are safe. -/
def safeEvent (e : AgentRunEventResponse) : Bool :=
  isEventId e.eventId && isSafeCode e.eventType && e.reasonCode.all isSafeCode

/-- What is asked of a result under its plan. -/
def resultFits (run : AgentRunResponse) (result : AgentDurableResult) : Bool :=
  let limits := run.frozen.limits
  result.stepCount ≤ limits.maxSteps && result.decisionCallCount ≤ limits.maxSteps &&
    result.toolCallCount ≤ limits.maxToolCalls && result.observationCount ≤ limits.maxObservations &&
    result.stepCount ≤ result.decisionCallCount &&
    (toolNames.all fun tool => result.perToolCalls.get tool ≤ limits.perToolCalls.get tool) &&
    (toolNames.all fun tool => result.perToolCalls.get tool = 0 || run.frozen.allowedTools.elem tool) &&
    run.frozen.research.isNone = result.research.isNone &&
    (result.agentStatus ≠ .completed || result.failure.isNone) &&
    match run.failure, result.failure with
    | some ran, some failed => ran.code = failed.code
    | _, _ => true

/-- `_validate_snapshot`, for values their models accept; every check raises the same. -/
def validateSnapshot (run : AgentRunResponse) (events : List AgentRunEventResponse) : Except PyError Unit := do
  let invalid := snapshotError "Agent evaluation snapshot is invalid"
  Checked.require (isRunId run.runId = true ∧ run.state.terminal = true) invalid
  Checked.require (2 ≤ events.length ∧ events.length ≤ maxEvents ∧ run.revision = events.length) invalid
  Checked.require (events.map (·.sequence) = (List.range events.length).map fun k => (k : Int) + 1) invalid
  Checked.require (∀ e ∈ events, e.runId = run.runId) invalid
  Checked.require (events.map (·.eventId)).Nodup invalid
  Checked.require (run.failure.all (isSafeCode ·.code) = true) invalid
  Checked.require (events.all safeEvent = true) invalid
  Checked.require (events.head?.any (fun e => e.eventType = "created" && e.state = some .queued) = true) invalid
  Checked.require (events.getLast?.any (fun e => e.state = some run.state) = true) invalid
  Checked.require (run.state = .succeeded ∨ run.state = .failed →
    events.getLast?.any (fun e => e.eventType = "state_changed") = true) invalid
  Checked.require (run.state = .interrupted → events.getLast?.any (fun e => e.eventType = "interrupted") = true) invalid
  Checked.require (isSha256Text run.configurationFingerprint = true) invalid
  let plan ← Checked.orRaise (canonicalJsonText run.frozen.json) invalid
  Checked.require (Sha256.hexdigest plan = run.configurationFingerprint) invalid
  Checked.require (run.state = .succeeded → run.result.any (fun r => r.agentStatus = .completed) = true) invalid
  Checked.require (run.state ≠ .succeeded → run.result.all (fun r => r.agentStatus ≠ .completed) = true) invalid
  Checked.require (run.state = .interrupted → run.result.isNone = true) invalid
  Checked.require (run.result.all (resultFits run) = true) invalid

/-! ## Decisions -/

def AgentEventSummary.isTool (s : AgentEventSummary) : Bool :=
  s.decisionKind = .tool

/-- A tool decision that was carried out. -/
def AgentEventSummary.admitted (s : AgentEventSummary) : Bool :=
  s.decisionKind = .tool && (s.outcome = .observed || s.outcome = .failed)

def AgentEventSummary.calls (s : AgentEventSummary) (tool : ToolName) : Bool :=
  s.toolName = some tool.text

/-- The checks of a tool decision. -/
def checkTool (run : AgentRunResponse) (s : AgentEventSummary) : Except PyError Unit := do
  Checked.require (s.toolName.any isSafeCode = true) (snapshotError "tool decision name is unsafe")
  Checked.require (s.outcome ≠ .completed) (snapshotError "tool decision outcome is invalid")
  Checked.require (s.outcome = .failed → s.failureCode.any (toolFailureCodes.elem ·) = true)
    (snapshotError "tool failure category is invalid")
  Checked.require (s.outcome = .rejected →
      s.failureCode.any (fun c => policyDenialCodes.elem c || invalidToolCodes.elem c || c = "duplicate_tool_call") = true)
    (snapshotError "rejected tool category is invalid")
  Checked.require (s.outcome = .observed ∨ s.outcome = .failed → run.frozen.allowedTools.any s.calls = true)
    (snapshotError "unregistered or denied tool was recorded as admitted")

/-- The checks by the kind of a decision. -/
def checkKind (run : AgentRunResponse) (s : AgentEventSummary) : Except PyError Unit :=
  match s.decisionKind with
  | .tool => checkTool run s
  | .final =>
    Checked.require (s.toolName = none ∧ (s.outcome = .completed ∨ s.outcome = .rejected))
      (snapshotError "final decision event is invalid")
  | .invalid =>
    Checked.require (s.toolName = none ∧ s.outcome = .rejected) (snapshotError "invalid decision event is malformed")

/-- The checks of a decision behind `count` others that left the counters at `lastStep` and `lastTools`. -/
def checkDecision (run : AgentRunResponse) (state : Option JobState) (count lastStep lastTools : Nat)
    (s : AgentEventSummary) : Except PyError Unit := do
  Checked.require (state = some .running) (snapshotError "Agent decision event lacks a running summary")
  Checked.require (s.decisionIndex = count + 1) (snapshotError "Agent decision indexes are not ordered")
  Checked.require (lastStep ≤ s.stepCount ∧ lastTools ≤ s.toolCallCount ∧ s.stepCount ≤ run.frozen.limits.maxSteps ∧
      s.toolCallCount ≤ run.frozen.limits.maxToolCalls)
    (snapshotError "Agent decision counters are inconsistent")
  Checked.require (s.stepCount = (if s.decisionKind = .invalid then lastStep else lastStep + 1) ∧
      s.toolCallCount = lastTools + (if s.admitted then 1 else 0))
    (snapshotError "Agent decision counters do not match action outcome")
  Checked.require (s.evidenceRefs.length = min s.evidenceCount 8)
    (snapshotError "Agent event evidence projection is inconsistent")
  Checked.require (s.outcome = .observed ∨ s.outcome = .completed → s.failureCode = none)
    (snapshotError "successful decision has failure code")
  Checked.require (s.outcome = .rejected ∨ s.outcome = .failed → s.failureCode.any (failureCodes.elem ·) = true)
    (snapshotError "failed decision lacks typed failure code")
  checkKind run s

/-- The decisions among the events, and the counters they leave. -/
structure Decisions where
  summaries : List AgentEventSummary
  lastStep : Nat
  lastTools : Nat

/-- The loop of `_decision_events`. -/
def decisionEvents (run : AgentRunResponse) (count lastStep lastTools : Nat) :
    List AgentRunEventResponse → Except PyError Decisions
  | [] => pure ⟨[], lastStep, lastTools⟩
  | item :: rest =>
    match item.summary with
    | none => do
      Checked.require (item.eventType ≠ "agent_decision") (snapshotError "Agent decision event lacks a running summary")
      decisionEvents run count lastStep lastTools rest
    | some s => do
      Checked.require (item.eventType = "agent_decision") (snapshotError "non-decision event has Agent summary")
      checkDecision run item.state count lastStep lastTools s
      let later ← decisionEvents run (count + 1) s.stepCount s.toolCallCount rest
      pure { later with summaries := s :: later.summaries }

/-- What `_decision_events` asks of a result. -/
def checkResult (result : AgentDurableResult) (d : Decisions) : Except PyError Unit := do
  Checked.require (d.summaries.length ≤ result.decisionCallCount ∧ d.lastStep ≤ result.stepCount ∧
      d.lastTools ≤ result.toolCallCount)
    (snapshotError "Agent events exceed terminal counters")
  let admitted := d.summaries.filter (·.admitted)
  Checked.require (admitted.length = result.toolCallCount ∧
      (admitted.filter (·.outcome = .observed)).length = result.observationCount)
    (snapshotError "Agent tool counters disagree with events")
  Checked.require (toolNames.all (fun tool => (admitted.filter (·.calls tool)).length = result.perToolCalls.get tool) = true)
    (snapshotError "Agent per-tool counters disagree with events")
  let finals := d.summaries.filter fun s => s.decisionKind = .final && s.outcome = .completed
  if result.agentStatus = .completed then
    Checked.require (finals.length = 1 ∧ finals.all (fun s => s.evidenceCount = result.evidenceRefs.length &&
        s.evidenceRefs = result.evidenceRefs.take 8) = true)
      (snapshotError "completed final references disagree with event")
  else
    Checked.require (finals = []) (snapshotError "non-completed Agent result has completed final event")

/-- `_decision_events`. -/
def decisionsOf (run : AgentRunResponse) (events : List AgentRunEventResponse) :
    Except PyError (List AgentEventSummary) := do
  let d ← decisionEvents run 0 0 0 events
  match run.result with
  | none => pure d.summaries
  | some result => do
    checkResult result d
    pure d.summaries

/-! ## Research -/

/-- `[A-Z0-9.-]`. -/
def isSymbolChar (c : Char) : Bool :=
  c.isUpper || c.isDigit || c = '.' || c = '-'

/-- `[A-Z][A-Z0-9.-]{0,9}`. -/
def isSymbol : List Char → Bool
  | [] => false
  | c :: cs => c.isUpper && cs.length ≤ 9 && cs.all isSymbolChar

/-- `re.match(r"([A-Z][A-Z0-9.-]{0,9})[_-]", chunk_id).group(1)`: the longest that is followed so. -/
def chunkTicker (chunkId : List Char) : Option (List Char) :=
  ((List.range' 1 10).reverse.find? fun k =>
    isSymbol (chunkId.take k) && (chunkId.drop k).head?.any fun c => c = '_' || c = '-').map chunkId.take

/-- `re.match(r"[A-Z][A-Z0-9.-]{0,9}_(\d{18})_", chunk_id).group(1)`. -/
def chunkAccession (chunkId : List Char) : Option (List Char) :=
  let rest := chunkId.dropWhile (· ≠ '_')
  let digits := (rest.drop 1).take 18
  if isSymbol (chunkId.takeWhile (· ≠ '_')) && digits.length = 18 && digits.all Char.isDigit && (rest.drop 19).head? = some '_'
  then some digits else none

/-- `\d{10}-\d{2}-\d{6}`: the digits. -/
def accessionDigits (cs : List Char) : Option (List Char) :=
  let digits := cs.filter (· ≠ '-')
  if cs = digits.take 10 ++ '-' :: ((digits.drop 10).take 2 ++ '-' :: digits.drop 12) && digits.length = 18 && digits.all Char.isDigit
  then some digits else none

/-- `_validate_source_pair` returns. -/
def sourcePairFits (documentId : Option String) (chunkId : String) : Bool :=
  match documentId with
  | none => true
  | some documentId =>
    let cs := documentId.toList
    let ticker := cs.takeWhile (· ≠ ':')
    if !isSymbol ticker || (cs.dropWhile (· ≠ ':')).isEmpty then true
    else (chunkTicker chunkId.toList).all (· = ticker) &&
      (accessionDigits ((cs.dropWhile (· ≠ ':')).drop 1)).all fun digits => (chunkAccession chunkId.toList).all (· = digits)

/-- `_ticker`. -/
def tickerOf (documentId : Option String) : Option (List Char) :=
  documentId.bind fun documentId =>
    let cs := documentId.toList
    let rest := (cs.dropWhile (· ≠ ':')).drop 1
    if isTicker (cs.takeWhile (· ≠ ':')) && rest ≠ [] && rest.all fun c => isAlnum c || c = '_' || c = '.' || c = '-'
    then some (cs.takeWhile (· ≠ ':')) else none

def ResearchConfig.expectedCoverage (c : ResearchConfig) (evidenceCount : Nat) : ResearchCoverage :=
  if evidenceCount = 0 then .none_ else if evidenceCount < c.minEvidencePerObjective then .some_ else .sufficient

def expectedGap (config : ResearchConfig) (summary : ResearchSummary) (status : ResearchObjectiveStatus) :
    Option ResearchGapCode :=
  if config.expectedCoverage status.evidenceCount = .sufficient then none
  else if summary.evidenceCapped then some .ledgerFull
  else if config.maxSearchAttemptsPerObjective ≤ status.searchAttempts then some .searchExhausted
  else if status.evidenceCount = 0 then some .noEvidence else some .belowThreshold

/-- The checks of one objective status. -/
def checkObjective (config : ResearchConfig) (summary : ResearchSummary) (decisions : List AgentEventSummary)
    (status : ResearchObjectiveStatus) : Except PyError Unit := do
  Checked.require (status.coverage = config.expectedCoverage status.evidenceCount ∧
      status.searchAttempts ≤ config.maxSearchAttemptsPerObjective)
    (snapshotError "research objective status is inconsistent")
  Checked.require ((summary.gaps.find? (·.objectiveId = status.objectiveId)).map (·.code) = expectedGap config summary status)
    (snapshotError "research gap category is inconsistent")
  Checked.require (status.searchAttempts = (decisions.filter fun s => s.admitted && s.calls .searchDocuments &&
      s.objectiveId = some status.objectiveId).length)
    (snapshotError "research search attempts disagree with events")

/-- The checks of one ledger entry. -/
def checkEvidence (config : ResearchConfig) (decisions : List AgentEventSummary) (item : ResearchEvidence) :
    Except PyError Unit := do
  Checked.require (sourcePairFits item.documentId item.chunkId = true)
    (snapshotError "research evidence identity is inconsistent")
  Checked.require (item.ticker.map String.toList = tickerOf item.documentId)
    (snapshotError "research evidence ticker is inconsistent")
  Checked.require (config.objectives.all (fun o => o.objectiveId ∉ item.objectiveIds || o.tickerScope.all fun scope =>
      scope = "" || some scope = item.ticker) = true)
    (snapshotError "research evidence violates objective scope")
  Checked.require (decisions.any (fun s => s.isTool && s.outcome = .observed && s.stepCount = item.firstStep &&
      s.calls item.firstTool && s.objectiveId.any (· ∈ item.objectiveIds)) = true)
    (snapshotError "research evidence lacks its first recorded tool step")

/-- The checks of `_validate_research`. -/
def checkResearch (config : ResearchConfig) (summary : ResearchSummary) (decisions : List AgentEventSummary) :
    Except PyError Unit := do
  Checked.require (summary.objectives.map (·.objectiveId) = config.objectives.map (·.objectiveId))
    (snapshotError "research objectives disagree with frozen plan")
  Checked.require (summary.evidenceCapped = true → summary.evidence.length = config.maxEvidenceEntries)
    (snapshotError "capped research ledger has impossible size")
  Checked.each (checkObjective config summary decisions) summary.objectives
  Checked.each (checkEvidence config decisions) summary.evidence

/-- `_validate_research`. -/
def validateResearch (run : AgentRunResponse) (decisions : List AgentEventSummary) :
    Except PyError (Option ResearchSummary) :=
  match run.result.bind (·.research), run.frozen.research with
  | none, _ => pure none
  | some _, none => throw (snapshotError "research objectives disagree with frozen plan")
  | some summary, some config => do
    checkResearch config summary decisions
    pure (some summary)

/-- The identities of the evidence the run observed. -/
def observedEvidence (decisions : List AgentEventSummary) : Option ResearchSummary → List (EvidenceKind × String)
  | some research => research.evidence.flatMap fun e =>
    (e.documentId.map fun id => (.documentId, id)).toList ++ [(.chunkId, e.chunkId)]
  | none => (decisions.filter fun s => s.isTool && s.outcome = .observed).flatMap fun s =>
    s.evidenceRefs.map fun ref => (ref.kind, ref.value)

/-- `_final_reference_metric`. -/
def finalReferenceMetric (run : AgentRunResponse) (decisions : List AgentEventSummary) (research : Option ResearchSummary) :
    Except PyError AgentMetricResult :=
  let suffix := "final_reference_validity"
  match run.result with
  | none => pure (missing suffix .notApplicable "no_final")
  | some result =>
    if result.agentStatus ≠ .completed then pure (missing suffix .notApplicable "no_final")
    else if result.evidenceRefs = [] then pure (missing suffix .notApplicable "no_final_refs")
    else if result.evidenceRefs.all fun ref => (ref.kind, ref.value) ∈ observedEvidence decisions research then
      ratio suffix result.evidenceRefs.length result.evidenceRefs.length
    else if research.isNone && decisions.any fun s => s.isTool && s.outcome = .observed && 8 < s.evidenceCount then
      pure (missing suffix .unavailable "incomplete_observation_refs")
    else throw (snapshotError "final reference is absent from current-run evidence")

/-! ## The report -/

structure AgentEvaluationFacts where
  terminalState : String
  agentStatus : Option String
  failureCode : Option String
  recordedPerToolCalls : List (String × Int)
  rejectedToolCodes : List (String × Int)
  gapCounts : List (String × Int)
deriving DecidableEq

structure AgentEvaluationProvenance where
  configurationFingerprint : String
  frozenPlanSha256 : String
  eventSha256 : String
  resultSha256 : Option String
  runRevision : Int
  agentProtocol : String
  researchVersion : Option String
deriving DecidableEq

/-- A report; its protocol, version and metric definitions are the ones of this module. -/
structure AgentEvaluationReport where
  runId : String
  metrics : List AgentMetricResult
  facts : AgentEvaluationFacts
  provenance : AgentEvaluationProvenance
  digest : String
deriving DecidableEq

def countersJson (rows : List (String × Int)) : Json :=
  .arr (rows.map fun row => .arr [.str row.1, .int row.2])

def AgentEvaluationFacts.json (f : AgentEvaluationFacts) : Json :=
  .obj [("agent_status", textOrNull f.agentStatus), ("failure_code", textOrNull f.failureCode),
    ("gap_counts", countersJson f.gapCounts), ("recorded_per_tool_calls", countersJson f.recordedPerToolCalls),
    ("rejected_tool_codes", countersJson f.rejectedToolCodes), ("terminal_state", .str f.terminalState)]

def AgentEvaluationProvenance.json (p : AgentEvaluationProvenance) : Json :=
  .obj [("agent_protocol", .str p.agentProtocol), ("configuration_fingerprint", .str p.configurationFingerprint),
    ("event_sha256", .str p.eventSha256), ("frozen_plan_sha256", .str p.frozenPlanSha256),
    ("research_version", textOrNull p.researchVersion), ("result_sha256", textOrNull p.resultSha256),
    ("run_revision", .int p.runRevision)]

def definitionsJson : Json :=
  .arr (metricDefinitions.map AgentMetricDefinition.json)

/-- `_report_payload`. -/
def AgentEvaluationReport.payload (r : AgentEvaluationReport) (includeDigest : Bool) : Json :=
  .obj ((if includeDigest then [("digest", .str r.digest)] else []) ++
    [("facts", r.facts.json), ("metric_definitions", definitionsJson),
      ("metrics", .arr (r.metrics.map AgentMetricResult.json)), ("protocol", .str "native-agent-evaluation"),
      ("protocol_version", .int 1), ("provenance", r.provenance.json), ("run_id", .str r.runId)])

/-- `_report_digest`. -/
def reportDigest (r : AgentEvaluationReport) : Except PyError String :=
  sha (r.payload false)

/-- What the metrics are counted from. -/
structure Tally where
  toolDecisions : List AgentEventSummary
  admitted : List AgentEventSummary
  rejected : List AgentEventSummary
  failures : List AgentEventSummary
  finalRejections : Nat

def tally (decisions : List AgentEventSummary) : Tally :=
  let toolDecisions := decisions.filter (·.isTool)
  let admitted := toolDecisions.filter fun s => s.outcome = .observed || s.outcome = .failed
  { toolDecisions
    admitted
    rejected := toolDecisions.filter (·.outcome = .rejected)
    failures := admitted.filter (·.outcome = .failed)
    finalRejections := (decisions.filter fun s => s.decisionKind = .final && s.outcome = .rejected).length }

/-- How many of the rejected decisions have one of the codes. -/
def Tally.rejectedAs (t : Tally) (codes : List String) : Nat :=
  (t.rejected.filter fun s => s.failureCode.any (codes.elem ·)).length

/-- `result.failure.code`. -/
def AgentRunResponse.resultFailure (run : AgentRunResponse) : Option String :=
  run.result.bind fun result => result.failure.map (·.code)

/-- The metrics of the decisions. -/
def decisionMetrics (run : AgentRunResponse) (t : Tally) : Except PyError (List AgentMetricResult) := do
  let admission ← ratioOr "tool_admission_fraction" t.admitted.length t.toolDecisions.length "no_tool_decisions"
  let failure ← ratioOr "tool_failure_fraction" t.failures.length t.admitted.length "no_admitted_tools"
  pure [boolean "execution_completed" (run.state = .succeeded),
    count "recorded_tool_decision_count" t.toolDecisions.length, count "admitted_tool_call_count" t.admitted.length, admission,
    count "invalid_tool_attempt_count" (t.rejectedAs invalidToolCodes),
    count "policy_denial_attempt_count" (t.rejectedAs policyDenialCodes +
      (if run.resultFailure = some "decision_provider_required" then 1 else 0)),
    count "duplicate_rejection_count" (t.rejectedAs ["duplicate_tool_call"]), failure,
    count "tool_unavailable_count" (t.failures.filter (·.failureCode = some "tool_unavailable")).length,
    count "invalid_final_attempt_count" t.finalRejections]

/-- The metrics of the budgets. -/
def budgetMetrics (run : AgentRunResponse) : Except PyError (List AgentMetricResult) :=
  match run.result with
  | none => pure (["step_budget_utilization", "tool_budget_utilization", "budget_exhausted",
      "decision_provider_unavailable"].map fun suffix => missing suffix .unavailable "no_terminal_result")
  | some result => do
    let steps ← ratio "step_budget_utilization" result.stepCount run.frozen.limits.maxSteps
    let tools ← ratioOr "tool_budget_utilization" result.toolCallCount run.frozen.limits.maxToolCalls "zero_tool_limit"
    pure [steps, tools, boolean "budget_exhausted" (result.agentStatus = .budgetExhausted),
      boolean "decision_provider_unavailable" (run.resultFailure = some "decision_provider_unavailable")]

def researchSuffixes : List String :=
  ["objective_coverage", "unresolved_gap_fraction", "research_evidence_count", "distinct_document_count",
    "distinct_chunk_count"]

/-- The metrics of the evidence and the objectives. -/
def researchMetrics (run : AgentRunResponse) (decisions : List AgentEventSummary) (research : Option ResearchSummary) :
    Except PyError (List AgentMetricResult) :=
  match run.frozen.research, research with
  | none, _ =>
    let identity :=
      if run.result.any (·.observationCount ≠ 0) || decisions.any fun s => s.isTool && s.outcome = .observed
      then missing "evidence_identity_validity" .unavailable "source_pairs_not_persisted"
      else missing "evidence_identity_validity" .notApplicable "no_evidence"
    pure (identity :: researchSuffixes.map fun suffix => missing suffix .notApplicable "nonresearch")
  | some _, none =>
    pure (("evidence_identity_validity" :: researchSuffixes).map fun suffix => missing suffix .unavailable "no_terminal_result")
  | some config, some summary => do
    let identity ← ratioOr "evidence_identity_validity" summary.evidence.length summary.evidence.length "no_evidence"
    let coverage ← ratio "objective_coverage" (summary.objectives.filter (·.coverage = .sufficient)).length
      config.objectives.length
    let gaps ← ratio "unresolved_gap_fraction" summary.gaps.length config.objectives.length
    pure [identity, coverage, gaps, count "research_evidence_count" summary.evidence.length,
      count "distinct_document_count" (summary.evidence.filterMap (·.documentId)).dedup.length,
      count "distinct_chunk_count" (summary.evidence.map (·.chunkId)).dedup.length]

/-- `metrics[metric_id]`. -/
def byId (metrics : List AgentMetricResult) (suffix : String) : AgentMetricResult :=
  (metrics.find? (·.metricId = metricId suffix)).getD (missing suffix .unavailable "no_terminal_result")

/-- The counts of what is in a list, sorted. -/
def countsOf (texts : List String) : List (String × Int) :=
  (texts.dedup.insertionSort (· ≤ ·)).map fun text => (text, ((texts.filter (· = text)).length : Int))

def factsOf (run : AgentRunResponse) (t : Tally) (research : Option ResearchSummary) : AgentEvaluationFacts where
  terminalState := run.state.text
  agentStatus := run.result.map (·.agentStatus.text)
  failureCode := run.resultFailure.or (run.failure.map (·.code))
  recordedPerToolCalls := toolNames.map fun tool => (tool.text, ((t.admitted.filter (·.calls tool)).length : Int))
  rejectedToolCodes := countsOf (t.rejected.filterMap (·.failureCode))
  gapCounts := match research with
    | some summary => gapCodes.map fun code => (code.text, ((summary.gaps.filter (·.code = code)).length : Int))
    | none => []

/-- The hash of the result, if there is one. -/
def resultSha (run : AgentRunResponse) : Except PyError (Option String) :=
  match run.result with
  | some result => do
    let text ← sha result.json
    pure (some text)
  | none => pure none

def provenanceOf (run : AgentRunResponse) (events : List AgentRunEventResponse) :
    Except PyError AgentEvaluationProvenance := do
  let plan ← sha run.frozen.json
  let history ← sha (.arr (events.map AgentRunEventResponse.json))
  let result ← resultSha run
  pure ⟨run.configurationFingerprint, plan, history, result, run.revision, agentProtocol,
    run.frozen.research.map fun _ => researchVersion⟩

/-- The metrics of a run in the order of their definitions. -/
def metricsOf (run : AgentRunResponse) (decisions : List AgentEventSummary) (research : Option ResearchSummary) :
    Except PyError (List AgentMetricResult) := do
  let ofDecisions ← decisionMetrics run (tally decisions)
  let ofBudgets ← budgetMetrics run
  let ofResearch ← researchMetrics run decisions research
  let reference ← finalReferenceMetric run decisions research
  let metrics := ofDecisions ++ ofBudgets ++ ofResearch ++ [reference]
  pure (metricDefinitions.map fun d => byId metrics d.suffix)

end Agent
