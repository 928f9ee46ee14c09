import DocumentQa.Agent.Evaluation

/-!
# `parse_agent_evaluation_report`

The parser of stored reports. It reads the metrics one by one, then the facts and the
provenance, and compares the metrics with the facts as far as the facts determine them.
-/

namespace Agent

open Python JsonText Jobs

def reportError (message : String) : PyError :=
  ⟨.corruptAgentEvaluationReport, message⟩

/-- `_FINGERPRINT`: `(?:sha256:)?[0-9a-f]{64}`. -/
def isFingerprint (text : String) : Bool :=
  isSha256Text text || ("sha256:".toList.isPrefixOf text.toList && isSha256Text (String.ofList (text.toList.drop 7)))

/-! ## Metrics -/

/-- The checks on a computed metric. -/
def checkComputed (kind : ValueKind) (value numerator denominator reason : Json) : Except PyError Unit :=
  match reason, numerator with
  | .null, .int n =>
    if n < 0 then throw (reportError "computed Agent metric is malformed")
    else match kind, value with
      | .boolean, .bool b =>
        Checked.require (equal denominator (.int 1) = true ∧ n = if b then 1 else 0) (reportError "Agent boolean is malformed")
      | .boolean, _ => throw (reportError "Agent boolean is malformed")
      | .count, .int v =>
        Checked.require (v = n ∧ v ≤ 20 ∧ denominator = .null) (reportError "Agent count is malformed")
      | .count, _ => throw (reportError "Agent count is malformed")
      | .ratio, .float x =>
        match denominator with
        | .int d =>
          Checked.require (x.isFinite = true ∧ 0 < d ∧ d ≤ 20 ∧ n ≤ d ∧
              equal (.float x) (.float (fourDecimals n.toNat d.toNat)) = true)
            (reportError "Agent ratio is malformed")
        | _ => throw (reportError "Agent ratio is malformed")
      | .ratio, _ => throw (reportError "Agent ratio is malformed")
  | _, _ => throw (reportError "computed Agent metric is malformed")

/-- The checks on a metric without a value; looking a container up in a set raises. -/
def checkMissing (value numerator denominator reason : Json) : Except PyError Unit := do
  let malformed := reportError "missing Agent metric is malformed"
  Checked.require (value = .null ∧ numerator = .null ∧ denominator = .null) malformed
  match reason with
  | .str text => Checked.require (text ∈ missingReasons) malformed
  | .arr _ | .obj _ => throw ⟨.typeError, "unhashable type"⟩
  | _ => throw malformed

/-- `_parse_metric`. -/
def parseMetric (d : AgentMetricDefinition) (raw : Json) : Except PyError AgentMetricResult := do
  let data ← exactFields ["metric_id", "metric_version", "status", "value", "numerator", "denominator", "reason_code"]
    (reportError "Agent metric has invalid fields") raw
  Checked.require (field "metric_id" data = .str (metricId d.suffix) ∧ field "metric_version" data = .int 1)
    (reportError "Agent metric ID/version mismatch")
  let value := field "value" data
  let numerator := field "numerator" data
  let denominator := field "denominator" data
  let reason := field "reason_code" data
  if field "status" data = .str "computed" then do
    checkComputed d.valueKind value numerator denominator reason
    pure ⟨metricId d.suffix, .computed, value, numerator, denominator, reason⟩
  else if field "status" data = .str "unavailable" then do
    checkMissing value numerator denominator reason
    pure ⟨metricId d.suffix, .unavailable, value, numerator, denominator, reason⟩
  else if field "status" data = .str "not_applicable" then do
    checkMissing value numerator denominator reason
    pure ⟨metricId d.suffix, .notApplicable, value, numerator, denominator, reason⟩
  else throw (reportError "unknown Agent metric status")

/-- The items of a list. -/
def itemsOf (e : PyError) : Json → Except PyError (List Json)
  | .arr items => .ok items
  | _ => .error e

/-! ## Provenance and facts -/

/-- A text with a property, or null. -/
def textWhere (p : String → Bool) (e : PyError) : Json → Except PyError (Option String)
  | .null => .ok none
  | .str text => if p text then .ok (some text) else .error e
  | _ => .error e

/-- A text with a property. -/
def textAs (p : String → Bool) (e : PyError) : Json → Except PyError String
  | .str text => if p text then .ok text else .error e
  | _ => .error e

/-- `2 <= run_revision <= _MAX_EVENTS`, of an integer. -/
def revisionOf (e : PyError) : Json → Except PyError Int
  | .int n => if 2 ≤ n ∧ n ≤ maxEvents then .ok n else .error e
  | _ => .error e

def isHash (text : String) : Bool :=
  "sha256:".toList.isPrefixOf text.toList

def parseProvenance (raw : Json) : Except PyError AgentEvaluationProvenance := do
  let data ← exactFields ["configuration_fingerprint", "frozen_plan_sha256", "event_sha256", "result_sha256", "run_revision",
    "agent_protocol", "research_version"] (reportError "Agent provenance has invalid fields") raw
  let invalid := reportError "Agent provenance fingerprint is invalid"
  let configuration ← textAs isFingerprint invalid (field "configuration_fingerprint" data)
  let plan ← textAs isFingerprint invalid (field "frozen_plan_sha256" data)
  let history ← textAs isFingerprint invalid (field "event_sha256" data)
  let result ← textWhere isFingerprint (reportError "Agent result fingerprint is invalid") (field "result_sha256" data)
  Checked.require (isSha256Text configuration = true) (reportError "Agent plan fingerprint format is invalid")
  Checked.require (isHash plan = true ∧ isHash history = true ∧ result.all isHash = true)
    (reportError "Agent provenance hash format is invalid")
  let binding := reportError "Agent provenance binding is invalid"
  let revision ← revisionOf binding (field "run_revision" data)
  let protocol ← textAs (· = agentProtocol) binding (field "agent_protocol" data)
  let version ← textWhere (· = researchVersion) binding (field "research_version" data)
  pure ⟨configuration, plan, history, result, revision, protocol, version⟩

def terminalStates : List String :=
  ["cancelled", "succeeded", "failed", "interrupted"]

/-- The terminal state; looking a container up in a set raises. -/
def terminalState : Json → Except PyError String
  | .str text => if text ∈ terminalStates then .ok text else .error (reportError "Agent terminal facts are invalid")
  | .arr _ | .obj _ => .error ⟨.typeError, "unhashable type"⟩
  | _ => .error (reportError "Agent terminal facts are invalid")

/-- A row of counters. -/
def row? : Json → Option (String × Int)
  | .arr [.str name, .int n] => if 0 ≤ n then some (name, n) else none
  | _ => none

/-- A list of counters, sorted by name. -/
def parseCounters (raw : Json) : Except PyError (List (String × Int)) := do
  let malformed := reportError "Agent fact counters are malformed"
  let items ← itemsOf malformed raw
  let rows ← Checked.collect (fun item => Checked.orRaise (row? item) malformed) items
  Checked.require (rows = rows.insertionSort (fun a b => a.1 ≤ b.1) ∧ (rows.map Prod.fst).Nodup)
    (reportError "Agent fact counters are unordered or duplicate")
  pure rows

/-- The checks on the terminal facts and the provenance they go with. -/
def checkTerminal (terminal : String) (agentStatus result : Option String) : Except PyError Unit := do
  Checked.require (agentStatus.isNone = result.isNone) (reportError "Agent result provenance and terminal facts disagree")
  Checked.require (terminal = "succeeded" ↔ agentStatus = some "completed")
    (reportError "Agent execution completion is inconsistent")

/-- The bounds of the counters. -/
def checkCounters (tools rejected gaps : List (String × Int)) : Except PyError Unit := do
  Checked.require (tools.map Prod.fst = toolNames.map ToolName.text) (reportError "Agent per-tool facts are incomplete")
  Checked.require (∀ row ∈ tools, row.2 ≤ 10) (reportError "Agent per-tool facts exceed a hard bound")
  Checked.require (∀ row ∈ rejected, row.1 ∈ failureCodes ∧ row.2 ≤ 20) (reportError "Agent rejection facts are invalid")
  Checked.require (gaps = [] ∨ gaps.map Prod.fst = gapCodes.map ResearchGapCode.text)
    (reportError "Agent gap facts are incomplete")
  Checked.require (∀ row ∈ gaps, row.2 ≤ 6) (reportError "Agent gap facts exceed a hard bound")

def parseFacts (raw : List (String × Json)) (result : Option String) : Except PyError AgentEvaluationFacts := do
  let invalid := reportError "Agent terminal facts are invalid"
  let terminal ← terminalState (field "terminal_state" raw)
  let agentStatus ← textWhere (· ∈ agentStatuses) invalid (field "agent_status" raw)
  let failureCode ← textWhere isSafeCode invalid (field "failure_code" raw)
  checkTerminal terminal agentStatus result
  let tools ← parseCounters (field "recorded_per_tool_calls" raw)
  let rejected ← parseCounters (field "rejected_tool_codes" raw)
  let gaps ← parseCounters (field "gap_counts" raw)
  checkCounters tools rejected gaps
  pure ⟨terminal, agentStatus, failureCode, tools, rejected, gaps⟩

/-! ## Metrics and facts -/

/-- The sum of the counters whose name has a property. -/
def sumWhere (p : String → Bool) (rows : List (String × Int)) : Int :=
  (rows.filter fun row => p row.1).foldr (fun row n => row.2 + n) 0

def total (rows : List (String × Int)) : Int :=
  sumWhere (fun _ => true) rows

/-- A computed count with a value. -/
def Counts (m : AgentMetricResult) (n : Int) : Prop :=
  m.status = .computed ∧ m.value = .int n

instance (m : AgentMetricResult) (n : Int) : Decidable (Counts m n) :=
  inferInstanceAs (Decidable (_ ∧ _))

/-- The checks of the tool counts. -/
def checkTools (metrics : List AgentMetricResult) (f : AgentEvaluationFacts) : Except PyError Unit :=
  let tools := total f.recordedPerToolCalls
  Checked.require (Counts (byId metrics "admitted_tool_call_count") tools ∧
      Counts (byId metrics "recorded_tool_decision_count") (tools + total f.rejectedToolCodes) ∧
      tools + total f.rejectedToolCodes ≤ 20)
    (reportError "Agent tool facts disagree with metric counts")

/-- The checks of the rejections. -/
def checkRejections (metrics : List AgentMetricResult) (f : AgentEvaluationFacts) : Except PyError Unit :=
  Checked.require
    (Counts (byId metrics "invalid_tool_attempt_count") (sumWhere (invalidToolCodes.elem ·) f.rejectedToolCodes) ∧
      Counts (byId metrics "policy_denial_attempt_count") (sumWhere (policyDenialCodes.elem ·) f.rejectedToolCodes +
        (if f.failureCode = some "decision_provider_required" then 1 else 0)) ∧
      Counts (byId metrics "duplicate_rejection_count") (sumWhere (· = "duplicate_tool_call") f.rejectedToolCodes))
    (reportError "Agent rejection metrics disagree with facts")

/-- The check of the admission fraction, of so many admitted among so many recorded. -/
def checkAdmission (m : AgentMetricResult) (admitted recorded : Json) : Except PyError Unit :=
  if recorded = .int 0 then
    Checked.require (m.status = .notApplicable ∧ m.reasonCode = .str "no_tool_decisions")
      (reportError "zero-decision admission metric is invalid")
  else
    Checked.require (m.status = .computed ∧ m.numerator = admitted ∧ m.denominator = recorded)
      (reportError "Agent admission denominator is invalid")

/-- The check of the failure fraction, of so many admitted. -/
def checkToolFailure (m : AgentMetricResult) (admitted : Json) : Except PyError Unit :=
  if admitted = .int 0 then
    Checked.require (m.status = .notApplicable ∧ m.reasonCode = .str "no_admitted_tools")
      (reportError "zero-admission failure metric is invalid")
  else
    Checked.require (m.status = .computed ∧ m.denominator = admitted)
      (reportError "Agent tool failure denominator is invalid")

/-- The checks of the two fractions of tool decisions. -/
def checkFractions (metrics : List AgentMetricResult) : Except PyError Unit := do
  let admitted := (byId metrics "admitted_tool_call_count").value
  let recorded := (byId metrics "recorded_tool_decision_count").value
  checkAdmission (byId metrics "tool_admission_fraction") admitted recorded
  checkToolFailure (byId metrics "tool_failure_fraction") admitted

def budgetSuffixes : List String :=
  ["step_budget_utilization", "tool_budget_utilization", "budget_exhausted", "decision_provider_unavailable"]

/-- The checks of completion and of the metrics that need a result. -/
def checkOutcome (metrics : List AgentMetricResult) (f : AgentEvaluationFacts) (p : AgentEvaluationProvenance) :
    Except PyError Unit := do
  let completion := byId metrics "execution_completed"
  Checked.require (completion.status = .computed ∧ completion.value = .bool (f.terminalState = "succeeded"))
    (reportError "Agent completion metric disagrees with terminal state")
  Checked.require (p.resultSha256 = none → ∀ suffix ∈ budgetSuffixes, (byId metrics suffix).status = .unavailable)
    (reportError "result-dependent metrics lack a terminal result")

/-- The integer of a value, 0 of anything else. -/
def intOf : Json → Int
  | .int n => n
  | _ => 0

/-- What the two fractions of the objectives must be. -/
def Objectives (coverage gaps : AgentMetricResult) (f : AgentEvaluationFacts) : Prop :=
  coverage.status = .computed ∧ gaps.status = .computed ∧ coverage.denominator = gaps.denominator ∧
    intOf coverage.numerator + intOf gaps.numerator = intOf coverage.denominator ∧
    intOf gaps.numerator = total f.gapCounts

instance (coverage gaps : AgentMetricResult) (f : AgentEvaluationFacts) : Decidable (Objectives coverage gaps f) :=
  inferInstanceAs (Decidable (_ ∧ _ ∧ _ ∧ _ ∧ _))

/-- The checks of the research metrics. -/
def checkResearchMetrics (metrics : List AgentMetricResult) (f : AgentEvaluationFacts) (p : AgentEvaluationProvenance) :
    Except PyError Unit :=
  if p.researchVersion = none then
    Checked.require (f.gapCounts = [] ∧ ∀ suffix ∈ researchSuffixes, (byId metrics suffix).status = .notApplicable)
      (reportError "generic Agent report contains research metrics")
  else if p.resultSha256 = none then pure ()
  else do
    Checked.require (f.gapCounts.length = gapCodes.length) (reportError "research gap counts are incomplete")
    Checked.require (Objectives (byId metrics "objective_coverage") (byId metrics "unresolved_gap_fraction") f)
      (reportError "research objective denominators disagree")

/-! ## The parser -/

/-- The checks behind the reading of the parts. -/
def checkReport (metrics : List AgentMetricResult) (f : AgentEvaluationFacts) (p : AgentEvaluationProvenance) :
    Except PyError Unit := do
  checkTools metrics f
  checkRejections metrics f
  checkFractions metrics
  checkOutcome metrics f p
  checkResearchMetrics metrics f p

def reportNames : List String :=
  ["protocol", "protocol_version", "run_id", "metric_definitions", "metrics", "facts", "provenance", "digest"]

def factNames : List String :=
  ["terminal_state", "agent_status", "failure_code", "recorded_per_tool_calls", "rejected_tool_codes", "gap_counts"]

/-- The metrics of a report, one for each definition. -/
def parseMetrics (raw : Json) : Except PyError (List AgentMetricResult) := do
  let incomplete := reportError "Agent metric vector is incomplete"
  let items ← itemsOf incomplete raw
  Checked.require (items.length = metricDefinitions.length) incomplete
  Checked.collect (fun entry => parseMetric entry.2 entry.1) (items.zip metricDefinitions)

/-- The parser behind the decoding. -/
def parsePayload (payload : Json) : Except PyError AgentEvaluationReport := do
  let data ← exactFields reportNames (reportError "Agent report has invalid fields") payload
  Checked.require (field "protocol" data = .str "native-agent-evaluation" ∧ field "protocol_version" data = .int 1)
    (reportError "unsupported Agent evaluation protocol")
  let runId ← textAs isRunId (reportError "invalid Agent report run ID") (field "run_id" data)
  Checked.require (equal (field "metric_definitions" data) definitionsJson = true)
    (reportError "Agent metric definitions or versions changed")
  let metrics ← parseMetrics (field "metrics" data)
  let rawFacts ← exactFields factNames (reportError "Agent facts has invalid fields") (field "facts" data)
  let provenance ← parseProvenance (field "provenance" data)
  let facts ← parseFacts rawFacts provenance.resultSha256
  checkReport metrics facts provenance
  let mismatch := reportError "Agent report digest mismatch"
  let digest ← textAs isFingerprint mismatch (field "digest" data)
  let report : AgentEvaluationReport := ⟨runId, metrics, facts, provenance, digest⟩
  let expected ← reportDigest report
  Checked.require (digest = expected) mismatch
  pure report

/-- What a report is read from. -/
inductive Raw where
  | text (encoded : String)
  | mapping (value : JsonObject)

/-- The encoded report: a mapping is encoded first. -/
def encodeRaw : Raw → Except PyError String
  | .text encoded => pure encoded
  | .mapping value => Checked.orRaise (canonicalJsonText value.json) outOfRange

/-- `json.loads` of the encoded report. -/
def decodeRaw (raw : Raw) : Except PyError Json := do
  let encoded ← encodeRaw raw
  Checked.require (utf8Length encoded ≤ maxReportBytes) (reportError "Agent report exceeds byte bound")
  Checked.orRaise (loadsUnique encoded) (reportError "Agent evaluation report is malformed")

end Agent
