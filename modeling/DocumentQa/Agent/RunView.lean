import DocumentQa.Jobs.Model
import DocumentQa.Python.Report

/-!
# Runs of the agent, as they are read back

What one durable run is given as: its frozen plan, its result and its events. The models check
their values when they are built, so each structure carries what its model checks; the values
that have a canonical text carry the function that dumps them.
-/

namespace Agent

open Python JsonText Jobs

inductive ToolName where
  | searchDocuments
  | inspectRetrieval
  | readDocument
  | askRag
deriving DecidableEq, Repr

def ToolName.text : ToolName → String
  | .searchDocuments => "search_documents"
  | .inspectRetrieval => "inspect_retrieval"
  | .readDocument => "read_document"
  | .askRag => "ask_rag"

/-- `sorted(TOOL_NAMES)`. -/
def toolNames : List ToolName :=
  [.askRag, .inspectRetrieval, .readDocument, .searchDocuments]

/-- A count for each of the four tools. -/
structure ToolCounts where
  searchDocuments : Nat
  inspectRetrieval : Nat
  readDocument : Nat
  askRag : Nat
deriving DecidableEq, Repr

def ToolCounts.get (counts : ToolCounts) : ToolName → Nat
  | .searchDocuments => counts.searchDocuments
  | .inspectRetrieval => counts.inspectRetrieval
  | .readDocument => counts.readDocument
  | .askRag => counts.askRag

def ToolCounts.total (counts : ToolCounts) : Nat :=
  counts.searchDocuments + counts.inspectRetrieval + counts.readDocument + counts.askRag

def ToolCounts.json (counts : ToolCounts) : Json :=
  .obj [("ask_rag", .int counts.askRag), ("inspect_retrieval", .int counts.inspectRetrieval),
    ("read_document", .int counts.readDocument), ("search_documents", .int counts.searchDocuments)]

inductive AgentStatus where
  | completed
  | invalidDecision
  | policyDenied
  | budgetExhausted
  | unavailable
  | failed
  | cancelled
deriving DecidableEq, Repr

def AgentStatus.text : AgentStatus → String
  | .completed => "completed"
  | .invalidDecision => "invalid_decision"
  | .policyDenied => "policy_denied"
  | .budgetExhausted => "budget_exhausted"
  | .unavailable => "unavailable"
  | .failed => "failed"
  | .cancelled => "cancelled"

/-- `get_args(AgentStatus)`. -/
def agentStatuses : List String :=
  ["completed", "invalid_decision", "policy_denied", "budget_exhausted", "unavailable", "failed", "cancelled"]

inductive FailureDomain where
  | model
  | policy
  | tool
  | system
deriving DecidableEq, Repr

def FailureDomain.text : FailureDomain → String
  | .model => "model"
  | .policy => "policy"
  | .tool => "tool"
  | .system => "system"

/-- `get_args(FailureCode)`. -/
def failureCodes : List String :=
  ["decision_provider_required", "decision_provider_unavailable", "decision_execution_failed",
    "decision_provider_auth_failed", "decision_provider_rate_limited", "decision_provider_timeout",
    "decision_provider_invalid_response", "decision_provider_schema_violation", "decision_provider_failed",
    "malformed_decision", "unknown_tool", "tool_not_allowed", "tool_provider_required", "invalid_arguments",
    "tool_unavailable", "tool_execution_failed", "final_without_observation", "invalid_evidence_reference",
    "invalid_citation", "duplicate_tool_call", "max_steps", "max_tool_calls", "per_tool_limit", "max_observations",
    "observation_bytes", "cancelled", "internal_error", "invalid_observation", "research_objective_required",
    "research_scope_mismatch", "research_search_limit", "research_unresolved_mismatch", "research_objective_uncited",
    "research_answer_too_long", "research_reference_limit"]

structure AgentFailure where
  domain : FailureDomain
  code : String
  known : code ∈ failureCodes

/-! ## Evidence -/

inductive EvidenceKind where
  | documentId
  | chunkId
  | searchId
deriving DecidableEq, Repr

def EvidenceKind.text : EvidenceKind → String
  | .documentId => "document_id"
  | .chunkId => "chunk_id"
  | .searchId => "search_id"

/-- `[A-Za-z0-9][A-Za-z0-9_.:-]{0,127}`. -/
def canonicalIdentity : NamePattern :=
  ⟨isAlnum, fun c => isAlnum c || c ∈ ['_', '.', ':', '-'], 128⟩

/-- `search-[0-9a-f]{16}`. -/
def isSearchId (value : String) : Bool :=
  "search-".toList.isPrefixOf value.toList && (value.toList.drop 7).length = 16 &&
    (value.toList.drop 7).all fun c => ('a' ≤ c && c ≤ 'f') || ('0' ≤ c && c ≤ '9')

def EvidenceKind.accepts (kind : EvidenceKind) (value : String) : Bool :=
  match kind with
  | .searchId => isSearchId value
  | .documentId | .chunkId => canonicalIdentity.fullmatch value

structure EvidenceRef where
  kind : EvidenceKind
  value : String
  canonical : kind.accepts value = true
deriving DecidableEq

def EvidenceRef.json (ref : EvidenceRef) : Json :=
  .obj [("kind", .str ref.kind.text), ("value", .str ref.value)]

/-! ## Research -/

/-- `^[a-z][a-z0-9_]{0,31}$`. -/
def objectivePattern : NamePattern :=
  ⟨isLower, fun c => isLowerAlnum c || c = '_', 32⟩

/-- `^[A-Z]{1,5}(?:-[A-Z])?$`. -/
def isTicker (cs : List Char) : Bool :=
  let letters := cs.takeWhile Char.isUpper
  let rest := cs.dropWhile Char.isUpper
  1 ≤ letters.length && letters.length ≤ 5 &&
    match rest with
    | [] => true
    | ['-', c] => c.isUpper
    | _ => false

structure ResearchObjective where
  objectiveId : String
  question : String
  tickerScope : Option String
  identifier : objectivePattern.fullmatch objectiveId = true
  ticker : tickerScope.all (isTicker ·.toList) = true

structure ResearchConfig where
  objectives : List ResearchObjective
  maxEvidenceEntries : Nat
  maxSearchAttemptsPerObjective : Nat
  minEvidencePerObjective : Nat
  few : 1 ≤ objectives.length ∧ objectives.length ≤ 6
  evidence_range : 1 ≤ maxEvidenceEntries ∧ maxEvidenceEntries ≤ 6
  search_range : 1 ≤ maxSearchAttemptsPerObjective ∧ maxSearchAttemptsPerObjective ≤ 2
  minimum_range : 1 ≤ minEvidencePerObjective ∧ minEvidencePerObjective ≤ 2
  distinct : (objectives.map ResearchObjective.objectiveId).Nodup
  scopes : (objectives.filterMap ResearchObjective.tickerScope).dedup.length ≤ 5

def researchVersion : String := "agent_research_v1"

/-- A field that is left out when it is `None`. -/
def given (name : String) (value : Option Json) : List (String × Json) :=
  (value.map fun j => (name, j)).toList

def ResearchObjective.json (o : ResearchObjective) : Json :=
  .obj ([("objective_id", .str o.objectiveId), ("question", .str o.question)] ++
    given "ticker_scope" (o.tickerScope.map .str))

def ResearchConfig.json (c : ResearchConfig) : Json :=
  .obj [("version", .str researchVersion), ("objectives", .arr (c.objectives.map ResearchObjective.json)),
    ("max_evidence_entries", .int c.maxEvidenceEntries),
    ("max_search_attempts_per_objective", .int c.maxSearchAttemptsPerObjective),
    ("min_evidence_per_objective", .int c.minEvidencePerObjective)]

structure ResearchEvidence where
  documentId : Option String
  chunkId : String
  ticker : Option String
  objectiveIds : List String
  firstTool : ToolName
  firstStep : Nat
  chunk_identity : canonicalIdentity.fullmatch chunkId = true
  document_identity : documentId.all canonicalIdentity.fullmatch = true
  associated : objectiveIds ≠ [] ∧ objectiveIds.Nodup ∧ objectiveIds.length ≤ 6
  identifiers : objectiveIds.all objectivePattern.fullmatch = true
  ticker_shape : ticker.all (isTicker ·.toList) = true
  ticker_document : ticker.all (fun t => documentId.any fun d => (t.toList ++ [':']).isPrefixOf d.toList) = true
  step_range : 1 ≤ firstStep ∧ firstStep ≤ 20

inductive ResearchCoverage where
  | none_
  | some_
  | sufficient
deriving DecidableEq, Repr

def ResearchCoverage.text : ResearchCoverage → String
  | .none_ => "none"
  | .some_ => "some"
  | .sufficient => "sufficient"

inductive ResearchGapCode where
  | belowThreshold
  | ledgerFull
  | noEvidence
  | searchExhausted
deriving DecidableEq, Repr

def ResearchGapCode.text : ResearchGapCode → String
  | .belowThreshold => "below_threshold"
  | .ledgerFull => "ledger_full"
  | .noEvidence => "no_evidence"
  | .searchExhausted => "search_exhausted"

/-- `_GAP_CODES`. -/
def gapCodes : List ResearchGapCode :=
  [.belowThreshold, .ledgerFull, .noEvidence, .searchExhausted]

structure ResearchObjectiveStatus where
  objectiveId : String
  coverage : ResearchCoverage
  evidenceCount : Nat
  searchAttempts : Nat
  identifier : objectivePattern.fullmatch objectiveId = true
  evidence_range : evidenceCount ≤ 6
  search_range : searchAttempts ≤ 2

structure ResearchGap where
  objectiveId : String
  code : ResearchGapCode
  identifier : objectivePattern.fullmatch objectiveId = true

structure ResearchSummary where
  objectives : List ResearchObjectiveStatus
  evidence : List ResearchEvidence
  gaps : List ResearchGap
  evidenceCapped : Bool
  few_objectives : 1 ≤ objectives.length ∧ objectives.length ≤ 6
  few_evidence : evidence.length ≤ 6
  few_gaps : gaps.length ≤ 6
  distinct : (objectives.map ResearchObjectiveStatus.objectiveId).Nodup
  distinct_evidence : (evidence.map fun e => (e.documentId, e.chunkId)).Nodup
  cited : ∀ e ∈ evidence, ∀ id ∈ e.objectiveIds, id ∈ objectives.map ResearchObjectiveStatus.objectiveId
  distinct_gaps : (gaps.map ResearchGap.objectiveId).Nodup
  gaps_known : ∀ gap ∈ gaps, gap.objectiveId ∈ objectives.map ResearchObjectiveStatus.objectiveId
  counted : ∀ s ∈ objectives, s.evidenceCount = (evidence.filter fun e => s.objectiveId ∈ e.objectiveIds).length
  covered : ∀ s ∈ objectives, s.coverage = .none_ ↔ s.evidenceCount = 0
  gaps_exact : ∀ s ∈ objectives, s.coverage = .sufficient ↔ s.objectiveId ∉ gaps.map ResearchGap.objectiveId

def ResearchEvidence.json (e : ResearchEvidence) : Json :=
  .obj (given "document_id" (e.documentId.map .str) ++ [("chunk_id", .str e.chunkId)] ++ given "ticker" (e.ticker.map .str) ++
    [("objective_ids", .arr (e.objectiveIds.map .str)), ("first_tool", .str e.firstTool.text), ("first_step", .int e.firstStep)])

def ResearchObjectiveStatus.json (s : ResearchObjectiveStatus) : Json :=
  .obj [("objective_id", .str s.objectiveId), ("coverage", .str s.coverage.text), ("evidence_count", .int s.evidenceCount),
    ("search_attempts", .int s.searchAttempts)]

def ResearchGap.json (gap : ResearchGap) : Json :=
  .obj [("objective_id", .str gap.objectiveId), ("code", .str gap.code.text)]

def ResearchSummary.json (s : ResearchSummary) : Json :=
  .obj [("version", .str researchVersion), ("objectives", .arr (s.objectives.map ResearchObjectiveStatus.json)),
    ("evidence", .arr (s.evidence.map ResearchEvidence.json)), ("gaps", .arr (s.gaps.map ResearchGap.json)),
    ("evidence_capped", .bool s.evidenceCapped)]

/-! ## Plans -/

structure AgentLimits where
  maxSteps : Nat
  maxToolCalls : Nat
  perToolCalls : ToolCounts
  maxObservations : Nat
  maxEvidencePerObservation : Nat
  maxExcerptChars : Nat
  maxObservationBytes : Nat
  maxTotalObservationBytes : Nat
  steps_range : 1 ≤ maxSteps ∧ maxSteps ≤ 20
  calls_range : maxToolCalls ≤ 10
  tool_range : ∀ tool, perToolCalls.get tool ≤ 10
  observations_range : maxObservations ≤ 10
  evidence_range : maxEvidencePerObservation ≤ 20
  excerpt_range : maxExcerptChars ≤ 500
  bytes_range : 256 ≤ maxObservationBytes ∧ maxObservationBytes ≤ 32768
  total_range : 256 ≤ maxTotalObservationBytes ∧ maxTotalObservationBytes ≤ 65536

def AgentLimits.json (l : AgentLimits) : Json :=
  .obj [("max_steps", .int l.maxSteps), ("max_tool_calls", .int l.maxToolCalls), ("per_tool_calls", l.perToolCalls.json),
    ("max_observations", .int l.maxObservations), ("max_evidence_per_observation", .int l.maxEvidencePerObservation),
    ("max_excerpt_chars", .int l.maxExcerptChars), ("max_observation_bytes", .int l.maxObservationBytes),
    ("max_total_observation_bytes", .int l.maxTotalObservationBytes)]

inductive CredentialPolicy where
  | pool
  | key5Only
deriving DecidableEq, Repr

def CredentialPolicy.text : CredentialPolicy → String
  | .pool => "pool"
  | .key5Only => "key5_only"

structure DecisionProviderIdentity where
  modelId : String
  credentialPolicy : CredentialPolicy
  known : modelId ∈ ["openai/gpt-oss-120b", "openai/gpt-oss-20b"]

def DecisionProviderIdentity.json (p : DecisionProviderIdentity) : Json :=
  .obj [("provider", .str "groq"), ("model_id", .str p.modelId), ("adapter_version", .str "groq_json_schema_v1"),
    ("mechanism", .str "native_strict_json_schema"), ("credential_policy", .str p.credentialPolicy.text)]

inductive Locale where
  | en
  | vi
deriving DecidableEq, Repr

def Locale.text : Locale → String
  | .en => "en"
  | .vi => "vi"

def agentProtocol : String := "bounded_single_agent"

/-- `[a-z][a-z0-9_]{0,63}`. -/
def codePattern : NamePattern :=
  ⟨isLower, fun c => isLowerAlnum c || c = '_', 64⟩

structure FrozenAgentPlan where
  decisionModelId : String
  decisionProvider : Option DecisionProviderIdentity
  goal : String
  locale : Locale
  allowedTools : List ToolName
  allowProviderToolExecution : Bool
  allowDecisionProviderExecution : Bool
  requireObservationForFinal : Bool
  rejectDuplicateCalls : Bool
  limits : AgentLimits
  research : Option ResearchConfig
  model_shape : codePattern.fullmatch decisionModelId = true
  goal_length : 5 ≤ goal.length ∧ goal.length ≤ 500
  distinct_tools : allowedTools.Nodup
  /-- `validate_research_limits`. -/
  research_limits : ∀ c, research = some c →
    c.maxEvidenceEntries ≤ limits.maxObservations * limits.maxEvidencePerObservation ∧
      c.maxSearchAttemptsPerObjective ≤ limits.perToolCalls.searchDocuments ∧
      limits.maxToolCalls ≠ 0 ∧ limits.maxObservations ≠ 0

/-- `model_dump(mode="json", exclude_none=True)`. -/
def FrozenAgentPlan.json (p : FrozenAgentPlan) : Json :=
  .obj ([("schema_version", .int 1), ("protocol", .str agentProtocol), ("decision_model_id", .str p.decisionModelId)] ++
    given "decision_provider" (p.decisionProvider.map DecisionProviderIdentity.json) ++
    [("goal", .str p.goal), ("locale", .str p.locale.text), ("allowed_tools", .arr (p.allowedTools.map (.str ·.text))),
      ("allow_provider_tool_execution", .bool p.allowProviderToolExecution),
      ("allow_decision_provider_execution", .bool p.allowDecisionProviderExecution),
      ("require_observation_for_final", .bool p.requireObservationForFinal),
      ("reject_duplicate_calls", .bool p.rejectDuplicateCalls), ("limits", p.limits.json)] ++
    given "research" (p.research.map ResearchConfig.json))

/-! ## Results -/

structure AgentDurableResult where
  agentStatus : AgentStatus
  answer : Option String
  evidenceRefs : List EvidenceRef
  stepCount : Nat
  decisionCallCount : Nat
  toolCallCount : Nat
  perToolCalls : ToolCounts
  observationCount : Nat
  failure : Option AgentFailure
  research : Option ResearchSummary
  answer_length : answer.all (·.length ≤ 4000) = true
  few_refs : evidenceRefs.length ≤ 20
  steps_range : stepCount ≤ 20
  decisions_range : decisionCallCount ≤ 20
  calls_range : toolCallCount ≤ 10
  observations_range : observationCount ≤ 10
  tool_range : ∀ tool, perToolCalls.get tool ≤ 10
  tool_total : perToolCalls.total = toolCallCount
  answered : agentStatus = .completed → answer ≠ none ∧ failure.isNone = true
  unanswered : agentStatus ≠ .completed → answer = none

def AgentFailure.json (f : AgentFailure) : Json :=
  .obj [("domain", .str f.domain.text), ("code", .str f.code)]

/-- `model_dump(mode="json", exclude_none=True)`. -/
def AgentDurableResult.json (r : AgentDurableResult) : Json :=
  .obj ([("agent_status", .str r.agentStatus.text)] ++ given "answer" (r.answer.map .str) ++
    [("evidence_refs", .arr (r.evidenceRefs.map EvidenceRef.json)), ("step_count", .int r.stepCount),
      ("decision_call_count", .int r.decisionCallCount), ("tool_call_count", .int r.toolCallCount),
      ("per_tool_calls", r.perToolCalls.json), ("observation_count", .int r.observationCount)] ++
    given "failure" (r.failure.map AgentFailure.json) ++ given "research" (r.research.map ResearchSummary.json))

structure AgentRunFailure where
  code : String
  message : String

structure AgentRunResponse where
  runId : String
  state : JobState
  revision : Int
  configurationFingerprint : String
  frozen : FrozenAgentPlan
  result : Option AgentDurableResult
  failure : Option AgentRunFailure

/-! ## Events -/

inductive DecisionKind where
  | tool
  | final
  | invalid
deriving DecidableEq, Repr

def DecisionKind.text : DecisionKind → String
  | .tool => "tool"
  | .final => "final"
  | .invalid => "invalid"

inductive Outcome where
  | observed
  | completed
  | rejected
  | failed
deriving DecidableEq, Repr

def Outcome.text : Outcome → String
  | .observed => "observed"
  | .completed => "completed"
  | .rejected => "rejected"
  | .failed => "failed"

structure AgentEventSummary where
  decisionIndex : Nat
  decisionKind : DecisionKind
  toolName : Option String
  objectiveId : Option String
  argumentNames : List String
  outcome : Outcome
  evidenceCount : Nat
  evidenceRefs : List EvidenceRef
  stepCount : Nat
  toolCallCount : Nat
  failureCode : Option String
  index_range : 1 ≤ decisionIndex ∧ decisionIndex ≤ 20
  objective_shape : objectiveId.all objectivePattern.fullmatch = true
  few_arguments : argumentNames.length ≤ 16
  evidence_range : evidenceCount ≤ 20
  few_refs : evidenceRefs.length ≤ 8
  steps_range : stepCount ≤ 20
  calls_range : toolCallCount ≤ 10

def textOrNull (text : Option String) : Json :=
  (text.map Json.str).getD .null

/-- `model_dump(mode="json")`. -/
def AgentEventSummary.json (s : AgentEventSummary) : Json :=
  .obj [("decision_index", .int s.decisionIndex), ("decision_kind", .str s.decisionKind.text),
    ("tool_name", textOrNull s.toolName), ("objective_id", textOrNull s.objectiveId),
    ("argument_names", .arr (s.argumentNames.map .str)), ("outcome", .str s.outcome.text),
    ("evidence_count", .int s.evidenceCount), ("evidence_refs", .arr (s.evidenceRefs.map EvidenceRef.json)),
    ("step_count", .int s.stepCount), ("tool_call_count", .int s.toolCallCount), ("failure_code", textOrNull s.failureCode)]

structure AgentRunEventResponse where
  runId : String
  eventId : String
  sequence : Int
  eventType : String
  state : Option JobState
  reasonCode : Option String
  summary : Option AgentEventSummary

/-- The part of an event that is hashed. -/
def AgentRunEventResponse.json (e : AgentRunEventResponse) : Json :=
  .obj [("event_id", .str e.eventId), ("sequence", .int e.sequence), ("event_type", .str e.eventType),
    ("state", textOrNull (e.state.map JobState.text)), ("reason_code", textOrNull e.reasonCode),
    ("summary", (e.summary.map AgentEventSummary.json).getD .null)]

end Agent
