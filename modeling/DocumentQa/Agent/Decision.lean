import DocumentQa.Agent.Observation
import DocumentQa.Agent.Research

/-!
# Decisions

A decision model proposes the call of one tool or a final answer. `parse_decision` takes structured
objects only, and the goal of a run and the values it may not show are checked here as well.
-/

namespace Agent

open Python JsonText Observation

/-! ## Failures -/

/-- `FailureCode`. -/
inductive FailureCode where
  | decisionProviderRequired
  | decisionProviderUnavailable
  | decisionExecutionFailed
  | decisionProviderAuthFailed
  | decisionProviderRateLimited
  | decisionProviderTimeout
  | decisionProviderInvalidResponse
  | decisionProviderSchemaViolation
  | decisionProviderFailed
  | malformedDecision
  | unknownTool
  | toolNotAllowed
  | toolProviderRequired
  | invalidArguments
  | toolUnavailable
  | toolExecutionFailed
  | finalWithoutObservation
  | invalidEvidenceReference
  | invalidCitation
  | duplicateToolCall
  | maxSteps
  | maxToolCalls
  | perToolLimit
  | maxObservations
  | observationBytes
  | cancelled
  | internalError
  | invalidObservation
  | researchObjectiveRequired
  | researchScopeMismatch
  | researchSearchLimit
  | researchUnresolvedMismatch
  | researchObjectiveUncited
  | researchAnswerTooLong
  | researchReferenceLimit
deriving DecidableEq, Repr

def FailureCode.text : FailureCode → String
  | .decisionProviderRequired => "decision_provider_required"
  | .decisionProviderUnavailable => "decision_provider_unavailable"
  | .decisionExecutionFailed => "decision_execution_failed"
  | .decisionProviderAuthFailed => "decision_provider_auth_failed"
  | .decisionProviderRateLimited => "decision_provider_rate_limited"
  | .decisionProviderTimeout => "decision_provider_timeout"
  | .decisionProviderInvalidResponse => "decision_provider_invalid_response"
  | .decisionProviderSchemaViolation => "decision_provider_schema_violation"
  | .decisionProviderFailed => "decision_provider_failed"
  | .malformedDecision => "malformed_decision"
  | .unknownTool => "unknown_tool"
  | .toolNotAllowed => "tool_not_allowed"
  | .toolProviderRequired => "tool_provider_required"
  | .invalidArguments => "invalid_arguments"
  | .toolUnavailable => "tool_unavailable"
  | .toolExecutionFailed => "tool_execution_failed"
  | .finalWithoutObservation => "final_without_observation"
  | .invalidEvidenceReference => "invalid_evidence_reference"
  | .invalidCitation => "invalid_citation"
  | .duplicateToolCall => "duplicate_tool_call"
  | .maxSteps => "max_steps"
  | .maxToolCalls => "max_tool_calls"
  | .perToolLimit => "per_tool_limit"
  | .maxObservations => "max_observations"
  | .observationBytes => "observation_bytes"
  | .cancelled => "cancelled"
  | .internalError => "internal_error"
  | .invalidObservation => "invalid_observation"
  | .researchObjectiveRequired => "research_objective_required"
  | .researchScopeMismatch => "research_scope_mismatch"
  | .researchSearchLimit => "research_search_limit"
  | .researchUnresolvedMismatch => "research_unresolved_mismatch"
  | .researchObjectiveUncited => "research_objective_uncited"
  | .researchAnswerTooLong => "research_answer_too_long"
  | .researchReferenceLimit => "research_reference_limit"

/-! ## Protected values -/

/-- One text holds one of the secrets. -/
def holdsSecret (secrets : List String) (text : String) : Bool :=
  secrets.any fun secret => secret ≠ "" && isInfix secret.toList text.toList

/-- `contains_protected_value`. -/
def containsProtectedValue (secrets : List String) (value : Json) : Bool :=
  !value.all fun
    | .str text => !holdsSecret secrets text
    | .obj fields => fields.all fun field => !holdsSecret secrets field.1
    | _ => true

/-! ## Goals -/

/-- `AgentGoal(text=...)`, `none` for a `ValidationError`. -/
def agentGoal (T : TextTables) (text : String) : Option String :=
  let value := strip text
  if (5 ≤ text.length ∧ text.length ≤ 500) ∧ 5 ≤ value.length ∧ T.containsSensitiveText value = false ∧
      value.toList.all (fun ch => 32 ≤ ch.toNat || ch = '\t' || ch = '\n') = true then
    some value
  else none

/-! ## Proposals -/

/-- `EvidenceRef(...)`, `none` for a `ValidationError`. -/
def EvidenceRef.build (kind : EvidenceKind) (value : String) : Option EvidenceRef :=
  if h : kind.accepts value = true then some ⟨kind, value, h⟩ else none

structure ToolDecision where
  toolName : String
  arguments : List (String × Json)
  objectiveId : Option String
  few_arguments : arguments.length ≤ 16
  objective_shape : objectiveId.all objectivePattern.fullmatch = true

structure FinalDecision where
  answer : String
  evidenceRefs : List EvidenceRef
  unresolvedObjectiveIds : List String
  few_refs : evidenceRefs.length ≤ 20
  distinct : evidenceRefs.Nodup

inductive AgentDecision where
  | tool (decision : ToolDecision)
  | final (decision : FinalDecision)

/-- `extra="forbid"`. -/
def onlyFields (names : List String) (fields : List (String × Json)) : Bool :=
  fields.all fun field => names.contains field.1

/-- A field of type `str | None` that may be left out. -/
def optionalText (name : String) (fields : List (String × Json)) : Option (Option String) :=
  match Json.lookup name fields with
  | none | some .null => some none
  | some (.str text) => some (some text)
  | some _ => none

/-- A field that is a list or left out. -/
def optionalItems (name : String) (fields : List (String × Json)) : Option (List Json) :=
  match Json.lookup name fields with
  | none => some []
  | some (.arr items) => some items
  | some _ => none

/-- `bounded_arguments`, for one value of type `DecisionScalar`. -/
def argumentFits (T : TextTables) : Json → Bool
  | .null | .bool _ | .int _ => true
  | .float x => x.isFinite
  | .str text => text.length ≤ 500 && !T.containsSensitiveText text
  | .arr _ | .obj _ => false

/-- `ToolDecision(...)`, `none` for a `ValidationError`. -/
def parseToolDecision (T : TextTables) (fields : List (String × Json)) : Option ToolDecision :=
  match Json.lookup "tool_name" fields, Json.lookup "arguments" fields, optionalText "objective_id" fields with
  | some (.str toolName), some (.obj arguments), some objectiveId =>
    if h : arguments.length ≤ 16 ∧ objectiveId.all objectivePattern.fullmatch = true then
      if onlyFields ["kind", "tool_name", "arguments", "objective_id"] fields && codePattern.fullmatch toolName &&
          arguments.all fun argument => codePattern.fullmatch argument.1 && argumentFits T argument.2 then
        some ⟨toolName, arguments, objectiveId, h.1, h.2⟩
      else none
    else none
  | _, _, _ => none

def kindOf (text : String) : Option EvidenceKind :=
  [EvidenceKind.documentId, .chunkId, .searchId].find? (·.text = text)

/-- `EvidenceRef.model_validate`. -/
def parseEvidenceRef : Json → Option EvidenceRef
  | .obj fields =>
    match Json.lookup "kind" fields, Json.lookup "value" fields with
    | some (.str kind), some (.str value) =>
      if onlyFields ["kind", "value"] fields then (kindOf kind).bind fun kind => EvidenceRef.build kind value else none
    | _, _ => none
  | _ => none

def parseObjectiveId : Json → Option String
  | .str text => if objectivePattern.fullmatch text then some text else none
  | _ => none

/-- `FinalDecision(...)`, `none` for a `ValidationError`. -/
def parseFinalDecision (T : TextTables) (fields : List (String × Json)) : Option FinalDecision :=
  match Json.lookup "answer" fields with
  | some (.str answer) => do
    let evidenceRefs ← (← optionalItems "evidence_refs" fields).mapM parseEvidenceRef
    let unresolved ← (← optionalItems "unresolved_objective_ids" fields).mapM parseObjectiveId
    if h : evidenceRefs.length ≤ 20 ∧ evidenceRefs.Nodup then
      if onlyFields ["kind", "answer", "evidence_refs", "unresolved_objective_ids"] fields && decide (unresolved.length ≤ 6) &&
          (1 ≤ answer.length && answer.length ≤ 4000) && strip answer ≠ "" && !T.containsSensitiveText answer then
        some ⟨strip answer, evidenceRefs, unresolved, h.1, h.2⟩
      else none
    else none
  | _ => none

/-- `parse_decision`, `none` where it raises. -/
def parseDecision (T : TextTables) : Json → Option AgentDecision
  | .obj fields =>
    if Json.lookup "kind" fields = some (.str "tool") then (parseToolDecision T fields).map .tool
    else if Json.lookup "kind" fields = some (.str "final") then (parseFinalDecision T fields).map .final
    else none
  | _ => none

end Agent
