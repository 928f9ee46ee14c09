import DocumentQa.Agent.Decision
import DocumentQa.Lib.Dialogue

/-!
# The orchestrator

`AgentOrchestrator.run`: a decision model chooses one action at a time, and every choice is checked
before a budget is consumed or a tool called. The run is a dialogue with what it does not control:
the cancel event, the decision model, the services behind the tools and the sink of the trace.
-/

namespace Agent

open Python JsonText Observation

/-! ## Tools -/

/-- A tool, as the orchestrator and the registry use it; `validate` is `input_model.model_validate`. -/
structure AgentTool where
  name : ToolName
  description : String
  inputSchema : Json
  providerExecution : Bool
  sideEffect : String
  validate : List (String × Json) → Option ToolArguments

/-- A registry of the four tools. -/
structure AgentToolRegistry where
  tools : List AgentTool
  canonical : (tools.map AgentTool.name).Perm toolNames

/-- `registry.get`, `none` for `unknown_tool`. -/
def AgentToolRegistry.get (registry : AgentToolRegistry) (name : String) : Option AgentTool :=
  registry.tools.find? fun tool => tool.name.text = name

/-- `AgentToolError.code`. -/
inductive ToolErrorCode where
  | unknownTool
  | toolNotAllowed
  | invalidArguments
  | unavailable
  | executionFailed
  | providerRequired
deriving DecidableEq, Repr

structure AgentExecutionContext where
  allowedTools : List ToolName
  allowProviderExecution : Bool
  locale : Locale

/-- The tool may be chosen: it is listed, and its provider is permitted. -/
def AgentExecutionContext.permits (context : AgentExecutionContext) (tool : AgentTool) : Bool :=
  context.allowedTools.contains tool.name && (!tool.providerExecution || context.allowProviderExecution)

structure AgentRunPolicy where
  allowDecisionProviderExecution : Bool
  requireObservationForFinal : Bool
  rejectDuplicateCalls : Bool

/-! ## State and results -/

structure AgentTraceEntry where
  decisionIndex : Nat
  kind : DecisionKind
  toolName : Option String := none
  objectiveId : Option String := none
  argumentNames : List String := []
  outcome : Outcome
  evidenceRefs : List EvidenceRef := []
  failureCode : Option FailureCode := none

def ToolCounts.zero : ToolCounts :=
  ⟨0, 0, 0, 0⟩

/-- `per_tool_calls[tool] += 1`. -/
def ToolCounts.count (counts : ToolCounts) : ToolName → ToolCounts
  | .searchDocuments => { counts with searchDocuments := counts.searchDocuments + 1 }
  | .inspectRetrieval => { counts with inspectRetrieval := counts.inspectRetrieval + 1 }
  | .readDocument => { counts with readDocument := counts.readDocument + 1 }
  | .askRag => { counts with askRag := counts.askRag + 1 }

/-- `{name: max(0, limit - used[name])}`. -/
def ToolCounts.remaining (limits used : ToolCounts) : ToolCounts where
  searchDocuments := limits.searchDocuments - used.searchDocuments
  inspectRetrieval := limits.inspectRetrieval - used.inspectRetrieval
  readDocument := limits.readDocument - used.readDocument
  askRag := limits.askRag - used.askRag

/-- The state of a run, with the session the run holds beside it. -/
structure AgentState where
  goal : String
  locale : Locale
  stepCount : Nat
  decisionCallCount : Nat
  toolCallCount : Nat
  perToolCalls : ToolCounts
  observations : List AgentObservation
  trace : List AgentTraceEntry
  seenCalls : List String
  observationBytes : Nat
  research : Option ResearchSession
  researchView : Option ResearchView
  researchSummary : Option ResearchSummary

structure AgentResult where
  status : AgentStatus
  answer : Option String := none
  evidenceRefs : List EvidenceRef := []
  stepCount : Nat
  decisionCallCount : Nat
  toolCallCount : Nat
  perToolCalls : ToolCounts
  observations : List AgentObservation
  trace : List AgentTraceEntry
  failure : Option (FailureDomain × FailureCode)
  research : Option ResearchSummary

/-- `_result` of a run that ends without an answer. -/
def AgentState.fails (s : AgentState) (status : AgentStatus) (domain : FailureDomain) (code : FailureCode) : AgentResult where
  status
  stepCount := s.stepCount
  decisionCallCount := s.decisionCallCount
  toolCallCount := s.toolCallCount
  perToolCalls := s.perToolCalls
  observations := s.observations
  trace := s.trace
  failure := some (domain, code)
  research := s.researchSummary

/-- `_result` of a run that ends with an answer. -/
def AgentState.completes (s : AgentState) (answer : String) (evidenceRefs : List EvidenceRef) : AgentResult where
  status := .completed
  answer := some answer
  evidenceRefs
  stepCount := s.stepCount
  decisionCallCount := s.decisionCallCount
  toolCallCount := s.toolCallCount
  perToolCalls := s.perToolCalls
  observations := s.observations
  trace := s.trace
  failure := none
  research := s.researchSummary

/-! ## Requests -/

structure DecisionToolSpec where
  name : ToolName
  description : String
  inputSchema : Json
  providerExecution : Bool
  sideEffect : String

structure DecisionPolicyView where
  allowedTools : List ToolName
  requireObservationForFinal : Bool
  providerToolExecutionAllowed : Bool
  maxSteps : Nat
  maxToolCalls : Nat
  perToolCalls : ToolCounts

structure DecisionRequest where
  systemPolicy : DecisionPolicyView
  userGoal : String
  locale : Locale
  tools : List DecisionToolSpec
  observations : List AgentObservation
  stepCount : Nat
  toolCallCount : Nat
  remainingPerToolCalls : ToolCounts
  research : Option ResearchView

structure AgentOrchestrator where
  registry : AgentToolRegistry
  requiresProvider : Bool
  protectedValues : List String
  limits : AgentLimits
  policy : AgentRunPolicy
  research : Option ResearchConfig

/-- `_request`. -/
def AgentOrchestrator.request (a : AgentOrchestrator) (context : AgentExecutionContext) (s : AgentState) : DecisionRequest :=
  let available := a.registry.tools.filter context.permits
  { systemPolicy :=
      { allowedTools := available.map AgentTool.name
        requireObservationForFinal := a.policy.requireObservationForFinal
        providerToolExecutionAllowed := context.allowProviderExecution
        maxSteps := a.limits.maxSteps
        maxToolCalls := a.limits.maxToolCalls
        perToolCalls := a.limits.perToolCalls }
    userGoal := s.goal
    locale := s.locale
    tools := available.map fun tool =>
      ⟨tool.name, tool.description, tool.inputSchema, tool.providerExecution, tool.sideEffect⟩
    observations := s.observations
    stepCount := s.stepCount
    toolCallCount := s.toolCallCount
    remainingPerToolCalls := a.limits.perToolCalls.remaining s.perToolCalls
    research := s.researchView }

/-! ## What a run asks -/

inductive ProviderCode where
  | authFailed
  | rateLimited
  | timeout
  | invalidResponse
  | schemaViolation
  | failed
deriving DecidableEq, Repr

def ProviderCode.failure : ProviderCode → FailureCode
  | .authFailed => .decisionProviderAuthFailed
  | .rateLimited => .decisionProviderRateLimited
  | .timeout => .decisionProviderTimeout
  | .invalidResponse => .decisionProviderInvalidResponse
  | .schemaViolation => .decisionProviderSchemaViolation
  | .failed => .decisionProviderFailed

/-- What `decide` may raise. -/
inductive DecisionError where
  | unavailable
  | provider (code : ProviderCode)
  | execution
  | other

inductive Query where
  | cancelEvent
  | decide (request : DecisionRequest)
  | execute (tool : ToolName) (body : ToolArguments)
  | trace (entry : AgentTraceEntry) (stepCount toolCallCount : Nat)

/-- `is_set` and the sink may raise; a run without an event or without a sink is answered `false` and
`true`. A tool returns output of its model. -/
def Query.Answer : Query → Type
  | .cancelEvent => Option Bool
  | .decide _ => Except DecisionError Json
  | .execute _ _ => Except ToolErrorCode ToolData
  | .trace _ _ _ => Bool

inductive Ending where
  | returned (result : AgentResult)
  | raised

abbrev Act : Type → Type :=
  Dialogue Query.Answer Ending

namespace Act

variable {α : Type}

def raise : Act α :=
  .stop .raised

def returns (result : AgentResult) : Act α :=
  .stop (.returned result)

def orRaise : Option α → Act α
  | some a => .done a
  | none => raise

def isSet : Act (Option Bool) :=
  @Dialogue.question Query Query.Answer Ending .cancelEvent

def decide (request : DecisionRequest) : Act (Except DecisionError Json) :=
  @Dialogue.question Query Query.Answer Ending (.decide request)

def execute (tool : ToolName) (body : ToolArguments) : Act (Except ToolErrorCode ToolData) :=
  @Dialogue.question Query Query.Answer Ending (.execute tool body)

def traceSink (entry : AgentTraceEntry) (stepCount toolCallCount : Nat) : Act Bool :=
  @Dialogue.question Query Query.Answer Ending (.trace entry stepCount toolCallCount)

/-- The run returns where the event is set. -/
def checkCancelled (s : AgentState) : Act Unit := do
  match ← isSet with
  | none => raise
  | some true => returns (s.fails .cancelled .system .cancelled)
  | some false => pure ()

/-- `record`. -/
def record (s : AgentState) (entry : AgentTraceEntry) : Act AgentState := do
  let s := { s with trace := s.trace ++ [entry] }
  if ← traceSink entry s.stepCount s.toolCallCount then pure s else raise

end Act

/-! ## Research -/

/-- `refresh_research`, `none` where it raises. -/
def AgentState.refresh (s : AgentState) : Option AgentState :=
  match s.research with
  | none => some s
  | some session => do
    let summary ← session.summary
    let view ← session.view
    some { s with researchSummary := some summary, researchView := some view }

/-- `validate_final` of a session, `none` where the summary raises. -/
def ResearchSession.validateFinal (session : ResearchSession) (refs : List EvidenceRef) (unresolvedIds : List String) :
    Option (Option FailureCode) :=
  if 12 < refs.length then some (some .researchReferenceLimit)
  else do
    let summary ← session.summary
    let gapIds := summary.gaps.map ResearchGap.objectiveId
    if ¬ unresolvedIds.Nodup ∨ ¬ (unresolvedIds ⊆ gapIds ∧ gapIds ⊆ unresolvedIds) then
      some (some .researchUnresolvedMismatch)
    else
      let cited := refs.map fun ref => (ref.kind, ref.value)
      let keys := fun entry : ResearchEvidence =>
        (EvidenceKind.chunkId, entry.chunkId) :: (entry.documentId.map fun id => (EvidenceKind.documentId, id)).toList
      if ¬ cited ⊆ summary.evidence.flatMap keys then some (some .invalidEvidenceReference)
      else if summary.objectives.all (fun status => status.coverage ≠ .sufficient || summary.evidence.any fun entry =>
          entry.objectiveIds.contains status.objectiveId && (keys entry).any fun key => cited.contains key) then some none
      else some (some .researchObjectiveUncited)

/-! ## Final answers -/

/-- `if value`. -/
def givenText (value : Option String) : List String :=
  value.toList.filter (· ≠ "")

/-- The identities of one observation. -/
def refsOf (observation : AgentObservation) : List (EvidenceKind × String) :=
  (givenText observation.searchId).map (.searchId, ·) ++
    observation.evidence.flatMap fun record =>
      (givenText record.documentId).map (.documentId, ·) ++ (givenText record.chunkId).map (.chunkId, ·)

/-- `_observed_refs`. -/
def observedRefs (observations : List AgentObservation) : List (EvidenceKind × String) :=
  observations.flatMap refsOf

/-- The order of the pairs. -/
def refBefore (a b : EvidenceKind × String) : Prop :=
  a.1.text < b.1.text ∨ (a.1 = b.1 ∧ a.2 ≤ b.2)

instance (a b : EvidenceKind × String) : Decidable (refBefore a b) :=
  inferInstanceAs (Decidable (_ ∨ _))

/-- `_observation_refs`, `none` for a `ValidationError`. -/
def observationRefs (observation : AgentObservation) : Option (List EvidenceRef) :=
  ((refsOf observation).dedup.insertionSort refBefore).mapM fun ref => EvidenceRef.build ref.1 ref.2

section Patterns

open Regex

/-- `[1-9]`, `[0-9a-f]` and the other classes of the patterns. -/
def isHex (c : Char) : Bool :=
  c.isDigit || ('a' ≤ c && c ≤ 'f')

/-- `\[Source\s+[1-9][0-9]*\]` -/
def sourceLabelPattern : Regex Char String :=
  cat [word (· == ·) "[Source".toList, plus (unit isSpace), unit fun c => c.isDigit && c ≠ '0', many false (unit Char.isDigit),
    unit (· == ']')]

/-- `[A-Z]{1,5}` -/
def symbolPattern : Regex Char String :=
  cat [unit Char.isUpper, upTo 4 (unit Char.isUpper)]

/-- `\bsearch-[0-9a-f]{16}\b` -/
def searchIdPattern (T : TextTables) : Regex Char String :=
  cat [T.boundary, word (· == ·) "search-".toList, times 16 (unit isHex), T.boundary]

/-- `\b[A-Z]{1,5}:[A-Za-z0-9_.-]{4,128}\b` -/
def documentIdPattern (T : TextTables) : Regex Char String :=
  let c := unit fun c => isAlnum c || c = '_' || c = '.' || c = '-'
  cat [T.boundary, symbolPattern, unit (· == ':'), times 4 c, upTo 124 c, T.boundary]

/-- `\b[A-Z]{1,5}_[0-9]{8,}_[A-Za-z0-9_]+\b` -/
def chunkIdPattern (T : TextTables) : Regex Char String :=
  cat [T.boundary, symbolPattern, unit (· == '_'), times 8 (unit Char.isDigit), many false (unit Char.isDigit), unit (· == '_'),
    plus (unit fun c => isAlnum c || c = '_'), T.boundary]

end Patterns

/-- What the patterns find in an answer, in the order of the checks. -/
def mentioned (T : TextTables) (answer : String) : List (EvidenceKind × String) :=
  [(EvidenceKind.searchId, searchIdPattern T), (.documentId, documentIdPattern T), (.chunkId, chunkIdPattern T)].flatMap fun p =>
    (p.2.findall answer.toList).map fun found => (p.1, String.ofList found)

/-- The sources that carry a label. -/
def labelled (observations : List AgentObservation) (label : String) : List (Option String × Option String) :=
  (observations.flatMap (·.evidence)).filterMap fun record =>
    if record.sourceLabel = some label ∧ label ≠ "" then some (record.documentId, record.chunkId) else none

/-- One label of the answer stands for one source, and that source is cited. -/
def labelFits (observations : List AgentObservation) (cited : List (EvidenceKind × String)) (label : String) : Bool :=
  let sources := (labelled observations label).dedup
  sources.length = 1 && sources.any fun source =>
    source.2.any (fun id => cited.contains (.chunkId, id)) || source.1.any fun id => cited.contains (.documentId, id)

/-- `_validate_final`. -/
def validateFinal (T : TextTables) (s : AgentState) (decision : FinalDecision) (policy : AgentRunPolicy) : Option FailureCode :=
  let cited := decision.evidenceRefs.map fun ref => (ref.kind, ref.value)
  if policy.requireObservationForFinal ∧ s.observations = [] then some .finalWithoutObservation
  else if ¬ cited ⊆ observedRefs s.observations then some .invalidEvidenceReference
  else if ((sourceLabelPattern.findall decision.answer.toList).all fun label =>
      labelFits s.observations cited (String.ofList label)) = false then some .invalidCitation
  else if (mentioned T decision.answer).all cited.contains = false then some .invalidCitation
  else none

/-- The failure of a final decision; `none` where a summary raises. -/
def finalFailure (T : TextTables) (a : AgentOrchestrator) (s : AgentState) (decision : FinalDecision) : Option (Option FailureCode) :=
  match s.research with
  | none =>
    some (if decision.unresolvedObjectiveIds ≠ [] then some .researchUnresolvedMismatch else validateFinal T s decision a.policy)
  | some session =>
    match validateFinal T s decision a.policy with
    | some code => some (some code)
    | none => do
      match ← session.validateFinal decision.evidenceRefs decision.unresolvedObjectiveIds with
      | some code => some (some code)
      | none => some (if 1200 < utf8Length decision.answer then some .researchAnswerTooLong else none)

def noEvidenceText : Locale → String
  | .en => "No indexed source evidence was collected for this research goal."
  | .vi => "Không thu thập được bằng chứng nguồn đã lập chỉ mục cho mục tiêu nghiên cứu này."

def unresolvedLabel : Locale → String
  | .en => "Unresolved research objectives"
  | .vi => "Mục tiêu nghiên cứu chưa giải quyết"

/-- The answer of a completed run. -/
def finalAnswer (s : AgentState) (answer : String) : String :=
  match s.researchSummary with
  | none => answer
  | some summary =>
    let answer := if summary.evidence.isEmpty then noEvidenceText s.locale else answer
    if summary.gaps.isEmpty then answer
    else
      let gaps := ", ".intercalate (summary.gaps.map fun gap => gap.objectiveId ++ " (" ++ gap.code.text ++ ")")
      answer ++ "\n\n" ++ unresolvedLabel s.locale ++ ": " ++ gaps ++ "."

/-! ## Tool calls -/

/-- The failure code of a text of `before_tool`. -/
def researchFailure (text : String) : FailureCode :=
  ([FailureCode.researchObjectiveRequired, .researchScopeMismatch, .duplicateToolCall].find? (·.text = text)).getD
    .researchSearchLimit

/-- What research says of a call. -/
def researchGate (s : AgentState) (objectiveId : Option String) (tool : ToolName) (validated : ToolArguments) :
    Except (AgentStatus × FailureDomain × FailureCode) Unit :=
  match s.research with
  | none => Checked.require (objectiveId = none) (.invalidDecision, .policy, .researchObjectiveRequired)
  | some session =>
    match session.beforeTool objectiveId tool validated with
    | some code => .error (.invalidDecision, .policy, researchFailure code)
    | none => .ok ()

/-- The checks of a tool decision before a budget is consumed: the failure, or the tool with its
validated arguments. -/
def admitTool (a : AgentOrchestrator) (context : AgentExecutionContext) (s : AgentState) (decision : ToolDecision) :
    Except (AgentStatus × FailureDomain × FailureCode) (AgentTool × ToolArguments) := do
  let tool ← Checked.orRaise (a.registry.get decision.toolName) (.invalidDecision, .tool, .unknownTool)
  Checked.require (context.allowedTools.contains tool.name = true) (.policyDenied, .policy, .toolNotAllowed)
  Checked.require (tool.providerExecution = true → context.allowProviderExecution = true)
    (.policyDenied, .policy, .toolProviderRequired)
  let validated ← Checked.orRaise (tool.validate decision.arguments) (.invalidDecision, .tool, .invalidArguments)
  researchGate s decision.objectiveId tool.name validated
  Checked.require (s.toolCallCount < a.limits.maxToolCalls) (.budgetExhausted, .policy, .maxToolCalls)
  Checked.require (s.perToolCalls.get tool.name < a.limits.perToolCalls.get tool.name) (.budgetExhausted, .policy, .perToolLimit)
  Checked.require (s.observations.length < a.limits.maxObservations) (.budgetExhausted, .policy, .maxObservations)
  Checked.require (a.policy.rejectDuplicateCalls = true → fingerprint tool.name validated ∉ s.seenCalls)
    (.invalidDecision, .policy, .duplicateToolCall)
  pure (tool, validated)

/-- `registry.invoke`, which repeats the gates. -/
def AgentToolRegistry.invoke (registry : AgentToolRegistry) (context : AgentExecutionContext) (name : String)
    (arguments : List (String × Json)) : Act (Except ToolErrorCode ToolObservation) :=
  match registry.get name with
  | none => pure (.error .unknownTool)
  | some tool =>
    if context.allowedTools.contains tool.name = false then pure (.error .toolNotAllowed)
    else if tool.providerExecution = true ∧ context.allowProviderExecution = false then pure (.error .providerRequired)
    else
      match tool.validate arguments with
      | none => pure (.error .invalidArguments)
      | some body => do
        let answer ← Act.execute tool.name body
        pure (answer.map fun data => ⟨tool.name.text, data⟩)

/-- The status, the domain and the code of an error of the registry. -/
def ToolErrorCode.failure : ToolErrorCode → AgentStatus × FailureDomain × FailureCode
  | .unknownTool => (.invalidDecision, .tool, .unknownTool)
  | .toolNotAllowed => (.policyDenied, .policy, .toolNotAllowed)
  | .invalidArguments => (.invalidDecision, .tool, .invalidArguments)
  | .unavailable => (.unavailable, .tool, .toolUnavailable)
  | .executionFailed => (.failed, .tool, .toolExecutionFailed)
  | .providerRequired => (.policyDenied, .policy, .toolProviderRequired)

/-- The budgets of a call are consumed and research is told; `none` where that raises. -/
def AgentState.start (s : AgentState) (objectiveId : Option String) (tool : ToolName) (validated : ToolArguments) :
    Option AgentState :=
  let s := { s with
    seenCalls := fingerprint tool validated :: s.seenCalls
    toolCallCount := s.toolCallCount + 1
    perToolCalls := s.perToolCalls.count tool }
  match s.research with
  | none => some s
  | some session => do
    let objectiveId ← objectiveId
    AgentState.refresh { s with research := some (session.startTool objectiveId tool validated) }

/-- The observation enters the state and research is told; `none` where that raises. A session whose
`observed` returned has entered an action. -/
def AgentState.observe (T : TextTables) (s : AgentState) (objectiveId : Option String) (tool : ToolName)
    (validated : ToolArguments) (projected : AgentObservation) : Option AgentState :=
  let s := { s with
    observations := s.observations ++ [projected]
    observationBytes := s.observationBytes + projected.size T }
  match s.research with
  | none => some s
  | some session => do
    let objectiveId ← objectiveId
    let observed := session.observed objectiveId tool validated (projected.evidence.map fun r => ⟨r.documentId, r.chunkId⟩)
      s.stepCount
    if session.actions.length < observed.actions.length then
      AgentState.refresh { s with research := some observed }
    else none

/-- `sorted(decision.arguments)`. -/
def ToolDecision.argumentNames (decision : ToolDecision) : List String :=
  (decision.arguments.map Prod.fst).insertionSort (· ≤ ·)

/-- The projection of what a tool returned, without protected values. -/
def project (T : TextTables) (a : AgentOrchestrator) (s : AgentState) (observation : ToolObservation) :
    Except FailureCode AgentObservation :=
  match projectObservation T observation a.limits (a.limits.maxTotalObservationBytes - s.observationBytes) with
  | .error (.limit _) => .error .observationBytes
  | .error (.integrity _) => .error .invalidObservation
  | .ok projected => if containsProtectedValue a.protectedValues projected.json then .error .invalidObservation else .ok projected

/-- The status of a run whose observation is refused. -/
def refusedStatus (code : FailureCode) : AgentStatus × FailureDomain :=
  if code = .observationBytes then (.budgetExhausted, .policy) else (.failed, .tool)

/-- What the registry answers is recorded; an observation lets the run go on. -/
def receive (T : TextTables) (a : AgentOrchestrator) (s : AgentState) (decision : ToolDecision) (tool : ToolName)
    (validated : ToolArguments) : Except ToolErrorCode ToolObservation → Act AgentState
  | .error error => do
    let s ← Act.record s
      { decisionIndex := s.decisionCallCount
        kind := .tool
        toolName := some tool.text
        objectiveId := decision.objectiveId
        argumentNames := decision.argumentNames
        outcome := .failed
        failureCode := some error.failure.2.2 }
    Act.returns (s.fails error.failure.1 error.failure.2.1 error.failure.2.2)
  | .ok observation =>
    match project T a s observation with
    | .error code => do
      let s ← Act.record s
        { decisionIndex := s.decisionCallCount
          kind := .tool
          toolName := some tool.text
          objectiveId := decision.objectiveId
          outcome := .failed
          failureCode := some code }
      Act.returns (s.fails (refusedStatus code).1 (refusedStatus code).2 code)
    | .ok projected => do
      let s ← Act.orRaise (s.observe T decision.objectiveId tool validated projected)
      let refs ← Act.orRaise (observationRefs projected)
      Act.record s
        { decisionIndex := s.decisionCallCount
          kind := .tool
          toolName := some tool.text
          objectiveId := decision.objectiveId
          argumentNames := decision.argumentNames
          outcome := .observed
          evidenceRefs := refs.take 20 }

/-- A call that is admitted. -/
def callTool (T : TextTables) (a : AgentOrchestrator) (context : AgentExecutionContext) (s : AgentState) (decision : ToolDecision)
    (tool : ToolName) (validated : ToolArguments) : Act AgentState := do
  Act.checkCancelled s
  let s ← Act.orRaise (s.start decision.objectiveId tool validated)
  let answer ← a.registry.invoke context tool.text decision.arguments
  receive T a s decision tool validated answer

/-! ## Turns -/

/-- `reject_tool`. -/
def rejectTool (s : AgentState) (decision : ToolDecision) (failure : AgentStatus × FailureDomain × FailureCode) : Act AgentState := do
  let s ← Act.record s
    { decisionIndex := s.decisionCallCount
      kind := .tool
      toolName := some decision.toolName
      objectiveId := decision.objectiveId
      argumentNames := decision.argumentNames
      outcome := .rejected
      failureCode := some failure.2.2 }
  Act.returns (s.fails failure.1 failure.2.1 failure.2.2)

/-- A final decision ends the run. -/
def finish (T : TextTables) (a : AgentOrchestrator) (s : AgentState) (decision : FinalDecision) : Act AgentState := do
  match ← Act.orRaise (finalFailure T a s decision) with
  | some code =>
    let s ← Act.record s
      { decisionIndex := s.decisionCallCount
        kind := .final
        outcome := .rejected
        failureCode := some code }
    Act.returns (s.fails .invalidDecision .policy code)
  | none =>
    let s ← Act.record s
      { decisionIndex := s.decisionCallCount
        kind := .final
        outcome := .completed
        evidenceRefs := decision.evidenceRefs }
    Act.returns (s.completes (finalAnswer s decision.answer) decision.evidenceRefs)

/-- A proposal that is no decision ends the run. -/
def refuse {α : Type} (s : AgentState) (code : FailureCode) : Act α := do
  let s ← Act.record s
    { decisionIndex := s.decisionCallCount
      kind := .invalid
      outcome := .rejected
      failureCode := some code }
  Act.returns (s.fails .invalidDecision .model code)

/-- The decision model is asked and its proposal parsed. -/
def propose (T : TextTables) (a : AgentOrchestrator) (context : AgentExecutionContext) (s : AgentState) :
    Act (AgentState × AgentDecision) := do
  Act.checkCancelled s
  let s := { s with decisionCallCount := s.decisionCallCount + 1 }
  match ← Act.decide (a.request context s) with
  | .error .unavailable => Act.returns (s.fails .unavailable .model .decisionProviderUnavailable)
  | .error (.provider code) =>
    if code = .invalidResponse ∨ code = .schemaViolation then refuse s code.failure
    else Act.returns (s.fails .failed .model code.failure)
  | .error .execution => Act.returns (s.fails .failed .model .decisionExecutionFailed)
  | .error .other => Act.returns (s.fails .failed .system .internalError)
  | .ok raw =>
    Act.checkCancelled s
    match parseDecision T raw with
    | none => refuse s .malformedDecision
    | some decision => pure ({ s with stepCount := s.stepCount + 1 }, decision)

/-- One round of the loop. -/
def turn (T : TextTables) (a : AgentOrchestrator) (context : AgentExecutionContext) (s : AgentState) : Act AgentState := do
  let (s, decision) ← propose T a context s
  match decision with
  | .final decision => finish T a s decision
  | .tool decision =>
    match admitTool a context s decision with
    | .error failure => rejectTool s decision failure
    | .ok (tool, validated) => callTool T a context s decision tool.name validated

def AgentState.initial (goal : String) (locale : Locale) (research : Option ResearchSession) : AgentState :=
  ⟨goal, locale, 0, 0, 0, .zero, [], [], [], 0, research, none, none⟩

/-- The session of a run, `none` where it is refused. -/
def AgentOrchestrator.session (a : AgentOrchestrator) : Option (Option ResearchSession) :=
  match a.research with
  | none => some none
  | some config => (ResearchSession.new config a.limits).map some

/-- The summary of a fresh session, `none` where it raises. -/
def firstSummary : Option ResearchSession → Option (Option ResearchSummary)
  | none => some none
  | some session => session.summary.map some

/-- A goal with protected values is refused before anything is asked. -/
def refuseGoal (a : AgentOrchestrator) : Act AgentResult := do
  let session ← Act.orRaise a.session
  let research ← Act.orRaise (firstSummary session)
  pure { status := .invalidDecision, stepCount := 0, decisionCallCount := 0, toolCallCount := 0, perToolCalls := .zero,
         observations := [], trace := [], failure := some (.model, .decisionProviderSchemaViolation), research }

/-- `run`. -/
def AgentOrchestrator.run (T : TextTables) (a : AgentOrchestrator) (context : AgentExecutionContext) (goal : String) :
    Act AgentResult :=
  if containsProtectedValue a.protectedValues (.str goal) then refuseGoal a
  else do
    let goal ← Act.orRaise (agentGoal T goal)
    let session ← Act.orRaise a.session
    let s ← Act.orRaise (AgentState.initial goal context.locale session).refresh
    if a.requiresProvider && !a.policy.allowDecisionProviderExecution then
      Act.returns (s.fails .policyDenied .policy .decisionProviderRequired)
    else
      let s ← Dialogue.rounds (turn T a context) a.limits.maxSteps s
      pure (s.fails .budgetExhausted .policy .maxSteps)

end Agent
