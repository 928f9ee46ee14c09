import DocumentQa.Agent.Evaluation
import DocumentQa.Lib.Runs
import DocumentQa.Lib.Sha256

/-!
# Research sessions

One bounded ledger of source identities: `before_tool` admits a call for an objective,
`start_tool` counts it and `observed` enters the sources an admitted call found. Objectives
share the entries, and the ledger is capped over all of them. `summary` and `view` derive
counts, coverage and gaps from the ledger and fail when their validators find otherwise.
-/

namespace Agent

open Python JsonText

/-! ## Models that check their values -/

/-- An entry of the ledger before its model has checked it. -/
structure LedgerEntry where
  documentId : Option String
  chunkId : String
  ticker : Option String
  objectiveIds : List String
  firstTool : ToolName
  firstStep : Nat
deriving DecidableEq

/-- `ResearchEvidence(...)`, `none` for a `ValidationError`. -/
def LedgerEntry.validate (e : LedgerEntry) : Option ResearchEvidence :=
  if identities : canonicalIdentity.fullmatch e.chunkId = true ∧ e.documentId.all canonicalIdentity.fullmatch = true then
    if associated : (e.objectiveIds ≠ [] ∧ e.objectiveIds.Nodup ∧ e.objectiveIds.length ≤ 6) ∧
        e.objectiveIds.all objectivePattern.fullmatch = true then
      if ticker : e.ticker.all (isTicker ·.toList) = true ∧
          e.ticker.all (fun t => e.documentId.any fun d => (t.toList ++ [':']).isPrefixOf d.toList) = true then
        if step : 1 ≤ e.firstStep ∧ e.firstStep ≤ 20 then
          some ⟨e.documentId, e.chunkId, e.ticker, e.objectiveIds, e.firstTool, e.firstStep, identities.1, identities.2,
            associated.1, associated.2, ticker.1, ticker.2, step⟩
        else none
      else none
    else none
  else none

def ResearchObjectiveStatus.build (objectiveId : String) (coverage : ResearchCoverage) (evidenceCount searchAttempts : Nat) :
    Option ResearchObjectiveStatus :=
  if h : objectivePattern.fullmatch objectiveId = true ∧ evidenceCount ≤ 6 ∧ searchAttempts ≤ 2 then
    some ⟨objectiveId, coverage, evidenceCount, searchAttempts, h.1, h.2.1, h.2.2⟩
  else none

def ResearchGap.build (objectiveId : String) (code : ResearchGapCode) : Option ResearchGap :=
  if h : objectivePattern.fullmatch objectiveId = true then some ⟨objectiveId, code, h⟩ else none

/-- `ResearchSummary(...)` with `coherent_summary`. -/
def ResearchSummary.build (objectives : List ResearchObjectiveStatus) (evidence : List ResearchEvidence)
    (gaps : List ResearchGap) (evidenceCapped : Bool) : Option ResearchSummary :=
  if few : (1 ≤ objectives.length ∧ objectives.length ≤ 6) ∧ evidence.length ≤ 6 ∧ gaps.length ≤ 6 then
    if distinct : (objectives.map ResearchObjectiveStatus.objectiveId).Nodup ∧
        (evidence.map fun e => (e.documentId, e.chunkId)).Nodup ∧ (gaps.map ResearchGap.objectiveId).Nodup then
      if known : (∀ e ∈ evidence, ∀ id ∈ e.objectiveIds, id ∈ objectives.map ResearchObjectiveStatus.objectiveId) ∧
          ∀ gap ∈ gaps, gap.objectiveId ∈ objectives.map ResearchObjectiveStatus.objectiveId then
        if derived : (∀ s ∈ objectives, s.evidenceCount = (evidence.filter fun e => s.objectiveId ∈ e.objectiveIds).length) ∧
            (∀ s ∈ objectives, s.coverage = .none_ ↔ s.evidenceCount = 0) ∧
            ∀ s ∈ objectives, s.coverage = .sufficient ↔ s.objectiveId ∉ gaps.map ResearchGap.objectiveId then
          some ⟨objectives, evidence, gaps, evidenceCapped, few.1, few.2.1, few.2.2, distinct.1, distinct.2.1, known.1,
            distinct.2.2, known.2, derived.1, derived.2.1, derived.2.2⟩
        else none
      else none
    else none
  else none

inductive ActionOutcome where
  | observed
  | empty
  | noNewEvidence
deriving DecidableEq, Repr

structure ResearchAction where
  objectiveId : String
  toolName : ToolName
  argumentFingerprint : String
  query : Option String
  outcome : ActionOutcome
  identifier : objectivePattern.fullmatch objectiveId = true
  fingerprint : isSha256Text argumentFingerprint = true
  short : query.all (fun q => q.toList.length ≤ 200) = true

def ResearchAction.build (objectiveId : String) (tool : ToolName) (fingerprint : String) (query : Option String)
    (outcome : ActionOutcome) : Option ResearchAction :=
  if h : objectivePattern.fullmatch objectiveId = true ∧ isSha256Text fingerprint = true ∧
      query.all (fun q => q.toList.length ≤ 200) = true then
    some ⟨objectiveId, tool, fingerprint, query, outcome, h.1, h.2.1, h.2.2⟩
  else none

/-- A summary with the frozen objectives and the bounded history. -/
structure ResearchView where
  summary : ResearchSummary
  config : ResearchConfig
  actions : List ResearchAction
  few_actions : actions.length ≤ 10
  matching : config.objectives.map ResearchObjective.objectiveId = summary.objectives.map ResearchObjectiveStatus.objectiveId

def ResearchView.build (summary : ResearchSummary) (config : ResearchConfig) (actions : List ResearchAction) :
    Option ResearchView :=
  if h : actions.length ≤ 10 ∧
      config.objectives.map ResearchObjective.objectiveId = summary.objectives.map ResearchObjectiveStatus.objectiveId then
    some ⟨summary, config, actions, h.1, h.2⟩
  else none

/-! ## Sessions -/

/-- The arguments of a tool call: the fields a session reads, and their JSON dump. -/
structure ToolArguments where
  documentId : Option String
  ticker : Option String
  query : Option String
  dump : Json

/-- `_fingerprint`. The arguments hold no floats, so they have a text. -/
def fingerprint (tool : ToolName) (arguments : ToolArguments) : String :=
  Sha256.hexdigest ((canonicalJsonText (.arr [.str tool.text, arguments.dump])).getD "")

/-- What a session reads of an observed record. -/
structure EvidenceRecord where
  documentId : Option String
  chunkId : Option String

structure ResearchSession where
  config : ResearchConfig
  ledger : List LedgerEntry
  actions : List ResearchAction
  seen : List (String × String)
  searchAttempts : String → Nat
  evidenceCapped : Bool

/-- `validate_research_limits` returns. -/
def researchLimitsFit (config : ResearchConfig) (limits : AgentLimits) : Bool :=
  config.maxEvidenceEntries ≤ limits.maxObservations * limits.maxEvidencePerObservation &&
    config.maxSearchAttemptsPerObjective ≤ limits.perToolCalls.searchDocuments &&
    limits.maxToolCalls ≠ 0 && limits.maxObservations ≠ 0

namespace ResearchSession

/-- `ResearchSession(config, limits)`. -/
def new (config : ResearchConfig) (limits : AgentLimits) : Option ResearchSession :=
  if researchLimitsFit config limits then some ⟨config, [], [], [], fun _ => 0, false⟩ else none

def objective (s : ResearchSession) (objectiveId : Option String) : Option ResearchObjective :=
  s.config.objectives.find? fun o => some o.objectiveId = objectiveId

/-- The ticker of the arguments is not the objective's. -/
def scopeMismatch (o : ResearchObjective) (tool : ToolName) (arguments : ToolArguments) : Bool :=
  o.tickerScope.any fun scope =>
    if tool = .readDocument then (tickerOf arguments.documentId).map String.ofList ≠ some scope else arguments.ticker ≠ some scope

/-- `before_tool`: the failure code, `none` for an admitted call. -/
def beforeTool (s : ResearchSession) (objectiveId : Option String) (tool : ToolName) (arguments : ToolArguments) : Option String :=
  match s.objective objectiveId with
  | none => some "research_objective_required"
  | some o =>
    if scopeMismatch o tool arguments then some "research_scope_mismatch"
    else if (o.objectiveId, fingerprint tool arguments) ∈ s.seen then some "duplicate_tool_call"
    else if tool = .searchDocuments ∧ s.config.maxSearchAttemptsPerObjective ≤ s.searchAttempts o.objectiveId then
      some "research_search_limit"
    else none

def startTool (s : ResearchSession) (objectiveId : String) (tool : ToolName) (arguments : ToolArguments) : ResearchSession :=
  { s with
    seen := (objectiveId, fingerprint tool arguments) :: s.seen
    searchAttempts := fun id =>
      if tool = .searchDocuments ∧ id = objectiveId then s.searchAttempts id + 1 else s.searchAttempts id }

/-- `(document_id or "", chunk_id)`. -/
def sourceKey (documentId : Option String) (chunkId : String) : String × String :=
  (documentId.getD "", chunkId)

/-- The first entry of this source is associated with the objective. -/
def associate (key : String × String) (objectiveId : String) : List LedgerEntry → List LedgerEntry
  | [] => []
  | e :: es =>
    if sourceKey e.documentId e.chunkId = key then
      (if objectiveId ∈ e.objectiveIds then e else { e with objectiveIds := e.objectiveIds ++ [objectiveId] }) :: es
    else e :: associate key objectiveId es

/-- One source of an observation, in scope: `none` for a `ValidationError`. -/
def addEvidence (s : ResearchSession) (objectiveId : String) (tool : ToolName) (step : Nat) (documentId : Option String)
    (chunkId : String) (ticker : Option String) : Option ResearchSession :=
  let key := sourceKey documentId chunkId
  if s.ledger.any fun e => sourceKey e.documentId e.chunkId = key then
    some { s with ledger := associate key objectiveId s.ledger }
  else if s.config.maxEvidenceEntries ≤ s.ledger.length then some { s with evidenceCapped := true }
  else
    let entry : LedgerEntry := ⟨documentId, chunkId, ticker, [objectiveId], tool, step⟩
    entry.validate.map fun _ => { s with ledger := s.ledger ++ [entry] }

/-- The loop over the records; `false` when it raises. -/
def observeRecords (o : ResearchObjective) (tool : ToolName) (step : Nat) :
    ResearchSession → List EvidenceRecord → ResearchSession × Bool
  | s, [] => (s, true)
  | s, record :: records =>
    match record.chunkId with
    | none => observeRecords o tool step s records
    | some chunkId =>
      if canonicalIdentity.fullmatch chunkId = false ∨ record.documentId.all canonicalIdentity.fullmatch = false then (s, false)
      else
        let ticker := (tickerOf record.documentId).map String.ofList
        if o.tickerScope.any fun scope => some scope ≠ ticker then observeRecords o tool step s records
        else
          match s.addEvidence o.objectiveId tool step record.documentId chunkId ticker with
          | none => (s, false)
          | some s => observeRecords o tool step s records

/-- `sum(objective_id in item.objective_ids for item in self._ledger)`. -/
def evidenceCount (s : ResearchSession) (objectiveId : String) : Nat :=
  (s.ledger.filter fun e => objectiveId ∈ e.objectiveIds).length

/-- `observed`: the session it leaves, also when it raises. -/
def observed (s : ResearchSession) (objectiveId : String) (tool : ToolName) (arguments : ToolArguments)
    (evidence : List EvidenceRecord) (step : Nat) : ResearchSession :=
  match s.objective (some objectiveId) with
  | none => s
  | some o =>
    match observeRecords o tool step s evidence with
    | (s', false) => s'
    | (s', true) =>
      let outcome := if s.evidenceCount objectiveId < s'.evidenceCount objectiveId then .observed
        else if evidence.isEmpty then .empty else .noNewEvidence
      let query := if tool = .searchDocuments then arguments.query else none
      match ResearchAction.build objectiveId tool (fingerprint tool arguments) query outcome with
      | none => s'
      | some action => { s' with actions := s'.actions ++ [action] }

/-- What `summary` finds of an objective. -/
def status (s : ResearchSession) (o : ResearchObjective) : Option ResearchObjectiveStatus :=
  ResearchObjectiveStatus.build o.objectiveId (s.config.expectedCoverage (s.evidenceCount o.objectiveId))
    (s.evidenceCount o.objectiveId) (s.searchAttempts o.objectiveId)

/-- The gap code of an objective without sufficient evidence. -/
def gapCode (s : ResearchSession) (o : ResearchObjective) : ResearchGapCode :=
  if s.evidenceCapped then .ledgerFull
  else if s.config.maxSearchAttemptsPerObjective ≤ s.searchAttempts o.objectiveId then .searchExhausted
  else if s.evidenceCount o.objectiveId = 0 then .noEvidence else .belowThreshold

/-- The objectives with a gap. -/
def gapObjectives (s : ResearchSession) : List ResearchObjective :=
  s.config.objectives.filter fun o => s.config.expectedCoverage (s.evidenceCount o.objectiveId) ≠ .sufficient

/-- `summary`. The instances of the ledger are checked again, as `view` does with their dump. -/
def summary (s : ResearchSession) : Option ResearchSummary := do
  let statuses ← s.config.objectives.mapM s.status
  let gaps ← s.gapObjectives.mapM fun o => ResearchGap.build o.objectiveId (s.gapCode o)
  let evidence ← s.ledger.mapM LedgerEntry.validate
  ResearchSummary.build statuses evidence gaps s.evidenceCapped

/-- `view`. -/
def view (s : ResearchSession) : Option ResearchView := do
  let summary ← s.summary
  ResearchView.build summary s.config s.actions

/-! ## Calls -/

inductive Call where
  | beforeTool (objectiveId : Option String) (tool : ToolName) (arguments : ToolArguments)
  | startTool (objectiveId : String) (tool : ToolName) (arguments : ToolArguments)
  | observed (objectiveId : String) (tool : ToolName) (arguments : ToolArguments) (evidence : List EvidenceRecord) (step : Nat)

/-- The session after a call. -/
def step (s : ResearchSession) : Call → ResearchSession
  | .beforeTool _ _ _ => s
  | .startTool objectiveId tool arguments => s.startTool objectiveId tool arguments
  | .observed objectiveId tool arguments evidence step => s.observed objectiveId tool arguments evidence step

/-- A tool is started when `before_tool` admits it, and observed when it was started. -/
def Admitted (s : ResearchSession) : Call → Prop
  | .beforeTool _ _ _ => True
  | .startTool objectiveId tool arguments => s.beforeTool (some objectiveId) tool arguments = none
  | .observed objectiveId tool arguments _ _ => (objectiveId, fingerprint tool arguments) ∈ s.seen

instance (s : ResearchSession) : (call : Call) → Decidable (Admitted s call)
  | .beforeTool _ _ _ => inferInstanceAs (Decidable True)
  | .startTool objectiveId tool arguments => inferInstanceAs (Decidable (s.beforeTool (some objectiveId) tool arguments = none))
  | .observed objectiveId tool arguments _ _ => inferInstanceAs (Decidable ((objectiveId, fingerprint tool arguments) ∈ s.seen))

def Call.isObserved : Call → Bool
  | .observed .. => true
  | _ => false

end ResearchSession

end Agent
