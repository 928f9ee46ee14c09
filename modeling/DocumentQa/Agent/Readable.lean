import DocumentQa.Agent.Report
import DocumentQa.Lib.Ranking

/-!
# Reports the parser reads

`Readable` says of a report what the parser asks of a payload. A readable report with the digest
of its text is read back from its own payload, and whatever the parser returns is readable.
-/

namespace Agent

open Python JsonText Jobs

/-! ## Metrics -/

/-- What the parser asks of the metric in the place of a definition. -/
structure MetricFits (d : AgentMetricDefinition) (m : AgentMetricResult) : Prop where
  named : m.metricId = metricId d.suffix
  computed : m.status = .computed → checkComputed d.valueKind m.value m.numerator m.denominator m.reasonCode = .ok ()
  missing : m.status ≠ .computed → checkMissing m.value m.numerator m.denominator m.reasonCode = .ok ()

theorem parseMetric_json {d : AgentMetricDefinition} {m : AgentMetricResult} (fits : MetricFits d m) :
    parseMetric d m.json = .ok m := by
  obtain ⟨id, status, value, numerator, denominator, reason⟩ := m
  obtain ⟨rfl, computed, missing⟩ := fits
  have shape : exactFields ["metric_id", "metric_version", "status", "value", "numerator", "denominator", "reason_code"]
      (reportError "Agent metric has invalid fields")
      (AgentMetricResult.json ⟨metricId d.suffix, status, value, numerator, denominator, reason⟩) =
      .ok [("denominator", denominator), ("metric_id", .str (metricId d.suffix)), ("metric_version", .int 1),
        ("numerator", numerator), ("reason_code", reason), ("status", .str status.text), ("value", value)] := rfl
  simp only [parseMetric, shape, Checked.ok_bind]
  cases status with
  | computed => simp [field, Json.lookup, MetricStatus.text, computed rfl]
  | unavailable => simp [field, Json.lookup, MetricStatus.text, missing MetricStatus.noConfusion]
  | notApplicable => simp [field, Json.lookup, MetricStatus.text, missing MetricStatus.noConfusion]

theorem parseMetrics_json {metrics : List AgentMetricResult} (fits : List.Forall₂ MetricFits metricDefinitions metrics) :
    parseMetrics (.arr (metrics.map AgentMetricResult.json)) = .ok metrics := by
  have read : ∀ {ds ms}, List.Forall₂ MetricFits ds ms →
      Checked.collect (fun entry => parseMetric entry.2 entry.1) ((ms.map AgentMetricResult.json).zip ds) = .ok ms := by
    intro ds ms h
    induction h with
    | nil => rfl
    | cons one _ ih =>
      rw [List.map_cons, List.zip_cons_cons, Checked.collect, parseMetric_json one, ih]
      rfl
  have length : (metrics.map AgentMetricResult.json).length = metricDefinitions.length := by
    rw [List.length_map]
    exact fits.length_eq.symm
  simp only [parseMetrics, itemsOf, Checked.ok_bind, read fits]
  rw [Checked.require, if_pos length]
  rfl

theorem textAs_eq_ok {p : String → Bool} {e : PyError} {j : Json} {text : String} :
    textAs p e j = .ok text ↔ j = .str text ∧ p text = true := by
  constructor
  · intro h
    cases j with
    | str given =>
      rw [textAs] at h
      split at h
      · next holds =>
        cases h
        exact ⟨rfl, holds⟩
      · cases h
    | null | bool _ | int _ | float _ | arr _ | obj _ => cases h
  · rintro ⟨rfl, holds⟩
    exact if_pos holds

theorem textWhere_eq_ok {p : String → Bool} {e : PyError} {j : Json} {text : Option String} :
    textWhere p e j = .ok text ↔ j = textOrNull text ∧ text.all p = true := by
  constructor
  · intro h
    cases j with
    | null =>
      cases h
      exact ⟨rfl, rfl⟩
    | str given =>
      rw [textWhere] at h
      split at h
      · next holds =>
        cases h
        exact ⟨rfl, holds⟩
      · cases h
    | bool _ | int _ | float _ | arr _ | obj _ => cases h
  · rintro ⟨rfl, holds⟩
    cases text with
    | none => rfl
    | some given => exact if_pos holds

theorem revisionOf_eq_ok {e : PyError} {j : Json} {n : Int} :
    revisionOf e j = .ok n ↔ j = .int n ∧ 2 ≤ n ∧ n ≤ maxEvents := by
  constructor
  · intro h
    cases j with
    | int given =>
      rw [revisionOf] at h
      split at h
      · next holds =>
        cases h
        exact ⟨rfl, holds⟩
      · cases h
    | null | bool _ | float _ | str _ | arr _ | obj _ => cases h
  · rintro ⟨rfl, holds⟩
    exact if_pos holds

theorem terminalState_eq_ok {j : Json} {text : String} : terminalState j = .ok text ↔ j = .str text ∧ text ∈ terminalStates := by
  constructor
  · intro h
    cases j with
    | str given =>
      rw [terminalState] at h
      split at h
      · next holds =>
        cases h
        exact ⟨rfl, holds⟩
      · cases h
    | null | bool _ | int _ | float _ | arr _ | obj _ => cases h
  · rintro ⟨rfl, holds⟩
    exact if_pos holds

/-- What the parser asks of a provenance. -/
structure ProvenanceFits (p : AgentEvaluationProvenance) : Prop where
  configuration : isSha256Text p.configurationFingerprint = true
  plan : isFingerprint p.frozenPlanSha256 = true ∧ isHash p.frozenPlanSha256 = true
  history : isFingerprint p.eventSha256 = true ∧ isHash p.eventSha256 = true
  result : p.resultSha256.all isFingerprint = true ∧ p.resultSha256.all isHash = true
  revision : 2 ≤ p.runRevision ∧ p.runRevision ≤ maxEvents
  protocol : p.agentProtocol = agentProtocol
  version : p.researchVersion.all (· = researchVersion) = true

theorem parseProvenance_json {p : AgentEvaluationProvenance} (fits : ProvenanceFits p) : parseProvenance p.json = .ok p := by
  have shape : exactFields ["configuration_fingerprint", "frozen_plan_sha256", "event_sha256", "result_sha256", "run_revision",
      "agent_protocol", "research_version"] (reportError "Agent provenance has invalid fields") p.json =
      .ok [("agent_protocol", .str p.agentProtocol), ("configuration_fingerprint", .str p.configurationFingerprint),
        ("event_sha256", .str p.eventSha256), ("frozen_plan_sha256", .str p.frozenPlanSha256),
        ("research_version", textOrNull p.researchVersion), ("result_sha256", textOrNull p.resultSha256),
        ("run_revision", .int p.runRevision)] := rfl
  have plain : isFingerprint p.configurationFingerprint = true := by
    rw [isFingerprint, fits.configuration, Bool.true_or]
  have protocol : decide (p.agentProtocol = agentProtocol) = true := decide_eq_true fits.protocol
  simp only [parseProvenance, shape, Checked.bind_eq_ok, Checked.require_eq_ok, textAs_eq_ok, textWhere_eq_ok, revisionOf_eq_ok,
    Checked.pure_eq_ok]
  exact ⟨_, rfl, _, ⟨rfl, plain⟩, _, ⟨rfl, fits.plan.1⟩, _, ⟨rfl, fits.history.1⟩, _, ⟨rfl, fits.result.1⟩, (),
    fits.configuration, (), ⟨fits.plan.2, fits.history.2, fits.result.2⟩, _, ⟨rfl, fits.revision⟩, _, ⟨rfl, protocol⟩, _,
    ⟨rfl, fits.version⟩, rfl⟩

/-- What the parser asks of a list of counters. -/
structure CountersFit (rows : List (String × Int)) : Prop where
  nonneg : ∀ row ∈ rows, 0 ≤ row.2
  ascending : (rows.map Prod.fst).Pairwise (· < ·)

theorem parseCounters_json {rows : List (String × Int)} (fits : CountersFit rows) :
    parseCounters (countersJson rows) = .ok rows := by
  have read : Checked.collect (fun item => Checked.orRaise (row? item) (reportError "Agent fact counters are malformed"))
      (rows.map fun row => .arr [.str row.1, .int row.2]) = .ok rows := by
    rw [Checked.collect_eq_ok, List.forall₂_map_left_iff, List.forall₂_same]
    intro row mem
    rw [Checked.orRaise_eq_ok, row?, if_pos (fits.nonneg row mem)]
  have ascending : rows.Pairwise fun a b => a.1 < b.1 := List.pairwise_map.1 fits.ascending
  have sorted : rows = rows.insertionSort fun a b => a.1 ≤ b.1 := (Ranking.ascending_of_strict ascending).symm
  have distinct : (rows.map Prod.fst).Nodup := fits.ascending.imp ne_of_lt
  simp only [parseCounters, countersJson, itemsOf, Checked.ok_bind, read]
  rw [Checked.require, if_pos ⟨sorted, distinct⟩]
  rfl

/-- What the parser asks of the facts, next to the hash of the result. -/
structure FactsFit (f : AgentEvaluationFacts) (result : Option String) : Prop where
  terminal : f.terminalState ∈ terminalStates
  agentStatus : f.agentStatus.all (· ∈ agentStatuses) = true
  failureCode : f.failureCode.all isSafeCode = true
  outcome : checkTerminal f.terminalState f.agentStatus result = .ok ()
  tools : CountersFit f.recordedPerToolCalls
  rejected : CountersFit f.rejectedToolCodes
  gaps : CountersFit f.gapCounts
  bounds : checkCounters f.recordedPerToolCalls f.rejectedToolCodes f.gapCounts = .ok ()

theorem parseFacts_json {f : AgentEvaluationFacts} {result : Option String} (fits : FactsFit f result) :
    parseFacts [("agent_status", textOrNull f.agentStatus), ("failure_code", textOrNull f.failureCode),
      ("gap_counts", countersJson f.gapCounts), ("recorded_per_tool_calls", countersJson f.recordedPerToolCalls),
      ("rejected_tool_codes", countersJson f.rejectedToolCodes), ("terminal_state", .str f.terminalState)] result = .ok f := by
  simp only [parseFacts, Checked.bind_eq_ok, textWhere_eq_ok, terminalState_eq_ok, Checked.pure_eq_ok]
  exact ⟨_, ⟨rfl, fits.terminal⟩, _, ⟨rfl, fits.agentStatus⟩, _, ⟨rfl, fits.failureCode⟩, (), fits.outcome, _,
    parseCounters_json fits.tools, _, parseCounters_json fits.rejected, _, parseCounters_json fits.gaps, (), fits.bounds, rfl⟩

/-- What the parser asks of a report, its digest apart. -/
structure Readable (r : AgentEvaluationReport) : Prop where
  runId : isRunId r.runId = true
  metrics : List.Forall₂ MetricFits metricDefinitions r.metrics
  provenance : ProvenanceFits r.provenance
  facts : FactsFit r.facts r.provenance.resultSha256
  checked : checkReport r.metrics r.facts r.provenance = .ok ()

theorem AgentMetricDefinition.json_orderly (d : AgentMetricDefinition) : d.json.orderly = true := by
  have denominator : (textOrNull d.denominator).orderly = true := by
    cases d.denominator <;> rfl
  have maximum : (if d.valueKind = .count then Json.null else .int 1).orderly = true := by
    split <;> rfl
  have sources : (Json.arr (d.sourceFields.map .str)).orderly = true := by
    rw [Json.orderly_arr, List.forall_mem_map]
    exact fun _ _ => rfl
  rw [AgentMetricDefinition.json, Json.orderly_obj]
  simp only [List.map_cons, List.map_nil]
  refine ⟨by decide, ?_⟩
  simp only [List.forall_mem_cons, denominator, maximum, sources, true_and]
  exact ⟨rfl, rfl, rfl, rfl, rfl, rfl, rfl, rfl, rfl, rfl, rfl, fun _ mem => absurd mem List.not_mem_nil⟩

theorem definitions_orderly : definitionsJson.orderly = true := by
  rw [definitionsJson, Json.orderly_arr, List.forall_mem_map]
  exact fun d _ => d.json_orderly

theorem definitions_equal : equal definitionsJson definitionsJson = true :=
  equal_refl (Json.orderly_distinctKeys definitions_orderly) (by decide +kernel)

theorem reportDigest_fingerprint {r : AgentEvaluationReport} {digest : String} (h : reportDigest r = .ok digest) :
    isFingerprint digest = true := by
  simp only [reportDigest, sha, Checked.bind_eq_ok, Checked.pure_eq_ok] at h
  obtain ⟨text, -, rfl⟩ := h
  simp [isFingerprint, String.toList_append, String.ofList_toList, Sha256.isSha256Text_hexdigest]

/-- **A readable report with the digest of its text is read back from its payload.** -/
theorem parsePayload_payload {r : AgentEvaluationReport} (fits : Readable r) (digested : reportDigest r = .ok r.digest) :
    parsePayload (r.payload true) = .ok r := by
  have shape : exactFields reportNames (reportError "Agent report has invalid fields") (r.payload true) =
      .ok [("digest", .str r.digest), ("facts", r.facts.json), ("metric_definitions", definitionsJson),
        ("metrics", .arr (r.metrics.map AgentMetricResult.json)), ("protocol", .str "native-agent-evaluation"),
        ("protocol_version", .int 1), ("provenance", r.provenance.json), ("run_id", .str r.runId)] := rfl
  have facts : exactFields factNames (reportError "Agent facts has invalid fields") r.facts.json =
      .ok [("agent_status", textOrNull r.facts.agentStatus), ("failure_code", textOrNull r.facts.failureCode),
        ("gap_counts", countersJson r.facts.gapCounts),
        ("recorded_per_tool_calls", countersJson r.facts.recordedPerToolCalls),
        ("rejected_tool_codes", countersJson r.facts.rejectedToolCodes), ("terminal_state", .str r.facts.terminalState)] := rfl
  simp only [parsePayload, Checked.bind_eq_ok, Checked.require_eq_ok, textAs_eq_ok, Checked.pure_eq_ok]
  exact ⟨_, shape, (), ⟨rfl, rfl⟩, _, ⟨rfl, fits.runId⟩, (), definitions_equal, _, parseMetrics_json fits.metrics, _, facts, _,
    parseProvenance_json fits.provenance, _, parseFacts_json fits.facts, (), fits.checked, _,
    ⟨rfl, reportDigest_fingerprint digested⟩, _, digested, (), rfl, rfl⟩

theorem equal_one_orderly {j : Json} (h : equal j (.int 1) = true) : j.orderly = true := by
  cases j with
  | arr items => cases h
  | obj fields => cases h
  | null | bool _ | int _ | float _ | str _ => rfl

theorem checkComputed_orderly {kind : ValueKind} {value numerator denominator reason : Json}
    (h : checkComputed kind value numerator denominator reason = .ok ()) :
    value.orderly = true ∧ numerator.orderly = true ∧ denominator.orderly = true ∧ reason.orderly = true := by
  unfold checkComputed at h
  split at h
  · split at h
    · cases h
    · split at h
      · rw [Checked.require_eq_ok] at h
        exact ⟨rfl, rfl, equal_one_orderly h.1, rfl⟩
      · cases h
      · rw [Checked.require_eq_ok] at h
        rw [h.2.2]
        exact ⟨rfl, rfl, rfl, rfl⟩
      · cases h
      · split at h
        · exact ⟨rfl, rfl, rfl, rfl⟩
        · cases h
      · cases h
  · cases h

theorem checkMissing_orderly {value numerator denominator reason : Json}
    (h : checkMissing value numerator denominator reason = .ok ()) :
    value.orderly = true ∧ numerator.orderly = true ∧ denominator.orderly = true ∧ reason.orderly = true := by
  simp only [checkMissing, Checked.bind_eq_ok, Checked.require_eq_ok] at h
  obtain ⟨_, ⟨rfl, rfl, rfl⟩, h⟩ := h
  split at h
  · exact ⟨rfl, rfl, rfl, rfl⟩
  · cases h
  · cases h
  · cases h

theorem MetricFits.orderly {d : AgentMetricDefinition} {m : AgentMetricResult} (fits : MetricFits d m) :
    m.json.orderly = true := by
  have scalars : m.value.orderly = true ∧ m.numerator.orderly = true ∧ m.denominator.orderly = true ∧
      m.reasonCode.orderly = true := by
    by_cases done : m.status = .computed
    · exact checkComputed_orderly (fits.computed done)
    · exact checkMissing_orderly (fits.missing done)
  rw [AgentMetricResult.json, Json.orderly_obj]
  simp only [List.map_cons, List.map_nil]
  refine ⟨by decide, ?_⟩
  simp only [List.forall_mem_cons, scalars, true_and]
  exact ⟨rfl, rfl, rfl, fun _ mem => absurd mem List.not_mem_nil⟩

theorem textOrNull_orderly (text : Option String) : (textOrNull text).orderly = true := by
  cases text <;> rfl

theorem countersJson_orderly (rows : List (String × Int)) : (countersJson rows).orderly = true := by
  rw [countersJson, Json.orderly_arr, List.forall_mem_map]
  intro row _
  rw [Json.orderly_arr]
  simp only [List.forall_mem_cons]
  exact ⟨rfl, rfl, fun _ mem => absurd mem List.not_mem_nil⟩

theorem AgentEvaluationFacts.json_orderly (f : AgentEvaluationFacts) : f.json.orderly = true := by
  rw [AgentEvaluationFacts.json, Json.orderly_obj]
  simp only [List.map_cons, List.map_nil]
  refine ⟨by decide, ?_⟩
  simp only [List.forall_mem_cons, textOrNull_orderly, countersJson_orderly, true_and]
  exact ⟨rfl, fun _ mem => absurd mem List.not_mem_nil⟩

theorem AgentEvaluationProvenance.json_orderly (p : AgentEvaluationProvenance) : p.json.orderly = true := by
  rw [AgentEvaluationProvenance.json, Json.orderly_obj]
  simp only [List.map_cons, List.map_nil]
  refine ⟨by decide, ?_⟩
  simp only [List.forall_mem_cons, textOrNull_orderly, true_and]
  exact ⟨rfl, rfl, rfl, rfl, rfl, fun _ mem => absurd mem List.not_mem_nil⟩

theorem metrics_orderly {ds : List AgentMetricDefinition} {ms : List AgentMetricResult} (fits : List.Forall₂ MetricFits ds ms) :
    (Json.arr (ms.map AgentMetricResult.json)).orderly = true := by
  rw [Json.orderly_arr, List.forall_mem_map]
  intro m mem
  obtain ⟨d, -, here⟩ := Checked.forall₂_source fits mem
  exact here.orderly

theorem payload_orderly {r : AgentEvaluationReport} (fits : List.Forall₂ MetricFits metricDefinitions r.metrics) :
    (r.payload true).orderly = true := by
  rw [AgentEvaluationReport.payload, Json.orderly_obj]
  simp only [if_true, List.cons_append, List.nil_append, List.map_cons, List.map_nil]
  refine ⟨by decide, ?_⟩
  simp only [List.forall_mem_cons, AgentEvaluationFacts.json_orderly, AgentEvaluationProvenance.json_orderly,
    definitions_orderly, metrics_orderly fits, true_and]
  exact ⟨rfl, rfl, rfl, rfl, fun _ mem => absurd mem List.not_mem_nil⟩

end Agent
