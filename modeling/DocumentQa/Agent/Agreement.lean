import DocumentQa.Agent.RoundTrip

/-!
# Evaluator and parser agree

An evaluated report is read back, and what the parser accepts is consistent with its own facts
in every respect the parser compares. It does not compare all: the outcome of the budget is not
among them.
-/

namespace Agent

open Python JsonText Jobs

/-! ## Consistency -/

/-- A metric whose value, numerator and denominator agree. -/
inductive Measured : ValueKind → AgentMetricResult → Prop
  | boolean {id : String} (b : Bool) {denominator : Json} : equal denominator (.int 1) = true →
      Measured .boolean ⟨id, .computed, .bool b, .int (if b then 1 else 0), denominator, .null⟩
  | count {id : String} {n : Int} : 0 ≤ n → n ≤ 20 → Measured .count ⟨id, .computed, .int n, .int n, .null, .null⟩
  | ratio {id : String} {x : Double} {n d : Nat} : n ≤ d → 0 < d → d ≤ 20 →
      equal (.float x) (.float (fourDecimals n d)) = true →
      Measured .ratio ⟨id, .computed, .float x, .int n, .int d, .null⟩
  | missing {kind : ValueKind} {id : String} {status : MetricStatus} {reason : String} : status ≠ .computed →
      reason ∈ missingReasons → Measured kind ⟨id, status, .null, .null, .null, .str reason⟩

theorem checkComputed_measured {kind : ValueKind} {id : String} {value numerator denominator reason : Json}
    (h : checkComputed kind value numerator denominator reason = .ok ()) :
    Measured kind ⟨id, .computed, value, numerator, denominator, reason⟩ := by
  unfold checkComputed at h
  split at h
  · next n =>
    split at h
    · cases h
    · next nonneg =>
      split at h
      · next b =>
        rw [Checked.require_eq_ok] at h
        obtain ⟨one, rfl⟩ := h
        exact .boolean b one
      · cases h
      · next v =>
        rw [Checked.require_eq_ok] at h
        obtain ⟨rfl, few, rfl⟩ := h
        exact .count (by omega) few
      · cases h
      · next x =>
        split at h
        · next d =>
          rw [Checked.require_eq_ok] at h
          obtain ⟨-, pos, few, le, same⟩ := h
          obtain ⟨n', rfl⟩ := Int.eq_ofNat_of_zero_le (Int.not_lt.1 nonneg)
          obtain ⟨d', rfl⟩ := Int.eq_ofNat_of_zero_le pos.le
          exact .ratio (by omega) (by omega) (by omega) same
        · cases h
      · cases h
  · cases h

theorem checkMissing_measured {kind : ValueKind} {id : String} {status : MetricStatus}
    {value numerator denominator reason : Json} (bare : status ≠ .computed)
    (h : checkMissing value numerator denominator reason = .ok ()) :
    Measured kind ⟨id, status, value, numerator, denominator, reason⟩ := by
  simp only [checkMissing, Checked.bind_eq_ok, Checked.require_eq_ok] at h
  obtain ⟨_, ⟨rfl, rfl, rfl⟩, h⟩ := h
  split at h
  · exact .missing bare (Checked.require_eq_ok.1 h)
  · cases h
  · cases h
  · cases h

theorem MetricFits.measured {d : AgentMetricDefinition} {m : AgentMetricResult} (fits : MetricFits d m) :
    m.metricId = metricId d.suffix ∧ Measured d.valueKind m := by
  refine ⟨fits.named, ?_⟩
  by_cases done : m.status = .computed
  · have here : Measured d.valueKind ⟨m.metricId, .computed, m.value, m.numerator, m.denominator, m.reasonCode⟩ :=
      checkComputed_measured (fits.computed done)
    rwa [← done] at here
  · exact checkMissing_measured done (fits.missing done)

theorem sampleCounts_bounded (tool : ToolName) : (⟨2, 2, 3, 1⟩ : ToolCounts).get tool ≤ 10 := by
  cases tool <;> decide

def sampleLimits : AgentLimits where
  maxSteps := 8
  maxToolCalls := 5
  perToolCalls := ⟨2, 2, 3, 1⟩
  maxObservations := 5
  maxEvidencePerObservation := 8
  maxExcerptChars := 160
  maxObservationBytes := 4096
  maxTotalObservationBytes := 16384
  steps_range := ⟨Nat.le_of_ble_eq_true rfl, Nat.le_of_ble_eq_true rfl⟩
  calls_range := Nat.le_of_ble_eq_true rfl
  tool_range := sampleCounts_bounded
  observations_range := Nat.le_of_ble_eq_true rfl
  evidence_range := Nat.le_of_ble_eq_true rfl
  excerpt_range := Nat.le_of_ble_eq_true rfl
  bytes_range := ⟨Nat.le_of_ble_eq_true rfl, Nat.le_of_ble_eq_true rfl⟩
  total_range := ⟨Nat.le_of_ble_eq_true rfl, Nat.le_of_ble_eq_true rfl⟩

theorem sampleModel_shape : codePattern.fullmatch "scripted" = true := by decide +kernel

def samplePlan : FrozenAgentPlan where
  decisionModelId := "scripted"
  decisionProvider := none
  goal := "Compare revenue growth."
  locale := .en
  allowedTools := []
  allowProviderToolExecution := false
  allowDecisionProviderExecution := false
  requireObservationForFinal := true
  rejectDuplicateCalls := true
  limits := sampleLimits
  research := none
  model_shape := sampleModel_shape
  goal_length := ⟨Nat.le_of_ble_eq_true rfl, Nat.le_of_ble_eq_true rfl⟩
  distinct_tools := List.nodup_nil
  research_limits _ none_ := absurd none_.symm (Option.some_ne_none _)

/-- A job that failed before it had a result. -/
def sampleRun (code : String) : AgentRunResponse where
  runId := "agent_1"
  state := .failed
  revision := 2
  configurationFingerprint := Sha256.hexdigest ((canonicalJsonText samplePlan.json).getD "")
  frozen := samplePlan
  result := none
  failure := some ⟨code, "The run failed."⟩

def sampleEvents : List AgentRunEventResponse :=
  [⟨"agent_1", "event_1", 1, "created", some .queued, none, none⟩,
    ⟨"agent_1", "event_2", 2, "state_changed", some .failed, none, none⟩]

/-- The metrics of a job that made no decision; a forged one says that it exhausted its budget. -/
def sampleMetrics (forged : Bool) : List AgentMetricResult :=
  [boolean "execution_completed" false, count "recorded_tool_decision_count" 0, count "admitted_tool_call_count" 0,
    missing "tool_admission_fraction" .notApplicable "no_tool_decisions", count "invalid_tool_attempt_count" 0,
    count "policy_denial_attempt_count" 0, count "duplicate_rejection_count" 0,
    missing "tool_failure_fraction" .notApplicable "no_admitted_tools", count "tool_unavailable_count" 0,
    count "invalid_final_attempt_count" 0, missing "step_budget_utilization" .unavailable "no_terminal_result",
    missing "tool_budget_utilization" .unavailable "no_terminal_result",
    if forged then boolean "budget_exhausted" true else missing "budget_exhausted" .unavailable "no_terminal_result",
    missing "decision_provider_unavailable" .unavailable "no_terminal_result",
    missing "evidence_identity_validity" .notApplicable "no_evidence",
    missing "final_reference_validity" .notApplicable "no_final", missing "objective_coverage" .notApplicable "nonresearch",
    missing "unresolved_gap_fraction" .notApplicable "nonresearch",
    missing "research_evidence_count" .notApplicable "nonresearch",
    missing "distinct_document_count" .notApplicable "nonresearch",
    missing "distinct_chunk_count" .notApplicable "nonresearch"]

/-- The report of the job; a forged one claims a result that failed. -/
def sampleReport (forged : Bool) (code configuration plan history digest : String) : AgentEvaluationReport :=
  ⟨"agent_1", sampleMetrics forged, ⟨"failed", if forged then some "failed" else none, some code,
      toolNames.map fun tool => (tool.text, 0), [], []⟩,
    ⟨configuration, plan, history, if forged then some history else none, 2, agentProtocol, none⟩, digest⟩

/-- What the samples evaluate to, as one computation. -/
theorem sample_evaluation :
    (isRunId "agent_1" = true ∧ sampleEvents.all safeEvent = true ∧ isSafeCode "internal_error" = true ∧
      isSafeCode "tool_failed" = true ∧ isSafeCode "decision_provider_required" = true) ∧
    ((canonicalJsonText samplePlan.json).isSome = true ∧
      (canonicalJsonText (.arr (sampleEvents.map AgentRunEventResponse.json))).isSome = true ∧
      metricsOf (sampleRun "") [] none = .ok (sampleMetrics false)) ∧
    (checkCounters (toolNames.map fun tool => (tool.text, 0)) [] [] = .ok () ∧
      checkReport (sampleMetrics true)
        ⟨"failed", some "failed", some "tool_failed", toolNames.map fun tool => (tool.text, 0), [], []⟩
        ⟨"", "", "", some "", 2, agentProtocol, none⟩ = .ok ()) ∧
    ((byId (sampleMetrics true) "budget_exhausted").status = .computed ∧
      (byId (sampleMetrics true) "budget_exhausted").value = .bool true ∧
      (byId (sampleMetrics false) "policy_denial_attempt_count").value = .int 0) ∧
    ∀ forged full : Bool, ((sampleReport forged "" "" "" "" "").payload full).finite = true ∧
      printable ((sampleReport forged "" "" "" "" "").payload full) = true := by
  decide +kernel

theorem sampleReport_text (forged full : Bool) (code configuration plan history digest : String) : ∃ text,
    canonicalJsonText ((sampleReport forged code configuration plan history digest).payload full) = some text := by
  have bare := sample_evaluation.2.2.2.2 forged full
  refine ⟨_, canonicalJsonText_exists ?_ ?_⟩
  · cases forged <;> cases full <;> exact bare.1
  · cases forged <;> cases full <;> exact bare.2

/-- The texts of a definition. -/
def AgentMetricDefinition.texts (d : AgentMetricDefinition) : List String :=
  d.suffix :: d.label :: d.applicability :: d.numerator :: d.meaning :: d.nonMeaning :: (d.denominator.toList ++ d.sourceFields)

theorem definitions_plain : ∀ d ∈ metricDefinitions, (∀ text ∈ d.texts, Plain 100 text) ∧ d.sourceFields.length ≤ 3 := by
  simp only [metricDefinitions, List.forall_mem_cons, AgentMetricDefinition.texts, Option.toList_some, Option.toList_none,
    List.cons_append, List.nil_append]
  repeat' apply And.intro
  all_goals
    first
    | exact fun _ mem => absurd mem List.not_mem_nil
    | exact ⟨_, rfl, by decide, by decide⟩
    | exact Nat.le_of_ble_eq_true rfl

theorem textOrNull_width {n : Nat} {text : Option String} (short : ∀ given, text = some given → Plain n given) :
    width (textOrNull text) ≤ n + 4 := by
  cases text with
  | none =>
    have null : width .null = 4 := rfl
    rw [show textOrNull none = .null from rfl, null]
    omega
  | some given =>
    have whole := (short given rfl).width
    show width (.str given) ≤ n + 4
    omega

theorem definition_width {d : AgentMetricDefinition} (mem : d ∈ metricDefinitions) : width d.json ≤ 1627 := by
  obtain ⟨texts, few⟩ := definitions_plain d mem
  have direction : Plain 18 d.direction.text := by
    cases d.direction <;> exact ⟨_, rfl, by decide, by decide⟩
  have kind : Plain 7 d.valueKind.text := by
    cases d.valueKind <;> exact ⟨_, rfl, by decide, by decide⟩
  have maximum : width (if d.valueKind = .count then .null else .int 1) ≤ 4 := by
    split <;> exact Nat.le_of_ble_eq_true rfl
  have suffix : width (.str (metricId d.suffix)) ≤ 115 :=
    (Plain.append ⟨_, rfl, by decide, by decide⟩ (texts d.suffix (by simp [AgentMetricDefinition.texts])) :
      Plain (13 + 100) _).width
  have denominator : width (textOrNull d.denominator) ≤ 104 :=
    textOrNull_width fun given same => texts given (by simp [AgentMetricDefinition.texts, same])
  have sources : width (.arr (d.sourceFields.map .str)) ≤ 311 := by
    have each : ∀ j ∈ d.sourceFields.map Json.str, width j ≤ 102 := by
      rw [List.forall_mem_map]
      exact fun text mem => (texts text (by simp [AgentMetricDefinition.texts, mem])).width
    have whole := width_arr_le each
    rw [List.length_map] at whole
    omega
  have within : ∀ text ∈ d.texts, width (.str text) ≤ 102 := fun text mem => (texts text mem).width
  suffices bounds : List.Forall₂ (fun (f : String × Json) n => Plain 28 f.1 ∧ width f.2 ≤ n) _
      [102, 104, 102, 20, 102, 4, 102, 115, 1, 1, 102, 102, 311, 9] from
    (width_fields bounds).trans (Nat.le_of_ble_eq_true rfl)
  exact
    .cons ⟨⟨_, rfl, by decide, by decide⟩, within d.applicability (by simp [AgentMetricDefinition.texts])⟩ <|
    .cons ⟨⟨_, rfl, by decide, by decide⟩, denominator⟩ <|
    .cons ⟨⟨_, rfl, by decide, by decide⟩, within d.meaning (by simp [AgentMetricDefinition.texts])⟩ <|
    .cons ⟨⟨_, rfl, by decide, by decide⟩, direction.width⟩ <|
    .cons ⟨⟨_, rfl, by decide, by decide⟩, within d.label (by simp [AgentMetricDefinition.texts])⟩ <|
    .cons ⟨⟨_, rfl, by decide, by decide⟩, maximum⟩ <|
    .cons ⟨⟨_, rfl, by decide, by decide⟩, within d.meaning (by simp [AgentMetricDefinition.texts])⟩ <|
    .cons ⟨⟨_, rfl, by decide, by decide⟩, suffix⟩ <|
    .cons ⟨⟨_, rfl, by decide, by decide⟩, Nat.le_of_ble_eq_true rfl⟩ <|
    .cons ⟨⟨_, rfl, by decide, by decide⟩, Nat.le_of_ble_eq_true rfl⟩ <|
    .cons ⟨⟨_, rfl, by decide, by decide⟩, within d.nonMeaning (by simp [AgentMetricDefinition.texts])⟩ <|
    .cons ⟨⟨_, rfl, by decide, by decide⟩, within d.numerator (by simp [AgentMetricDefinition.texts])⟩ <|
    .cons ⟨⟨_, rfl, by decide, by decide⟩, sources⟩ <|
    .cons ⟨⟨_, rfl, by decide, by decide⟩, kind.width⟩ .nil

/-- The widths of the values that are not texts. -/
theorem scalar_widths : width .null ≤ 62 ∧ width (.bool true) ≤ 62 ∧ width (.bool false) ≤ 62 ∧ width (.int 0) ≤ 62 ∧
    width (.int 1) ≤ 62 := by
  refine ⟨?_, ?_, ?_, ?_, ?_⟩
  all_goals exact Nat.le_of_ble_eq_true rfl

theorem metric_width {m : AgentMetricResult} (id : Plain 73 m.metricId) (value : width m.value ≤ 62)
    (numerator : width m.numerator ≤ 62) (denominator : width m.denominator ≤ 62) (reason : width m.reasonCode ≤ 62) :
    width m.json ≤ 600 := by
  have status : Plain 14 m.status.text := by
    cases m.status <;> exact ⟨_, rfl, by decide, by decide⟩
  suffices bounds : List.Forall₂ (fun (f : String × Json) n => Plain 28 f.1 ∧ width f.2 ≤ n) _
      [62, 75, 1, 62, 62, 16, 62] from (width_fields bounds).trans (Nat.le_of_ble_eq_true rfl)
  exact
    .cons ⟨⟨_, rfl, by decide, by decide⟩, denominator⟩ <|
    .cons ⟨⟨_, rfl, by decide, by decide⟩, id.width⟩ <|
    .cons ⟨⟨_, rfl, by decide, by decide⟩, Nat.le_of_ble_eq_true rfl⟩ <|
    .cons ⟨⟨_, rfl, by decide, by decide⟩, numerator⟩ <|
    .cons ⟨⟨_, rfl, by decide, by decide⟩, reason⟩ <|
    .cons ⟨⟨_, rfl, by decide, by decide⟩, status.width⟩ <|
    .cons ⟨⟨_, rfl, by decide, by decide⟩, value⟩ .nil

theorem metricId_plain {n : Nat} {suffix : String} (h : Plain n suffix) : Plain (13 + n) (metricId suffix) :=
  Plain.append ⟨_, rfl, by decide, by decide⟩ h

theorem boolean_width {suffix : String} (b : Bool) (h : Plain 60 suffix) : width (boolean suffix b).json ≤ 600 := by
  obtain ⟨null, yes, no, zero, one⟩ := scalar_widths
  cases b with
  | false => exact metric_width (metricId_plain h) no zero one null
  | true => exact metric_width (metricId_plain h) yes one one null

theorem noCount_width {suffix : String} (h : Plain 60 suffix) : width (count suffix 0).json ≤ 600 := by
  obtain ⟨null, -, -, zero, -⟩ := scalar_widths
  exact metric_width (metricId_plain h) zero zero null null

theorem missing_width {suffix reason : String} {status : MetricStatus} (h : Plain 60 suffix) (because : Plain 60 reason) :
    width (missing suffix status reason).json ≤ 600 := by
  obtain ⟨null, -⟩ := scalar_widths
  exact metric_width (metricId_plain h) null null null because.width

theorem sampleMetrics_width (forged : Bool) : ∀ m ∈ sampleMetrics forged, width m.json ≤ 600 := by
  have exhausted : width (if forged then boolean "budget_exhausted" true
      else missing "budget_exhausted" .unavailable "no_terminal_result").json ≤ 600 := by
    cases forged with
    | false => exact missing_width ⟨_, rfl, by decide, by decide⟩ ⟨_, rfl, by decide, by decide⟩
    | true => exact boolean_width true ⟨_, rfl, by decide, by decide⟩
  simp only [sampleMetrics, List.forall_mem_cons]
  repeat' apply And.intro
  all_goals
    first
    | exact fun _ mem => absurd mem List.not_mem_nil
    | with_reducible apply missing_width
    | with_reducible apply noCount_width
    | with_reducible apply boolean_width
    | with_reducible exact exhausted
  all_goals exact ⟨_, rfl, by decide, by decide⟩

theorem counters_width {rows : List (String × Int)} (h : ∀ row ∈ rows, width (.str row.1) ≤ 62 ∧ width (.int row.2) ≤ 62) :
    width (countersJson rows) ≤ 2 + rows.length * 129 := by
  have each : ∀ j ∈ rows.map fun row => Json.arr [.str row.1, .int row.2], width j ≤ 128 := by
    rw [List.forall_mem_map]
    intro row mem
    have pair : ∀ j ∈ [Json.str row.1, .int row.2], width j ≤ 62 := by
      simp only [List.forall_mem_cons]
      exact ⟨(h row mem).1, (h row mem).2, fun _ mem => absurd mem List.not_mem_nil⟩
    exact width_arr_le pair
  have whole := width_arr_le each
  rwa [List.length_map] at whole

/-- A short report fits the bound. -/
theorem sampleReport_width {forged : Bool} {code configuration plan history digest : String} (safe : Plain 100 code)
    (short : ∀ text ∈ [configuration, plan, history, digest], text.toList.length ≤ 71) :
    width ((sampleReport forged code configuration plan history digest).payload true) ≤ maxReportBytes := by
  simp only [List.forall_mem_cons] at short
  obtain ⟨configured, planned, evented, digested, -⟩ := short
  have text : ∀ s : String, s.toList.length ≤ 71 → width (.str s) ≤ 1712 := by
    intro s short
    have := width_str s
    omega
  have definitions : width definitionsJson ≤ 34190 := by
    have each : ∀ j ∈ metricDefinitions.map AgentMetricDefinition.json, width j ≤ 1627 := by
      rw [List.forall_mem_map]
      exact fun d mem => definition_width mem
    have whole := width_arr_le each
    rwa [List.length_map, show metricDefinitions.length = 21 from rfl] at whole
  have metrics : width (.arr ((sampleMetrics forged).map AgentMetricResult.json)) ≤ 12623 := by
    have each : ∀ j ∈ (sampleMetrics forged).map AgentMetricResult.json, width j ≤ 600 := by
      rw [List.forall_mem_map]
      exact fun m mem => sampleMetrics_width forged m mem
    have whole := width_arr_le each
    rwa [List.length_map, show (sampleMetrics forged).length = 21 from rfl] at whole
  have tools : width (countersJson (toolNames.map fun tool => (tool.text, 0))) ≤ 518 := by
    refine (counters_width ?_).trans (Nat.le_of_ble_eq_true rfl)
    rw [List.forall_mem_map]
    intro tool _
    have name : Plain 60 tool.text := by cases tool <;> exact ⟨_, rfl, by decide, by decide⟩
    exact ⟨name.width, scalar_widths.2.2.2.1⟩
  have none_ : width (countersJson []) ≤ 2 := counters_width fun _ mem => absurd mem List.not_mem_nil
  have status : width (textOrNull (if forged then some "failed" else none)) ≤ 104 := by
    refine textOrNull_width fun given same => ?_
    cases forged with
    | false => exact absurd same.symm (Option.some_ne_none _)
    | true =>
      obtain rfl := Option.some.inj same
      exact ⟨_, rfl, by decide, by decide⟩
  have result : width (textOrNull (if forged then some history else none)) ≤ 1712 := by
    cases forged with
    | false => exact scalar_widths.1.trans (Nat.le_of_ble_eq_true rfl)
    | true => exact text history evented
  have two : width (.int 2) ≤ 62 := Nat.le_of_ble_eq_true rfl
  have facts : width (sampleReport forged code configuration plan history digest).facts.json ≤ 1000 := by
    suffices bounds : List.Forall₂ (fun (f : String × Json) n => Plain 28 f.1 ∧ width f.2 ≤ n) _
        [104, 102, 2, 518, 2, 62] from (width_fields bounds).trans (Nat.le_of_ble_eq_true rfl)
    exact
      .cons ⟨⟨_, rfl, by decide, by decide⟩, status⟩ <|
      .cons ⟨⟨_, rfl, by decide, by decide⟩, safe.width⟩ <|
      .cons ⟨⟨_, rfl, by decide, by decide⟩, none_⟩ <|
      .cons ⟨⟨_, rfl, by decide, by decide⟩, tools⟩ <|
      .cons ⟨⟨_, rfl, by decide, by decide⟩, none_⟩ <|
      .cons ⟨⟨_, rfl, by decide, by decide⟩, Plain.width ⟨_, rfl, by decide, by decide⟩⟩ .nil
  have provenance : width (sampleReport forged code configuration plan history digest).provenance.json ≤ 7260 := by
    suffices bounds : List.Forall₂ (fun (f : String × Json) n => Plain 28 f.1 ∧ width f.2 ≤ n) _
        [62, 1712, 1712, 1712, 62, 1712, 62] from (width_fields bounds).trans (Nat.le_of_ble_eq_true rfl)
    exact
      .cons ⟨⟨_, rfl, by decide, by decide⟩, Plain.width ⟨_, rfl, by decide, by decide⟩⟩ <|
      .cons ⟨⟨_, rfl, by decide, by decide⟩, text configuration configured⟩ <|
      .cons ⟨⟨_, rfl, by decide, by decide⟩, text history evented⟩ <|
      .cons ⟨⟨_, rfl, by decide, by decide⟩, text plan planned⟩ <|
      .cons ⟨⟨_, rfl, by decide, by decide⟩, scalar_widths.1⟩ <|
      .cons ⟨⟨_, rfl, by decide, by decide⟩, result⟩ <|
      .cons ⟨⟨_, rfl, by decide, by decide⟩, two⟩ .nil
  suffices bounds : List.Forall₂ (fun (f : String × Json) n => Plain 28 f.1 ∧ width f.2 ≤ n) _
      [1712, 1000, 34190, 12623, 62, 62, 7260, 62] from (width_fields bounds).trans (Nat.le_of_ble_eq_true rfl)
  exact
    .cons ⟨⟨_, rfl, by decide, by decide⟩, text digest digested⟩ <|
    .cons ⟨⟨_, rfl, by decide, by decide⟩, facts⟩ <|
    .cons ⟨⟨_, rfl, by decide, by decide⟩, definitions⟩ <|
    .cons ⟨⟨_, rfl, by decide, by decide⟩, metrics⟩ <|
    .cons ⟨⟨_, rfl, by decide, by decide⟩, Plain.width ⟨_, rfl, by decide, by decide⟩⟩ <|
    .cons ⟨⟨_, rfl, by decide, by decide⟩, scalar_widths.2.2.2.2⟩ <|
    .cons ⟨⟨_, rfl, by decide, by decide⟩, provenance⟩ <|
    .cons ⟨⟨_, rfl, by decide, by decide⟩, Plain.width ⟨_, rfl, by decide, by decide⟩⟩ .nil

end Agent
