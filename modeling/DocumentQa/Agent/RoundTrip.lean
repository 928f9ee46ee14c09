import DocumentQa.Agent.Readable

/-!
# Evaluated runs are readable

What the checks of a snapshot leave of its decisions bounds every count of the report, and the
facts add up to the counts. So a report of an evaluated run is readable, except where the two
sides disagree on when a missing decision provider counts as a denial.
-/

namespace Agent

open Python JsonText Jobs

/-! ## Decisions -/

/-- What the checks leave of the decisions. -/
structure DecisionsFit (run : AgentRunResponse) (decisions : List AgentEventSummary) : Prop where
  few : decisions.length ≤ 20
  calls : (decisions.filter (·.admitted)).length ≤ 10
  kinds : ∀ s ∈ decisions, checkKind run s = .ok ()
  codes : ∀ s ∈ decisions, s.outcome = .rejected → s.failureCode.any (failureCodes.elem ·) = true

/-- The loop keeps its counts. -/
theorem decisionEvents_spec {run : AgentRunResponse} {events : List AgentRunEventResponse} {count lastStep lastTools : Nat}
    {d : Decisions} (h : decisionEvents run count lastStep lastTools events = .ok d) :
    d.summaries = events.filterMap (·.summary) ∧ (d.summaries ≠ [] → count + d.summaries.length ≤ 20) ∧
      (lastTools ≤ 10 → lastTools + (d.summaries.filter (·.admitted)).length ≤ 10) ∧
      ∀ s ∈ d.summaries, checkKind run s = .ok () ∧ (s.outcome = .rejected → s.failureCode.any (failureCodes.elem ·) = true) := by
  induction events generalizing count lastStep lastTools d with
  | nil =>
    cases h
    exact ⟨rfl, fun none_ => absurd rfl none_, fun few => few, fun _ mem => absurd mem List.not_mem_nil⟩
  | cons item rest ih =>
    rw [decisionEvents] at h
    split at h
    · next bare =>
      simp only [Checked.bind_eq_ok, Checked.require_eq_ok] at h
      obtain ⟨_, -, later⟩ := h
      rw [List.filterMap_cons_none bare]
      exact ih later
    · next s given =>
      simp only [Checked.bind_eq_ok, Checked.require_eq_ok, Checked.pure_eq_ok] at h
      obtain ⟨_, -, _, checked, later, rest_, rfl⟩ := h
      obtain ⟨same, few, calls, each⟩ := ih rest_
      simp only [checkDecision, Checked.bind_eq_ok, Checked.require_eq_ok] at checked
      obtain ⟨_, -, _, index, _, -, _, ⟨-, tools⟩, _, -, _, -, _, known, kind⟩ := checked
      have range := s.index_range
      have bound := s.calls_range
      refine ⟨by rw [List.filterMap_cons_some given, same], ?_, ?_, ?_⟩
      · intro _
        rw [List.length_cons]
        by_cases more : later.summaries = []
        · rw [more, List.length_nil]
          omega
        · have := few more
          omega
      · intro _
        have more := calls bound
        rw [List.filter_cons]
        split
        · next yes =>
          rw [if_pos yes] at tools
          rw [List.length_cons]
          omega
        · next no =>
          rw [if_neg no] at tools
          omega
      · intro s' mem
        rcases List.mem_cons.1 mem with rfl | mem
        · exact ⟨kind, fun rejected => known (.inl rejected)⟩
        · exact each s' mem

theorem decisionsOf_spec {run : AgentRunResponse} {events : List AgentRunEventResponse} {decisions : List AgentEventSummary}
    (h : decisionsOf run events = .ok decisions) :
    decisions = events.filterMap (·.summary) ∧ DecisionsFit run decisions := by
  simp only [decisionsOf, Checked.bind_eq_ok] at h
  obtain ⟨d, read, h⟩ := h
  obtain ⟨same, few, calls, each⟩ := decisionEvents_spec read
  have fits : DecisionsFit run d.summaries := by
    refine ⟨?_, ?_, fun s mem => (each s mem).1, fun s mem => (each s mem).2⟩
    · by_cases none_ : d.summaries = []
      · rw [none_]
        exact Nat.zero_le _
      · have := few none_
        omega
    · have := calls (Nat.zero_le 10)
      omega
  split at h
  · cases h
    exact ⟨same, fits⟩
  · simp only [Checked.bind_eq_ok, Checked.pure_eq_ok] at h
    obtain ⟨_, -, rfl⟩ := h
    exact ⟨same, fits⟩

/-! ## Tallies -/

section Tally

variable {run : AgentRunResponse} {decisions : List AgentEventSummary} (fits : DecisionsFit run decisions)

theorem admitted_eq (decisions : List AgentEventSummary) :
    (tally decisions).admitted = decisions.filter (·.admitted) := by
  simp only [tally, List.filter_filter]
  apply List.filter_congr
  intro s _
  simp [AgentEventSummary.isTool, AgentEventSummary.admitted, Bool.and_comm]

include fits

theorem tool_outcome {s : AgentEventSummary} (mem : s ∈ (tally decisions).toolDecisions) : s.outcome ≠ .completed := by
  obtain ⟨mem, tool⟩ := List.mem_filter.1 mem
  have kind : s.decisionKind = .tool := of_decide_eq_true tool
  have checked := fits.kinds s mem
  rw [checkKind, kind] at checked
  simp only [checkTool, Checked.bind_eq_ok, Checked.require_eq_ok] at checked
  exact checked.choose_spec.2.choose_spec.1

/-- Every tool decision was admitted or rejected. -/
theorem tally_split : (tally decisions).admitted.length + (tally decisions).rejected.length =
    (tally decisions).toolDecisions.length := by
  have all : ∀ ss : List AgentEventSummary, (∀ s ∈ ss, s.outcome ≠ .completed) →
      (ss.filter fun s => s.outcome = .observed || s.outcome = .failed).length + (ss.filter (·.outcome = .rejected)).length =
        ss.length := by
    intro ss
    induction ss with
    | nil => exact fun _ => rfl
    | cons s ss ih =>
      intro each
      have rest := ih fun s' mem => each s' (List.mem_cons_of_mem _ mem)
      have own := each s (by simp)
      cases outcome : s.outcome with
      | completed => exact absurd outcome own
      | observed | rejected | failed =>
        simp only [List.filter_cons, outcome, List.length_cons]
        simp
        omega
  exact all _ fun s mem => tool_outcome fits mem

theorem admitted_few : (tally decisions).admitted.length ≤ 10 := by
  rw [admitted_eq]
  exact fits.calls

theorem toolDecisions_few : (tally decisions).toolDecisions.length ≤ 20 :=
  (List.length_filter_le _ _).trans fits.few

theorem rejected_few : (tally decisions).rejected.length ≤ 20 := by
  have whole := tally_split fits
  have few := toolDecisions_few fits
  omega

theorem rejectedAs_few (codes : List String) : (tally decisions).rejectedAs codes ≤ 20 :=
  (List.length_filter_le _ _).trans (rejected_few fits)

end Tally

/-! ## Sums of counters -/

theorem sumWhere_map (p : String → Bool) (f : String → Nat) (keys : List String) :
    sumWhere p (keys.map fun key => (key, (f key : Int))) = (((keys.filter p).map f).sum : Nat) := by
  induction keys with
  | nil => rfl
  | cons key keys ih =>
    rw [sumWhere] at ih ⊢
    rw [List.map_cons, List.filter_cons, List.filter_cons]
    cases p key with
    | false => exact ih
    | true =>
      simp only [if_true]
      rw [List.foldr_cons, ih, List.map_cons, List.sum_cons]
      omega

/-- Counting the texts of a list by their values counts them all. -/
theorem sumWhere_countsOf (p : String → Bool) (texts : List String) :
    sumWhere p (countsOf texts) = (texts.filter p).length := by
  have counted : (fun text => (texts.filter (· = text)).length) = fun text => texts.count text := by
    funext text
    rw [← List.countP_eq_length_filter, List.count]
    rfl
  have keys : ((texts.dedup.insertionSort (· ≤ ·)).filter p).Perm (texts.dedup.filter p) :=
    (List.perm_insertionSort _ _).filter p
  have sum := List.sum_map_count_dedup_filter_eq_countP p texts
  rw [countsOf, sumWhere_map p fun text => (texts.filter (· = text)).length, counted, (keys.map _).sum_eq, sum,
    List.countP_eq_length_filter]

/-- The calls of the four tools are all the calls. -/
theorem total_calls {ss : List AgentEventSummary} (each : ∀ s ∈ ss, ∃ tool : ToolName, s.toolName = some tool.text) :
    total (toolNames.map fun tool => (tool.text, ((ss.filter (·.calls tool)).length : Int))) = ss.length := by
  induction ss with
  | nil => rfl
  | cons s ss ih =>
    have rest := ih fun s' mem => each s' (List.mem_cons_of_mem _ mem)
    obtain ⟨tool, named⟩ := each s (by simp)
    simp only [total, sumWhere, toolNames, List.map_cons, List.map_nil, List.filter_true,
      List.filter_cons, AgentEventSummary.calls, named, List.length_cons] at rest ⊢
    cases tool with
    | searchDocuments | inspectRetrieval | readDocument | askRag =>
      simp [ToolName.text] at rest ⊢
      omega

/-- The gaps of the four codes are all the gaps. -/
theorem total_gaps (gaps : List ResearchGap) :
    total (gapCodes.map fun code => (code.text, ((gaps.filter (·.code = code)).length : Int))) = gaps.length := by
  induction gaps with
  | nil => rfl
  | cons gap gaps ih =>
    simp only [total, sumWhere, gapCodes, List.map_cons, List.map_nil, List.filter_true,
      List.filter_cons, List.length_cons] at ih ⊢
    cases code : gap.code with
    | belowThreshold | ledgerFull | noEvidence | searchExhausted =>
      simp at ih ⊢
      omega

/-! ## Metrics of each kind -/

/-- What the parser asks of a metric of a kind, its name apart. -/
def FitsKind (kind : ValueKind) (m : AgentMetricResult) : Prop :=
  (m.status = .computed → checkComputed kind m.value m.numerator m.denominator m.reasonCode = .ok ()) ∧
    (m.status ≠ .computed → checkMissing m.value m.numerator m.denominator m.reasonCode = .ok ())

theorem count_fits {suffix : String} {n : Nat} (small : n ≤ 20) : FitsKind .count (count suffix n) := by
  refine ⟨fun _ => ?_, fun other => absurd rfl other⟩
  have nonneg : ¬((n : Int) < 0) := by omega
  have bound : (n : Int) ≤ 20 := by omega
  simp [checkComputed, count, nonneg, Checked.require, bound]

theorem boolean_fits (suffix : String) (b : Bool) : FitsKind .boolean (boolean suffix b) := by
  refine ⟨fun _ => ?_, fun other => absurd rfl other⟩
  cases b <;> rfl

theorem missing_fits (kind : ValueKind) {suffix reason : String} {status : MetricStatus} (bare : status ≠ .computed)
    (known : reason ∈ missingReasons) : FitsKind kind (missing suffix status reason) := by
  refine ⟨fun done => absurd done bare, fun _ => ?_⟩
  simp [checkMissing, missing, Checked.require, known]

theorem fourDecimals_finite (n d : Nat) : (fourDecimals n d).isFinite = true := by
  rw [fourDecimals, Double.ofScaled]
  split <;> rfl

theorem ratio_eq_ok {suffix : String} {n d : Nat} {m : AgentMetricResult} (h : ratio suffix n d = .ok m) :
    (0 < d ∧ n ≤ d) ∧ m = ⟨metricId suffix, .computed, .float (fourDecimals n d), .int n, .int d, .null⟩ := by
  simp only [ratio, Checked.bind_eq_ok, Checked.require_eq_ok, Checked.pure_eq_ok] at h
  obtain ⟨_, range, rfl⟩ := h
  exact ⟨range, rfl⟩

theorem ratio_fits {suffix : String} {n d : Nat} {m : AgentMetricResult} (small : d ≤ 20) (h : ratio suffix n d = .ok m) :
    FitsKind .ratio m := by
  obtain ⟨⟨pos, le⟩, rfl⟩ := ratio_eq_ok h
  refine ⟨fun _ => ?_, fun other => absurd rfl other⟩
  have nonneg : ¬((n : Int) < 0) := by omega
  have bounds : 0 < (d : Int) ∧ (d : Int) ≤ 20 ∧ (n : Int) ≤ d := by omega
  have same : equal (.float (fourDecimals n d)) (.float (fourDecimals n d)) = true :=
    equal_refl rfl (fourDecimals_finite n d)
  have nonzero : d ≠ 0 := by omega
  simp [checkComputed, nonneg, Checked.require, fourDecimals_finite, bounds, same, nonzero]

theorem ratioOr_cases {suffix reason : String} {n d : Nat} {m : AgentMetricResult} (h : ratioOr suffix n d reason = .ok m) :
    (d = 0 ∧ m = missing suffix .notApplicable reason) ∨ (d ≠ 0 ∧ ratio suffix n d = .ok m) := by
  rw [ratioOr] at h
  split at h
  · next zero =>
    cases h
    exact .inl ⟨zero, rfl⟩
  · next pos => exact .inr ⟨pos, h⟩

theorem ratioOr_fits {suffix reason : String} {n d : Nat} {m : AgentMetricResult} (small : d ≤ 20)
    (known : reason ∈ missingReasons) (h : ratioOr suffix n d reason = .ok m) :
    m.metricId = metricId suffix ∧ FitsKind .ratio m := by
  rcases ratioOr_cases h with ⟨-, rfl⟩ | ⟨-, h⟩
  · exact ⟨rfl, missing_fits .ratio MetricStatus.noConfusion known⟩
  · refine ⟨?_, ratio_fits small h⟩
    rw [(ratio_eq_ok h).2]

/-! ## Metrics by their names -/

theorem metricId_injective {a b : String} (h : metricId a = metricId b) : a = b := by
  rw [metricId, metricId] at h
  exact String.append_right_inj _ |>.1 h

/-- Metrics in the places of names with kinds. -/
def Shaped : List (String × ValueKind) → List AgentMetricResult → Prop :=
  List.Forall₂ fun place m => m.metricId = metricId place.1 ∧ FitsKind place.2 m

theorem byId_of_mem {metrics : List AgentMetricResult} {suffix : String} {m : AgentMetricResult}
    (distinct : (metrics.map (·.metricId)).Nodup) (mem : m ∈ metrics) (named : m.metricId = metricId suffix) :
    byId metrics suffix = m := by
  have found : metrics.find? (·.metricId = metricId suffix) = some m := by
    induction metrics with
    | nil => cases mem
    | cons head rest ih =>
      rw [List.map_cons, List.nodup_cons] at distinct
      rcases List.mem_cons.1 mem with rfl | mem
      · rw [List.find?_cons, decide_eq_true named]
      · have other : head.metricId ≠ metricId suffix := by
          intro same
          apply distinct.1
          rw [same, ← named]
          exact List.mem_map_of_mem mem
        rw [List.find?_cons, decide_eq_false other]
        exact ih distinct.2 mem
  rw [byId, found, Option.getD_some]

theorem Shaped.ids {places : List (String × ValueKind)} {metrics : List AgentMetricResult} (h : Shaped places metrics) :
    metrics.map (·.metricId) = places.map fun place => metricId place.1 := by
  induction h with
  | nil => rfl
  | cons one _ ih => rw [List.map_cons, List.map_cons, one.1, ih]

theorem Shaped.distinct {places : List (String × ValueKind)} {metrics : List AgentMetricResult} (h : Shaped places metrics)
    (names : (places.map Prod.fst).Nodup) : (metrics.map (·.metricId)).Nodup := by
  have ids : (places.map fun place => metricId place.1) = (places.map Prod.fst).map metricId := List.map_map.symm
  rw [h.ids, ids]
  exact names.map fun _ _ => metricId_injective

theorem Shaped.byId {places : List (String × ValueKind)} {metrics : List AgentMetricResult} (h : Shaped places metrics)
    (names : (places.map Prod.fst).Nodup) {place : String × ValueKind} (mem : place ∈ places) :
    (Agent.byId metrics place.1).metricId = metricId place.1 ∧ FitsKind place.2 (Agent.byId metrics place.1) := by
  have found : ∃ m ∈ metrics, m.metricId = metricId place.1 ∧ FitsKind place.2 m := by
    clear names
    induction h with
    | nil => cases mem
    | cons one _ ih =>
      rcases List.mem_cons.1 mem with rfl | mem
      · exact ⟨_, by simp, one⟩
      · obtain ⟨m, mem, here⟩ := ih mem
        exact ⟨m, List.mem_cons_of_mem _ mem, here⟩
  obtain ⟨m, mem, here⟩ := found
  rwa [byId_of_mem (h.distinct names) mem here.1]

/-- The names and kinds of the metrics in the order they are computed. -/
def places : List (String × ValueKind) :=
  [("execution_completed", .boolean), ("recorded_tool_decision_count", .count), ("admitted_tool_call_count", .count),
    ("tool_admission_fraction", .ratio), ("invalid_tool_attempt_count", .count), ("policy_denial_attempt_count", .count),
    ("duplicate_rejection_count", .count), ("tool_failure_fraction", .ratio), ("tool_unavailable_count", .count),
    ("invalid_final_attempt_count", .count), ("step_budget_utilization", .ratio), ("tool_budget_utilization", .ratio),
    ("budget_exhausted", .boolean), ("decision_provider_unavailable", .boolean), ("evidence_identity_validity", .ratio),
    ("objective_coverage", .ratio), ("unresolved_gap_fraction", .ratio), ("research_evidence_count", .count),
    ("distinct_document_count", .count), ("distinct_chunk_count", .count), ("final_reference_validity", .ratio)]

theorem places_distinct : (places.map Prod.fst).Nodup := by decide

theorem definitions_placed : ∀ d ∈ metricDefinitions, (d.suffix, d.valueKind) ∈ places := by decide +kernel

theorem definitions_distinct : (metricDefinitions.map fun d => metricId d.suffix).Nodup := by decide +kernel

/-- Metrics with the names and kinds of the definitions fit in the order of the definitions. -/
theorem Shaped.ordered {metrics : List AgentMetricResult} (h : Shaped places metrics) :
    List.Forall₂ MetricFits metricDefinitions (metricDefinitions.map fun d => Agent.byId metrics d.suffix) := by
  rw [List.forall₂_map_right_iff, List.forall₂_same]
  intro d mem
  obtain ⟨named, computed, missing⟩ := h.byId places_distinct (definitions_placed d mem)
  exact ⟨named, computed, missing⟩

/-- Ordering the metrics does not change what a name stands for. -/
theorem Shaped.byId_ordered {metrics : List AgentMetricResult} (h : Shaped places metrics) {suffix : String}
    (known : suffix ∈ metricDefinitions.map (·.suffix)) :
    Agent.byId (metricDefinitions.map fun d => Agent.byId metrics d.suffix) suffix = Agent.byId metrics suffix := by
  obtain ⟨d, mem, rfl⟩ := List.mem_map.1 known
  have ids : (metricDefinitions.map fun d => Agent.byId metrics d.suffix).map (·.metricId) =
      metricDefinitions.map fun d => metricId d.suffix := by
    rw [List.map_map]
    exact List.map_congr_left fun d mem => (h.byId places_distinct (definitions_placed d mem)).1
  apply byId_of_mem
  · rw [ids]
    exact definitions_distinct
  · exact List.mem_map_of_mem mem
  · exact (h.byId places_distinct (definitions_placed d mem)).1

/-! ## Metrics of a run -/

section Metrics

variable {run : AgentRunResponse} {decisions : List AgentEventSummary} {research : Option ResearchSummary}

/-- The denials among the rejected decisions, and the one of the result. -/
def denials (run : AgentRunResponse) (t : Tally) : Nat :=
  t.rejectedAs policyDenialCodes + (if run.resultFailure = some "decision_provider_required" then 1 else 0)

theorem decisionMetrics_shaped (fits : DecisionsFit run decisions) (few : denials run (tally decisions) ≤ 20)
    {ms : List AgentMetricResult} (h : decisionMetrics run (tally decisions) = .ok ms) : Shaped (places.take 10) ms := by
  simp only [decisionMetrics, Checked.bind_eq_ok, Checked.pure_eq_ok] at h
  obtain ⟨admission, admitted, failure, failed, rfl⟩ := h
  have tools := toolDecisions_few fits
  have calls := admitted_few fits
  have failures : (tally decisions).failures.length ≤ (tally decisions).admitted.length := List.length_filter_le _ _
  have unavailable := List.length_filter_le (fun s : AgentEventSummary => s.failureCode = some "tool_unavailable")
    (tally decisions).failures
  have finals : (tally decisions).finalRejections ≤ decisions.length := List.length_filter_le _ _
  have whole := fits.few
  exact .cons ⟨rfl, boolean_fits _ _⟩ (.cons ⟨rfl, count_fits tools⟩ (.cons ⟨rfl, count_fits (by omega)⟩
    (.cons (ratioOr_fits tools (by decide) admitted) (.cons ⟨rfl, count_fits (rejectedAs_few fits _)⟩
    (.cons ⟨rfl, count_fits few⟩ (.cons ⟨rfl, count_fits (rejectedAs_few fits _)⟩
    (.cons (ratioOr_fits (by omega) (by decide) failed) (.cons ⟨rfl, count_fits (by omega)⟩
    (.cons ⟨rfl, count_fits (by omega)⟩ .nil)))))))))

theorem budgetMetrics_shaped {ms : List AgentMetricResult} (h : budgetMetrics run = .ok ms) :
    Shaped ((places.drop 10).take 4) ms := by
  unfold budgetMetrics at h
  split at h
  · cases h
    exact .cons ⟨rfl, missing_fits _ MetricStatus.noConfusion (by decide)⟩
      (.cons ⟨rfl, missing_fits _ MetricStatus.noConfusion (by decide)⟩
      (.cons ⟨rfl, missing_fits _ MetricStatus.noConfusion (by decide)⟩
      (.cons ⟨rfl, missing_fits _ MetricStatus.noConfusion (by decide)⟩ .nil)))
  · simp only [Checked.bind_eq_ok, Checked.pure_eq_ok] at h
    obtain ⟨steps, stepped, tools, called, rfl⟩ := h
    have calls := run.frozen.limits.calls_range
    exact .cons ⟨by rw [(ratio_eq_ok stepped).2], ratio_fits run.frozen.limits.steps_range.2 stepped⟩
      (.cons (ratioOr_fits (by omega) (by decide) called) (.cons ⟨rfl, boolean_fits _ _⟩ (.cons ⟨rfl, boolean_fits _ _⟩ .nil)))

theorem researchMissing_shaped {status : MetricStatus} {reason : String} (bare : status ≠ .computed)
    (known : reason ∈ missingReasons) :
    Shaped ((places.drop 15).take 5) (researchSuffixes.map fun suffix => missing suffix status reason) :=
  .cons ⟨rfl, missing_fits _ bare known⟩ (.cons ⟨rfl, missing_fits _ bare known⟩ (.cons ⟨rfl, missing_fits _ bare known⟩
    (.cons ⟨rfl, missing_fits _ bare known⟩ (.cons ⟨rfl, missing_fits _ bare known⟩ .nil))))

theorem researchMetrics_shaped {ms : List AgentMetricResult} (h : researchMetrics run decisions research = .ok ms) :
    Shaped ((places.drop 14).take 6) ms := by
  unfold researchMetrics at h
  split at h
  · cases h
    refine .cons ?_ (researchMissing_shaped MetricStatus.noConfusion (by decide))
    split
    · exact ⟨rfl, missing_fits _ MetricStatus.noConfusion (by decide)⟩
    · exact ⟨rfl, missing_fits _ MetricStatus.noConfusion (by decide)⟩
  · cases h
    exact .cons ⟨rfl, missing_fits _ MetricStatus.noConfusion (by decide)⟩
      (researchMissing_shaped MetricStatus.noConfusion (by decide))
  · next config summary _ =>
    simp only [Checked.bind_eq_ok, Checked.pure_eq_ok] at h
    obtain ⟨identity, identified, coverage, covered, gaps, gapped, rfl⟩ := h
    have evidence := summary.few_evidence
    have objectives := config.few.2
    have documents := (List.dedup_sublist (summary.evidence.filterMap (·.documentId))).length_le
    have chunks := (List.dedup_sublist (summary.evidence.map (·.chunkId))).length_le
    have some_ := List.length_filterMap_le (fun e : ResearchEvidence => e.documentId) summary.evidence
    rw [List.length_map] at chunks
    exact .cons (ratioOr_fits (by omega) (by decide) identified)
      (.cons ⟨by rw [(ratio_eq_ok covered).2], ratio_fits (by omega) covered⟩
      (.cons ⟨by rw [(ratio_eq_ok gapped).2], ratio_fits (by omega) gapped⟩ (.cons ⟨rfl, count_fits (by omega)⟩
      (.cons ⟨rfl, count_fits (by omega)⟩ (.cons ⟨rfl, count_fits (by omega)⟩ .nil)))))

theorem finalReference_shaped {m : AgentMetricResult} (h : finalReferenceMetric run decisions research = .ok m) :
    Shaped (places.drop 20) [m] := by
  refine .cons ?_ .nil
  simp only [finalReferenceMetric] at h
  split at h
  · cases h
    exact ⟨rfl, missing_fits _ MetricStatus.noConfusion (by decide)⟩
  · next result _ =>
    split at h
    · cases h
      exact ⟨rfl, missing_fits _ MetricStatus.noConfusion (by decide)⟩
    · split at h
      · cases h
        exact ⟨rfl, missing_fits _ MetricStatus.noConfusion (by decide)⟩
      · split at h
        · exact ⟨by rw [(ratio_eq_ok h).2], ratio_fits result.few_refs h⟩
        · split at h
          · cases h
            exact ⟨rfl, missing_fits _ MetricStatus.noConfusion (by decide)⟩
          · cases h

/-- The parts the metrics of a run are put together from. -/
theorem metricsOf_eq_ok {metrics : List AgentMetricResult} (h : metricsOf run decisions research = .ok metrics) :
    ∃ ofDecisions ofBudgets ofResearch reference, decisionMetrics run (tally decisions) = .ok ofDecisions ∧
      budgetMetrics run = .ok ofBudgets ∧ researchMetrics run decisions research = .ok ofResearch ∧
      finalReferenceMetric run decisions research = .ok reference ∧
      metrics = metricDefinitions.map fun d => byId (ofDecisions ++ ofBudgets ++ ofResearch ++ [reference]) d.suffix := by
  simp only [metricsOf, Checked.bind_eq_ok, Checked.pure_eq_ok] at h
  obtain ⟨ofDecisions, one, ofBudgets, two, ofResearch, three, reference, four, rfl⟩ := h
  exact ⟨ofDecisions, ofBudgets, ofResearch, reference, one, two, three, four, rfl⟩

theorem shaped_append {places₁ places₂ : List (String × ValueKind)} {ms₁ ms₂ : List AgentMetricResult}
    (first : Shaped places₁ ms₁) (second : Shaped places₂ ms₂) : Shaped (places₁ ++ places₂) (ms₁ ++ ms₂) :=
  List.rel_append first second

end Metrics

/-! ## Facts and metrics -/

section Facts

variable {run : AgentRunResponse} {decisions : List AgentEventSummary} {research : Option ResearchSummary}

theorem admitted_tool (fits : DecisionsFit run decisions) {s : AgentEventSummary} (mem : s ∈ (tally decisions).admitted) :
    ∃ tool : ToolName, s.toolName = some tool.text := by
  rw [admitted_eq] at mem
  obtain ⟨mem, admitted⟩ := List.mem_filter.1 mem
  simp only [AgentEventSummary.admitted, Bool.and_eq_true, Bool.or_eq_true, decide_eq_true_eq] at admitted
  have checked := fits.kinds s mem
  rw [checkKind, admitted.1] at checked
  simp only [checkTool, Checked.bind_eq_ok, Checked.require_eq_ok] at checked
  obtain ⟨_, -, _, -, _, -, _, -, allowed⟩ := checked
  obtain ⟨tool, -, calls⟩ := List.any_eq_true.1 (allowed admitted.2)
  exact ⟨tool, of_decide_eq_true calls⟩

theorem rejected_code (fits : DecisionsFit run decisions) {s : AgentEventSummary} (mem : s ∈ (tally decisions).rejected) :
    ∃ code ∈ failureCodes, s.failureCode = some code := by
  obtain ⟨mem, rejected⟩ := List.mem_filter.1 mem
  have known := fits.codes s (List.mem_filter.1 mem).1 (of_decide_eq_true rejected)
  cases code : s.failureCode with
  | none =>
    rw [code] at known
    cases known
  | some text =>
    rw [code] at known
    exact ⟨text, List.elem_iff.1 known, rfl⟩

theorem total_tools (fits : DecisionsFit run decisions) :
    total (factsOf run (tally decisions) research).recordedPerToolCalls = (tally decisions).admitted.length :=
  total_calls fun _ mem => admitted_tool fits mem

theorem sum_codes (p : String → Bool) (ss : List AgentEventSummary) :
    ((ss.filterMap (·.failureCode)).filter p).length = (ss.filter fun s => s.failureCode.any p).length := by
  induction ss with
  | nil => rfl
  | cons s ss ih =>
    cases code : s.failureCode with
    | none => simp [code, ih]
    | some text =>
      by_cases holds : p text = true
      · simp [code, ih, holds]
      · simp [code, ih, holds]

theorem sum_rejected (p : String → Bool) :
    sumWhere p (factsOf run (tally decisions) research).rejectedToolCodes =
      ((tally decisions).rejected.filter fun s => s.failureCode.any p).length := by
  show sumWhere p (countsOf _) = _
  rw [sumWhere_countsOf, sum_codes]

theorem total_rejected (fits : DecisionsFit run decisions) :
    total (factsOf run (tally decisions) research).rejectedToolCodes = (tally decisions).rejected.length := by
  rw [total, sum_rejected, List.filter_eq_self.2]
  intro s mem
  obtain ⟨code, -, given⟩ := rejected_code fits mem
  rw [given]
  rfl

/-- The objectives without a gap are the sufficient ones. -/
theorem objectives_split (summary : ResearchSummary) :
    (summary.objectives.filter (·.coverage = .sufficient)).length + summary.gaps.length = summary.objectives.length := by
  have open_ : ((summary.objectives.filter fun s => !decide (s.coverage = .sufficient)).map (·.objectiveId)).Perm
      (summary.gaps.map (·.objectiveId)) := by
    rw [List.perm_ext_iff_of_nodup ((List.filter_sublist.map _).nodup summary.distinct) summary.distinct_gaps]
    intro id
    constructor
    · intro mem
      obtain ⟨s, here, rfl⟩ := List.mem_map.1 mem
      obtain ⟨known, bare⟩ := List.mem_filter.1 here
      simp only [Bool.not_eq_true', decide_eq_false_iff_not] at bare
      by_contra absent
      exact bare ((summary.gaps_exact s known).2 absent)
    · intro mem
      obtain ⟨gap, here, rfl⟩ := List.mem_map.1 mem
      obtain ⟨s, known, same⟩ := List.mem_map.1 (summary.gaps_known gap here)
      have bare : s.coverage ≠ .sufficient := by
        intro enough
        have absent := (summary.gaps_exact s known).1 enough
        rw [same] at absent
        exact absent mem
      rw [← same]
      exact List.mem_map_of_mem (List.mem_filter.2 ⟨known, by simpa using bare⟩)
  have length := open_.length_eq
  rw [List.length_map, List.length_map] at length
  have whole := List.length_eq_length_filter_add (l := summary.objectives) fun s => decide (s.coverage = .sufficient)
  omega

end Facts

/-! ## The report of an evaluated run -/

/-- Where both sides count the same denials: the recorded failure is the result's own, and the denials fit the bound. -/
structure SameDenials (run : AgentRunResponse) (events : List AgentRunEventResponse) : Prop where
  own : run.failure.map (·.code) = some "decision_provider_required" → run.resultFailure.isSome = true
  few : run.resultFailure = some "decision_provider_required" →
    ((events.filterMap (·.summary)).filter fun s => s.isTool && s.outcome = .rejected &&
      s.failureCode.any (policyDenialCodes.elem ·)).length < 20

/-- What an evaluation goes through. -/
structure Evaluated (run : AgentRunResponse) (events : List AgentRunEventResponse) (decisions : List AgentEventSummary)
    (research : Option ResearchSummary) (metrics : List AgentMetricResult) (provenance : AgentEvaluationProvenance) :
    Prop where
  valid : validateSnapshot run events = .ok ()
  decided : decisionsOf run events = .ok decisions
  researched : validateResearch run decisions = .ok research
  measured : metricsOf run decisions research = .ok metrics
  hashed : provenanceOf run events = .ok provenance

def reportOf (run : AgentRunResponse) (decisions : List AgentEventSummary) (research : Option ResearchSummary)
    (metrics : List AgentMetricResult) (provenance : AgentEvaluationProvenance) (digest : String) : AgentEvaluationReport :=
  ⟨run.runId, metrics, factsOf run (tally decisions) research, provenance, digest⟩

section Evaluated

variable {run : AgentRunResponse} {events : List AgentRunEventResponse} {decisions : List AgentEventSummary}
  {research : Option ResearchSummary} {metrics : List AgentMetricResult} {provenance : AgentEvaluationProvenance}

theorem Evaluated.denials_few (done : Evaluated run events decisions research metrics provenance)
    (same : SameDenials run events) : denials run (tally decisions) ≤ 20 := by
  obtain ⟨origin, fits⟩ := decisionsOf_spec done.decided
  rw [denials]
  split
  · next required =>
    have few := same.few required
    rw [← origin] at few
    have count : (tally decisions).rejectedAs policyDenialCodes = (decisions.filter fun s => s.isTool &&
        s.outcome = .rejected && s.failureCode.any (policyDenialCodes.elem ·)).length := by
      simp only [Tally.rejectedAs, tally, List.filter_filter]
      congr 2
      funext s
      ac_rfl
    omega
  · have few := rejectedAs_few fits policyDenialCodes
    omega

/-- The metrics of an evaluation, in the order they are computed. -/
theorem Evaluated.shaped (done : Evaluated run events decisions research metrics provenance)
    (same : SameDenials run events) : ∃ ofDecisions ofBudgets ofResearch reference,
      decisionMetrics run (tally decisions) = .ok ofDecisions ∧ budgetMetrics run = .ok ofBudgets ∧
      researchMetrics run decisions research = .ok ofResearch ∧
      Shaped places (ofDecisions ++ ofBudgets ++ ofResearch ++ [reference]) ∧
      metrics = metricDefinitions.map fun d => byId (ofDecisions ++ ofBudgets ++ ofResearch ++ [reference]) d.suffix := by
  obtain ⟨ofDecisions, ofBudgets, ofResearch, reference, one, two, three, four, rfl⟩ := metricsOf_eq_ok done.measured
  have fits := (decisionsOf_spec done.decided).2
  have shape := shaped_append (shaped_append (shaped_append (decisionMetrics_shaped fits (done.denials_few same) one)
    (budgetMetrics_shaped two)) (researchMetrics_shaped three)) (finalReference_shaped four)
  exact ⟨ofDecisions, ofBudgets, ofResearch, reference, one, two, three, shape, rfl⟩

/-- A metric of the evaluation is what its name stands for in the report. -/
theorem byId_report {all : List AgentMetricResult} (shape : Shaped places all) {m : AgentMetricResult} {suffix : String}
    (mem : m ∈ all) (named : m.metricId = metricId suffix) (known : suffix ∈ metricDefinitions.map (·.suffix)) :
    byId (metricDefinitions.map fun d => byId all d.suffix) suffix = m := by
  rw [shape.byId_ordered known]
  exact byId_of_mem (shape.distinct places_distinct) mem named

/-- What the snapshot's checks leave of the run. -/
theorem validateSnapshot_spec (h : validateSnapshot run events = .ok ()) :
    isRunId run.runId = true ∧ run.state.terminal = true ∧ (2 ≤ events.length ∧ events.length ≤ maxEvents) ∧
      run.revision = events.length ∧ run.failure.all (isSafeCode ·.code) = true ∧
      isSha256Text run.configurationFingerprint = true ∧
      (run.state = .succeeded ↔ run.result.any (fun r => r.agentStatus = .completed) = true) ∧
      run.result.all (resultFits run) = true := by
  simp only [validateSnapshot, Checked.bind_eq_ok, Checked.require_eq_ok] at h
  obtain ⟨_, ⟨runId, terminal⟩, _, ⟨low, high, revision⟩, _, -, _, -, _, -, _, safe, _, -, _, -, _, -, _, -, _, -, _, hex, _, -,
    _, -, _, succeeded, _, other, _, -, fits⟩ := h
  refine ⟨runId, terminal, ⟨low, high⟩, revision, safe, hex, ⟨succeeded, ?_⟩, fits⟩
  intro completed
  by_contra not
  have open_ := other not
  cases result : run.result with
  | none =>
    rw [result] at completed
    cases completed
  | some r =>
    rw [result] at completed open_
    exact of_decide_eq_true open_ (of_decide_eq_true completed)

theorem sha_shape {j : Json} {text : String} (h : sha j = .ok text) : isFingerprint text = true ∧ isHash text = true := by
  simp only [sha, Checked.bind_eq_ok, Checked.pure_eq_ok] at h
  obtain ⟨encoded, -, rfl⟩ := h
  simp [isFingerprint, isHash, String.toList_append, String.ofList_toList, Sha256.isSha256Text_hexdigest]

theorem resultSha_spec {hash : Option String} (h : resultSha run = .ok hash) :
    (hash.all isFingerprint = true ∧ hash.all isHash = true) ∧ hash.isNone = run.result.isNone := by
  unfold resultSha at h
  split at h
  · next given =>
    simp only [Checked.bind_eq_ok, Checked.pure_eq_ok] at h
    obtain ⟨text, shape, rfl⟩ := h
    rw [given]
    exact ⟨sha_shape shape, rfl⟩
  · next none_ =>
    cases h
    rw [none_]
    exact ⟨⟨rfl, rfl⟩, rfl⟩

theorem provenanceOf_spec (h : provenanceOf run events = .ok provenance) :
    provenance.configurationFingerprint = run.configurationFingerprint ∧
      (isFingerprint provenance.frozenPlanSha256 = true ∧ isHash provenance.frozenPlanSha256 = true) ∧
      (isFingerprint provenance.eventSha256 = true ∧ isHash provenance.eventSha256 = true) ∧
      (provenance.resultSha256.all isFingerprint = true ∧ provenance.resultSha256.all isHash = true) ∧
      provenance.resultSha256.isNone = run.result.isNone ∧ provenance.runRevision = run.revision ∧
      provenance.agentProtocol = agentProtocol ∧
      provenance.researchVersion = run.frozen.research.map fun _ => researchVersion := by
  simp only [provenanceOf, Checked.bind_eq_ok, Checked.pure_eq_ok] at h
  obtain ⟨plan, planned, history, recorded, result, resulted, rfl⟩ := h
  obtain ⟨shape, present⟩ := resultSha_spec resulted
  exact ⟨rfl, sha_shape planned, sha_shape recorded, shape, present, rfl, rfl, rfl⟩

theorem Evaluated.provenance_fits (done : Evaluated run events decisions research metrics provenance) :
    ProvenanceFits provenance := by
  obtain ⟨-, -, range, revision, -, hex, -, -⟩ := validateSnapshot_spec done.valid
  obtain ⟨configuration, plan, history, result, -, revised, protocol, version⟩ := provenanceOf_spec done.hashed
  refine ⟨by rw [configuration]; exact hex, plan, history, result, ?_, protocol, ?_⟩
  · rw [revised, revision]
    omega
  · rw [version]
    cases run.frozen.research <;> simp

theorem failureCodes_safe : ∀ code ∈ failureCodes, isSafeCode code = true := by decide +kernel

theorem terminal_text {state : JobState} (h : state.terminal = true) : state.text ∈ terminalStates := by
  cases state with
  | cancelled | succeeded | failed | interrupted => decide
  | queued | running | cancelling => cases h

theorem succeeded_text {state : JobState} : state.text = "succeeded" ↔ state = .succeeded := by
  cases state <;> decide

theorem completed_text {status : AgentStatus} : status.text = "completed" ↔ status = .completed := by
  cases status <;> decide

theorem agentStatus_text (status : AgentStatus) : status.text ∈ agentStatuses := by
  cases status <;> decide

theorem countsOf_fits (texts : List String) : CountersFit (countsOf texts) := by
  constructor
  · intro row mem
    obtain ⟨text, -, rfl⟩ := List.mem_map.1 mem
    exact Int.natCast_nonneg _
  · have distinct : (texts.dedup.map id).Nodup := by
      rw [List.map_id]
      exact List.nodup_dedup texts
    have strict : (texts.dedup.insertionSort (· ≤ ·)).Pairwise (· < ·) := Ranking.ascending_strict distinct
    rw [countsOf, List.map_map]
    rwa [show Prod.fst ∘ (fun text => (text, ((texts.filter (· = text)).length : Int))) = id from rfl, List.map_id]

theorem countsOf_bound {texts : List String} {row : String × Int} (mem : row ∈ countsOf texts) :
    row.1 ∈ texts ∧ row.2 ≤ texts.length := by
  obtain ⟨text, here, rfl⟩ := List.mem_map.1 mem
  have few := List.length_filter_le (fun t => t = text) texts
  refine ⟨List.mem_dedup.1 ((List.perm_insertionSort _ _).mem_iff.1 here), ?_⟩
  exact Int.ofNat_le.2 few

theorem Evaluated.failure_safe (done : Evaluated run events decisions research metrics provenance) :
    (run.resultFailure.or (run.failure.map (·.code))).all isSafeCode = true := by
  obtain ⟨-, -, -, -, safe, -, -, -⟩ := validateSnapshot_spec done.valid
  cases own : run.resultFailure with
  | none =>
    cases ran : run.failure with
    | none => rfl
    | some failure =>
      rw [ran] at safe
      exact safe
  | some code =>
    obtain ⟨result, -, failed⟩ := Option.bind_eq_some_iff.1 own
    obtain ⟨failure, -, rfl⟩ := Option.map_eq_some_iff.1 failed
    exact failureCodes_safe _ failure.known

theorem Evaluated.outcome (done : Evaluated run events decisions research metrics provenance) :
    checkTerminal run.state.text (run.result.map (·.agentStatus.text)) provenance.resultSha256 = .ok () := by
  obtain ⟨-, -, -, -, -, -, completed, -⟩ := validateSnapshot_spec done.valid
  obtain ⟨-, -, -, -, present, -, -, -⟩ := provenanceOf_spec done.hashed
  simp only [checkTerminal, Checked.bind_eq_ok, Checked.require_eq_ok]
  refine ⟨(), by rw [Option.isNone_map, present], ?_⟩
  rw [succeeded_text, completed]
  cases run.result with
  | none => simp
  | some result => simp [completed_text]

theorem Evaluated.bounds (done : Evaluated run events decisions research metrics provenance) :
    checkCounters (factsOf run (tally decisions) research).recordedPerToolCalls
      (factsOf run (tally decisions) research).rejectedToolCodes (factsOf run (tally decisions) research).gapCounts = .ok () := by
  have fits := (decisionsOf_spec done.decided).2
  have calls := admitted_few fits
  have rejected := rejected_few fits
  simp only [checkCounters, Checked.bind_eq_ok, Checked.require_eq_ok]
  refine ⟨(), rfl, (), ?_, (), ?_, (), ?_, ?_⟩
  · intro row mem
    obtain ⟨tool, -, rfl⟩ := List.mem_map.1 mem
    have few := List.length_filter_le (fun s : AgentEventSummary => s.calls tool) (tally decisions).admitted
    show ((_ : Nat) : Int) ≤ 10
    omega
  · intro row mem
    obtain ⟨known, few⟩ := countsOf_bound mem
    obtain ⟨s, here, code⟩ := List.mem_filterMap.1 known
    obtain ⟨text, listed, given⟩ := rejected_code fits here
    rw [code] at given
    obtain rfl := Option.some.inj given
    have length := List.length_filterMap_le (fun s : AgentEventSummary => s.failureCode) (tally decisions).rejected
    refine ⟨listed, ?_⟩
    omega
  · cases research with
    | none => exact .inl rfl
    | some summary => exact .inr rfl
  · cases research with
    | none => exact fun _ mem => absurd mem List.not_mem_nil
    | some summary =>
      intro row mem
      obtain ⟨code, -, rfl⟩ := List.mem_map.1 mem
      have few := List.length_filter_le (fun gap : ResearchGap => gap.code = code) summary.gaps
      have bound := summary.few_gaps
      show ((_ : Nat) : Int) ≤ 6
      omega

/-- **The facts of an evaluated run are what the parser asks for.** -/
theorem Evaluated.facts_fit (done : Evaluated run events decisions research metrics provenance) :
    FactsFit (factsOf run (tally decisions) research) provenance.resultSha256 := by
  obtain ⟨-, terminal, -, -, -, -, -, -⟩ := validateSnapshot_spec done.valid
  refine ⟨terminal_text terminal, ?_, done.failure_safe, done.outcome, ?_, countsOf_fits _, ?_, done.bounds⟩
  · show (run.result.map (·.agentStatus.text)).all (· ∈ agentStatuses) = true
    cases run.result with
    | none => rfl
    | some result => exact decide_eq_true (agentStatus_text _)
  · constructor
    · intro row mem
      obtain ⟨tool, -, rfl⟩ := List.mem_map.1 mem
      exact Int.natCast_nonneg _
    · show (toolNames.map ToolName.text).Pairwise (· < ·)
      decide
  · cases research with
    | none => exact ⟨fun _ mem => absurd mem List.not_mem_nil, .nil⟩
    | some summary =>
      constructor
      · intro row mem
        obtain ⟨code, -, rfl⟩ := List.mem_map.1 mem
        exact Int.natCast_nonneg _
      · show (gapCodes.map ResearchGapCode.text).Pairwise (· < ·)
        decide

/-! ## The comparison of the metrics with the facts -/

/-- The metrics of the decisions, one by one. -/
theorem decisionMetrics_eq_ok {t : Tally} {ms : List AgentMetricResult} (h : decisionMetrics run t = .ok ms) :
    ∃ admission failure, ratioOr "tool_admission_fraction" t.admitted.length t.toolDecisions.length "no_tool_decisions" =
        .ok admission ∧
      ratioOr "tool_failure_fraction" t.failures.length t.admitted.length "no_admitted_tools" = .ok failure ∧
      boolean "execution_completed" (run.state = .succeeded) ∈ ms ∧
      count "recorded_tool_decision_count" t.toolDecisions.length ∈ ms ∧
      count "admitted_tool_call_count" t.admitted.length ∈ ms ∧ admission ∈ ms ∧
      count "invalid_tool_attempt_count" (t.rejectedAs invalidToolCodes) ∈ ms ∧
      count "policy_denial_attempt_count" (denials run t) ∈ ms ∧
      count "duplicate_rejection_count" (t.rejectedAs ["duplicate_tool_call"]) ∈ ms ∧ failure ∈ ms := by
  simp only [decisionMetrics, Checked.bind_eq_ok, Checked.pure_eq_ok] at h
  obtain ⟨admission, admitted, failure, failed, rfl⟩ := h
  refine ⟨admission, failure, admitted, failed, ?_, ?_, ?_, ?_, ?_, ?_, ?_, ?_⟩ <;> simp [denials]

theorem ratioOr_id {suffix reason : String} {n d : Nat} {m : AgentMetricResult} (h : ratioOr suffix n d reason = .ok m) :
    m.metricId = metricId suffix := by
  rcases ratioOr_cases h with ⟨-, rfl⟩ | ⟨-, h⟩
  · rfl
  · rw [(ratio_eq_ok h).2]

/-- What the names of the decisions' metrics stand for. -/
structure Named (run : AgentRunResponse) (t : Tally) (metrics : List AgentMetricResult) : Prop where
  completed : byId metrics "execution_completed" = boolean "execution_completed" (run.state = .succeeded)
  recorded : byId metrics "recorded_tool_decision_count" = count "recorded_tool_decision_count" t.toolDecisions.length
  admitted : byId metrics "admitted_tool_call_count" = count "admitted_tool_call_count" t.admitted.length
  admission : ratioOr "tool_admission_fraction" t.admitted.length t.toolDecisions.length "no_tool_decisions" =
    .ok (byId metrics "tool_admission_fraction")
  invalid : byId metrics "invalid_tool_attempt_count" = count "invalid_tool_attempt_count" (t.rejectedAs invalidToolCodes)
  denied : byId metrics "policy_denial_attempt_count" = count "policy_denial_attempt_count" (denials run t)
  duplicate : byId metrics "duplicate_rejection_count" =
    count "duplicate_rejection_count" (t.rejectedAs ["duplicate_tool_call"])
  failure : ratioOr "tool_failure_fraction" t.failures.length t.admitted.length "no_admitted_tools" =
    .ok (byId metrics "tool_failure_fraction")

theorem Evaluated.named (done : Evaluated run events decisions research metrics provenance)
    (same : SameDenials run events) : Named run (tally decisions) metrics := by
  obtain ⟨ofDecisions, ofBudgets, ofResearch, reference, one, -, -, shape, rfl⟩ := done.shaped same
  obtain ⟨admission, failure, admitted, failed, inCompleted, inRecorded, inAdmitted, inAdmission, inInvalid, inDenied,
    inDuplicate, inFailure⟩ := decisionMetrics_eq_ok one
  have early : ∀ {m}, m ∈ ofDecisions → m ∈ ofDecisions ++ ofBudgets ++ ofResearch ++ [reference] := by
    intro m mem
    simp [mem]
  refine ⟨byId_report shape (early inCompleted) rfl (by decide +kernel), byId_report shape (early inRecorded) rfl
    (by decide +kernel), byId_report shape (early inAdmitted) rfl (by decide +kernel), ?_, byId_report shape (early inInvalid)
    rfl (by decide +kernel), byId_report shape (early inDenied) rfl (by decide +kernel), byId_report shape
    (early inDuplicate) rfl (by decide +kernel), ?_⟩
  · rw [byId_report shape (early inAdmission) (ratioOr_id admitted) (by decide +kernel)]
    exact admitted
  · rw [byId_report shape (early inFailure) (ratioOr_id failed) (by decide +kernel)]
    exact failed

theorem Evaluated.tools_checked (done : Evaluated run events decisions research metrics provenance)
    (same : SameDenials run events) : checkTools metrics (factsOf run (tally decisions) research) = .ok () := by
  have fits := (decisionsOf_spec done.decided).2
  have names := done.named same
  have whole := tally_split fits
  have few := toolDecisions_few fits
  rw [checkTools, Checked.require_eq_ok, names.admitted, names.recorded, total_tools fits, total_rejected fits, ← Int.natCast_add,
    whole]
  exact ⟨⟨rfl, rfl⟩, ⟨rfl, rfl⟩, by omega⟩

theorem Evaluated.rejections_checked (done : Evaluated run events decisions research metrics provenance)
    (same : SameDenials run events) : checkRejections metrics (factsOf run (tally decisions) research) = .ok () := by
  have names := done.named same
  have single : (fun text : String => decide (text = "duplicate_tool_call")) = (["duplicate_tool_call"].elem ·) := by
    funext text
    simp
  -- the failure that is recorded is the one the denials count
  have failure : (factsOf run (tally decisions) research).failureCode = some "decision_provider_required" ↔
      run.resultFailure = some "decision_provider_required" := by
    show run.resultFailure.or (run.failure.map (·.code)) = _ ↔ _
    cases own : run.resultFailure with
    | some code => rfl
    | none =>
      refine ⟨fun ran => ?_, fun e => absurd e (Option.some_ne_none _).symm⟩
      have present := same.own ran
      rw [own] at present
      cases present
  rw [checkRejections, Checked.require_eq_ok, names.invalid, names.denied, names.duplicate, sum_rejected, sum_rejected, single,
    sum_rejected]
  refine ⟨⟨rfl, rfl⟩, ⟨rfl, ?_⟩, ⟨rfl, rfl⟩⟩
  show Json.int (denials run (tally decisions) : Nat) = _
  rw [denials, Int.natCast_add]
  by_cases required : run.resultFailure = some "decision_provider_required"
  · rw [if_pos required, if_pos (failure.2 required)]
    rfl
  · rw [if_neg required, if_neg fun recorded => required (failure.1 recorded)]
    rfl

theorem Evaluated.fractions_checked (done : Evaluated run events decisions research metrics provenance)
    (same : SameDenials run events) : checkFractions metrics = .ok () := by
  have names := done.named same
  simp only [checkFractions, Checked.bind_eq_ok, names.recorded, names.admitted]
  refine ⟨(), ?_, ?_⟩
  · show checkAdmission _ (.int (_ : Nat)) (.int (_ : Nat)) = _
    rw [checkAdmission]
    rcases ratioOr_cases names.admission with ⟨none_, is⟩ | ⟨some_, is⟩
    · rw [none_, Int.natCast_zero, if_pos rfl, Checked.require_eq_ok, is]
      exact ⟨rfl, rfl⟩
    · rw [if_neg (by simpa using some_), Checked.require_eq_ok, (ratio_eq_ok is).2]
      exact ⟨rfl, rfl, rfl⟩
  · show checkToolFailure _ (.int (_ : Nat)) = _
    rw [checkToolFailure]
    rcases ratioOr_cases names.failure with ⟨none_, is⟩ | ⟨some_, is⟩
    · rw [none_, Int.natCast_zero, if_pos rfl, Checked.require_eq_ok, is]
      exact ⟨rfl, rfl⟩
    · rw [if_neg (by simpa using some_), Checked.require_eq_ok, (ratio_eq_ok is).2]
      exact ⟨rfl, rfl⟩

theorem Evaluated.outcome_checked (done : Evaluated run events decisions research metrics provenance)
    (same : SameDenials run events) : checkOutcome metrics (factsOf run (tally decisions) research) provenance = .ok () := by
  have names := done.named same
  obtain ⟨-, -, -, -, present, -, -, -⟩ := provenanceOf_spec done.hashed
  simp only [checkOutcome, Checked.bind_eq_ok, Checked.require_eq_ok]
  refine ⟨(), ?_, ?_⟩
  · rw [names.completed]
    refine ⟨rfl, congrArg Json.bool ?_⟩
    exact decide_eq_decide.2 succeeded_text.symm
  · intro bare suffix mem
    rw [bare, Option.isNone_none] at present
    have none_ : run.result = none := Option.isNone_iff_eq_none.1 present.symm
    obtain ⟨ofDecisions, ofBudgets, ofResearch, reference, -, two, -, shape, rfl⟩ := done.shaped same
    unfold budgetMetrics at two
    rw [none_] at two
    cases two
    have here : missing suffix .unavailable "no_terminal_result" ∈ ofDecisions ++ (budgetSuffixes.map fun suffix =>
        missing suffix .unavailable "no_terminal_result") ++ ofResearch ++ [reference] :=
      List.mem_append_left _ (List.mem_append_left _ (List.mem_append_right _ (List.mem_map_of_mem mem)))
    have known : ∀ suffix ∈ budgetSuffixes, suffix ∈ metricDefinitions.map (·.suffix) := by decide +kernel
    rw [byId_report shape here rfl (known suffix mem)]
    rfl

theorem validateResearch_none (h : validateResearch run decisions = .ok research) (plan : run.frozen.research = none) :
    research = none := by
  unfold validateResearch at h
  rw [plan] at h
  split at h
  · cases h
    rfl
  · cases h
  · next absent => cases absent

theorem validateResearch_some {config : ResearchConfig} {result : AgentDurableResult}
    (valid : validateSnapshot run events = .ok ()) (h : validateResearch run decisions = .ok research)
    (plan : run.frozen.research = some config) (given : run.result = some result) :
    ∃ summary, research = some summary ∧
      summary.objectives.map (·.objectiveId) = config.objectives.map (·.objectiveId) := by
  obtain ⟨-, -, -, -, -, -, -, fits⟩ := validateSnapshot_spec valid
  rw [given] at fits
  simp only [Option.all_some, resultFits, Bool.and_eq_true, decide_eq_true_eq, plan, Option.isNone_some] at fits
  obtain ⟨⟨⟨-, present⟩, -⟩, -⟩ := fits
  unfold validateResearch at h
  rw [given, plan] at h
  split at h
  · next none_ =>
    rw [Option.bind_some] at none_
    rw [none_] at present
    cases present
  · next absent => cases absent
  · next summary config' found same =>
    obtain rfl := Option.some.inj same
    simp only [checkResearch, Checked.bind_eq_ok, Checked.require_eq_ok, Checked.pure_eq_ok] at h
    obtain ⟨_, ⟨_, ids, -⟩, rfl⟩ := h
    exact ⟨summary, rfl, ids⟩

theorem Evaluated.research_checked (done : Evaluated run events decisions research metrics provenance)
    (same : SameDenials run events) :
    checkResearchMetrics metrics (factsOf run (tally decisions) research) provenance = .ok () := by
  obtain ⟨-, -, -, -, present, -, -, version⟩ := provenanceOf_spec done.hashed
  obtain ⟨ofDecisions, ofBudgets, ofResearch, reference, -, -, three, shape, rfl⟩ := done.shaped same
  have late : ∀ {m}, m ∈ ofResearch → m ∈ ofDecisions ++ ofBudgets ++ ofResearch ++ [reference] := fun mem =>
    List.mem_append_left _ (List.mem_append_right _ mem)
  rw [checkResearchMetrics, version]
  cases plan : run.frozen.research with
  | none =>
    have none_ : research = none := validateResearch_none done.researched plan
    rw [Option.map_none, if_pos rfl, Checked.require_eq_ok]
    refine ⟨by rw [none_]; rfl, ?_⟩
    intro suffix mem
    unfold researchMetrics at three
    rw [plan] at three
    cases three
    have known : ∀ suffix ∈ researchSuffixes, suffix ∈ metricDefinitions.map (·.suffix) := by decide +kernel
    rw [byId_report shape (late (List.mem_cons_of_mem _ (List.mem_map_of_mem mem))) rfl (known suffix mem)]
    rfl
  | some config =>
    rw [Option.map_some, if_neg (Option.some_ne_none _)]
    split
    · rfl
    · next some_ =>
      obtain ⟨result, given⟩ : ∃ result, run.result = some result := by
        rw [← Option.ne_none_iff_exists']
        intro none_
        rw [none_, Option.isNone_none] at present
        exact some_ (Option.isNone_iff_eq_none.1 present)
      obtain ⟨summary, rfl, ids⟩ := validateResearch_some done.valid done.researched plan given
      unfold researchMetrics at three
      rw [plan] at three
      simp only [Checked.bind_eq_ok, Checked.pure_eq_ok] at three
      obtain ⟨identity, -, coverage, covered, gaps, gapped, rfl⟩ := three
      have coverageIs := (ratio_eq_ok covered).2
      have gapsIs := (ratio_eq_ok gapped).2
      have split_ := objectives_split summary
      have length := congrArg List.length ids
      rw [List.length_map, List.length_map] at length
      simp only [Checked.bind_eq_ok, Checked.require_eq_ok]
      refine ⟨(), rfl, ?_⟩
      have coverageNamed := byId_report shape (m := coverage) (late (List.mem_cons_of_mem _ List.mem_cons_self))
        (by rw [coverageIs]) (by decide +kernel : "objective_coverage" ∈ _)
      have gapsNamed := byId_report shape (m := gaps) (late (List.mem_cons_of_mem _ (List.mem_cons_of_mem _
        List.mem_cons_self))) (by rw [gapsIs]) (by decide +kernel : "unresolved_gap_fraction" ∈ _)
      rw [coverageNamed, gapsNamed, coverageIs, gapsIs]
      refine ⟨rfl, rfl, rfl, ?_, (total_gaps summary.gaps).symm⟩
      show ((_ : Nat) : Int) + ((_ : Nat) : Int) = ((_ : Nat) : Int)
      omega

/-- **The metrics of an evaluated run agree with its facts**, as far as the parser compares them. -/
theorem Evaluated.checked (done : Evaluated run events decisions research metrics provenance)
    (same : SameDenials run events) : checkReport metrics (factsOf run (tally decisions) research) provenance = .ok () := by
  simp only [checkReport, Checked.bind_eq_ok]
  exact ⟨(), done.tools_checked same, (), done.rejections_checked same, (), done.fractions_checked same, (),
    done.outcome_checked same, done.research_checked same⟩

/-- **An evaluated run has a readable report.** -/
theorem Evaluated.readable (done : Evaluated run events decisions research metrics provenance)
    (same : SameDenials run events) (digest : String) :
    Readable (reportOf run decisions research metrics provenance digest) := by
  obtain ⟨ofDecisions, ofBudgets, ofResearch, reference, -, -, -, shape, rfl⟩ := done.shaped same
  obtain ⟨runId, -, -, -, -, -, -, -⟩ := validateSnapshot_spec done.valid
  exact ⟨runId, shape.ordered, done.provenance_fits, done.facts_fit, done.checked same⟩

end Evaluated

end Agent
