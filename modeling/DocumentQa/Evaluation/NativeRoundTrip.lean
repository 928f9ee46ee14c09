import DocumentQa.Evaluation.NativeProtocol
import DocumentQa.Lib.Json.Extent
import DocumentQa.Lib.Ranking
import DocumentQa.Lib.Sha256

/-!
# Native reports are read back

What `evaluate_case` writes is what the parser allows: metric by metric, then case by case.
A built report is therefore read back as it is, the order the cases came in does not matter,
and whatever the parser returns carries the aggregates, the status, the order and the digest
of its own cases.
-/

namespace Native

open Python JsonText

variable {m : Machine} {binding : NativeReportBinding}

/-! ## Metrics the parser allows -/

/-- What the parser allows as the value of a computed metric. -/
def ValueKind.Allows : ValueKind → MetricValue → Prop
  | .ratio, .ratio x => inUnit x = true
  | .boolean, .boolean _ => True
  | _, _ => False

/-- What the parser allows in the place of a definition. -/
inductive Allowed (d : MetricDefinition) : CaseMetricResult → Prop
  | computed {value : MetricValue} : d.valueKind.Allows value →
      Allowed d ⟨d.metricId, d.metricVersion, .computed, some value, none⟩
  | missing {status : Status} {reason : String} : status ≠ .computed → reason ∈ reasons →
      reason ∈ allowedReasons d.metricId status → Allowed d ⟨d.metricId, d.metricVersion, status, none, some reason⟩

theorem parseValue_json {d : MetricDefinition} {value : MetricValue} (h : d.valueKind.Allows value) :
    parseValue d (valueJson (some value)) = .ok value := by
  unfold parseValue
  cases kind : d.valueKind with
  | ratio =>
    rw [kind] at h
    cases value with
    | ratio x =>
      have fits : inUnit x = true := h
      simp [valueJson, ratio, Checked.require, fits]
    | boolean b => exact h.elim
  | boolean =>
    rw [kind] at h
    cases value with
    | ratio x => exact h.elim
    | boolean b => rfl

theorem parseReason_json {d : MetricDefinition} {status : Status} {reason : String} (known : reason ∈ reasons)
    (allowed : reason ∈ allowedReasons d.metricId status) : parseReason d status .null (.str reason) = .ok reason := by
  simp [parseReason, Checked.require, known, allowed]

/-- What is allowed is read back. -/
theorem parseMetric_json {d : MetricDefinition} {r : CaseMetricResult} (h : Allowed d r) : parseMetric d r.json = .ok r := by
  cases h with
  | computed fits =>
    have value := parseValue_json fits
    simp [parseMetric, CaseMetricResult.json, exactFields, field, Json.lookup, Status.text, optionalJson, Checked.require,
      value]
  | @missing status reason bare known allowed =>
    have read := parseReason_json known allowed
    cases status with
    | computed => exact absurd rfl bare
    | unavailable =>
      simp [parseMetric, CaseMetricResult.json, exactFields, field, Json.lookup, Status.text, optionalJson, valueJson,
        Checked.require, read]
    | notApplicable =>
      simp [parseMetric, CaseMetricResult.json, exactFields, field, Json.lookup, Status.text, optionalJson, valueJson,
        Checked.require, read]

/-! ## Metrics of a case -/

/-- A rounded fraction of a list is a ratio. -/
theorem Rounding.fraction (r : Rounding) {part whole : Nat} (h : part ≤ whole) :
    inUnit (r.round (part / whole)) = true := by
  have low : (0 : ℚ) ≤ part / whole := by positivity
  have high : (part : ℚ) / whole ≤ 1 := div_le_one_of_le₀ (by exact_mod_cast h) (by positivity)
  have above := r.monotone low
  have below := r.monotone high
  rw [r.zero] at above
  rw [r.one] at below
  simp [inUnit, r.finite, above, below]

theorem decimalValue_one : decimalValue (.ofInt 1) = 1 := by
  decide +kernel

theorem ratio_inUnit {label : String} {value : Json} {x : Double} (h : ratio label value = .ok x) : inUnit x = true := by
  cases value with
  | int i =>
    simp only [ratio, Checked.bind_eq_ok, Checked.require_eq_ok, Checked.pure_eq_ok] at h
    obtain ⟨-, ⟨low, high⟩, rfl⟩ := h
    obtain rfl | rfl : i = 0 ∨ i = 1 := by omega
    · rfl
    · simp [inUnit, ofInt_finite, decimalValue_one]
  | float y =>
    simp only [ratio, Checked.bind_eq_ok, Checked.require_eq_ok, Checked.pure_eq_ok] at h
    obtain ⟨-, fits, rfl⟩ := h
    exact fits
  | null | bool _ | str _ | arr _ | obj _ => simp [ratio] at h

theorem citationCorrectness_inUnit {answer : String} {sources : Nat} {x : Double}
    (h : citationCorrectness m answer sources = some x) : inUnit x = true := by
  simp only [citationCorrectness] at h
  split at h
  · cases h
  · obtain rfl := Option.some.inj h
    exact m.division.fraction (List.length_filter_le _ _)

theorem recallProxy_inUnit (keywords texts : List String) : inUnit (recallProxy m keywords texts) = true :=
  m.division.fraction (List.length_filter_le _ _)

section Definition

variable {d : MetricDefinition} {id : String} (version : d.metricVersion = 1) (mine : d.metricId = id)

include version mine

theorem allowed_computed {value : MetricValue} (fits : d.valueKind.Allows value) : Allowed d (Native.computed id value) := by
  have here := Allowed.computed fits
  rwa [version, mine] at here

theorem allowed_missing {status : Status} {reason : String} (bare : status ≠ .computed) (known : reason ∈ reasons)
    (allowed : reason ∈ allowedReasons id status) : Allowed d (Native.missing id status reason) := by
  rw [← mine] at allowed
  have here := Allowed.missing bare known allowed
  rwa [version, mine] at here

theorem judge_allowed {case_ : NativeCaseInput} {r : CaseMetricResult} (judged : id ∈ judgeIds) (kind : d.valueKind = .ratio)
    (h : judgeMetric case_ binding id = .ok r) : Allowed d r := by
  have gone : ∀ reason ∈ judgeReasons, Allowed d (Native.missing id .unavailable reason) := by
    intro reason known
    apply allowed_missing version mine Status.noConfusion (List.mem_of_mem_take (i := 5) known)
    simpa [allowedReasons, judged] using known
  unfold judgeMetric at h
  split at h
  · cases h
    exact gone _ (by decide)
  · cases h
    exact gone _ (by decide)
  · split at h
    · cases h
      exact gone _ (by decide)
    · split at h
      · cases h
        exact gone _ (by decide)
      · split at h
        · cases h
          exact gone _ (by decide)
        · simp only [Checked.bind_eq_ok, Checked.pure_eq_ok] at h
          obtain ⟨score, read, rfl⟩ := h
          apply allowed_computed version mine
          rw [kind]
          exact ratio_inUnit read

end Definition

section Deterministic

variable {d : MetricDefinition} (version : d.metricVersion = 1) (case_ : NativeCaseInput)

include version

theorem citation_allowed (mine : d.metricId = "native.citation_index_validity") (kind : d.valueKind = .ratio) :
    Allowed d (citationMetric m case_) := by
  simp only [citationMetric]
  split
  · exact allowed_missing version mine Status.noConfusion (by decide) (by decide)
  · exact allowed_missing version mine Status.noConfusion (by decide) (by decide)
  · split
    · next score found =>
      apply allowed_computed version mine
      rw [kind]
      exact citationCorrectness_inUnit found
    · exact allowed_missing version mine Status.noConfusion (by decide) (by decide)

theorem keyword_allowed (mine : d.metricId = "native.keyword_recall_proxy") (kind : d.valueKind = .ratio) :
    Allowed d (keywordMetric m case_) := by
  simp only [keywordMetric]
  split
  · exact allowed_missing version mine Status.noConfusion (by decide) (by decide)
  · split
    · exact allowed_missing version mine Status.noConfusion (by decide) (by decide)
    · apply allowed_computed version mine
      rw [kind]
      exact recallProxy_inUnit _ _

theorem fallback_allowed (mine : d.metricId = "native.fallback_correctness") (kind : d.valueKind = .boolean) :
    Allowed d (fallbackMetric m case_) := by
  simp only [fallbackMetric]
  split
  · exact allowed_missing version mine Status.noConfusion (by decide) (by decide)
  · exact allowed_missing version mine Status.noConfusion (by decide) (by decide)
  · apply allowed_computed version mine
    rw [kind]
    exact trivial

end Deterministic

/-! ## Evidence and judging behind a computed metric -/

theorem judge_computed {case_ : NativeCaseInput} {id : String} {r : CaseMetricResult}
    (h : judgeMetric case_ binding id = .ok r) (done : r.status = .computed) :
    case_.renderedContext ≠ none ∧ binding.judgeBinding ≠ .null := by
  unfold judgeMetric at h
  split at h
  · cases h
    cases done
  · cases h
    cases done
  · next context given =>
    split at h
    · cases h
      cases done
    · split at h
      · cases h
        cases done
      · next judged => exact ⟨by rw [given]; exact Option.some_ne_none _, judged⟩

theorem citation_computed {case_ : NativeCaseInput} (done : (citationMetric m case_).status = .computed) :
    case_.renderedContext ≠ none := by
  intro bare
  simp only [citationMetric, bare] at done
  split at done
  · cases done
  · cases done
  · contradiction

theorem keyword_computed {case_ : NativeCaseInput} (done : (keywordMetric m case_).status = .computed) :
    case_.renderedContext ≠ none := by
  intro bare
  simp only [keywordMetric, bare] at done
  split at done <;> cases done

/-! ## Cases the parser allows -/

/-- What the parser allows as a case. -/
structure CaseFits (binding : NativeReportBinding) (c : NativeCaseResult) : Prop where
  named : safeIdentifier caseIdPattern "case_id" (.str c.caseId) = .ok c.caseId
  context : c.contextSha256.all isFingerprint = true
  metrics : List.Forall₂ Allowed metricDefinitions c.metrics
  evidence : c.contextSha256 = none → (c.metrics.take 5).all (·.status ≠ .computed) = true
  judged : binding.judgeBinding = .null → (c.metrics.take 3).all (·.status ≠ .computed) = true

theorem fingerprintOf_isFingerprint (m : Machine) (text : String) : isFingerprint (m.fingerprintOf text) = true := by
  simp [isFingerprint, Machine.fingerprintOf, String.toList_append, String.ofList_toList, m.sha256_hex]

theorem contextSha256_fits (m : Machine) (case_ : NativeCaseInput) : (contextSha256 m case_).all isFingerprint = true := by
  cases given : case_.renderedContext <;> simp [contextSha256, given, fingerprintOf_isFingerprint]

/-- **What `evaluate_case` returns is what the parser allows.** -/
theorem evaluateCase_fits {case_ : NativeCaseInput} {c : NativeCaseResult} (h : evaluateCase m binding case_ = .ok c) :
    CaseFits binding c := by
  simp only [evaluateCase, Checked.bind_eq_ok, Checked.pure_eq_ok] at h
  obtain ⟨_, valid, judged, scored, rfl⟩ := h
  simp only [validateCaseInput, Checked.bind_eq_ok] at valid
  obtain ⟨name, named, -⟩ := valid
  obtain rfl : name = case_.caseId := by
    simp only [safeIdentifier, Checked.bind_eq_ok, Checked.pure_eq_ok] at named
    obtain ⟨-, -, -, -, rfl⟩ := named
    rfl
  rw [Checked.collect_eq_ok] at scored
  rcases scored with _ | ⟨one, _ | ⟨two, _ | ⟨three, _ | _⟩⟩⟩
  refine ⟨named, contextSha256_fits m case_, ?_, ?_, ?_⟩
  · refine .cons (judge_allowed rfl rfl (by decide) rfl one) (.cons (judge_allowed rfl rfl (by decide) rfl two)
      (.cons (judge_allowed rfl rfl (by decide) rfl three) (.cons (citation_allowed rfl case_ rfl rfl)
      (.cons (keyword_allowed rfl case_ rfl rfl) (.cons (fallback_allowed rfl case_ rfl rfl) .nil)))))
  · intro bare
    have noContext : case_.renderedContext = none := Option.map_eq_none_iff.1 bare
    simp only [List.cons_append, List.nil_append, List.take_succ_cons, List.take_zero, List.all_cons, List.all_nil,
      Bool.and_true, Bool.and_eq_true, decide_eq_true_eq]
    exact ⟨fun done => (judge_computed one done).1 noContext, fun done => (judge_computed two done).1 noContext,
      fun done => (judge_computed three done).1 noContext, fun done => citation_computed done noContext,
      fun done => keyword_computed done noContext⟩
  · intro bare
    simp only [List.cons_append, List.nil_append, List.take_succ_cons, List.take_zero, List.all_cons, List.all_nil,
      Bool.and_true, Bool.and_eq_true, decide_eq_true_eq]
    exact ⟨fun done => (judge_computed one done).2 bare, fun done => (judge_computed two done).2 bare,
      fun done => (judge_computed three done).2 bare⟩

theorem fingerprint_ok {label text : String} (h : isFingerprint text = true) : fingerprint label (.str text) = .ok text := by
  simp [fingerprint, Checked.require, h]

theorem parseContext_json {context : Option String} (h : context.all isFingerprint = true) :
    parseContext (optionalJson context) = .ok context := by
  cases context with
  | none => rfl
  | some text =>
    have read : fingerprint "context_sha256" (.str text) = .ok text := fingerprint_ok h
    simp [parseContext, optionalJson, read]

theorem collect_metrics {ds : List MetricDefinition} {rs : List CaseMetricResult} (h : List.Forall₂ Allowed ds rs) :
    Checked.collect (fun entry => parseMetric entry.2 entry.1) ((rs.map CaseMetricResult.json).zip ds) = .ok rs := by
  induction h with
  | nil => rfl
  | cons allowed _ ih =>
    rw [List.map_cons, List.zip_cons_cons, Checked.collect, parseMetric_json allowed, ih]
    rfl

/-- A case that fits is read back. -/
theorem parseCase_json {c : NativeCaseResult} (fits : CaseFits binding c) : parseCase binding c.json = .ok c := by
  have length : (c.metrics.map CaseMetricResult.json).length = metricDefinitions.length := by
    rw [List.length_map]
    exact fits.metrics.length_eq.symm
  have items : itemsOf (fun n => decide (n = metricDefinitions.length)) (protocolError "case metric count is invalid")
      (.arr (c.metrics.map CaseMetricResult.json)) = .ok (c.metrics.map CaseMetricResult.json) :=
    if_pos (decide_eq_true length)
  have metrics := collect_metrics fits.metrics
  have context := parseContext_json fits.context
  simp only [parseCase, NativeCaseResult.json]
  rw [show exactFields ["case_id", "context_sha256", "metrics"] (corruptReport "case has invalid fields")
      (.obj [("case_id", .str c.caseId), ("context_sha256", optionalJson c.contextSha256),
        ("metrics", .arr (c.metrics.map CaseMetricResult.json))]) = .ok _ from rfl]
  simp only [Checked.ok_bind]
  have evidence := fits.evidence
  have judged := fits.judged
  simp only [List.all_eq_true, decide_eq_true_eq] at evidence judged
  simpa [field, Json.lookup, fits.named, items, metrics, context] using ⟨evidence, judged⟩

/-! ## Bindings and payloads -/

theorem fingerprint_text {label text : String} {value : Json} (h : fingerprint label value = .ok text) :
    value.orderly = true := by
  cases value with
  | str _ => rfl
  | null | bool _ | int _ | float _ | arr _ | obj _ => simp [fingerprint] at h

theorem safeIdentifier_text {pattern : NamePattern} {label text : String} {value : Json}
    (h : safeIdentifier pattern label value = .ok text) : value = .str text := by
  cases value with
  | str given =>
    simp only [safeIdentifier, Checked.bind_eq_ok, Checked.pure_eq_ok] at h
    obtain ⟨-, -, -, -, rfl⟩ := h
    rfl
  | null | bool _ | int _ | float _ | arr _ | obj _ => simp [safeIdentifier] at h

theorem safeIdentifier_orderly {pattern : NamePattern} {label text : String} {value : Json}
    (h : safeIdentifier pattern label value = .ok text) : value.orderly = true := by
  rw [safeIdentifier_text h]
  rfl

/-- A binding that is valid holds no containers. -/
theorem validateBinding_orderly {b : NativeReportBinding} (h : validateBinding b = .ok ()) :
    (Json.obj b.fields).orderly = true := by
  simp only [validateBinding, Checked.bind_eq_ok, Checked.require_eq_ok, Checked.each_eq_ok, Checked.pure_eq_ok] at h
  obtain ⟨_, ⟨engine, version⟩, _, ⟨dataset, datasetVersion⟩, _, revision, _, model, _, each, _, ⟨paired, bound⟩, judge⟩ := h
  simp only [List.forall_mem_cons, List.not_mem_nil, false_implies, implies_true, and_true] at each
  obtain ⟨⟨_, modelPrint⟩, ⟨_, promptPrint⟩, ⟨_, generation⟩, ⟨_, retrieval⟩, ⟨_, config⟩, ⟨_, embedding⟩, ⟨_, reranker⟩,
    ⟨_, context⟩⟩ := each
  have judging : b.judgeModelId.orderly = true ∧ b.judgePromptSha256.orderly = true ∧ b.judgeBinding.orderly = true := by
    split at judge
    · next none_ =>
      rw [none_, paired.1 none_, bound.1 none_]
      exact ⟨rfl, rfl, rfl⟩
    · simp only [Checked.bind_eq_ok] at judge
      obtain ⟨_, model, _, prompt, _, binding, -⟩ := judge
      exact ⟨safeIdentifier_orderly model, fingerprint_text prompt, fingerprint_text binding⟩
  rw [Json.orderly_obj]
  constructor
  · show (["context_binding", "dataset_id", "dataset_revision", "dataset_version", "embedding_fingerprint", "engine_id",
      "engine_version", "generation_binding", "generation_prompt_sha256", "generator_model_fingerprint",
      "generator_model_id", "judge_binding", "judge_model_id", "judge_prompt_sha256", "reranker_fingerprint",
      "retrieval_binding", "retrieval_config_fingerprint"] : List String).Pairwise (· < ·)
    decide
  · simp only [NativeReportBinding.fields, List.forall_mem_cons, engine, version, dataset, datasetVersion,
      fingerprint_text modelPrint, fingerprint_text promptPrint, fingerprint_text generation, fingerprint_text retrieval,
      fingerprint_text config, fingerprint_text embedding, fingerprint_text reranker, fingerprint_text context,
      fingerprint_text revision, safeIdentifier_orderly model, judging, true_and]
    exact ⟨rfl, rfl, rfl, rfl, fun _ mem => absurd mem List.not_mem_nil⟩

theorem optionalJson_orderly (text : Option String) : (optionalJson text).orderly = true := by
  cases text <;> rfl

theorem CaseMetricResult.json_orderly (r : CaseMetricResult) : r.json.orderly = true := by
  have value : (valueJson r.value).orderly = true := by
    rcases r.value with _ | _ | _ <;> rfl
  rw [CaseMetricResult.json, Json.orderly_obj]
  simp only [List.map_cons, List.map_nil]
  refine ⟨by decide, ?_⟩
  simp only [List.forall_mem_cons, optionalJson_orderly, value, true_and]
  exact ⟨rfl, rfl, rfl, fun _ mem => absurd mem List.not_mem_nil⟩

theorem NativeCaseResult.json_orderly (c : NativeCaseResult) : c.json.orderly = true := by
  have metrics : (Json.arr (c.metrics.map CaseMetricResult.json)).orderly = true := by
    simp [CaseMetricResult.json_orderly]
  rw [NativeCaseResult.json, Json.orderly_obj]
  simp only [List.map_cons, List.map_nil]
  refine ⟨by decide, ?_⟩
  simp only [List.forall_mem_cons, optionalJson_orderly, metrics, true_and]
  exact ⟨rfl, fun _ mem => absurd mem List.not_mem_nil⟩

theorem aggregatesJson_orderly (aggregates : List AggregateMetricResult) : (aggregatesJson aggregates).orderly = true := by
  rw [aggregatesJson, Json.orderly_arr, List.forall_mem_map]
  intro a _
  have value : ((a.value.map Json.float).getD .null).orderly = true := by
    cases a.value <;> rfl
  rw [AggregateMetricResult.json, Json.orderly_obj]
  simp only [List.map_cons, List.map_nil]
  refine ⟨by decide, ?_⟩
  simp only [List.forall_mem_cons, value, true_and]
  exact ⟨rfl, rfl, rfl, rfl, rfl, rfl, rfl, fun _ mem => absurd mem List.not_mem_nil⟩

theorem MetricDefinition.json_orderly (d : MetricDefinition) : d.json.orderly = true := by
  have inputs : (Json.arr (d.requiredInputs.map .str)).orderly = true := by
    rw [Json.orderly_arr, List.forall_mem_map]
    exact fun _ _ => rfl
  rw [MetricDefinition.json, Json.orderly_obj]
  simp only [List.map_cons, List.map_nil]
  refine ⟨by decide, ?_⟩
  simp only [List.forall_mem_cons, inputs, true_and]
  exact ⟨rfl, rfl, rfl, rfl, rfl, rfl, rfl, rfl, rfl, rfl, fun _ mem => absurd mem List.not_mem_nil⟩

theorem definitionsJson_orderly : definitionsJson.orderly = true := by
  rw [definitionsJson, Json.orderly_arr, List.forall_mem_map]
  exact fun d _ => d.json_orderly

theorem payload_orderly {r : NativeReport} (valid : validateBinding r.binding = .ok ()) (includeDigest : Bool) :
    (r.payload includeDigest).orderly = true := by
  have cases_ : (Json.arr (r.cases.map NativeCaseResult.json)).orderly = true := by
    simp [NativeCaseResult.json_orderly]
  have binding := validateBinding_orderly valid
  rw [NativeReport.payload, Json.orderly_obj]
  cases includeDigest
  · simp only [Bool.false_eq_true, if_false, List.append_nil, List.cons_append, List.nil_append, List.map_cons, List.map_nil]
    refine ⟨by decide, ?_⟩
    simp only [List.forall_mem_cons, aggregatesJson_orderly, binding, cases_, definitionsJson_orderly, true_and]
    exact ⟨rfl, rfl, rfl, rfl, fun _ mem => absurd mem List.not_mem_nil⟩
  · simp only [if_true, List.cons_append, List.nil_append, List.map_cons, List.map_nil]
    refine ⟨by decide, ?_⟩
    simp only [List.forall_mem_cons, aggregatesJson_orderly, binding, cases_, definitionsJson_orderly, true_and]
    exact ⟨rfl, rfl, rfl, rfl, rfl, fun _ mem => absurd mem List.not_mem_nil⟩

/-! ## Batches in another order -/

theorem validateCaseBatch_perm {cases cases' : List NativeCaseInput} (same : cases.Perm cases')
    (h : validateCaseBatch m cases binding = .ok ()) : validateCaseBatch m cases' binding = .ok () := by
  simp only [validateCaseBatch, Checked.bind_eq_ok, Checked.require_eq_ok, Checked.each_eq_ok] at h ⊢
  obtain ⟨_, valid, _, some_, _, few, _, distinct, each⟩ := h
  refine ⟨(), valid, (), ?_, (), ?_, (), ?_, ?_⟩
  · rintro rfl
    exact some_ same.eq_nil
  · rwa [← same.length_eq]
  · exact (same.map _).nodup_iff.1 distinct
  · intro c mem
    exact each c (same.mem_iff.2 mem)

theorem evaluateCase_id {case_ : NativeCaseInput} {c : NativeCaseResult} (h : evaluateCase m binding case_ = .ok c) :
    c.caseId = case_.caseId := by
  simp only [evaluateCase, Checked.bind_eq_ok, Checked.pure_eq_ok] at h
  obtain ⟨_, -, judged, -, rfl⟩ := h
  rfl

theorem collect_ids {cases : List NativeCaseInput} {results : List NativeCaseResult}
    (h : Checked.collect (evaluateCase m binding) cases = .ok results) :
    results.map NativeCaseResult.caseId = cases.map NativeCaseInput.caseId := by
  induction Checked.collect_eq_ok.1 h with
  | nil => rfl
  | cons one rest ih => rw [List.map_cons, List.map_cons, evaluateCase_id one, ih (Checked.collect_eq_ok.2 rest)]

/-- What a built report is made of. -/
structure Built (m : Machine) (runId : String) (cases : List NativeCaseInput) (binding : NativeReportBinding)
    (results : List NativeCaseResult) (digest text : String) : Prop where
  named : safeIdentifier caseIdPattern "run_id" (.str runId) = .ok runId
  batch : validateCaseBatch m cases binding = .ok ()
  evaluated : Checked.collect (evaluateCase m binding) cases = .ok results
  digested : reportDigest m (undigested m runId binding (sortCases results)) = some digest
  written : canonicalReport { undigested m runId binding (sortCases results) with digest } = some text
  small : utf8Length text ≤ maxReportBytes

theorem buildNativeReport_eq_ok {runId : String} {cases : List NativeCaseInput} {report : NativeReport} :
    buildNativeReport m runId cases binding = .ok report ↔ ∃ results digest text,
      Built m runId cases binding results digest text ∧
        report = { undigested m runId binding (sortCases results) with digest } := by
  simp only [buildNativeReport, Checked.bind_eq_ok, Checked.orRaise_eq_ok, Checked.require_eq_ok, Checked.pure_eq_ok]
  constructor
  · rintro ⟨name, named, _, batch, results, evaluated, digest, digested, text, written, _, small, rfl⟩
    obtain rfl := Json.str.inj (safeIdentifier_text named)
    exact ⟨results, digest, text, ⟨named, batch, evaluated, digested, written, small⟩, rfl⟩
  · rintro ⟨results, digest, text, built, rfl⟩
    exact ⟨_, built.named, (), built.batch, results, built.evaluated, digest, built.digested, text, built.written, (),
      built.small, rfl⟩

theorem Built.distinct {runId : String} {cases : List NativeCaseInput} {results : List NativeCaseResult}
    {digest text : String} (built : Built m runId cases binding results digest text) :
    (results.map NativeCaseResult.caseId).Nodup := by
  have batch := built.batch
  simp only [validateCaseBatch, Checked.bind_eq_ok, Checked.require_eq_ok] at batch
  obtain ⟨_, -, _, -, _, -, _, distinct, -⟩ := batch
  rwa [collect_ids built.evaluated]

/-- **The order the cases come in does not matter.** -/
theorem buildNativeReport_perm {runId : String} {cases cases' : List NativeCaseInput} {report : NativeReport}
    (same : cases.Perm cases') (h : buildNativeReport m runId cases binding = .ok report) :
    buildNativeReport m runId cases' binding = .ok report := by
  obtain ⟨results, digest, text, built, rfl⟩ := buildNativeReport_eq_ok.1 h
  obtain ⟨results', evaluated, perm⟩ := Checked.collect_perm same built.evaluated
  have sorted : sortCases results = sortCases results' := Ranking.ascending_perm built.distinct perm
  rw [buildNativeReport_eq_ok]
  refine ⟨results', digest, text, ⟨built.named, validateCaseBatch_perm same built.batch, evaluated, ?_, ?_, built.small⟩, ?_⟩
  · rw [← sorted]
    exact built.digested
  · rw [← sorted]
    exact built.written
  · rw [sorted]

/-! ## Reading back -/

theorem definitions_equal : equal definitionsJson definitionsJson = true :=
  equal_refl (Json.orderly_distinctKeys definitionsJson_orderly) (by decide +kernel)

/-- Identifiers in strictly ascending order are the sorted set of them. -/
theorem ids_sorted {ids : List String} : ids = ids.dedup.insertionSort (· ≤ ·) ↔ ids.Pairwise (· < ·) := by
  constructor
  · intro same
    rw [same]
    have distinct : (ids.dedup.map id).Nodup := by
      rw [List.map_id]
      exact List.nodup_dedup ids
    exact Ranking.ascending_strict distinct
  · intro ascending
    have distinct : ids.Nodup := ascending.imp ne_of_lt
    rw [distinct.dedup]
    have sorted : ids.insertionSort (fun a b => id a ≤ id b) = ids := Ranking.ascending_of_strict ascending
    exact sorted.symm

/-- What the parser asks of the fields of a payload, and what it makes of them. -/
structure Accepts (m : Machine) (fields rawBinding : List (String × Json)) (rawCases : List Json)
    (cases : List NativeCaseResult) (runId digest : String) : Prop where
  protocol : field "protocol" fields = .str "native-evaluation" ∧ field "protocol_version" fields = .int 1
  named : safeIdentifier caseIdPattern "run_id" (field "run_id" fields) = .ok runId
  bound : exactFields bindingNames (corruptReport "binding has invalid fields") (field "binding" fields) = .ok rawBinding
  valid : validateBinding (bindingOf rawBinding) = .ok ()
  definitions : equal (field "metric_definitions" fields) definitionsJson = true
  items : itemsOf (fun n => 1 ≤ n && n ≤ maxCases) (protocolError "native cases are empty or oversized")
    (field "cases" fields) = .ok rawCases
  read : Checked.collect (parseCase (bindingOf rawBinding)) rawCases = .ok cases
  ordered : cases.map NativeCaseResult.caseId = (cases.map NativeCaseResult.caseId).dedup.insertionSort (· ≤ ·)
  status : field "status" fields = .str (completeness cases).text
  aggregates : equal (field "aggregates" fields) (aggregatesJson (aggregate m cases)) = true
  digested : reportDigest m (undigested m runId (bindingOf rawBinding) cases) = some digest
  matched : field "digest" fields = .str digest

theorem parsePayload_eq_ok {payload : Json} {report : NativeReport} :
    parsePayload m payload = .ok report ↔ ∃ fields rawBinding rawCases cases runId digest,
      exactFields reportNames (corruptReport "native report has invalid fields") payload = .ok fields ∧
        Accepts m fields rawBinding rawCases cases runId digest ∧
        report = { undigested m runId (bindingOf rawBinding) cases with digest } := by
  simp only [parsePayload, Checked.bind_eq_ok, Checked.require_eq_ok, Checked.orRaise_eq_ok, Checked.pure_eq_ok]
  constructor
  · rintro ⟨fields, shape, _, protocol, runId, named, rawBinding, bound, _, valid, _, definitions, rawCases, items, cases,
      read, _, ordered, _, status, _, aggregates, digest, digested, _, matched, rfl⟩
    exact ⟨fields, rawBinding, rawCases, cases, runId, digest, shape, ⟨protocol, named, bound, valid, definitions, items,
      read, ordered, status, aggregates, digested, matched⟩, rfl⟩
  · rintro ⟨fields, rawBinding, rawCases, cases, runId, digest, shape, here, rfl⟩
    exact ⟨fields, shape, (), here.protocol, runId, here.named, rawBinding, here.bound, (), here.valid, (),
      here.definitions, rawCases, here.items, cases, here.read, (), here.ordered, (), here.status, (), here.aggregates,
      digest, here.digested, (), here.matched, rfl⟩

/-- A report whose cases fit, with the digest of its text, is read back from its payload. -/
theorem parsePayload_payload {runId digest : String} {cases : List NativeCaseResult}
    (named : safeIdentifier caseIdPattern "run_id" (.str runId) = .ok runId) (valid : validateBinding binding = .ok ())
    (some_ : 1 ≤ cases.length ∧ cases.length ≤ maxCases) (fits : ∀ c ∈ cases, CaseFits binding c)
    (ascending : cases.Pairwise fun a b => a.caseId < b.caseId) (finite : (aggregatesJson (aggregate m cases)).finite = true)
    (digested : reportDigest m (undigested m runId binding cases) = some digest) :
    parsePayload m ({ undigested m runId binding cases with digest }.payload true) =
      .ok { undigested m runId binding cases with digest } := by
  have items : itemsOf (fun n => 1 ≤ n && n ≤ maxCases) (protocolError "native cases are empty or oversized")
      (.arr (cases.map NativeCaseResult.json)) = .ok (cases.map NativeCaseResult.json) := by
    apply if_pos
    rw [List.length_map]
    simpa using some_
  have read : Checked.collect (parseCase binding) (cases.map NativeCaseResult.json) = .ok cases := by
    rw [Checked.collect_eq_ok, List.forall₂_map_left_iff, List.forall₂_same]
    exact fun c mem => parseCase_json (fits c mem)
  have ordered : cases.map NativeCaseResult.caseId = (cases.map NativeCaseResult.caseId).dedup.insertionSort (· ≤ ·) :=
    ids_sorted.2 (List.pairwise_map.2 ascending)
  have aggregates : equal (aggregatesJson (aggregate m cases)) (aggregatesJson (aggregate m cases)) = true :=
    equal_refl (Json.orderly_distinctKeys (aggregatesJson_orderly _)) finite
  rw [parsePayload_eq_ok]
  refine ⟨[("aggregates", aggregatesJson (aggregate m cases)), ("binding", .obj binding.fields),
    ("cases", .arr (cases.map NativeCaseResult.json)), ("digest", .str digest), ("metric_definitions", definitionsJson),
    ("protocol", .str "native-evaluation"), ("protocol_version", .int 1), ("run_id", .str runId),
    ("status", .str (completeness cases).text)], binding.fields, cases.map NativeCaseResult.json, cases, runId, digest, rfl,
    ?_, rfl⟩
  exact ⟨⟨rfl, rfl⟩, named, rfl, valid, definitions_equal, items, read, ordered, rfl, aggregates, digested, rfl⟩

theorem canonicalReport_finite {r : NativeReport} {text : String} (h : canonicalReport r = some text) :
    (r.payload true).finite = true :=
  (dumpsFinite_eq_some.1 h).1

/-- **A built report is read back.** -/
theorem parse_canonicalReport {runId : String} {cases : List NativeCaseInput} {report : NativeReport}
    (h : buildNativeReport m runId cases binding = .ok report) :
    ∃ text, canonicalReport report = some text ∧ parseNativeReport m (.text text) = .ok report := by
  obtain ⟨results, digest, text, built, rfl⟩ := buildNativeReport_eq_ok.1 h
  refine ⟨text, built.written, ?_⟩
  have batch := built.batch
  simp only [validateCaseBatch, Checked.bind_eq_ok, Checked.require_eq_ok] at batch
  obtain ⟨_, valid, _, some_, _, few, -⟩ := batch
  have sorted : (sortCases results).Perm results := List.perm_insertionSort _ results
  have length : (sortCases results).length = cases.length := by
    rw [sorted.length_eq]
    exact (Checked.collect_eq_ok.1 built.evaluated).length_eq.symm
  have bounds : 1 ≤ (sortCases results).length ∧ (sortCases results).length ≤ maxCases := by
    rw [length]
    exact ⟨List.length_pos_iff.2 some_, few⟩
  have fits : ∀ c ∈ sortCases results, CaseFits binding c := by
    intro c mem
    obtain ⟨case_, -, evaluated⟩ := Checked.collect_source built.evaluated (sorted.mem_iff.1 mem)
    exact evaluateCase_fits evaluated
  have ascending : (sortCases results).Pairwise fun a b => a.caseId < b.caseId := Ranking.ascending_strict built.distinct
  have finite : (aggregatesJson (aggregate m (sortCases results))).finite = true :=
    Json.finite_obj _ |>.1 (canonicalReport_finite built.written) ("aggregates", _) (List.mem_cons_self ..)
  have payload := parsePayload_payload built.named valid bounds fits ascending finite built.digested
  have decoded : decodeRaw (.text text) = .ok (({ undigested m runId binding (sortCases results) with digest } :
      NativeReport).payload true) := by
    simp only [decodeRaw, Checked.bind_eq_ok, Checked.require_eq_ok, Checked.orRaise_eq_ok]
    exact ⟨(), built.small, loadsUnique_canonical (payload_orderly valid true) built.written⟩
  rw [parseNativeReport, reraise_eq_ok, translate_eq_ok, Checked.bind_eq_ok]
  exact ⟨_, decoded, payload⟩

/-- What a mapping is decoded to is the mapping with sorted keys. -/
theorem decodeRaw_mapping {value : JsonObject} {payload : Json} (h : decodeRaw (.mapping value) = .ok payload) :
    payload = value.json.sorted := by
  simp only [decodeRaw, Checked.bind_eq_ok, Checked.require_eq_ok, Checked.orRaise_eq_ok] at h
  obtain ⟨text, written, _, -, read⟩ := h
  rw [loadsUnique_sorted value.distinct written] at read
  exact (Option.some.inj read).symm

theorem itemsOf_arr {fits : Nat → Bool} {e : PyError} {j : Json} {items : List Json} (h : itemsOf fits e j = .ok items) :
    j = .arr items := by
  cases j with
  | arr given =>
    rw [itemsOf] at h
    split at h
    · cases h
      rfl
    · cases h
  | null | bool _ | int _ | float _ | str _ | obj _ => cases h

/-- What an accepted payload has to do with its report: the binding and the cases are read from it, and everything else it
says is computed from them. -/
structure Recomputed (m : Machine) (fields : List (String × Json)) (report : NativeReport) : Prop where
  binding : ∃ given, field "binding" fields = .obj given ∧ bindingOf given = report.binding
  cases : ∃ items, field "cases" fields = .arr items ∧
    List.Forall₂ (fun item c => parseCase report.binding item = .ok c) items report.cases
  aggregates : equal (field "aggregates" fields) (aggregatesJson (aggregate m report.cases)) = true ∧
    report.aggregates = aggregate m report.cases
  status : field "status" fields = .str (completeness report.cases).text ∧ report.status = completeness report.cases
  ascending : report.cases.Pairwise fun a b => a.caseId < b.caseId
  digest : field "digest" fields = .str report.digest ∧
    reportDigest m (undigested m report.runId report.binding report.cases) = some report.digest

/-- **An accepted payload is recomputed from its cases.** -/
theorem parsePayload_recomputed {payload : Json} {report : NativeReport} (h : parsePayload m payload = .ok report) :
    ∃ fields, payload = .obj fields ∧ Recomputed m fields report := by
  obtain ⟨fields, rawBinding, rawCases, cases, runId, digest, shape, here, rfl⟩ := parsePayload_eq_ok.1 h
  refine ⟨fields, exactFields_obj shape, ⟨rawBinding, exactFields_obj here.bound, rfl⟩, ?_, ⟨here.aggregates, rfl⟩,
    ⟨here.status, rfl⟩, List.pairwise_map.1 (ids_sorted.1 here.ordered), here.matched, here.digested⟩
  exact ⟨rawCases, itemsOf_arr here.items, Checked.collect_eq_ok.1 here.read⟩

/-- **Builder and parser agree.** A built report is read back from its canonical text, in whatever order the cases came;
and whatever is accepted, as a text or as a mapping, is recomputed from its own cases. -/
theorem native_report_agreement (m : Machine) :
    (∀ (runId : String) (cases : List NativeCaseInput) (binding : NativeReportBinding) (report : NativeReport),
      buildNativeReport m runId cases binding = .ok report →
        (∃ text, canonicalReport report = some text ∧ parseNativeReport m (.text text) = .ok report) ∧
        ∀ cases', cases.Perm cases' → buildNativeReport m runId cases' binding = .ok report) ∧
    ∀ (raw : Raw) (report : NativeReport), parseNativeReport m raw = .ok report →
      ∃ fields, decodeRaw raw = .ok (.obj fields) ∧ Recomputed m fields report ∧
        ∀ value, raw = .mapping value → .obj fields = value.json.sorted := by
  constructor
  · intro runId cases binding report built
    exact ⟨parse_canonicalReport built, fun cases' same => buildNativeReport_perm same built⟩
  · intro raw report accepted
    rw [parseNativeReport, reraise_eq_ok, translate_eq_ok, Checked.bind_eq_ok] at accepted
    obtain ⟨payload, decoded, parsed⟩ := accepted
    obtain ⟨fields, rfl, recomputed⟩ := parsePayload_recomputed parsed
    refine ⟨fields, decoded, recomputed, ?_⟩
    rintro value rfl
    exact decodeRaw_mapping decoded

/-! ## Samples -/

def zeroOne (q : ℚ) : Double :=
  if q < 1 then .zero false else .ofInt 1

theorem zeroOne_finite (q : ℚ) : (zeroOne q).isFinite = true := by
  rw [zeroOne]
  split
  · rfl
  · exact ofInt_finite 1

theorem zeroOne_monotone {p q : ℚ} (le : p ≤ q) : decimalValue (zeroOne p) ≤ decimalValue (zeroOne q) := by
  simp only [zeroOne]
  split
  · split
    · exact le_refl _
    · rw [decimalValue_one]
      exact zero_le_one
  · next high =>
    rw [if_neg (by linarith)]

theorem zeroOne_zero : decimalValue (zeroOne 0) = 0 := by
  rw [zeroOne, if_pos zero_lt_one]
  rfl

theorem zeroOne_one : decimalValue (zeroOne 1) = 1 := by
  rw [zeroOne, if_neg (lt_irrefl 1)]
  exact decimalValue_one

def sampleRounding : Rounding :=
  ⟨zeroOne, zeroOne_finite, zeroOne_monotone, zeroOne_zero, zeroOne_one⟩

def sampleMachine : Machine where
  sha256 := Sha256.hexdigest
  sha256_hex := Sha256.isSha256Text_hexdigest
  division := sampleRounding
  fourDecimals := sampleRounding
  lower text := text.toList.map Char.toLower

def sampleFingerprint : String :=
  "sha256:0000000000000000000000000000000000000000000000000000000000000000"

def sampleBinding : NativeReportBinding where
  engineId := .str "native"
  engineVersion := .int 1
  datasetId := .str evaluationDatasetId
  datasetVersion := .str evaluationDatasetVersion
  datasetRevision := .str sampleFingerprint
  generatorModelId := .str "generator"
  generatorModelFingerprint := .str sampleFingerprint
  generationPromptSha256 := .str sampleFingerprint
  generationBinding := .str sampleFingerprint
  retrievalBinding := .str sampleFingerprint
  retrievalConfigFingerprint := .str sampleFingerprint
  embeddingFingerprint := .str sampleFingerprint
  rerankerFingerprint := .str sampleFingerprint
  contextBinding := .str sampleFingerprint
  judgeModelId := .str "judge"
  judgePromptSha256 := .str sampleFingerprint
  judgeBinding := .str sampleFingerprint

def sampleContext : String := "[Source 1] AAPL 10-K\nRevenue grew."

theorem sampleScores_distinct : (Json.obj [("native.faithfulness", .int 1), ("native.answer_relevancy", .int 1),
    ("native.context_precision", .int 0)]).distinctKeys = true := by
  decide

def sampleCase : NativeCaseInput where
  caseId := "q1"
  answer := some "Revenue grew (Source 1)."
  renderedContext := some sampleContext
  groundTruth := some "Revenue grew."
  requiredKeywords := some []
  expectsFallback := some false
  judgeScores := some ⟨_, sampleScores_distinct⟩
  generationContextSha256 := some (sampleMachine.fingerprintOf sampleContext)
  judgeContextSha256 := some (sampleMachine.fingerprintOf sampleContext)
  generationBinding := some sampleFingerprint
  judgeBinding := some sampleFingerprint

def NativeReport.signed (r : NativeReport) (digest : String) : NativeReport :=
  { r with digest }

theorem fingerprintOf_length (m : Machine) (text : String) : (m.fingerprintOf text).toList.length = 71 := by
  have hex := m.sha256_hex text
  simp only [isSha256Text, Bool.and_eq_true, decide_eq_true_eq] at hex
  rw [Machine.fingerprintOf, String.toList_append, List.length_append, hex.1]
  rfl

def sampleResults : List NativeCaseResult :=
  [⟨"q1", some (sampleMachine.fingerprintOf sampleContext),
    [computed "native.faithfulness" (.ratio (.ofInt 1)), computed "native.answer_relevancy" (.ratio (.ofInt 1)),
      computed "native.context_precision" (.ratio (.ofInt 0)), computed "native.citation_index_validity" (.ratio (.ofInt 1)),
      missing "native.keyword_recall_proxy" .notApplicable "no_required_keywords", computed "native.fallback_correctness" (.boolean true)]⟩]

def sampleReport : NativeReport :=
  undigested sampleMachine "run-1" sampleBinding sampleResults

def sampleAggregates : List AggregateMetricResult :=
  [⟨"native.faithfulness", 1, .computed, some (.ofInt 1), 1, 1, 0, 0⟩,
    ⟨"native.answer_relevancy", 1, .computed, some (.ofInt 1), 1, 1, 0, 0⟩,
    ⟨"native.context_precision", 1, .computed, some (.ofInt 0), 1, 1, 0, 0⟩,
    ⟨"native.citation_index_validity", 1, .computed, some (.ofInt 1), 1, 1, 0, 0⟩,
    ⟨"native.keyword_recall_proxy", 1, .notApplicable, none, 1, 0, 0, 1⟩,
    ⟨"native.fallback_correctness", 1, .computed, some (.ofInt 1), 1, 1, 0, 0⟩]

/-- What the sample evaluates to, as one computation. -/
theorem sample_evaluation : Checked.collect (evaluateCase sampleMachine sampleBinding) [sampleCase] = .ok sampleResults ∧
    aggregate sampleMachine sampleResults = sampleAggregates ∧ completeness sampleResults = .complete ∧
    validateBinding sampleBinding = .ok () ∧ ((sampleReport.signed "").payload true).finite = true ∧
    printable ((sampleReport.signed "").payload true) = true ∧ (reportDigest sampleMachine sampleReport).isSome = true ∧
    safeIdentifier caseIdPattern "run_id" (.str "run-1") = .ok "run-1" ∧
    validateCaseBatch sampleMachine [sampleCase] sampleBinding = .ok () := by
  decide +kernel

theorem sampleReport_text (digest : String) : canonicalReport (sampleReport.signed digest) =
    some (String.ofList (pythonPrinter.text ((sampleReport.signed digest).payload true))) := by
  obtain ⟨-, -, -, valid, bareFinite, barePrintable, -⟩ := sample_evaluation
  have finite : ((sampleReport.signed digest).payload true).finite = true := bareFinite
  have print : printable ((sampleReport.signed digest).payload true) = true := barePrintable
  rw [canonicalReport, canonicalJsonText_exists finite print, Json.sorted_of_orderly (payload_orderly valid true)]

/-- The widths of the numbers of the sample. -/
theorem number_widths : width (.int 0) ≤ 202 ∧ width (.int 1) ≤ 202 ∧ width (.float (.ofInt 0)) ≤ 202 ∧
    width (.float (.ofInt 1)) ≤ 202 ∧ width .null ≤ 202 ∧ width (.bool true) ≤ 202 := by
  refine ⟨?_, ?_, ?_, ?_, ?_, ?_⟩
  all_goals exact Nat.le_of_ble_eq_true rfl

set_option maxRecDepth 2048 in
theorem definitions_plain : ∀ d ∈ metricDefinitions, d.metricVersion = 1 ∧ d.requiredInputs.length ≤ 4 ∧
    ∀ text ∈ d.aggregateKind :: d.label :: d.meaning :: d.metricId :: d.source :: d.requiredInputs, Plain 200 text := by
  simp only [metricDefinitions, judgeInputs, List.forall_mem_cons]
  repeat' apply And.intro
  all_goals
    first
    | exact fun _ mem => absurd mem List.not_mem_nil
    | exact ⟨_, rfl, rfl, Nat.le_of_ble_eq_true rfl⟩
    | exact Nat.le_of_ble_eq_true rfl
    | trivial

theorem definition_width {d : MetricDefinition} (mem : d ∈ metricDefinitions) : width d.json ≤ 10000 := by
  obtain ⟨zero, one, low, high, -, -⟩ := number_widths
  obtain ⟨version, few, texts⟩ := definitions_plain d mem
  have within : ∀ text, Plain 200 text → width (.str text) ≤ 814 := fun text plain => plain.width.trans (by decide)
  have inputs : width (.arr (d.requiredInputs.map .str)) ≤ 814 := by
    have each : ∀ j ∈ d.requiredInputs.map Json.str, width j ≤ 202 := by
      rw [List.forall_mem_map]
      exact fun text mem => (texts text (by simp [mem])).width
    have whole := width_arr_le each
    rw [List.length_map] at whole
    omega
  have kind : Plain 200 d.valueKind.text := by
    cases d.valueKind <;> exact ⟨_, rfl, by decide, by decide⟩
  suffices h : ∀ f ∈ (_ : List (String × Json)), Plain 28 f.1 ∧ width f.2 ≤ 814 from
    (width_obj_le h).trans (show 2 + 11 * (814 + 32) ≤ 10000 by decide)
  simp only [List.forall_mem_cons]
  exact ⟨⟨⟨_, rfl, by decide, by decide⟩, within _ (texts _ (by simp))⟩,
    ⟨⟨_, rfl, by decide, by decide⟩, within _ ⟨_, rfl, by decide, by decide⟩⟩,
    ⟨⟨_, rfl, by decide, by decide⟩, within _ (texts _ (by simp))⟩,
    ⟨⟨_, rfl, by decide, by decide⟩, high.trans (by decide)⟩,
    ⟨⟨_, rfl, by decide, by decide⟩, within _ (texts _ (by simp))⟩,
    ⟨⟨_, rfl, by decide, by decide⟩, within _ (texts _ (by simp))⟩,
    ⟨⟨_, rfl, by decide, by decide⟩, version ▸ one.trans (by decide)⟩,
    ⟨⟨_, rfl, by decide, by decide⟩, low.trans (by decide)⟩,
    ⟨⟨_, rfl, by decide, by decide⟩, inputs⟩,
    ⟨⟨_, rfl, by decide, by decide⟩, within _ (texts _ (by simp))⟩,
    ⟨⟨_, rfl, by decide, by decide⟩, within _ kind⟩, fun _ mem => absurd mem List.not_mem_nil⟩

theorem metric_width {r : CaseMetricResult} (id : Plain 200 r.metricId) (version : r.metricVersion = 1)
    (bare : Plain 200 (r.reasonCode.getD "")) (value : width (valueJson r.value) ≤ 202) : width r.json ≤ 1200 := by
  obtain ⟨-, one, -, -, null, -⟩ := number_widths
  have status : Plain 200 r.status.text := by
    cases r.status <;> exact ⟨_, rfl, by decide, by decide⟩
  have reason : width (optionalJson r.reasonCode) ≤ 202 := by
    cases given : r.reasonCode with
    | none => exact null
    | some reason =>
      rw [given] at bare
      exact bare.width
  suffices h : ∀ f ∈ (_ : List (String × Json)), Plain 28 f.1 ∧ width f.2 ≤ 202 from
    (width_obj_le h).trans (show 2 + 5 * (202 + 32) ≤ 1200 by decide)
  simp only [List.forall_mem_cons]
  exact ⟨⟨⟨_, rfl, by decide, by decide⟩, id.width⟩, ⟨⟨_, rfl, by decide, by decide⟩, version ▸ one⟩,
    ⟨⟨_, rfl, by decide, by decide⟩, reason⟩, ⟨⟨_, rfl, by decide, by decide⟩, status.width⟩,
    ⟨⟨_, rfl, by decide, by decide⟩, value⟩, fun _ mem => absurd mem List.not_mem_nil⟩

theorem aggregate_width {r : AggregateMetricResult} (id : Plain 200 r.metricId) (version : r.metricVersion = 1)
    (counts : r.totalCases ≤ 1 ∧ r.denominator ≤ 1 ∧ r.unavailableCount ≤ 1 ∧ r.notApplicableCount ≤ 1)
    (value : width ((r.value.map Json.float).getD .null) ≤ 202) : width r.json ≤ 1900 := by
  obtain ⟨zero, one, -⟩ := number_widths
  have small {n : Nat} (few : n ≤ 1) : width (.int n) ≤ 202 := by
    rcases Nat.le_one_iff_eq_zero_or_eq_one.1 few with rfl | rfl
    · exact zero
    · exact one
  obtain ⟨total, denominator, unavailable, notApplicable⟩ := counts
  have status : Plain 200 r.status.text := by
    cases r.status <;> exact ⟨_, rfl, by decide, by decide⟩
  suffices h : ∀ f ∈ (_ : List (String × Json)), Plain 28 f.1 ∧ width f.2 ≤ 202 from
    (width_obj_le h).trans (show 2 + 8 * (202 + 32) ≤ 1900 by decide)
  simp only [List.forall_mem_cons]
  exact ⟨⟨⟨_, rfl, by decide, by decide⟩, small denominator⟩, ⟨⟨_, rfl, by decide, by decide⟩, id.width⟩,
    ⟨⟨_, rfl, by decide, by decide⟩, version ▸ one⟩, ⟨⟨_, rfl, by decide, by decide⟩, small notApplicable⟩,
    ⟨⟨_, rfl, by decide, by decide⟩, status.width⟩, ⟨⟨_, rfl, by decide, by decide⟩, small total⟩,
    ⟨⟨_, rfl, by decide, by decide⟩, small unavailable⟩, ⟨⟨_, rfl, by decide, by decide⟩, value⟩,
    fun _ mem => absurd mem List.not_mem_nil⟩

/-- The report fits the bound. -/
theorem sampleReport_width {digest : String} (short : digest.toList.length ≤ 71) :
    width ((sampleReport.signed digest).payload true) ≤ maxReportBytes := by
  obtain ⟨zero, one, low, high, null, yes⟩ := number_widths
  have aggregated : (sampleReport.signed digest).aggregates = sampleAggregates := sample_evaluation.2.1
  have complete : (sampleReport.signed digest).status = .complete := sample_evaluation.2.2.1
  have text : ∀ s, Plain 200 s → width (.str s) ≤ 202 := fun s plain => plain.width
  have fingerprint : width (.str sampleFingerprint) ≤ 202 := text _ ⟨_, rfl, by decide, by decide⟩
  have aggregates : width (aggregatesJson sampleAggregates) ≤ 100000 := by
    have each : ∀ j ∈ sampleAggregates.map AggregateMetricResult.json, width j ≤ 1900 := by
      rw [List.forall_mem_map]
      simp only [sampleAggregates, List.forall_mem_cons]
      refine ⟨?_, ?_, ?_, ?_, ?_, ?_, fun _ mem => absurd mem List.not_mem_nil⟩
      all_goals
        first
        | exact aggregate_width ⟨_, rfl, by decide, by decide⟩ rfl (by decide) high
        | exact aggregate_width ⟨_, rfl, by decide, by decide⟩ rfl (by decide) null
    exact (width_arr_le each).trans (show 2 + 6 * (1900 + 1) ≤ 100000 by decide)
  have definitions : width definitionsJson ≤ 100000 := by
    have each : ∀ j ∈ metricDefinitions.map MetricDefinition.json, width j ≤ 10000 := by
      rw [List.forall_mem_map]
      exact fun d mem => definition_width mem
    exact (width_arr_le each).trans (show 2 + 6 * (10000 + 1) ≤ 100000 by decide)
  have binding : width (.obj sampleBinding.fields) ≤ 100000 := by
    suffices h : ∀ f ∈ sampleBinding.fields, Plain 28 f.1 ∧ width f.2 ≤ 202 from
      (width_obj_le h).trans (show 2 + 17 * (202 + 32) ≤ 100000 by decide)
    simp only [NativeReportBinding.fields, sampleBinding, evaluationDatasetId, evaluationDatasetVersion, List.forall_mem_cons]
    repeat' apply And.intro
    all_goals
      first
      | exact fun _ mem => absurd mem List.not_mem_nil
      | exact ⟨_, rfl, by decide, by decide⟩
      | with_reducible exact fingerprint
      | with_reducible exact one
      | exact text _ ⟨_, rfl, by decide, by decide⟩
  have metrics : ∀ c ∈ sampleResults, width (.arr (c.metrics.map CaseMetricResult.json)) ≤ 10000 := by
    simp only [sampleResults, List.forall_mem_cons]
    refine ⟨?_, fun _ mem => absurd mem List.not_mem_nil⟩
    refine (width_arr_le ?_).trans (show 2 + 6 * (1200 + 1) ≤ 10000 by decide)
    rw [List.forall_mem_map]
    simp only [List.forall_mem_cons]
    have ratio {id : String} {b : Bool} (plain : Plain 200 id) :
        width (computed id (.ratio (.ofInt (if b then 1 else 0)))).json ≤ 1200 := by
      refine metric_width plain rfl ⟨_, rfl, by decide, by decide⟩ ?_
      cases b with
      | true => exact high
      | false => exact low
    exact ⟨ratio (b := true) ⟨_, rfl, by decide, by decide⟩, ratio (b := true) ⟨_, rfl, by decide, by decide⟩,
      ratio (b := false) ⟨_, rfl, by decide, by decide⟩, ratio (b := true) ⟨_, rfl, by decide, by decide⟩,
      metric_width ⟨_, rfl, by decide, by decide⟩ rfl ⟨_, rfl, by decide, by decide⟩ null,
      metric_width ⟨_, rfl, by decide, by decide⟩ rfl ⟨_, rfl, by decide, by decide⟩ yes,
      fun _ mem => absurd mem List.not_mem_nil⟩
  have rows : width (.arr (sampleResults.map NativeCaseResult.json)) ≤ 100000 := by
    refine (width_arr_le ?_).trans (show 2 + 1 * (40000 + 1) ≤ 100000 by decide)
    rw [List.forall_mem_map]
    intro c mem
    have measured := metrics c mem
    obtain rfl := List.mem_singleton.1 mem
    have context := width_str (sampleMachine.fingerprintOf sampleContext)
    rw [fingerprintOf_length] at context
    suffices h : ∀ f ∈ (_ : List (String × Json)), Plain 28 f.1 ∧ width f.2 ≤ 10000 from
      (width_obj_le h).trans (show 2 + 3 * (10000 + 32) ≤ 40000 by decide)
    simp only [List.forall_mem_cons]
    exact ⟨⟨⟨_, rfl, by decide, by decide⟩, (text _ ⟨_, rfl, by decide, by decide⟩).trans (by decide)⟩,
      ⟨⟨_, rfl, by decide, by decide⟩, context.trans (by decide)⟩, ⟨⟨_, rfl, by decide, by decide⟩, measured⟩,
      fun _ mem => absurd mem List.not_mem_nil⟩
  have digested : width (.str digest) ≤ 100000 := by
    have := width_str digest
    omega
  suffices h : ∀ f ∈ (_ : List (String × Json)), Plain 28 f.1 ∧ width f.2 ≤ 100000 from
    (width_obj_le h).trans (show 2 + 9 * (100000 + 32) ≤ maxReportBytes by decide)
  simp only [if_true, List.cons_append, List.nil_append, List.forall_mem_cons]
  exact ⟨⟨⟨_, rfl, by decide, by decide⟩, aggregated ▸ aggregates⟩, ⟨⟨_, rfl, by decide, by decide⟩, binding⟩,
    ⟨⟨_, rfl, by decide, by decide⟩, rows⟩, ⟨⟨_, rfl, by decide, by decide⟩, digested⟩,
    ⟨⟨_, rfl, by decide, by decide⟩, definitions⟩,
    ⟨⟨_, rfl, by decide, by decide⟩, (text _ ⟨_, rfl, by decide, by decide⟩).trans (by decide)⟩,
    ⟨⟨_, rfl, by decide, by decide⟩, one.trans (by decide)⟩,
    ⟨⟨_, rfl, by decide, by decide⟩, (text _ ⟨_, rfl, by decide, by decide⟩).trans (by decide)⟩,
    ⟨⟨_, rfl, by decide, by decide⟩, complete ▸ (text _ ⟨_, rfl, by decide, by decide⟩).trans (by decide)⟩,
    fun _ mem => absurd mem List.not_mem_nil⟩

theorem sampleReport_built : ∃ report, buildNativeReport sampleMachine "run-1" [sampleCase] sampleBinding = .ok report := by
  obtain ⟨results, -, -, -, -, -, digested, named, batch⟩ := sample_evaluation
  obtain ⟨digest, digested⟩ := Option.isSome_iff_exists.1 digested
  obtain ⟨text, -, rfl⟩ := Option.map_eq_some_iff.1 digested
  exact ⟨_, buildNativeReport_eq_ok.2 ⟨sampleResults, _, _, ⟨named, batch, results, digested,
    sampleReport_text _, sampleReport_width (fingerprintOf_length _ _).le⟩, rfl⟩⟩

theorem native_report_agreement_sample : ∃ report text,
    buildNativeReport sampleMachine "run-1" [sampleCase] sampleBinding = .ok report ∧ canonicalReport report = some text ∧
      parseNativeReport sampleMachine (.text text) = .ok report := by
  obtain ⟨report, built⟩ := sampleReport_built
  obtain ⟨⟨text, written, read⟩, -⟩ := (native_report_agreement sampleMachine).1 "run-1" [sampleCase] sampleBinding report built
  exact ⟨report, text, built, written, read⟩

end Native
