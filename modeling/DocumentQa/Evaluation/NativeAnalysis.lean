import DocumentQa.Evaluation.NativeRoundTrip

/-!
# `native_analysis`: comparisons and trends

Two reports are compared metric by metric and case by case, and the reports of many runs are
grouped by the fingerprint of what their metric depends on. Whether two aggregates may be
compared is thus decided twice. Differences of ratios are exact here.
-/

namespace Native

open Python JsonText

variable {m : Machine} {binding : NativeReportBinding}

/-! ## Accepted reports -/

theorem parseValue_allows {d : MetricDefinition} {raw : Json} {value : MetricValue} (h : parseValue d raw = .ok value) :
    d.valueKind.Allows value := by
  unfold parseValue at h
  cases kind : d.valueKind with
  | ratio =>
    simp only [kind, Checked.bind_eq_ok, Checked.pure_eq_ok] at h
    obtain ⟨x, read, rfl⟩ := h
    exact ratio_inUnit read
  | boolean =>
    cases raw with
    | bool b =>
      simp only [kind] at h
      cases h
      exact trivial
    | null | int _ | float _ | str _ | arr _ | obj _ => simp [kind] at h

theorem parseReason_eq_ok {d : MetricDefinition} {status : Status} {raw reason : Json} {text : String}
    (h : parseReason d status raw reason = .ok text) : text ∈ reasons ∧ text ∈ allowedReasons d.metricId status := by
  simp only [parseReason, Checked.bind_eq_ok] at h
  obtain ⟨_, -, h⟩ := h
  split at h
  · simp only [Checked.bind_eq_ok, Checked.require_eq_ok, Checked.pure_eq_ok] at h
    obtain ⟨_, known, rfl⟩ := h
    exact known
  · cases h
  · cases h
  · cases h

/-- What is read is allowed. -/
theorem parseMetric_allowed {d : MetricDefinition} {raw : Json} {r : CaseMetricResult} (h : parseMetric d raw = .ok r) :
    Allowed d r := by
  simp only [parseMetric, Checked.bind_eq_ok] at h
  obtain ⟨fields, -, _, -, h⟩ := h
  split at h
  · simp only [Checked.bind_eq_ok, Checked.pure_eq_ok] at h
    obtain ⟨_, -, value, read, rfl⟩ := h
    exact .computed (parseValue_allows read)
  · split at h
    · simp only [Checked.bind_eq_ok, Checked.pure_eq_ok] at h
      obtain ⟨reason, read, rfl⟩ := h
      exact .missing Status.noConfusion (parseReason_eq_ok read).1 (parseReason_eq_ok read).2
    · split at h
      · simp only [Checked.bind_eq_ok, Checked.pure_eq_ok] at h
        obtain ⟨reason, read, rfl⟩ := h
        exact .missing Status.noConfusion (parseReason_eq_ok read).1 (parseReason_eq_ok read).2
      · cases h

theorem parseContext_fits {value : Json} {context : Option String} (h : parseContext value = .ok context) :
    context.all isFingerprint = true := by
  rw [parseContext] at h
  split at h
  · cases h
    rfl
  · simp only [Checked.bind_eq_ok, Checked.pure_eq_ok] at h
    obtain ⟨text, read, rfl⟩ := h
    cases value with
    | str given =>
      simp only [fingerprint, Checked.bind_eq_ok, Checked.require_eq_ok, Checked.pure_eq_ok] at read
      obtain ⟨_, shape, rfl⟩ := read
      exact shape
    | null | bool _ | int _ | float _ | arr _ | obj _ => simp [fingerprint] at read

/-- A case that is read fits. -/
theorem parseCase_fits {raw : Json} {c : NativeCaseResult} (h : parseCase binding raw = .ok c) : CaseFits binding c := by
  simp only [parseCase, Checked.bind_eq_ok, Checked.require_eq_ok, Checked.pure_eq_ok] at h
  obtain ⟨fields, -, name, named, items, length, context, hashed, metrics, read, _, evidence, _, judged, rfl⟩ := h
  refine ⟨?_, parseContext_fits hashed, ?_, evidence, judged⟩
  · rw [safeIdentifier_text named] at named
    exact named
  · have long : items.length = metricDefinitions.length := by
      cases given : field "metrics" fields with
      | arr given' =>
        rw [given, itemsOf] at length
        split at length
        · next fits =>
          cases length
          exact of_decide_eq_true fits
        · cases length
      | null | bool _ | int _ | float _ | str _ | obj _ =>
        rw [given] at length
        cases length
    refine (Checked.collect_beside long read).imp ?_
    rintro d metric ⟨item, -, one⟩
    exact parseMetric_allowed one

/-- What an accepted report is: its binding is valid, its cases fit and are in order, and the rest is computed. -/
structure Sound (m : Machine) (r : NativeReport) : Prop where
  named : safeIdentifier caseIdPattern "run_id" (.str r.runId) = .ok r.runId
  valid : validateBinding r.binding = .ok ()
  few : 1 ≤ r.cases.length ∧ r.cases.length ≤ maxCases
  fits : ∀ c ∈ r.cases, CaseFits r.binding c
  ascending : r.cases.Pairwise fun a b => a.caseId < b.caseId
  digested : reportDigest m (undigested m r.runId r.binding r.cases) = some r.digest
  computed : r = { undigested m r.runId r.binding r.cases with digest := r.digest }

theorem parseNativeReport_sound {raw : Raw} {r : NativeReport} (h : parseNativeReport m raw = .ok r) : Sound m r := by
  rw [parseNativeReport, reraise_eq_ok, translate_eq_ok, Checked.bind_eq_ok] at h
  obtain ⟨payload, -, parsed⟩ := h
  obtain ⟨fields, rawBinding, rawCases, cases, runId, digest, -, here, rfl⟩ := parsePayload_eq_ok.1 parsed
  have count : 1 ≤ cases.length ∧ cases.length ≤ maxCases := by
    have length := (Checked.collect_eq_ok.1 here.read).length_eq
    have items := here.items
    rw [itemsOf_arr items, itemsOf] at items
    split at items
    · next fits =>
      rw [← length]
      simpa using fits
    · cases items
  refine ⟨?_, here.valid, count, ?_, List.pairwise_map.1 (ids_sorted.1 here.ordered), here.digested, rfl⟩
  · have named := here.named
    rw [safeIdentifier_text named] at named
    exact named
  · intro c mem
    obtain ⟨item, -, read⟩ := Checked.collect_source here.read mem
    exact parseCase_fits read

theorem reportDigest_finite {r : NativeReport} {digest : String} (h : reportDigest m r = some digest) :
    (aggregatesJson r.aggregates).finite = true := by
  obtain ⟨text, written, -⟩ := Option.map_eq_some_iff.1 h
  have finite := (dumpsFinite_eq_some.1 written).1
  exact Json.finite_obj _ |>.1 finite ("aggregates", _) (List.mem_cons_self ..)

/-! ## Comparisons -/

inductive ComparisonStatus where
  | comparable
  | unavailable
  | notApplicable
  | incompatible
  | unpaired
deriving DecidableEq

inductive Pairing where
  | paired
  | baselineOnly
  | candidateOnly
deriving DecidableEq

structure MetricComparison where
  metricId : String
  metricVersion : Nat
  baseline : AggregateMetricResult
  candidate : AggregateMetricResult
  sameComputedCaseCoverage : Bool
  status : ComparisonStatus
  candidateMinusBaseline : Option ℚ
  reasonCode : Option String

structure CaseMetricComparison where
  metricId : String
  metricVersion : Nat
  baseline : Option CaseMetricResult
  candidate : Option CaseMetricResult
  status : ComparisonStatus
  candidateMinusBaseline : Option ℚ
  reasonCode : Option String

structure CaseComparison where
  caseId : String
  pairing : Pairing
  baselineContextSha256 : Option String
  candidateContextSha256 : Option String
  metrics : List CaseMetricComparison

/-- A comparison; the run IDs, digests, statuses and bindings it repeats are those of its two reports. -/
structure NativeComparison where
  baseline : NativeReport
  candidate : NativeReport
  sameCaseUniverse : Bool
  eligibleForCompleteComparison : Bool
  eligibilityReasons : List String
  metrics : List MetricComparison
  cases : List CaseComparison

section Analysis

variable (m : Machine)

/-- `_validated`. -/
def validated (report : NativeReport) : Except PyError NativeReport := do
  let text ← Checked.orRaise (canonicalReport report) outOfRange
  parseNativeReport m (.text text)

/-- `_definitions`. -/
def definitionsOf : Option (List String) → Except PyError (List MetricDefinition)
  | none => pure metricDefinitions
  | some ids => do
    Checked.require (ids ≠ [] ∧ ids.Nodup) ⟨.unknownNativeMetric, "metric selection must be nonempty and unique"⟩
    Checked.require (∀ id ∈ ids, id ∈ metricDefinitions.map (·.metricId)) ⟨.unknownNativeMetric, "unknown native metric ID"⟩
    pure (metricDefinitions.filter (·.metricId ∈ ids))

/-- `_JUDGE_METRICS`. -/
def judgeMetrics : List String :=
  (metricDefinitions.filter (·.source = "precomputed_native_judge")).map (·.metricId)

/-- `next(...)` of an exhausted generator. -/
def exhausted : PyError :=
  ⟨.stopIteration, ""⟩

/-- `_delta`; `float(None)` raises. -/
def delta (baseline candidate : Option MetricValue) : Except PyError ℚ :=
  match baseline, candidate with
  | some baseline, some candidate => pure (floatValue candidate - floatValue baseline)
  | _, _ => throw ⟨.typeError, "float() argument must be a string or a real number, not 'NoneType'"⟩

/-- The difference of comparable values. -/
def deltaIf (status : ComparisonStatus) (baseline candidate : Option MetricValue) : Except PyError (Option ℚ) :=
  if status = .comparable then do
    let difference ← delta baseline candidate
    pure (some difference)
  else pure none

/-- `_status`. -/
def statusOf (baseline candidate : Status) : ComparisonStatus × Option String :=
  if baseline = .computed ∧ candidate = .computed then (.comparable, none)
  else if baseline = .unavailable ∨ candidate = .unavailable then (.unavailable, some "metric_unavailable")
  else (.notApplicable, some "metric_not_applicable")

/-- `_metric_compatible`. -/
def metricCompatible (d : MetricDefinition) (baseline candidate : NativeReport) : Bool :=
  !judgeMetrics.elem d.metricId ||
    (equal baseline.binding.judgeModelId candidate.binding.judgeModelId &&
      equal baseline.binding.judgePromptSha256 candidate.binding.judgePromptSha256)

/-- The metric of a case, by its ID. -/
def NativeCaseResult.metric? (c : NativeCaseResult) (id : String) : Option CaseMetricResult :=
  c.metrics.find? (·.metricId = id)

/-- The aggregate of a report, by its ID. -/
def NativeReport.aggregate? (r : NativeReport) (id : String) : Option AggregateMetricResult :=
  r.aggregates.find? (·.metricId = id)

def NativeReport.case? (r : NativeReport) (id : String) : Option NativeCaseResult :=
  r.cases.find? (·.caseId = id)

/-- The ID of a case whose metric is computed. -/
def computedCase (id : String) (c : NativeCaseResult) : Except PyError (Option String) := do
  let metric ← Checked.orRaise (c.metric? id) exhausted
  pure (if metric.status = .computed then some c.caseId else none)

/-- The IDs of the cases of which a metric is computed. -/
def coverage (r : NativeReport) (id : String) : Except PyError (List String) := do
  let ids ← Checked.collect (computedCase id) r.cases
  pure (ids.filterMap fun id => id)

/-- Equality of two sets. -/
def sameSet (xs ys : List String) : Bool :=
  xs.all (ys.elem ·) && ys.all (xs.elem ·)

/-- The status of two aggregates. -/
def aggregateStatus (d : MetricDefinition) (baseline candidate : NativeReport) (sameUniverse : Bool)
    (left right : AggregateMetricResult) (sameCoverage : Bool) : ComparisonStatus × Option String :=
  if left.metricVersion ≠ right.metricVersion ∨ metricCompatible d baseline candidate = false then
    (.incompatible, some "metric_or_judge_definition_changed")
  else if sameUniverse = false then (.incompatible, some "case_universe_changed")
  else if (statusOf left.status right.status).1 = .comparable ∧ sameCoverage = false then
    (.incompatible, some "computed_case_coverage_changed")
  else statusOf left.status right.status

/-- One round of the loop over the definitions. -/
def compareAggregate (baseline candidate : NativeReport) (sameUniverse : Bool) (d : MetricDefinition) :
    Except PyError MetricComparison := do
  let left ← Checked.orRaise (baseline.aggregate? d.metricId) exhausted
  let right ← Checked.orRaise (candidate.aggregate? d.metricId) exhausted
  let leftCoverage ← coverage baseline d.metricId
  let rightCoverage ← coverage candidate d.metricId
  let same := sameSet leftCoverage rightCoverage
  let status := aggregateStatus d baseline candidate sameUniverse left right same
  let difference ← deltaIf status.1 (left.value.map .ratio) (right.value.map .ratio)
  pure ⟨d.metricId, d.metricVersion, left, right, same, status.1, difference, status.2⟩

/-- The status of two metrics of a case. -/
def caseStatus (d : MetricDefinition) (baseline candidate : NativeReport) :
    Option CaseMetricResult → Option CaseMetricResult → ComparisonStatus × Option String
  | some left, some right =>
    if left.metricVersion ≠ right.metricVersion ∨ metricCompatible d baseline candidate = false then
      (.incompatible, some "metric_or_judge_definition_changed")
    else statusOf left.status right.status
  | _, _ => (.unpaired, some "case_missing_from_one_report")

/-- One round of the inner loop over a case. -/
def compareCaseMetric (baseline candidate : NativeReport) (left right : Option NativeCaseResult) (d : MetricDefinition) :
    Except PyError CaseMetricComparison := do
  let leftMetric := left.bind (·.metric? d.metricId)
  let rightMetric := right.bind (·.metric? d.metricId)
  let status := caseStatus d baseline candidate leftMetric rightMetric
  let difference ← deltaIf status.1 (leftMetric.bind (·.value)) (rightMetric.bind (·.value))
  pure ⟨d.metricId, d.metricVersion, leftMetric, rightMetric, status.1, difference, status.2⟩

def pairingOf (left right : Option NativeCaseResult) : Pairing :=
  if left.isSome && right.isSome then .paired else if left.isSome then .baselineOnly else .candidateOnly

/-- One round of the loop over the case IDs. -/
def compareCase (baseline candidate : NativeReport) (definitions : List MetricDefinition) (id : String) :
    Except PyError CaseComparison := do
  let left := baseline.case? id
  let right := candidate.case? id
  let metrics ← Checked.collect (compareCaseMetric baseline candidate left right) definitions
  pure ⟨id, pairingOf left right, left.bind (·.contextSha256), right.bind (·.contextSha256), metrics⟩

def NativeReport.caseIds (r : NativeReport) : List String :=
  r.cases.map (·.caseId)

/-- `sorted(set(texts))`. -/
def sortedSet (texts : List String) : List String :=
  texts.dedup.insertionSort (· ≤ ·)

/-- The reasons that speak against a complete comparison. -/
def eligibilityReasons (baseline candidate : NativeReport) (rows : List MetricComparison) : List String :=
  sortedSet (rows.filterMap (·.reasonCode) ++
    if baseline.status ≠ .complete ∨ candidate.status ≠ .complete then ["incomplete_report"] else [])

/-- The comparison of two valid reports. -/
def compareValid (baseline candidate : NativeReport) (definitions : List MetricDefinition) :
    Except PyError NativeComparison := do
  let left := baseline.binding
  let right := candidate.binding
  Checked.require ((equal left.datasetId right.datasetId && equal left.datasetVersion right.datasetVersion &&
      equal left.datasetRevision right.datasetRevision) = true)
    ⟨.incompatibleNativeReports, "dataset identity or revision differs"⟩
  Checked.require (equal left.contextBinding right.contextBinding = true)
    ⟨.incompatibleNativeReports, "rendered-context binding differs"⟩
  let sameUniverse := sameSet baseline.caseIds candidate.caseIds
  let rows ← Checked.collect (compareAggregate baseline candidate sameUniverse) definitions
  let cases ← Checked.collect (compareCase baseline candidate definitions)
    (sortedSet (baseline.caseIds ++ candidate.caseIds))
  let reasons := eligibilityReasons baseline candidate rows
  pure ⟨baseline, candidate, sameUniverse, reasons.isEmpty, reasons, rows, cases⟩

/-- `compare_native_reports`. -/
def compareNativeReports (baseline candidate : NativeReport) (metricIds : Option (List String)) :
    Except PyError NativeComparison := do
  let baseline ← validated m baseline
  let candidate ← validated m candidate
  let definitions ← definitionsOf metricIds
  compareValid baseline candidate definitions

/-! ## Groups -/

/-- What is hashed of a report for a metric. -/
def bindingPayload (r : NativeReport) (id : String) (version : Nat) (computed : List String) : Json :=
  let judged (value : Json) : Json := if judgeMetrics.elem id then value else .null
  .obj [("case_ids", .arr (r.caseIds.map .str)), ("computed_case_ids", .arr (computed.map .str)),
    ("context_binding", r.binding.contextBinding), ("dataset_id", r.binding.datasetId),
    ("dataset_revision", r.binding.datasetRevision), ("dataset_version", r.binding.datasetVersion),
    ("judge_model_id", judged r.binding.judgeModelId), ("judge_prompt_sha256", judged r.binding.judgePromptSha256),
    ("metric_id", .str id), ("metric_version", .int version)]

/-- The text that is hashed of a report for a metric. -/
def bindingText (report : NativeReport) (id : String) : Except PyError String := do
  let report ← validated m report
  let definitions ← definitionsOf (some [id])
  let d ← Checked.orRaise definitions.head? exhausted
  let computed ← coverage report id
  Checked.orRaise (canonicalJsonText (bindingPayload report d.metricId d.metricVersion computed)) outOfRange

/-- `metric_binding_group`. -/
def metricBindingGroup (report : NativeReport) (id : String) : Except PyError String := do
  let text ← bindingText m report id
  pure ("sha256:" ++ m.sha256 text)

structure PublishedNativeReport where
  report : NativeReport
  /-- `published_at.isoformat()`. -/
  publishedAt : String

structure TrendPoint where
  runId : String
  reportDigest : String
  publishedAt : String
  reportStatus : Completeness
  aggregate : AggregateMetricResult
  generatorModelId : Json
  generationBinding : Json
  retrievalBinding : Json
  judgeBinding : Json

structure TrendGroup where
  bindingGroup : String
  metricId : String
  metricVersion : Nat
  points : List TrendPoint

/-- One round of the loop over the publications. -/
def trendPoint (id : String) (published : PublishedNativeReport) : Except PyError (String × TrendPoint) := do
  let report ← validated m published.report
  let group ← metricBindingGroup m report id
  let aggregate ← Checked.orRaise (report.aggregate? id) exhausted
  pure (group, ⟨report.runId, report.digest, published.publishedAt, report.status, aggregate,
    report.binding.generatorModelId, report.binding.generationBinding, report.binding.retrievalBinding,
    report.binding.judgeBinding⟩)

/-- `(item.published_at, item.run_id, item.report_digest)` in lexicographic order. -/
def TrendPoint.before (a b : TrendPoint) : Prop :=
  a.publishedAt < b.publishedAt ∨ a.publishedAt = b.publishedAt ∧
    (a.runId < b.runId ∨ a.runId = b.runId ∧ a.reportDigest ≤ b.reportDigest)

instance : DecidableRel TrendPoint.before :=
  fun _ _ => inferInstanceAs (Decidable (_ ∨ _ ∧ (_ ∨ _ ∧ _)))

/-- `native_trends`. -/
def nativeTrends (publications : List PublishedNativeReport) (id : String) : Except PyError (List TrendGroup) := do
  let definitions ← definitionsOf (some [id])
  let rows ← Checked.collect (trendPoint m id) publications
  let d ← Checked.orRaise definitions.head? exhausted
  pure ((sortedSet (rows.map Prod.fst)).map fun group =>
    ⟨group, id, d.metricVersion, ((rows.filter (·.1 = group)).map Prod.snd).insertionSort TrendPoint.before⟩)

end Analysis

/-! ## Accepted reports are valid -/

/-- **An accepted report is read back from its own text**, where the text still fits the bound. -/
theorem Sound.validated_eq_ok {r r' : NativeReport} (sound : Sound m r) : validated m r = .ok r' ↔
    (∃ text, canonicalReport r = some text ∧ utf8Length text ≤ maxReportBytes) ∧ r' = r := by
  have payload : parsePayload m (r.payload true) = .ok r := by
    have read := parsePayload_payload sound.named sound.valid sound.few sound.fits sound.ascending
      (reportDigest_finite sound.digested) sound.digested
    rwa [← sound.computed] at read
  have decoded : ∀ {text}, canonicalReport r = some text → utf8Length text ≤ maxReportBytes →
      decodeRaw (.text text) = .ok (r.payload true) := by
    intro text written small
    simp only [decodeRaw, Checked.bind_eq_ok, Checked.require_eq_ok, Checked.orRaise_eq_ok]
    exact ⟨(), small, loadsUnique_canonical (payload_orderly sound.valid true) written⟩
  simp only [validated, Checked.bind_eq_ok, Checked.orRaise_eq_ok, parseNativeReport, reraise_eq_ok, translate_eq_ok]
  constructor
  · rintro ⟨text, written, given, read, parsed⟩
    have small : utf8Length text ≤ maxReportBytes := by
      simp only [decodeRaw, Checked.bind_eq_ok, Checked.require_eq_ok] at read
      exact read.choose_spec.1
    rw [decoded written small] at read
    cases read
    rw [payload] at parsed
    cases parsed
    exact ⟨⟨text, written, small⟩, rfl⟩
  · rintro ⟨⟨text, written, small⟩, rfl⟩
    exact ⟨text, written, _, decoded written small, payload⟩

/-! ## Looking metrics up -/

theorem definitions_distinct : (metricDefinitions.map (·.metricId)).Nodup := by
  decide

theorem definitions_versions : ∀ d ∈ metricDefinitions, d.metricVersion = 1 := by
  intro d mem
  exact (definitions_plain d mem).1

/-- Among results in the places of definitions with distinct IDs, each is found by its ID. -/
theorem find_placed {α : Type} {place : α → String} {ds : List MetricDefinition} {rs : List α} {P : MetricDefinition → α → Prop}
    (named : ∀ d r, P d r → place r = d.metricId) (h : List.Forall₂ P ds rs) (distinct : (ds.map (·.metricId)).Nodup)
    {d : MetricDefinition} (mem : d ∈ ds) : ∃ r, rs.find? (place · = d.metricId) = some r ∧ P d r := by
  induction h with
  | nil => cases mem
  | @cons head r ds rs one _ ih =>
    rw [List.map_cons, List.nodup_cons] at distinct
    rcases List.mem_cons.1 mem with rfl | mem
    · refine ⟨r, ?_, one⟩
      rw [List.find?_cons, decide_eq_true (named d r one)]
    · have other : place r ≠ d.metricId := by
        rw [named head r one]
        intro same
        apply distinct.1
        rw [same]
        exact List.mem_map_of_mem mem
      obtain ⟨found, here, fits⟩ := ih distinct.2 mem
      refine ⟨found, ?_, fits⟩
      rw [List.find?_cons, decide_eq_false other]
      exact here

theorem Allowed.named {d : MetricDefinition} {r : CaseMetricResult} (h : Allowed d r) :
    r.metricId = d.metricId ∧ r.metricVersion = d.metricVersion ∧ (r.status = .computed → r.value.isSome = true) := by
  cases h with
  | computed _ => exact ⟨rfl, rfl, fun _ => rfl⟩
  | missing bare _ _ => exact ⟨rfl, rfl, fun done => absurd done bare⟩

theorem CaseFits.metric {c : NativeCaseResult} (fits : CaseFits binding c) {d : MetricDefinition} (mem : d ∈ metricDefinitions) :
    ∃ r, c.metric? d.metricId = some r ∧ Allowed d r :=
  find_placed (fun _ _ allowed => allowed.named.1) fits.metrics definitions_distinct mem

theorem Sound.aggregate {r : NativeReport} (sound : Sound m r) {d : MetricDefinition} (mem : d ∈ metricDefinitions) :
    r.aggregate? d.metricId = some (aggregateOne m r.cases d) := by
  have placed : List.Forall₂ (fun d a => a = aggregateOne m r.cases d) metricDefinitions (Native.aggregate m r.cases) := by
    rw [Native.aggregate, List.forall₂_map_right_iff, List.forall₂_same]
    exact fun _ _ => rfl
  have named : ∀ d a, a = aggregateOne m r.cases d → a.metricId = d.metricId := by
    rintro d a rfl
    rfl
  obtain ⟨a, found, rfl⟩ := find_placed named placed definitions_distinct mem
  have same : r.aggregates = Native.aggregate m r.cases := by
    rw [sound.computed]
    rfl
  rw [NativeReport.aggregate?, same]
  exact found

theorem aggregateOne_value {cases : List NativeCaseResult} {d : MetricDefinition}
    (done : (aggregateOne m cases d).status = .computed) : (aggregateOne m cases d).value.isSome = true := by
  simp only [aggregateOne] at done ⊢
  split at done
  · next some_ =>
    rw [if_pos some_]
    rfl
  · split at done <;> cases done

/-- Whether a metric of a case is computed. -/
def NativeCaseResult.computes (c : NativeCaseResult) (id : String) : Bool :=
  (c.metric? id).any (·.status = .computed)

def NativeReport.computedIds (r : NativeReport) (id : String) : List String :=
  (r.cases.filter (·.computes id)).map (·.caseId)

theorem Sound.coverage {r : NativeReport} (sound : Sound m r) {d : MetricDefinition} (mem : d ∈ metricDefinitions) :
    Native.coverage r d.metricId = .ok (r.computedIds d.metricId) := by
  have each : Checked.collect (computedCase d.metricId) r.cases =
      .ok (r.cases.map fun c => if c.computes d.metricId then some c.caseId else none) := by
    rw [Checked.collect_eq_ok, List.forall₂_map_right_iff, List.forall₂_same]
    intro c known
    obtain ⟨metric, found, -⟩ := (sound.fits c known).metric mem
    by_cases done : metric.status = .computed
    · simp [computedCase, NativeCaseResult.computes, found, done]
    · simp [computedCase, NativeCaseResult.computes, found, done]
  rw [Native.coverage, each]
  show Except.ok _ = _
  congr 1
  rw [List.filterMap_map, NativeReport.computedIds]
  induction r.cases with
  | nil => rfl
  | cons c cs ih =>
    rw [List.filterMap_cons, List.filter_cons]
    cases done : c.computes d.metricId with
    | false => simpa [done] using ih
    | true => simpa [done] using ih

/-! ## Bindings and sets -/

/-- A text or null. -/
def Textual (j : Json) : Prop :=
  j = .null ∨ ∃ text, j = .str text

theorem Textual.equal_iff {a b : Json} (left : Textual a) (right : Textual b) : equal a b = true ↔ a = b := by
  rcases left with rfl | ⟨s, rfl⟩ <;> rcases right with rfl | ⟨t, rfl⟩ <;> simp [equal, equalScalars, integer?]

theorem Textual.orderly {a : Json} (h : Textual a) : a.orderly = true := by
  rcases h with rfl | ⟨s, rfl⟩ <;> rfl

theorem fingerprint_textual {label text : String} {value : Json} (h : fingerprint label value = .ok text) : Textual value := by
  cases value with
  | str given => exact .inr ⟨given, rfl⟩
  | null | bool _ | int _ | float _ | arr _ | obj _ => simp [fingerprint] at h

/-- What a comparison reads of a binding. -/
structure Comparable (b : NativeReportBinding) : Prop where
  datasetId : Textual b.datasetId
  datasetVersion : Textual b.datasetVersion
  datasetRevision : Textual b.datasetRevision
  contextBinding : Textual b.contextBinding
  judgeModelId : Textual b.judgeModelId
  judgePromptSha256 : Textual b.judgePromptSha256

theorem validateBinding_comparable {b : NativeReportBinding} (h : validateBinding b = .ok ()) : Comparable b := by
  simp only [validateBinding, Checked.bind_eq_ok, Checked.require_eq_ok, Checked.each_eq_ok, Checked.pure_eq_ok] at h
  obtain ⟨_, -, _, ⟨dataset, version⟩, _, revision, _, -, _, each, _, ⟨paired, -⟩, judge⟩ := h
  obtain ⟨_, context, -⟩ := each ("context_binding", b.contextBinding) (by simp)
  have judging : Textual b.judgeModelId ∧ Textual b.judgePromptSha256 := by
    split at judge
    · next none_ => exact ⟨.inl none_, .inl (paired.1 none_)⟩
    · simp only [Checked.bind_eq_ok] at judge
      obtain ⟨_, model, _, prompt, -⟩ := judge
      exact ⟨.inr ⟨_, safeIdentifier_text model⟩, fingerprint_textual prompt⟩
  exact ⟨.inr ⟨_, dataset⟩, .inr ⟨_, version⟩, fingerprint_textual revision, fingerprint_textual context, judging.1,
    judging.2⟩

theorem sameSet_iff {xs ys : List String} : sameSet xs ys = true ↔ ∀ x, x ∈ xs ↔ x ∈ ys := by
  simp only [sameSet, Bool.and_eq_true, List.all_eq_true, List.elem_eq_mem, decide_eq_true_eq]
  exact ⟨fun both x => ⟨both.1 x, both.2 x⟩, fun same => ⟨fun x => (same x).1, fun x => (same x).2⟩⟩

theorem sameSet_comm (xs ys : List String) : sameSet xs ys = sameSet ys xs := by
  rw [sameSet, sameSet, Bool.and_comm]

/-- Two ascending lists of the same texts are one. -/
theorem sameSet_ascending {xs ys : List String} (left : xs.Pairwise (· < ·)) (right : ys.Pairwise (· < ·)) :
    sameSet xs ys = true ↔ xs = ys := by
  rw [sameSet_iff]
  constructor
  · intro same
    have perm : xs.Perm ys := (List.perm_ext_iff_of_nodup (left.imp ne_of_lt) (right.imp ne_of_lt)).2 same
    exact perm.eq_of_pairwise (fun a b _ _ below above => absurd above (lt_asymm below)) left right
  · rintro rfl
    exact fun _ => Iff.rfl

theorem Sound.caseIds_ascending {r : NativeReport} (sound : Sound m r) : r.caseIds.Pairwise (· < ·) :=
  List.pairwise_map.2 sound.ascending

theorem Sound.computedIds_ascending {r : NativeReport} (sound : Sound m r) (id : String) :
    (r.computedIds id).Pairwise (· < ·) :=
  List.pairwise_map.2 (sound.ascending.filter _)

/-! ## Rows -/

theorem statusOf_comm (s t : Status) : statusOf s t = statusOf t s := by
  cases s <;> cases t <;> rfl

theorem statusOf_comparable {s t : Status} : (statusOf s t).1 = .comparable ↔ s = .computed ∧ t = .computed := by
  cases s <;> cases t <;> simp [statusOf]

theorem metricCompatible_comm {b c : NativeReport} (left : Comparable b.binding) (right : Comparable c.binding)
    (d : MetricDefinition) : metricCompatible d b c = metricCompatible d c b := by
  have model : equal b.binding.judgeModelId c.binding.judgeModelId = equal c.binding.judgeModelId b.binding.judgeModelId := by
    rw [Bool.eq_iff_iff, left.judgeModelId.equal_iff right.judgeModelId, right.judgeModelId.equal_iff left.judgeModelId]
    exact eq_comm
  have prompt : equal b.binding.judgePromptSha256 c.binding.judgePromptSha256 =
      equal c.binding.judgePromptSha256 b.binding.judgePromptSha256 := by
    rw [Bool.eq_iff_iff, left.judgePromptSha256.equal_iff right.judgePromptSha256,
      right.judgePromptSha256.equal_iff left.judgePromptSha256]
    exact eq_comm
  rw [metricCompatible, metricCompatible, model, prompt]

theorem aggregateStatus_comm {b c : NativeReport} (left : Comparable b.binding) (right : Comparable c.binding)
    (d : MetricDefinition) (u same : Bool) (x y : AggregateMetricResult) :
    aggregateStatus d b c u x y same = aggregateStatus d c b u y x same := by
  have swapped : (x.metricVersion ≠ y.metricVersion) = (y.metricVersion ≠ x.metricVersion) := propext ne_comm
  rw [aggregateStatus, aggregateStatus, metricCompatible_comm left right, statusOf_comm x.status]
  simp only [swapped]

theorem aggregateStatus_comparable {d : MetricDefinition} {b c : NativeReport} {u same : Bool} {x y : AggregateMetricResult} :
    (aggregateStatus d b c u x y same).1 = .comparable ↔ x.metricVersion = y.metricVersion ∧ metricCompatible d b c = true ∧
      u = true ∧ (x.status = .computed ∧ y.status = .computed) ∧ same = true := by
  rw [aggregateStatus]
  split
  · next changed =>
    refine ⟨ComparisonStatus.noConfusion, ?_⟩
    rintro ⟨version, compatible, -⟩
    rcases changed with other | other
    · exact absurd version other
    · rw [compatible] at other
      cases other
  · next unchanged =>
    rw [not_or, not_not, Bool.not_eq_false] at unchanged
    split
    · next differ =>
      refine ⟨ComparisonStatus.noConfusion, ?_⟩
      rintro ⟨-, -, here, -⟩
      rw [differ] at here
      cases here
    · next whole =>
      rw [Bool.not_eq_false] at whole
      split
      · next partial_ =>
        refine ⟨ComparisonStatus.noConfusion, ?_⟩
        rintro ⟨-, -, -, -, here⟩
        rw [partial_.2] at here
        cases here
      · next covered =>
        rw [statusOf_comparable] at covered ⊢
        constructor
        · intro done
          refine ⟨unchanged.1, unchanged.2, whole, done, ?_⟩
          cases same with
          | true => rfl
          | false => exact absurd ⟨done, rfl⟩ covered
        · exact fun h => h.2.2.2.1

theorem deltaIf_comm {s : ComparisonStatus} {x y : Option MetricValue} {difference : Option ℚ}
    (h : deltaIf s x y = .ok difference) : deltaIf s y x = .ok (difference.map fun q => -q) := by
  rw [deltaIf] at h ⊢
  split
  · next comparable =>
    rw [if_pos comparable] at h
    simp only [Checked.bind_eq_ok, Checked.pure_eq_ok] at h
    obtain ⟨q, here, rfl⟩ := h
    rcases x with _ | x
    · cases here
    rcases y with _ | y
    · cases here
    cases here
    show Except.ok _ = Except.ok _
    rw [Option.map_some, neg_sub]
  · next other =>
    rw [if_neg other] at h
    cases h
    rfl

theorem deltaIf_exists {s : ComparisonStatus} {x y : Option MetricValue}
    (h : s = .comparable → x.isSome = true ∧ y.isSome = true) : ∃ difference, deltaIf s x y = .ok difference := by
  rw [deltaIf]
  split
  · next comparable =>
    obtain ⟨left, right⟩ := h comparable
    obtain ⟨x, rfl⟩ := Option.isSome_iff_exists.1 left
    obtain ⟨y, rfl⟩ := Option.isSome_iff_exists.1 right
    exact ⟨_, rfl⟩
  · exact ⟨_, rfl⟩

/-! ## Exchanging the reports -/

def MetricComparison.exchanged (r : MetricComparison) : MetricComparison :=
  { r with baseline := r.candidate, candidate := r.baseline, candidateMinusBaseline := r.candidateMinusBaseline.map fun q => -q }

def CaseMetricComparison.exchanged (r : CaseMetricComparison) : CaseMetricComparison :=
  { r with baseline := r.candidate, candidate := r.baseline, candidateMinusBaseline := r.candidateMinusBaseline.map fun q => -q }

def Pairing.exchanged : Pairing → Pairing
  | .paired => .paired
  | .baselineOnly => .candidateOnly
  | .candidateOnly => .baselineOnly

def CaseComparison.exchanged (c : CaseComparison) : CaseComparison where
  caseId := c.caseId
  pairing := c.pairing.exchanged
  baselineContextSha256 := c.candidateContextSha256
  candidateContextSha256 := c.baselineContextSha256
  metrics := c.metrics.map CaseMetricComparison.exchanged

/-- The comparison with its two sides exchanged: statuses, reasons and IDs stay, differences are negated. -/
def NativeComparison.exchanged (c : NativeComparison) : NativeComparison :=
  { c with
    baseline := c.candidate
    candidate := c.baseline
    metrics := c.metrics.map MetricComparison.exchanged
    cases := c.cases.map CaseComparison.exchanged }

theorem case_known {r : NativeReport} {id : String} (mem : id ∈ r.caseIds) : (r.case? id).isSome = true := by
  obtain ⟨case_, here, rfl⟩ := List.mem_map.1 mem
  rw [NativeReport.case?, List.find?_isSome]
  exact ⟨case_, here, decide_eq_true rfl⟩

section Exchange

variable {b c : NativeReport} (left : Comparable b.binding) (right : Comparable c.binding)

include left right

theorem compareAggregate_exchanged {u : Bool} {d : MetricDefinition} {row : MetricComparison}
    (h : compareAggregate b c u d = .ok row) : compareAggregate c b u d = .ok row.exchanged := by
  simp only [compareAggregate, Checked.bind_eq_ok, Checked.pure_eq_ok, Checked.orRaise_eq_ok] at h ⊢
  obtain ⟨x, foundX, y, foundY, cb, coveredX, cc, coveredY, difference, measured, rfl⟩ := h
  refine ⟨y, foundY, x, foundX, cc, coveredY, cb, coveredX, difference.map fun q => -q, ?_, ?_⟩
  · rw [sameSet_comm cc cb, aggregateStatus_comm right left]
    exact deltaIf_comm measured
  · rw [sameSet_comm cc cb, aggregateStatus_comm right left]
    rfl

theorem caseStatus_comm (d : MetricDefinition) (x y : Option CaseMetricResult) :
    caseStatus d b c x y = caseStatus d c b y x := by
  rcases x with _ | x <;> rcases y with _ | y
  · rfl
  · rfl
  · rfl
  · have swapped : (x.metricVersion ≠ y.metricVersion) = (y.metricVersion ≠ x.metricVersion) := propext ne_comm
    rw [caseStatus, caseStatus, metricCompatible_comm left right, statusOf_comm x.status]
    simp only [swapped]

theorem compareCaseMetric_exchanged {x y : Option NativeCaseResult} {d : MetricDefinition} {row : CaseMetricComparison}
    (h : compareCaseMetric b c x y d = .ok row) : compareCaseMetric c b y x d = .ok row.exchanged := by
  simp only [compareCaseMetric, Checked.bind_eq_ok, Checked.pure_eq_ok] at h ⊢
  obtain ⟨difference, measured, rfl⟩ := h
  rw [caseStatus_comm right left]
  exact ⟨difference.map fun q => -q, deltaIf_comm measured, rfl⟩

theorem compareCase_exchanged {ds : List MetricDefinition} {id : String} {row : CaseComparison}
    (known : (b.case? id).isSome = true ∨ (c.case? id).isSome = true) (h : compareCase b c ds id = .ok row) : compareCase c b ds id = .ok row.exchanged := by
  simp only [compareCase, Checked.bind_eq_ok, Checked.pure_eq_ok] at h ⊢
  obtain ⟨metrics, measured, rfl⟩ := h
  refine ⟨metrics.map CaseMetricComparison.exchanged, Checked.collect_map measured fun d _ row =>
    compareCaseMetric_exchanged left right, ?_⟩
  have pairing : pairingOf (c.case? id) (b.case? id) = (pairingOf (b.case? id) (c.case? id)).exchanged := by
    cases given : b.case? id with
    | none =>
      cases given' : c.case? id with
      | none =>
        rw [given, given'] at known
        rcases known with absent | absent <;> cases absent
      | some other => rfl
    | some one => cases c.case? id <;> rfl
  rw [pairing]
  rfl

theorem dataset_comm : (equal c.binding.datasetId b.binding.datasetId && equal c.binding.datasetVersion b.binding.datasetVersion &&
      equal c.binding.datasetRevision b.binding.datasetRevision) =
    (equal b.binding.datasetId c.binding.datasetId && equal b.binding.datasetVersion c.binding.datasetVersion &&
      equal b.binding.datasetRevision c.binding.datasetRevision) := by
  rw [Bool.eq_iff_iff]
  simp only [Bool.and_eq_true, left.datasetId.equal_iff right.datasetId, left.datasetVersion.equal_iff right.datasetVersion,
    left.datasetRevision.equal_iff right.datasetRevision, right.datasetId.equal_iff left.datasetId,
    right.datasetVersion.equal_iff left.datasetVersion, right.datasetRevision.equal_iff left.datasetRevision]
  rw [eq_comm, eq_comm (a := b.binding.datasetVersion), eq_comm (a := b.binding.datasetRevision)]

theorem compareValid_exchanged {ds : List MetricDefinition} {comparison : NativeComparison}
    (h : compareValid b c ds = .ok comparison) : compareValid c b ds = .ok comparison.exchanged := by
  simp only [compareValid, Checked.bind_eq_ok, Checked.require_eq_ok, Checked.pure_eq_ok] at h ⊢
  obtain ⟨_, dataset, _, context, rows, compared, cases_, paired, rfl⟩ := h
  refine ⟨(), (dataset_comm left right).trans dataset, (), ?_, rows.map MetricComparison.exchanged, ?_,
    cases_.map CaseComparison.exchanged, ?_, ?_⟩
  · rw [left.contextBinding.equal_iff right.contextBinding] at context
    exact (right.contextBinding.equal_iff left.contextBinding).2 context.symm
  · rw [sameSet_comm]
    exact Checked.collect_map compared fun d _ row => compareAggregate_exchanged left right
  · have ids : sortedSet (c.caseIds ++ b.caseIds) = sortedSet (b.caseIds ++ c.caseIds) := by
      have perm : (c.caseIds ++ b.caseIds).dedup.Perm (b.caseIds ++ c.caseIds).dedup := List.perm_append_comm.dedup
      have distinct : ((c.caseIds ++ b.caseIds).dedup.map id).Nodup := by
        rw [List.map_id]
        exact List.nodup_dedup _
      exact Ranking.ascending_perm distinct perm
    rw [ids]
    refine Checked.collect_map paired fun id mem row => compareCase_exchanged left right ?_
    rw [sortedSet, (List.perm_insertionSort _ _).mem_iff, List.mem_dedup, List.mem_append] at mem
    exact mem.imp case_known case_known
  · have reasons : eligibilityReasons c b (rows.map MetricComparison.exchanged) = eligibilityReasons b c rows := by
      have codes : (rows.map MetricComparison.exchanged).filterMap (·.reasonCode) = rows.filterMap (·.reasonCode) := by
        rw [List.filterMap_map]
        rfl
      have statuses : (c.status ≠ .complete ∨ b.status ≠ .complete) = (b.status ≠ .complete ∨ c.status ≠ .complete) :=
        propext or_comm
      rw [eligibilityReasons, eligibilityReasons, codes]
      simp only [statuses]
    rw [reasons, sameSet_comm]
    rfl

end Exchange

/-- **Exchanging the reports** raises in the same cases and otherwise exchanges the comparison. -/
theorem compareNativeReports_exchanged {b c : NativeReport} (left : Sound m b) (right : Sound m c) (ids : Option (List String)) :
    (compareNativeReports m c b ids).toOption = (compareNativeReports m b c ids).toOption.map NativeComparison.exchanged := by
  have once : ∀ {b c : NativeReport}, Sound m b → Sound m c → ∀ {comparison}, compareNativeReports m b c ids = .ok comparison →
      compareNativeReports m c b ids = .ok comparison.exchanged := by
    intro b c left right comparison h
    simp only [compareNativeReports, Checked.bind_eq_ok] at h ⊢
    obtain ⟨b', validB, c', validC, ds, selected, compared⟩ := h
    obtain ⟨-, rfl⟩ := left.validated_eq_ok.1 validB
    obtain ⟨-, rfl⟩ := right.validated_eq_ok.1 validC
    exact ⟨_, validC, _, validB, ds, selected,
      compareValid_exchanged (validateBinding_comparable left.valid) (validateBinding_comparable right.valid) compared⟩
  cases compared : compareNativeReports m b c ids with
  | ok comparison =>
    rw [once left right compared]
    rfl
  | error e =>
    cases exchanged : compareNativeReports m c b ids with
    | ok comparison =>
      have back := once right left exchanged
      rw [compared] at back
      cases back
    | error e' => rfl

/-! ## Comparable aggregates -/

section Rows

variable {b c : NativeReport} (left : Sound m b) (right : Sound m c)

include left right

/-- The row of a definition, and when its aggregates are comparable. -/
theorem compareAggregate_sound (u : Bool) {d : MetricDefinition} (mem : d ∈ metricDefinitions) :
    ∃ row, compareAggregate b c u d = .ok row ∧ row.metricId = d.metricId ∧
      (row.status = .comparable ↔ metricCompatible d b c = true ∧ u = true ∧
        ((aggregateOne m b.cases d).status = .computed ∧ (aggregateOne m c.cases d).status = .computed) ∧
        b.computedIds d.metricId = c.computedIds d.metricId) := by
  have spec : (aggregateStatus d b c u (aggregateOne m b.cases d) (aggregateOne m c.cases d)
      (sameSet (b.computedIds d.metricId) (c.computedIds d.metricId))).1 = .comparable ↔ metricCompatible d b c = true ∧ u = true ∧
        ((aggregateOne m b.cases d).status = .computed ∧ (aggregateOne m c.cases d).status = .computed) ∧
        b.computedIds d.metricId = c.computedIds d.metricId := by
    rw [aggregateStatus_comparable, sameSet_ascending (left.computedIds_ascending _) (right.computedIds_ascending _)]
    exact and_iff_right rfl
  obtain ⟨difference, measured⟩ := deltaIf_exists (x := (aggregateOne m b.cases d).value.map .ratio)
    (y := (aggregateOne m c.cases d).value.map .ratio) (s := (aggregateStatus d b c u (aggregateOne m b.cases d)
      (aggregateOne m c.cases d) (sameSet (b.computedIds d.metricId) (c.computedIds d.metricId))).1) (by
    intro comparable
    obtain ⟨-, -, done, -⟩ := spec.1 comparable
    rw [Option.isSome_map, Option.isSome_map]
    exact ⟨aggregateOne_value done.1, aggregateOne_value done.2⟩)
  have row : ∃ row, compareAggregate b c u d = .ok row ∧ row.metricId = d.metricId ∧
      row.status = (aggregateStatus d b c u (aggregateOne m b.cases d) (aggregateOne m c.cases d)
        (sameSet (b.computedIds d.metricId) (c.computedIds d.metricId))).1 := by
    simp only [compareAggregate, Checked.bind_eq_ok, Checked.orRaise_eq_ok, Checked.pure_eq_ok]
    exact ⟨_, ⟨_, left.aggregate mem, _, right.aggregate mem, _, left.coverage mem, _, right.coverage mem, _, measured, rfl⟩,
      rfl, rfl⟩
  obtain ⟨row, compared, named, status⟩ := row
  refine ⟨row, compared, named, ?_⟩
  rw [status]
  exact spec

theorem compareCase_sound {ds : List MetricDefinition} (known : ∀ d ∈ ds, d ∈ metricDefinitions) (id : String) :
    ∃ row, compareCase b c ds id = .ok row := by
  have each : ∀ d ∈ ds, ∃ row, compareCaseMetric b c (b.case? id) (c.case? id) d = .ok row := by
    intro d mem
    have valued : ∀ {r : NativeReport}, Sound m r → ∀ metric, (r.case? id).bind (·.metric? d.metricId) = some metric →
        metric.status = .computed → metric.value.isSome = true := by
      intro r sound metric found done
      obtain ⟨case_, here, found⟩ := Option.bind_eq_some_iff.1 found
      obtain ⟨metric', found', allowed⟩ := (sound.fits case_ (List.mem_of_find?_eq_some here)).metric (known d mem)
      rw [found] at found'
      cases found'
      exact allowed.named.2.2 done
    obtain ⟨difference, measured⟩ := deltaIf_exists (x := ((b.case? id).bind (·.metric? d.metricId)).bind (·.value))
      (y := ((c.case? id).bind (·.metric? d.metricId)).bind (·.value))
      (s := (caseStatus d b c ((b.case? id).bind (·.metric? d.metricId)) ((c.case? id).bind (·.metric? d.metricId))).1) (by
      intro comparable
      cases x : (b.case? id).bind (·.metric? d.metricId) with
      | none =>
        rw [x] at comparable
        cases comparable
      | some one =>
        cases y : (c.case? id).bind (·.metric? d.metricId) with
        | none =>
          rw [x, y] at comparable
          cases comparable
        | some other =>
          rw [x, y, caseStatus] at comparable
          split at comparable
          · cases comparable
          · rw [statusOf_comparable] at comparable
            exact ⟨valued left one x comparable.1, valued right other y comparable.2⟩)
    exact ⟨_, Checked.bind_eq_ok.2 ⟨_, measured, rfl⟩⟩
  obtain ⟨metrics, measured⟩ := Checked.collect_exists each
  exact ⟨_, Checked.bind_eq_ok.2 ⟨metrics, measured, rfl⟩⟩

end Rows

theorem definitionsOf_sublist {ids : Option (List String)} {ds : List MetricDefinition} (h : definitionsOf ids = .ok ds) :
    ds.Sublist metricDefinitions := by
  cases ids with
  | none =>
    cases h
    exact List.Sublist.refl _
  | some ids =>
    simp only [definitionsOf, Checked.bind_eq_ok, Checked.pure_eq_ok] at h
    obtain ⟨_, -, _, -, rfl⟩ := h
    exact List.filter_sublist

/-- What is hashed of a valid report for a definition. -/
def NativeReport.bindingOf (r : NativeReport) (d : MetricDefinition) : Json :=
  bindingPayload r d.metricId d.metricVersion (r.computedIds d.metricId)

theorem texts_injective {xs ys : List String} : Json.arr (xs.map .str) = .arr (ys.map .str) ↔ xs = ys := by
  constructor
  · intro same
    exact (List.map_injective_iff.2 fun _ _ => Json.str.inj) (Json.arr.inj same)
  · rintro rfl
    rfl

section Payload

variable {b c : NativeReport} (left : Sound m b) (right : Sound m c)

include left right

/-- **The payloads of two reports agree where the reports may be compared.** -/
theorem bindingOf_eq_iff (d : MetricDefinition) : b.bindingOf d = c.bindingOf d ↔
    ((equal b.binding.datasetId c.binding.datasetId && equal b.binding.datasetVersion c.binding.datasetVersion &&
      equal b.binding.datasetRevision c.binding.datasetRevision) = true ∧
      equal b.binding.contextBinding c.binding.contextBinding = true) ∧
      metricCompatible d b c = true ∧ sameSet b.caseIds c.caseIds = true ∧
      b.computedIds d.metricId = c.computedIds d.metricId := by
  have one := validateBinding_comparable left.valid
  have other := validateBinding_comparable right.valid
  rw [sameSet_ascending left.caseIds_ascending right.caseIds_ascending]
  simp only [NativeReport.bindingOf, bindingPayload, metricCompatible, Json.obj.injEq, List.cons.injEq, Prod.mk.injEq,
    true_and, and_true, texts_injective, Bool.and_eq_true, Bool.or_eq_true, Bool.not_eq_true',
    one.datasetId.equal_iff other.datasetId, one.datasetVersion.equal_iff other.datasetVersion,
    one.datasetRevision.equal_iff other.datasetRevision, one.contextBinding.equal_iff other.contextBinding,
    one.judgeModelId.equal_iff other.judgeModelId, one.judgePromptSha256.equal_iff other.judgePromptSha256]
  cases judged : judgeMetrics.elem d.metricId with
  | false =>
    simp only [Bool.false_eq_true, if_false, true_or, true_and, and_true]
    tauto
  | true =>
    simp only [if_true, Bool.true_eq_false, false_or]
    tauto

/-- **When a metric is marked comparable**, of two reports that are valid as they are. -/
theorem compareValid_comparable {ids : Option (List String)} {ds : List MetricDefinition} (selected : definitionsOf ids = .ok ds)
    {d : MetricDefinition} (mem : d ∈ ds) :
    (∃ comparison, compareValid b c ds = .ok comparison ∧
      ∃ row ∈ comparison.metrics, row.metricId = d.metricId ∧ row.status = .comparable) ↔
      ((aggregateOne m b.cases d).status = .computed ∧ (aggregateOne m c.cases d).status = .computed) ∧
        b.bindingOf d = c.bindingOf d := by
  have sub := definitionsOf_sublist selected
  rw [bindingOf_eq_iff left right]
  constructor
  · rintro ⟨comparison, compared, row, listed, named, comparable⟩
    simp only [compareValid, Checked.bind_eq_ok, Checked.require_eq_ok, Checked.pure_eq_ok] at compared
    obtain ⟨_, dataset, _, context, rows, read, cases_, -, rfl⟩ := compared
    obtain ⟨d', mem', here⟩ := Checked.collect_source read listed
    obtain ⟨row', here', named', spec⟩ := compareAggregate_sound left right (sameSet b.caseIds c.caseIds) (sub.subset mem')
    rw [here] at here'
    cases here'
    have same : d' = d := List.inj_on_of_nodup_map definitions_distinct (sub.subset mem') (sub.subset mem) (named'.symm.trans named)
    subst same
    obtain ⟨compatible, whole, done, covered⟩ := spec.1 comparable
    exact ⟨done, ⟨dataset, context⟩, compatible, whole, covered⟩
  · rintro ⟨done, ⟨dataset, context⟩, compatible, whole, covered⟩
    obtain ⟨rows, read⟩ : ∃ rows, Checked.collect (compareAggregate b c (sameSet b.caseIds c.caseIds)) ds = .ok rows := by
      apply Checked.collect_exists
      intro d' mem'
      obtain ⟨row, here, -⟩ := compareAggregate_sound left right (sameSet b.caseIds c.caseIds) (sub.subset mem')
      exact ⟨row, here⟩
    obtain ⟨cases_, paired⟩ : ∃ cases_, Checked.collect (compareCase b c ds) (sortedSet (b.caseIds ++ c.caseIds)) = .ok cases_ :=
      Checked.collect_exists fun id _ => compareCase_sound left right (fun d' mem' => sub.subset mem') id
    obtain ⟨row, here, named, spec⟩ := compareAggregate_sound left right (sameSet b.caseIds c.caseIds) (sub.subset mem)
    obtain ⟨row', listed, here'⟩ := Checked.collect_mem read mem
    rw [here] at here'
    cases here'
    have compared : ∃ comparison, compareValid b c ds = .ok comparison ∧ comparison.metrics = rows := by
      simp only [compareValid, Checked.bind_eq_ok, Checked.require_eq_ok, Checked.pure_eq_ok]
      exact ⟨_, ⟨(), dataset, (), context, rows, read, cases_, paired, rfl⟩, rfl⟩
    obtain ⟨comparison, compared, rfl⟩ := compared
    exact ⟨comparison, compared, row, listed, named, spec.2 ⟨compatible, whole, done, covered⟩⟩

end Payload

/-! ## Groups -/

theorem definitionsOf_one {d : MetricDefinition} (mem : d ∈ metricDefinitions) : definitionsOf (some [d.metricId]) = .ok [d] := by
  have known : ∀ id ∈ [d.metricId], id ∈ metricDefinitions.map (·.metricId) := by
    intro id here
    rw [List.mem_singleton.1 here]
    exact List.mem_map_of_mem mem
  have only : metricDefinitions.filter (·.metricId ∈ [d.metricId]) = [d] := by
    have single : ∀ {ds : List MetricDefinition}, (ds.map (·.metricId)).Nodup → d ∈ ds →
        ds.filter (·.metricId ∈ [d.metricId]) = [d] := by
      intro ds distinct mem
      induction ds with
      | nil => cases mem
      | cons head ds ih =>
        rw [List.map_cons, List.nodup_cons] at distinct
        rcases List.mem_cons.1 mem with rfl | mem
        · have none_ : ds.filter (·.metricId ∈ [d.metricId]) = [] := by
            rw [List.filter_eq_nil_iff]
            intro other here same
            rw [decide_eq_true_eq, List.mem_singleton] at same
            apply distinct.1
            rw [← same]
            exact List.mem_map_of_mem here
          rw [List.filter_cons, if_pos (by simp), none_]
        · have other : head.metricId ∉ [d.metricId] := by
            intro same
            apply distinct.1
            rw [List.mem_singleton.1 same]
            exact List.mem_map_of_mem mem
          rw [List.filter_cons, if_neg (by simpa using other), ih distinct.2 mem]
    exact single definitions_distinct mem
  simp only [definitionsOf, Checked.bind_eq_ok, Checked.require_eq_ok, Checked.pure_eq_ok]
  exact ⟨(), ⟨List.cons_ne_nil _ _, List.nodup_singleton _⟩, (), known, only⟩

theorem Sound.bindingOf_orderly {r : NativeReport} (sound : Sound m r) (d : MetricDefinition) :
    (r.bindingOf d).orderly = true := by
  have bound := validateBinding_comparable sound.valid
  have texts : ∀ ids : List String, (Json.arr (ids.map .str)).orderly = true := by
    intro ids
    rw [Json.orderly_arr, List.forall_mem_map]
    exact fun _ _ => rfl
  have judged : ∀ {value : Json}, Textual value → (if judgeMetrics.elem d.metricId then value else .null).orderly = true := by
    intro value textual
    split
    · exact textual.orderly
    · rfl
  rw [NativeReport.bindingOf, bindingPayload, Json.orderly_obj]
  simp only [List.map_cons, List.map_nil]
  refine ⟨by decide, ?_⟩
  simp only [List.forall_mem_cons, texts, bound.contextBinding.orderly, bound.datasetId.orderly, bound.datasetRevision.orderly,
    bound.datasetVersion.orderly, judged bound.judgeModelId, judged bound.judgePromptSha256, true_and]
  exact ⟨rfl, rfl, fun _ mem => absurd mem List.not_mem_nil⟩

/-- The text of a valid report for a definition. -/
theorem Sound.bindingText_eq_ok {r : NativeReport} (sound : Sound m r) {d : MetricDefinition} (mem : d ∈ metricDefinitions)
    {text : String} : bindingText m r d.metricId = .ok text ↔
      validated m r = .ok r ∧ canonicalJsonText (r.bindingOf d) = some text := by
  simp only [bindingText, Checked.bind_eq_ok, Checked.orRaise_eq_ok, definitionsOf_one mem]
  constructor
  · rintro ⟨r', valid, ds, one, d', first, computed, covered, written⟩
    obtain ⟨-, rfl⟩ := sound.validated_eq_ok.1 valid
    cases one
    cases first
    rw [sound.coverage mem] at covered
    cases covered
    exact ⟨valid, written⟩
  · rintro ⟨valid, written⟩
    exact ⟨r, valid, [d], rfl, d, rfl, _, sound.coverage mem, written⟩

theorem Textual.written {a : Json} (h : Textual a) : a.finite = true ∧ printable a = true := by
  rcases h with rfl | ⟨s, rfl⟩ <;> exact ⟨rfl, rfl⟩

theorem Sound.bindingOf_written {r : NativeReport} (sound : Sound m r) {d : MetricDefinition} (mem : d ∈ metricDefinitions) :
    ∃ text, canonicalJsonText (r.bindingOf d) = some text := by
  have bound := validateBinding_comparable sound.valid
  have texts : ∀ ids : List String, (Json.arr (ids.map .str)).finite = true ∧ printable (.arr (ids.map .str)) = true := by
    intro ids
    rw [Json.finite_arr, printable, Json.all_arr, List.forall_mem_map, List.forall_mem_map]
    exact ⟨fun _ _ => rfl, rfl, fun _ _ => rfl⟩
  have judged : ∀ {value : Json}, Textual value →
      (if judgeMetrics.elem d.metricId then value else .null).finite = true ∧
        printable (if judgeMetrics.elem d.metricId then value else .null) = true := by
    intro value textual
    split
    · exact textual.written
    · exact ⟨rfl, rfl⟩
  have version : printable (.int d.metricVersion) = true := by
    rw [definitions_versions d mem]
    decide +kernel
  refine ⟨_, canonicalJsonText_exists ?_ ?_⟩
  · rw [NativeReport.bindingOf, bindingPayload, Json.finite_obj]
    simp only [List.forall_mem_cons, (texts _).1, bound.contextBinding.written.1, bound.datasetId.written.1,
      bound.datasetRevision.written.1, bound.datasetVersion.written.1, (judged bound.judgeModelId).1,
      (judged bound.judgePromptSha256).1, true_and]
    exact ⟨rfl, rfl, fun _ mem => absurd mem List.not_mem_nil⟩
  · have parts : ∀ {fields : List (String × Json)}, (∀ f ∈ fields, printable f.2 = true) → printable (.obj fields) = true := by
      intro fields each
      rw [printable, Json.all_obj]
      exact ⟨rfl, each⟩
    apply parts
    simp only [List.forall_mem_cons, (texts _).2, bound.contextBinding.written.2, bound.datasetId.written.2,
      bound.datasetRevision.written.2, bound.datasetVersion.written.2, (judged bound.judgeModelId).2,
      (judged bound.judgePromptSha256).2, version, true_and]
    exact ⟨rfl, fun _ mem => absurd mem List.not_mem_nil⟩

/-- No collision of the fingerprints of two reports for a metric. -/
def NoCollision (m : Machine) (b c : NativeReport) (id : String) : Prop :=
  ∀ s t, bindingText m b id = .ok s → bindingText m c id = .ok t → m.sha256 s = m.sha256 t → s = t

/-- `metric_binding_group` returns the same for both. -/
def SameGroup (m : Machine) (b c : NativeReport) (id : String) : Prop :=
  ∃ group, metricBindingGroup m b id = .ok group ∧ metricBindingGroup m c id = .ok group

theorem fingerprint_injective {s t : String} (h : "sha256:" ++ s = "sha256:" ++ t) : s = t :=
  String.append_right_inj _ |>.1 h

theorem sameGroup_iff {b c : NativeReport} (left : Sound m b) (right : Sound m c) {d : MetricDefinition}
    (mem : d ∈ metricDefinitions) (unique : NoCollision m b c d.metricId) : SameGroup m b c d.metricId ↔
      (validated m b = .ok b ∧ validated m c = .ok c) ∧ b.bindingOf d = c.bindingOf d := by
  simp only [SameGroup, metricBindingGroup, Checked.bind_eq_ok, Checked.pure_eq_ok]
  constructor
  · rintro ⟨group, ⟨s, textB, rfl⟩, t, textC, same⟩
    obtain rfl := unique s t textB textC (fingerprint_injective same).symm
    obtain ⟨validB, writtenB⟩ := (left.bindingText_eq_ok mem).1 textB
    obtain ⟨validC, writtenC⟩ := (right.bindingText_eq_ok mem).1 textC
    have readB := loadsUnique_canonical (left.bindingOf_orderly d) writtenB
    have readC := loadsUnique_canonical (right.bindingOf_orderly d) writtenC
    rw [readB] at readC
    exact ⟨⟨validB, validC⟩, Option.some.inj readC⟩
  · rintro ⟨⟨validB, validC⟩, same⟩
    obtain ⟨text, writtenB⟩ := left.bindingOf_written mem
    have writtenC := writtenB
    rw [same] at writtenC
    exact ⟨_, ⟨text, (left.bindingText_eq_ok mem).2 ⟨validB, writtenB⟩, rfl⟩, text,
      (right.bindingText_eq_ok mem).2 ⟨validC, writtenC⟩, rfl⟩

/-! ## Comparisons and groups agree -/

/-- `compare_native_reports` returns and marks the aggregate of a metric comparable. -/
def MarksComparable (m : Machine) (b c : NativeReport) (ids : Option (List String)) (id : String) : Prop :=
  ∃ comparison, compareNativeReports m b c ids = .ok comparison ∧
    ∃ row ∈ comparison.metrics, row.metricId = id ∧ row.status = .comparable

/-- The aggregate of a metric is computed. -/
def AggregateComputed (r : NativeReport) (id : String) : Prop :=
  ∃ a, r.aggregate? id = some a ∧ a.status = .computed

theorem Sound.aggregateComputed {r : NativeReport} (sound : Sound m r) {d : MetricDefinition} (mem : d ∈ metricDefinitions) :
    AggregateComputed r d.metricId ↔ (aggregateOne m r.cases d).status = .computed := by
  rw [AggregateComputed, sound.aggregate mem]
  simp

/-- **A metric is comparable where its groups agree**, for every selection it is in. -/
theorem marksComparable_iff {b c : NativeReport} (left : Sound m b) (right : Sound m c) {ids : Option (List String)}
    {ds : List MetricDefinition} (selected : definitionsOf ids = .ok ds) {d : MetricDefinition} (mem : d ∈ ds)
    (unique : NoCollision m b c d.metricId) : MarksComparable m b c ids d.metricId ↔
      (AggregateComputed b d.metricId ∧ AggregateComputed c d.metricId) ∧ SameGroup m b c d.metricId := by
  have known := (definitionsOf_sublist selected).subset mem
  rw [sameGroup_iff left right known unique, left.aggregateComputed known, right.aggregateComputed known]
  have compared := compareValid_comparable left right selected mem
  constructor
  · rintro ⟨comparison, here, marked⟩
    simp only [compareNativeReports, Checked.bind_eq_ok] at here
    obtain ⟨b', validB, c', validC, ds', selected', here⟩ := here
    obtain ⟨-, rfl⟩ := left.validated_eq_ok.1 validB
    obtain ⟨-, rfl⟩ := right.validated_eq_ok.1 validC
    rw [selected] at selected'
    cases selected'
    obtain ⟨done, same⟩ := compared.1 ⟨comparison, here, marked⟩
    exact ⟨done, ⟨validB, validC⟩, same⟩
  · rintro ⟨done, ⟨validB, validC⟩, same⟩
    obtain ⟨comparison, here, marked⟩ := compared.2 ⟨done, same⟩
    refine ⟨comparison, ?_, marked⟩
    simp only [compareNativeReports, Checked.bind_eq_ok]
    exact ⟨b, validB, c, validC, ds, selected, here⟩

/-- An aggregate is computed where some case computes the metric. -/
theorem Sound.aggregate_done {r : NativeReport} (sound : Sound m r) {d : MetricDefinition} (mem : d ∈ metricDefinitions) :
    (aggregateOne m r.cases d).status = .computed ↔ r.computedIds d.metricId ≠ [] := by
  have values : (((r.cases.filterMap fun c => c.metrics.find? (·.metricId = d.metricId)).filter (·.status = .computed)).filterMap
      fun row => row.value.map floatValue) = [] ↔ r.computedIds d.metricId = [] := by
    rw [NativeReport.computedIds, List.map_eq_nil_iff, List.filter_eq_nil_iff, List.filterMap_eq_nil_iff]
    constructor
    · intro none_ c known computes
      rw [NativeCaseResult.computes, Option.any_eq_true] at computes
      obtain ⟨metric, found, done⟩ := computes
      have valued := none_ metric (List.mem_filter.2 ⟨List.mem_filterMap.2 ⟨c, known, found⟩, done⟩)
      obtain ⟨metric', found', allowed⟩ := (sound.fits c known).metric mem
      rw [found] at found'
      cases found'
      rw [Option.map_eq_none_iff] at valued
      have some_ := allowed.named.2.2 (of_decide_eq_true done)
      rw [valued] at some_
      cases some_
    · intro none_ metric here
      obtain ⟨listed, done⟩ := List.mem_filter.1 here
      obtain ⟨c, known, found⟩ := List.mem_filterMap.1 listed
      refine absurd ?_ (none_ c known)
      rw [NativeCaseResult.computes, Option.any_eq_true]
      exact ⟨metric, found, done⟩
  rw [ne_eq, ← values]
  simp only [aggregateOne]
  split
  · next some_ => exact iff_of_true rfl some_
  · next none_ =>
    refine iff_of_false ?_ none_
    split <;> exact Status.noConfusion

/-- A point of a trend is that of a publication. -/
def PointOf (m : Machine) (id : String) (published : PublishedNativeReport) (point : TrendPoint) : Prop :=
  ∃ group, trendPoint m id published = .ok (group, point)

theorem bindingText_validated {r r' : NativeReport} {id : String} (valid : validated m r = .ok r')
    (again : validated m r' = .ok r') : bindingText m r id = bindingText m r' id := by
  rw [bindingText, bindingText, valid, again]

theorem validated_sound {r r' : NativeReport} (valid : validated m r = .ok r') : Sound m r' := by
  simp only [validated, Checked.bind_eq_ok] at valid
  obtain ⟨text, -, accepted⟩ := valid
  exact parseNativeReport_sound accepted

/-- What a publication contributes to its trend. -/
theorem trendPoint_eq_ok {id group : String} {published : PublishedNativeReport} {point : TrendPoint}
    (h : trendPoint m id published = .ok (group, point)) : ∃ r, validated m published.report = .ok r ∧
      validated m r = .ok r ∧ metricBindingGroup m r id = .ok group ∧ r.aggregate? id = some point.aggregate := by
  simp only [trendPoint, Checked.bind_eq_ok, Checked.orRaise_eq_ok, Checked.pure_eq_ok] at h
  obtain ⟨r, valid, group', grouped, a, found, same⟩ := h
  obtain ⟨rfl, rfl⟩ := Prod.mk.inj same
  refine ⟨r, valid, ?_, grouped, found⟩
  simp only [metricBindingGroup, bindingText, Checked.bind_eq_ok] at grouped
  obtain ⟨_, ⟨r', again, -⟩, -⟩ := grouped
  obtain ⟨-, rfl⟩ := (validated_sound valid).validated_eq_ok.1 again
  exact again

/-- **Two points of one group are comparable** as soon as one of them has a value. -/
theorem nativeTrends_comparable {publications : List PublishedNativeReport} {id : String} {groups : List TrendGroup}
    (h : nativeTrends m publications id = .ok groups)
    (unique : ∀ P ∈ publications, ∀ Q ∈ publications, NoCollision m P.report Q.report id) {g : TrendGroup} (mem : g ∈ groups)
    {p q : TrendPoint} (first : p ∈ g.points) (second : q ∈ g.points) : ∃ P ∈ publications, ∃ Q ∈ publications,
      PointOf m id P p ∧ PointOf m id Q q ∧
        (p.aggregate.status = .computed → MarksComparable m P.report Q.report (some [id]) id) := by
  simp only [nativeTrends, Checked.bind_eq_ok, Checked.orRaise_eq_ok, Checked.pure_eq_ok] at h
  obtain ⟨ds, selected, rows, read, d, head, rfl⟩ := h
  obtain ⟨group, -, rfl⟩ := List.mem_map.1 mem
  have known : d ∈ metricDefinitions := (definitionsOf_sublist selected).subset (List.mem_of_mem_head? head)
  have named : id = d.metricId := by
    simp only [definitionsOf, Checked.bind_eq_ok, Checked.pure_eq_ok] at selected
    obtain ⟨_, -, _, -, rfl⟩ := selected
    have here := (List.mem_filter.1 (List.mem_of_mem_head? head)).2
    rw [decide_eq_true_eq, List.mem_singleton] at here
    exact here.symm
  subst named
  have source : ∀ {point}, point ∈ ((rows.filter (·.1 = group)).map Prod.snd).insertionSort TrendPoint.before →
      ∃ P ∈ publications, trendPoint m d.metricId P = .ok (group, point) := by
    intro point here
    rw [(List.perm_insertionSort _ _).mem_iff, List.mem_map] at here
    obtain ⟨row, here, rfl⟩ := here
    obtain ⟨listed, same⟩ := List.mem_filter.1 here
    obtain ⟨P, published, made⟩ := Checked.collect_source read listed
    rw [decide_eq_true_eq] at same
    subst same
    exact ⟨P, published, made⟩
  obtain ⟨P, publishedP, madeP⟩ := source first
  obtain ⟨Q, publishedQ, madeQ⟩ := source second
  refine ⟨P, publishedP, Q, publishedQ, ⟨group, madeP⟩, ⟨group, madeQ⟩, fun done => ?_⟩
  obtain ⟨b, validP, validB, groupB, foundB⟩ := trendPoint_eq_ok madeP
  obtain ⟨c, validQ, validC, groupC, -⟩ := trendPoint_eq_ok madeQ
  have left := validated_sound validP
  have right := validated_sound validQ
  have collision : NoCollision m b c d.metricId := by
    have here := unique P publishedP Q publishedQ
    rwa [NoCollision, bindingText_validated validP validB, bindingText_validated validQ validC] at here
  have same := ((sameGroup_iff left right known collision).1 ⟨group, groupB, groupC⟩).2
  have covered := ((bindingOf_eq_iff left right d).1 same).2.2.2
  have doneB : (aggregateOne m b.cases d).status = .computed := (left.aggregateComputed known).1 ⟨_, foundB, done⟩
  have doneC : (aggregateOne m c.cases d).status = .computed := by
    rw [right.aggregate_done known, ← covered]
    exact (left.aggregate_done known).1 doneB
  obtain ⟨comparison, compared, marked⟩ := (compareValid_comparable left right (definitionsOf_one known)
    (List.mem_singleton.2 rfl)).2 ⟨⟨doneB, doneC⟩, same⟩
  refine ⟨comparison, ?_, marked⟩
  simp only [compareNativeReports, Checked.bind_eq_ok]
  exact ⟨b, validP, c, validQ, [d], definitionsOf_one known, compared⟩

/-- **Comparison agrees with binding, and exchanging the reports exchanges the comparison.** -/
theorem report_comparison (m : Machine) :
    (∀ (rawB rawC : Raw) (b c : NativeReport), parseNativeReport m rawB = .ok b → parseNativeReport m rawC = .ok c →
      (∀ ids ds, definitionsOf ids = .ok ds → ∀ d ∈ ds, NoCollision m b c d.metricId →
        (MarksComparable m b c ids d.metricId ↔
          (AggregateComputed b d.metricId ∧ AggregateComputed c d.metricId) ∧ SameGroup m b c d.metricId)) ∧
      ∀ ids, (compareNativeReports m c b ids).toOption = (compareNativeReports m b c ids).toOption.map NativeComparison.exchanged) ∧
    ∀ (publications : List PublishedNativeReport) (id : String) (groups : List TrendGroup),
      nativeTrends m publications id = .ok groups →
      (∀ P ∈ publications, ∀ Q ∈ publications, NoCollision m P.report Q.report id) →
      ∀ g ∈ groups, ∀ p ∈ g.points, ∀ q ∈ g.points, ∃ P ∈ publications, ∃ Q ∈ publications, PointOf m id P p ∧ PointOf m id Q q ∧
        (p.aggregate.status = .computed → MarksComparable m P.report Q.report (some [id]) id) := by
  constructor
  · intro rawB rawC b c acceptedB acceptedC
    have left := parseNativeReport_sound acceptedB
    have right := parseNativeReport_sound acceptedC
    exact ⟨fun ids ds selected d mem unique => marksComparable_iff left right selected mem unique,
      fun ids => compareNativeReports_exchanged left right ids⟩
  · intro publications id groups grouped unique g mem p first q second
    exact nativeTrends_comparable grouped unique mem first second

/-- The sample is a valid report, and its metrics are those of its cases. -/
theorem sampleReport_valid : ∃ report text, parseNativeReport sampleMachine (.text text) = .ok report ∧
    validated sampleMachine report = .ok report ∧ report.cases = sortCases sampleResults := by
  obtain ⟨report, built⟩ := sampleReport_built
  obtain ⟨text, written, accepted⟩ := parse_canonicalReport built
  refine ⟨report, text, accepted, ?_, ?_⟩
  · simp only [validated, Checked.bind_eq_ok, Checked.orRaise_eq_ok]
    exact ⟨text, written, accepted⟩
  · obtain ⟨results, digest, text, made, rfl⟩ := buildNativeReport_eq_ok.1 built
    have evaluated := made.evaluated
    rw [sample_evaluation.1] at evaluated
    cases evaluated
    rfl

theorem NoCollision.same (m : Machine) (r : NativeReport) (id : String) : NoCollision m r r id := by
  intro s t one other _
  rw [one] at other
  exact Except.ok.inj other

/-- What the sample computes of each metric. -/
theorem sampleReport_computes : ∀ d ∈ metricDefinitions, (aggregateOne sampleMachine (sortCases sampleResults) d).status =
    if d.metricId = "native.keyword_recall_proxy" then .notApplicable else .computed := by
  have all : (metricDefinitions.all fun d => decide ((aggregateOne sampleMachine (sortCases sampleResults) d).status =
      if d.metricId = "native.keyword_recall_proxy" then .notApplicable else .computed)) = true := by
    decide +kernel
  intro d mem
  exact of_decide_eq_true (List.all_eq_true.1 all d mem)

theorem report_comparison_sample : ∃ report raw, parseNativeReport sampleMachine raw = .ok report ∧
    MarksComparable sampleMachine report report none "native.faithfulness" := by
  obtain ⟨report, text, accepted, valid, cases_⟩ := sampleReport_valid
  obtain ⟨d, mem, named⟩ : ∃ d ∈ metricDefinitions, d.metricId = "native.faithfulness" := ⟨_, List.mem_cons_self .., rfl⟩
  have done := sampleReport_computes d mem
  rw [named, if_neg (by decide)] at done
  have sound := parseNativeReport_sound accepted
  have unique := NoCollision.same sampleMachine report d.metricId
  have same : SameGroup sampleMachine report report d.metricId := (sameGroup_iff sound sound mem unique).2 ⟨⟨valid, valid⟩, rfl⟩
  rw [← cases_] at done
  have both := (sound.aggregateComputed mem).2 done
  have agreement := ((report_comparison sampleMachine).1 (.text text) (.text text) report report accepted accepted).1 none
    metricDefinitions rfl d mem unique
  rw [named] at agreement both same
  exact ⟨report, .text text, accepted, agreement.2 ⟨⟨both, both⟩, same⟩⟩

/-- A report that is published twice. -/
def samplePublications (report : NativeReport) : List PublishedNativeReport :=
  ["2026-01-01T00:00:00+00:00", "2026-01-02T00:00:00+00:00"].map fun day => ⟨report, day⟩

/-- Where the metric of a report is not computed, the two points of one group do not compare. -/
theorem uncomputed_not_comparable : ∃ report raw groups g p q, parseNativeReport sampleMachine raw = .ok report ∧
    nativeTrends sampleMachine (samplePublications report) "native.keyword_recall_proxy" = .ok groups ∧ g ∈ groups ∧
      g.points = [p, q] ∧ p.publishedAt ≠ q.publishedAt ∧
      ¬ MarksComparable sampleMachine report report (some ["native.keyword_recall_proxy"]) "native.keyword_recall_proxy" := by
  obtain ⟨report, text, accepted, valid, cases_⟩ := sampleReport_valid
  obtain ⟨d, mem, named⟩ : ∃ d ∈ metricDefinitions, d.metricId = "native.keyword_recall_proxy" :=
    ⟨_, List.mem_of_getElem? (i := 4) rfl, rfl⟩
  have idle := sampleReport_computes d mem
  rw [named, if_pos rfl] at idle
  have sound := parseNativeReport_sound accepted
  obtain ⟨hashed, written⟩ := sound.bindingOf_written mem
  have grouped := (sound.bindingText_eq_ok mem).2 ⟨valid, written⟩
  have found := sound.aggregate mem
  have selected := definitionsOf_one mem
  rw [← cases_] at idle
  rw [named] at grouped found selected
  have point (day : String) : ∃ p, p.publishedAt = day ∧ trendPoint sampleMachine "native.keyword_recall_proxy" ⟨report, day⟩ =
      .ok ("sha256:" ++ sampleMachine.sha256 hashed, p) := by
    refine ⟨⟨report.runId, report.digest, day, report.status, aggregateOne sampleMachine report.cases d,
      report.binding.generatorModelId, report.binding.generationBinding, report.binding.retrievalBinding,
      report.binding.judgeBinding⟩, rfl, ?_⟩
    simp only [trendPoint, metricBindingGroup, Checked.bind_eq_ok, Checked.orRaise_eq_ok, Checked.pure_eq_ok]
    exact ⟨report, valid, _, ⟨hashed, grouped, rfl⟩, _, found, rfl⟩
  obtain ⟨p, first, readP⟩ := point "2026-01-01T00:00:00+00:00"
  obtain ⟨q, second, readQ⟩ := point "2026-01-02T00:00:00+00:00"
  have rows : Checked.collect (trendPoint sampleMachine "native.keyword_recall_proxy") (samplePublications report) =
      .ok [("sha256:" ++ sampleMachine.sha256 hashed, p), ("sha256:" ++ sampleMachine.sha256 hashed, q)] :=
    Checked.collect_eq_ok.2 (.cons readP (.cons readQ .nil))
  have ordered : p.before q := by
    left
    rw [first, second]
    decide
  refine ⟨report, .text text, _, ⟨"sha256:" ++ sampleMachine.sha256 hashed, "native.keyword_recall_proxy", d.metricVersion, [p, q]⟩,
    p, q, accepted, ?_, List.mem_singleton_self _, rfl, ?_, ?_⟩
  · simp only [nativeTrends, Checked.bind_eq_ok, Checked.orRaise_eq_ok, Checked.pure_eq_ok]
    refine ⟨[d], selected, _, rows, d, rfl, ?_⟩
    have one : sortedSet ["sha256:" ++ sampleMachine.sha256 hashed, "sha256:" ++ sampleMachine.sha256 hashed] =
        ["sha256:" ++ sampleMachine.sha256 hashed] := by
      simp [sortedSet]
    rw [List.map_cons, List.map_cons, List.map_nil, one, List.map_singleton]
    simp [List.insertionSort, ordered]
  · rw [first, second]
    decide
  · rw [← named, marksComparable_iff sound sound (named.symm ▸ selected) (List.mem_singleton_self d) (NoCollision.same _ _ _),
      sound.aggregateComputed mem, idle]
    rintro ⟨⟨done, -⟩, -⟩
    cases done

end Native
