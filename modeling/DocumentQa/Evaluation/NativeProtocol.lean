import DocumentQa.Evaluation.Evidence
import DocumentQa.Python.Report

/-!
# `native_protocol`

The native evaluation report: what is asked of a frozen case and of the binding, the six
metrics of a case, their aggregates, the canonical report with its digest, and the parser
that recomputes the aggregates, the status and the digest from the cases it reads. The
digest is any function with hexadecimal values, and the two roundings of a ratio are any
monotone ones that keep 0 and 1.
-/

namespace Native

open Python JsonText

def protocolError (message : String) : PyError :=
  ⟨.nativeProtocol, message⟩

def corruptReport (message : String) : PyError :=
  ⟨.corruptNativeReport, message⟩

/-! ## Numbers and digests -/

/-- The exact decimal a finite float is taken for. -/
def decimalValue : Double → ℚ
  | .finite d => (if d.neg then -1 else 1) * d.sig * (10 : ℚ) ^ d.exp
  | _ => 0

/-- A rounding of exact decimals to floats. -/
structure Rounding where
  round : ℚ → Double
  finite : ∀ q, (round q).isFinite = true
  monotone : ∀ {p q}, p ≤ q → decimalValue (round p) ≤ decimalValue (round q)
  zero : decimalValue (round 0) = 0
  one : decimalValue (round 1) = 1

/-- What the protocol computes with. -/
structure Machine where
  /-- `hashlib.sha256(...).hexdigest()`. -/
  sha256 : String → String
  sha256_hex : ∀ text, isSha256Text (sha256 text) = true
  /-- `/` of two integers. -/
  division : Rounding
  /-- `round(..., 4)`. -/
  fourDecimals : Rounding
  /-- `str.lower()`. -/
  lower : String → List Char

/-! ## Metric definitions -/

inductive ValueKind where
  | ratio
  | boolean
deriving DecidableEq

structure MetricDefinition where
  metricId : String
  metricVersion : Nat
  label : String
  meaning : String
  valueKind : ValueKind
  aggregateKind : String
  source : String
  requiredInputs : List String

def judgeIds : List String :=
  ["native.faithfulness", "native.answer_relevancy", "native.context_precision"]

def judgeInputs : List String :=
  ["answer", "rendered_context", "ground_truth", "bound_judge_score"]

def metricDefinitions : List MetricDefinition :=
  [⟨"native.faithfulness", 1, "Faithfulness",
      "Existing native judge estimate of answer claims supported by the same rendered evidence; not deterministic claim verification.",
      .ratio, "mean", "precomputed_native_judge", judgeInputs⟩,
    ⟨"native.answer_relevancy", 1, "Answer relevancy",
      "Existing native judge estimate of how well the answer addresses the question against ground truth.",
      .ratio, "mean", "precomputed_native_judge", judgeInputs⟩,
    ⟨"native.context_precision", 1, "Context precision",
      "Existing native judge estimate of the fraction of retrieved chunks useful for the answer.",
      .ratio, "mean", "precomputed_native_judge", judgeInputs⟩,
    ⟨"native.citation_index_validity", 1, "Citation index validity",
      "Fraction of Source N references whose indices exist in the rendered evidence; not claim support.",
      .ratio, "mean", "deterministic", ["answer", "rendered_context"]⟩,
    ⟨"native.keyword_recall_proxy", 1, "Keyword recall proxy",
      "Fraction of explicit required keywords found in rendered evidence; not Recall@K or semantic relevance.",
      .ratio, "mean", "deterministic", ["rendered_context", "required_keywords"]⟩,
    ⟨"native.fallback_correctness", 1, "Fallback correctness",
      "Whether the answer's existing insufficient-information fallback phrase matches the case expectation.",
      .boolean, "success_rate", "deterministic", ["answer", "expects_fallback"]⟩]

def ValueKind.text : ValueKind → String
  | .ratio => "ratio"
  | .boolean => "boolean"

/-- `asdict(definition)`; the canonical text sorts the keys, so they are listed sorted. -/
def MetricDefinition.json (d : MetricDefinition) : Json :=
  .obj [("aggregate_kind", .str d.aggregateKind), ("direction", .str "higher_is_better"), ("label", .str d.label),
    ("maximum", .float (.ofInt 1)), ("meaning", .str d.meaning), ("metric_id", .str d.metricId),
    ("metric_version", .int d.metricVersion), ("minimum", .float (.ofInt 0)),
    ("required_inputs", .arr (d.requiredInputs.map .str)), ("source", .str d.source),
    ("value_kind", .str d.valueKind.text)]

/-! ## Cases and bindings -/

structure NativeCaseInput where
  caseId : String
  answer : Option String
  renderedContext : Option String
  groundTruth : Option String
  requiredKeywords : Option (List String)
  expectsFallback : Option Bool
  judgeScores : Option JsonObject
  generationContextSha256 : Option String
  judgeContextSha256 : Option String
  generationBinding : Option String
  judgeBinding : Option String

/-- A binding, with whatever values its fields have before they are validated. -/
structure NativeReportBinding where
  engineId : Json
  engineVersion : Json
  datasetId : Json
  datasetVersion : Json
  datasetRevision : Json
  generatorModelId : Json
  generatorModelFingerprint : Json
  generationPromptSha256 : Json
  generationBinding : Json
  retrievalBinding : Json
  retrievalConfigFingerprint : Json
  embeddingFingerprint : Json
  rerankerFingerprint : Json
  contextBinding : Json
  judgeModelId : Json
  judgePromptSha256 : Json
  judgeBinding : Json
deriving DecidableEq

def NativeReportBinding.fields (b : NativeReportBinding) : List (String × Json) :=
  [("context_binding", b.contextBinding), ("dataset_id", b.datasetId), ("dataset_revision", b.datasetRevision),
    ("dataset_version", b.datasetVersion), ("embedding_fingerprint", b.embeddingFingerprint), ("engine_id", b.engineId),
    ("engine_version", b.engineVersion), ("generation_binding", b.generationBinding),
    ("generation_prompt_sha256", b.generationPromptSha256), ("generator_model_fingerprint", b.generatorModelFingerprint),
    ("generator_model_id", b.generatorModelId), ("judge_binding", b.judgeBinding), ("judge_model_id", b.judgeModelId),
    ("judge_prompt_sha256", b.judgePromptSha256), ("reranker_fingerprint", b.rerankerFingerprint),
    ("retrieval_binding", b.retrievalBinding), ("retrieval_config_fingerprint", b.retrievalConfigFingerprint)]

inductive Status where
  | computed
  | unavailable
  | notApplicable
deriving DecidableEq

def Status.text : Status → String
  | .computed => "computed"
  | .unavailable => "unavailable"
  | .notApplicable => "not_applicable"

inductive MetricValue where
  | ratio (x : Double)
  | boolean (b : Bool)
deriving DecidableEq

structure CaseMetricResult where
  metricId : String
  metricVersion : Nat
  status : Status
  value : Option MetricValue
  reasonCode : Option String
deriving DecidableEq

structure NativeCaseResult where
  caseId : String
  contextSha256 : Option String
  metrics : List CaseMetricResult
deriving DecidableEq

structure AggregateMetricResult where
  metricId : String
  metricVersion : Nat
  status : Status
  value : Option Double
  totalCases : Nat
  denominator : Nat
  unavailableCount : Nat
  notApplicableCount : Nat
deriving DecidableEq

inductive Completeness where
  | complete
  | incomplete
deriving DecidableEq

def Completeness.text : Completeness → String
  | .complete => "complete"
  | .incomplete => "incomplete"

/-- A report; its protocol, version and metric definitions are the ones of this module. -/
structure NativeReport where
  runId : String
  status : Completeness
  binding : NativeReportBinding
  cases : List NativeCaseResult
  aggregates : List AggregateMetricResult
  digest : String
deriving DecidableEq

/-! ## Identifiers and ratios -/

def identifierPattern : NamePattern :=
  ⟨isAlnum, fun c => isAlnum c || c ∈ ['.', '_', ':', '/', '+', '@', '-'], 256⟩

def caseIdPattern : NamePattern :=
  ⟨isAlnum, fun c => isAlnum c || c ∈ ['.', '_', '-'], 128⟩

/-- `re.match(r"^[A-Za-z]:[/\\]", value)`. -/
def isDrivePath : List Char → Bool
  | letter :: ':' :: slash :: _ => letter.isAlpha && (slash = '/' || slash = '\\')
  | _ => false

/-- What makes an identifier look like a path or a credential. -/
def isUnsafe (value : String) : Bool :=
  let cs := value.toList
  (["sk-", "gsk_", "ghp_", "bearer ", "file:"].any fun p => p.toList.isPrefixOf (casefold cs)) ||
    ["/", "\\", "~"].any (fun p => p.toList.isPrefixOf cs) || isDrivePath cs || isInfix "://".toList cs || cs.elem '\\' ||
    (splitOn '/' cs).elem ['.', '.']

def safeIdentifier (pattern : NamePattern) (label : String) (value : Json) : Except PyError String :=
  match value with
  | .str text => do
    Checked.require (pattern.fullmatch text = true) (protocolError (label ++ " is not a bounded identifier"))
    Checked.require (isUnsafe text = false) (protocolError (label ++ " contains a path or credential"))
    pure text
  | _ => throw (protocolError (label ++ " is not a bounded identifier"))

/-- `_SHA256.fullmatch(value)`. -/
def isFingerprint (text : String) : Bool :=
  "sha256:".toList.isPrefixOf text.toList && isSha256Text (String.ofList (text.toList.drop 7))

def fingerprint (label : String) (value : Json) : Except PyError String :=
  match value with
  | .str text => do
    Checked.require (isFingerprint text = true) (protocolError (label ++ " must be a sha256 fingerprint"))
    pure text
  | _ => throw (protocolError (label ++ " must be a sha256 fingerprint"))

/-- `math.isfinite(value) and 0.0 <= value <= 1.0`. -/
def inUnit (x : Double) : Bool :=
  x.isFinite && 0 ≤ decimalValue x && decimalValue x ≤ 1

/-- `_ratio`. -/
def ratio (label : String) (value : Json) : Except PyError Double :=
  match value with
  | .int i => do
    Checked.require (0 ≤ i ∧ i ≤ 1) (protocolError (label ++ " must be a finite ratio in [0, 1]"))
    pure (.ofInt i)
  | .float x => do
    Checked.require (inUnit x = true) (protocolError (label ++ " must be a finite ratio in [0, 1]"))
    pure x
  | _ => throw (protocolError (label ++ " must be a finite ratio in [0, 1]"))

def evaluationDatasetId : String := "evaluation-test-set"
def evaluationDatasetVersion : String := "evaluation-test-set-v1"

/-- `_validate_binding`. -/
def validateBinding (b : NativeReportBinding) : Except PyError Unit := do
  Checked.require (b.engineId = .str "native" ∧ b.engineVersion = .int 1)
    (protocolError "unsupported native engine identity/version")
  Checked.require (b.datasetId = .str evaluationDatasetId ∧ b.datasetVersion = .str evaluationDatasetVersion)
    (protocolError "dataset identity/version does not match API-006")
  let _ ← fingerprint "dataset_revision" b.datasetRevision
  let _ ← safeIdentifier identifierPattern "generator_model_id" b.generatorModelId
  Checked.each (fun entry => do let _ ← fingerprint entry.1 entry.2; pure ())
    [("generator_model_fingerprint", b.generatorModelFingerprint), ("generation_prompt_sha256", b.generationPromptSha256),
      ("generation_binding", b.generationBinding), ("retrieval_binding", b.retrievalBinding),
      ("retrieval_config_fingerprint", b.retrievalConfigFingerprint), ("embedding_fingerprint", b.embeddingFingerprint),
      ("reranker_fingerprint", b.rerankerFingerprint), ("context_binding", b.contextBinding)]
  Checked.require ((b.judgeModelId = .null ↔ b.judgePromptSha256 = .null) ∧ (b.judgeModelId = .null ↔ b.judgeBinding = .null))
    (protocolError "judge model, prompt, and judge binding must all be present or absent")
  if b.judgeModelId = .null then pure ()
  else do
    let _ ← safeIdentifier identifierPattern "judge_model_id" b.judgeModelId
    let _ ← fingerprint "judge_prompt_sha256" b.judgePromptSha256
    let _ ← fingerprint "judge_binding" b.judgeBinding
    pure ()

/-! ## Evaluating a case -/

section Evaluate

variable (m : Machine)

def Machine.fingerprintOf (text : String) : String :=
  "sha256:" ++ m.sha256 text

def contextSha256 (case_ : NativeCaseInput) : Option String :=
  case_.renderedContext.map m.fingerprintOf

/-- A binding or hash of a case: a fingerprint, and the one it must be. -/
def checkSame (label message : String) (value : Option String) (expected : Json) : Except PyError Unit :=
  match value with
  | none => pure ()
  | some text => do
    let _ ← fingerprint label (.str text)
    Checked.require (expected = .str text) (protocolError message)

def optionalJson (text : Option String) : Json :=
  (text.map Json.str).getD .null

def checkLength (label : String) (maximum : Nat) (text : Option String) : Except PyError Unit :=
  Checked.require (text.all (·.length ≤ maximum) = true) (protocolError (label ++ " must be bounded text or null"))

/-- `bool(text)` of an optional text. -/
def isGiven (text : Option String) : Bool :=
  text.any (· ≠ "")

/-- The checks of `_validate_case_input` on bound judge scores. -/
def validateJudgeScores (case_ : NativeCaseInput) (binding : NativeReportBinding) (scores : JsonObject) :
    Except PyError Unit := do
  Checked.require (binding.judgeBinding ≠ .null) (protocolError "judge scores require a judge binding")
  Checked.require (case_.judgeBinding.isSome = true) (protocolError "judge scores require their case judge binding")
  Checked.require (case_.generationContextSha256.isSome = true ∧ case_.judgeContextSha256.isSome = true)
    (protocolError "judge scores require matching generation/judge evidence hashes")
  Checked.require (case_.answer.isSome = true ∧ case_.renderedContext.isSome = true)
    (protocolError "judge scores require answer and rendered context")
  Checked.require (isGiven case_.groundTruth = true) ⟨.missingGroundTruth, "judge scores require ground truth"⟩
  Checked.require ((∀ key ∈ scores.keys, key ∈ judgeIds) ∧ ∀ id ∈ judgeIds, id ∈ scores.keys)
    (protocolError "judge scores must contain exactly three native metric IDs")
  Checked.each (fun id => do let _ ← ratio id (scores.value id).json; pure ()) judgeIds

def checkKeywords (keywords : Option (List String)) : Except PyError Unit :=
  match keywords with
  | none => pure ()
  | some words => do
    Checked.require (words.length ≤ 100) (protocolError "required_keywords must be a bounded tuple")
    Checked.require (∀ word ∈ words, word ≠ "" ∧ word.length ≤ 256) (protocolError "required_keywords contains invalid text")

/-- `_validate_case_input`. -/
def validateCaseInput (case_ : NativeCaseInput) (binding : NativeReportBinding) : Except PyError Unit := do
  let _ ← safeIdentifier caseIdPattern "case_id" (.str case_.caseId)
  checkLength "answer" 100000 case_.answer
  checkLength "rendered_context" 1000000 case_.renderedContext
  checkLength "ground_truth" 20000 case_.groundTruth
  checkKeywords case_.requiredKeywords
  checkSame "case generation_binding" "mixed generation bindings" case_.generationBinding binding.generationBinding
  checkSame "case judge_binding" "mixed judge bindings" case_.judgeBinding binding.judgeBinding
  Checked.require (case_.answer.isSome = true → case_.generationBinding.isSome = true)
    (protocolError "completed generation requires its binding")
  Checked.require (case_.answer.isSome = true → case_.generationContextSha256.isSome = true)
    (protocolError "completed generation requires its rendered-evidence hash")
  Checked.require (isGiven case_.renderedContext = true →
      Evidence.parseEvidenceContext (case_.renderedContext.getD "") ≠ [])
    (protocolError "rendered_context is not canonical source evidence")
  checkSame "generation_context_sha256" "generation did not receive the same rendered evidence"
    case_.generationContextSha256 (optionalJson (contextSha256 m case_))
  checkSame "judge_context_sha256" "judging did not receive the same rendered evidence" case_.judgeContextSha256
    (optionalJson (contextSha256 m case_))
  match case_.judgeScores with
  | none => pure ()
  | some scores => validateJudgeScores case_ binding scores

/-- `_metric`. -/
def metric (id : String) (status : Status) (value : Option MetricValue) (reason : Option String) : CaseMetricResult :=
  ⟨id, 1, status, value, reason⟩

def missing (id : String) (status : Status) (reason : String) : CaseMetricResult :=
  metric id status none (some reason)

def computed (id : String) (value : MetricValue) : CaseMetricResult :=
  metric id .computed (some value) none

/-- `re.findall(r"Source\s+(\d+)", normalized)`: the numbers, each read by `int`. -/
def citationNumbers : Nat → List Char → List Nat
  | 0, _ => []
  | _ + 1, [] => []
  | fuel + 1, c :: cs =>
    match word ['S', 'o', 'u', 'r', 'c', 'e'] (c :: cs) with
    | none => citationNumbers fuel cs
    | some rest =>
      let digits := (rest.dropWhile isSpace).takeWhile Evidence.isDecimal
      if rest.head?.any isSpace && !digits.isEmpty then
        Evidence.intValue digits :: citationNumbers fuel ((rest.dropWhile isSpace).dropWhile Evidence.isDecimal)
      else citationNumbers fuel cs

/-- `compute_citation_correctness`; the brackets it translates are no part of the pattern. -/
def citationCorrectness (answer : String) (numSources : Nat) : Option Double :=
  let numbers := citationNumbers (answer.length + 1) answer.toList
  if numbers = [] then none
  else some (m.division.round ((numbers.filter fun n => 1 ≤ n && n ≤ numSources).length / numbers.length))

/-- `_compact_for_matching`. -/
def compactForMatching (text : String) : List Char :=
  (m.lower text).filter fun c => !isSpace c

/-- `compute_recall_proxy` for keywords that are given. -/
def recallProxy (keywords : List String) (texts : List String) : Double :=
  let compactText := compactForMatching m (" ".intercalate texts)
  m.division.round ((keywords.filter fun word => isInfix (compactForMatching m word) compactText).length / keywords.length)

def checkFallbackCorrectness (answer : String) (expectsFallback : Bool) : Bool :=
  isInfix "could not find sufficient information".toList (m.lower answer) == expectsFallback

/-- The metric of one judge score. -/
def judgeMetric (case_ : NativeCaseInput) (binding : NativeReportBinding) (id : String) : Except PyError CaseMetricResult :=
  match case_.answer, case_.renderedContext with
  | none, _ => pure (missing id .unavailable "missing_generation")
  | some _, none => pure (missing id .unavailable "missing_context")
  | some _, some _ =>
    if isGiven case_.groundTruth = false then pure (missing id .unavailable "missing_ground_truth")
    else if binding.judgeBinding = .null then pure (missing id .unavailable "judge_not_configured")
    else match case_.judgeScores with
      | none => pure (missing id .unavailable "judge_not_run")
      | some scores => do
        let score ← ratio id (scores.value id).json
        pure (computed id (.ratio score))

def citationMetric (case_ : NativeCaseInput) : CaseMetricResult :=
  let id := "native.citation_index_validity"
  match case_.answer, case_.renderedContext with
  | none, _ => missing id .unavailable "missing_generation"
  | some _, none => missing id .unavailable "missing_context"
  | some answer, some context =>
    match citationCorrectness m answer (Evidence.parseEvidenceContext context).length with
    | some score => computed id (.ratio score)
    | none => missing id .notApplicable "no_citations"

def keywordMetric (case_ : NativeCaseInput) : CaseMetricResult :=
  let id := "native.keyword_recall_proxy"
  let keywords := case_.requiredKeywords.getD []
  if keywords = [] then missing id .notApplicable "no_required_keywords"
  else match case_.renderedContext with
    | none => missing id .unavailable "missing_context"
    | some context =>
      computed id (.ratio (recallProxy m keywords ((Evidence.parseEvidenceContext context).map fun block => block.text)))

def fallbackMetric (case_ : NativeCaseInput) : CaseMetricResult :=
  let id := "native.fallback_correctness"
  match case_.expectsFallback, case_.answer with
  | none, _ => missing id .notApplicable "missing_fallback_expectation"
  | some _, none => missing id .unavailable "missing_generation"
  | some expected, some answer => computed id (.boolean (checkFallbackCorrectness m answer expected))

/-- `evaluate_case`. -/
def evaluateCase (binding : NativeReportBinding) (case_ : NativeCaseInput) : Except PyError NativeCaseResult := do
  validateCaseInput m case_ binding
  let judged ← Checked.collect (judgeMetric case_ binding) judgeIds
  pure ⟨case_.caseId, contextSha256 m case_, judged ++ [citationMetric m case_, keywordMetric m case_, fallbackMetric m case_]⟩

/-! ## The report -/

/-- `float(row.value)`. -/
def floatValue : MetricValue → ℚ
  | .ratio x => decimalValue x
  | .boolean b => if b then 1 else 0

/-- One round of `_aggregate`; the exact sum does not depend on the order of the values. -/
def aggregateOne (cases : List NativeCaseResult) (d : MetricDefinition) : AggregateMetricResult :=
  let rows := cases.filterMap fun c => c.metrics.find? (·.metricId = d.metricId)
  let values := (rows.filter (·.status = .computed)).filterMap fun row => row.value.map floatValue
  let unavailable := (rows.filter (·.status = .unavailable)).length
  { metricId := d.metricId
    metricVersion := d.metricVersion
    status := if values ≠ [] then .computed else if unavailable ≠ 0 then .unavailable else .notApplicable
    value := if values ≠ [] then some (m.fourDecimals.round (values.foldl (· + ·) 0 / values.length)) else none
    totalCases := rows.length
    denominator := values.length
    unavailableCount := unavailable
    notApplicableCount := (rows.filter (·.status = .notApplicable)).length }

/-- `_aggregate`. -/
def aggregate (cases : List NativeCaseResult) : List AggregateMetricResult :=
  metricDefinitions.map (aggregateOne m cases)

/-- Whether a metric of a case is unavailable. -/
def completeness (cases : List NativeCaseResult) : Completeness :=
  if cases.any fun c => c.metrics.any (·.status = .unavailable) then .incomplete else .complete

def valueJson : Option MetricValue → Json
  | some (.ratio x) => .float x
  | some (.boolean b) => .bool b
  | none => .null

def CaseMetricResult.json (r : CaseMetricResult) : Json :=
  .obj [("metric_id", .str r.metricId), ("metric_version", .int r.metricVersion), ("reason_code", optionalJson r.reasonCode),
    ("status", .str r.status.text), ("value", valueJson r.value)]

def NativeCaseResult.json (c : NativeCaseResult) : Json :=
  .obj [("case_id", .str c.caseId), ("context_sha256", optionalJson c.contextSha256),
    ("metrics", .arr (c.metrics.map CaseMetricResult.json))]

def AggregateMetricResult.json (a : AggregateMetricResult) : Json :=
  .obj [("denominator", .int a.denominator), ("metric_id", .str a.metricId), ("metric_version", .int a.metricVersion),
    ("not_applicable_count", .int a.notApplicableCount), ("status", .str a.status.text), ("total_cases", .int a.totalCases),
    ("unavailable_count", .int a.unavailableCount), ("value", (a.value.map Json.float).getD .null)]

def aggregatesJson (aggregates : List AggregateMetricResult) : Json :=
  .arr (aggregates.map AggregateMetricResult.json)

def definitionsJson : Json :=
  .arr (metricDefinitions.map MetricDefinition.json)

/-- `_report_payload`. -/
def NativeReport.payload (r : NativeReport) (includeDigest : Bool) : Json :=
  .obj ([("aggregates", aggregatesJson r.aggregates), ("binding", .obj r.binding.fields),
      ("cases", .arr (r.cases.map NativeCaseResult.json))] ++
    (if includeDigest then [("digest", .str r.digest)] else []) ++
    [("metric_definitions", definitionsJson), ("protocol", .str "native-evaluation"), ("protocol_version", .int 1),
      ("run_id", .str r.runId), ("status", .str r.status.text)])

/-- `canonical_report_bytes`. -/
def canonicalReport (r : NativeReport) : Option String :=
  canonicalJsonText (r.payload true)

/-- `_digest`. -/
def reportDigest (r : NativeReport) : Option String :=
  (canonicalJsonText (r.payload false)).map m.fingerprintOf

def outOfRange : PyError :=
  ⟨.valueError, "Out of range float values are not JSON compliant"⟩

def maxCases : Nat := 5000
def maxReportBytes : Nat := 2000000

/-- `_validate_case_batch`. -/
def validateCaseBatch (cases : List NativeCaseInput) (binding : NativeReportBinding) : Except PyError Unit := do
  validateBinding binding
  Checked.require (cases ≠ []) ⟨.emptyEvaluationSet, "empty evaluation set cannot produce a native report"⟩
  Checked.require (cases.length ≤ maxCases) (protocolError "too many evaluation cases")
  Checked.require (cases.map NativeCaseInput.caseId).Nodup (protocolError "duplicate case ID")
  Checked.each (fun c => validateCaseInput m c binding) cases

/-- The report of evaluated cases before its digest. -/
def undigested (runId : String) (binding : NativeReportBinding) (cases : List NativeCaseResult) : NativeReport :=
  ⟨runId, completeness cases, binding, cases, aggregate m cases, ""⟩

/-- `sorted(..., key=lambda row: row.case_id)`. -/
def sortCases (cases : List NativeCaseResult) : List NativeCaseResult :=
  cases.insertionSort fun a b => a.caseId ≤ b.caseId

/-- `build_native_report`. -/
def buildNativeReport (runId : String) (cases : List NativeCaseInput) (binding : NativeReportBinding) :
    Except PyError NativeReport := do
  let _ ← safeIdentifier caseIdPattern "run_id" (.str runId)
  validateCaseBatch m cases binding
  let results ← Checked.collect (evaluateCase m binding) cases
  let report := undigested m runId binding (sortCases results)
  let digest ← Checked.orRaise (reportDigest m report) outOfRange
  let text ← Checked.orRaise (canonicalReport { report with digest }) outOfRange
  Checked.require (utf8Length text ≤ maxReportBytes) (protocolError "native report exceeds the size bound")
  pure { report with digest }

/-! ## The parser -/

def reasons : List String :=
  ["missing_generation", "missing_context", "missing_ground_truth", "judge_not_run", "judge_not_configured", "no_citations",
    "no_required_keywords", "missing_fallback_expectation"]

def judgeReasons : List String :=
  ["missing_generation", "missing_context", "missing_ground_truth", "judge_not_run", "judge_not_configured"]

/-- `_ALLOWED_REASONS[metric_id][status]`. -/
def allowedReasons (id : String) (status : Status) : List String :=
  match status with
  | .computed => []
  | .unavailable =>
    if id ∈ judgeIds then judgeReasons
    else if id = "native.citation_index_validity" then ["missing_generation", "missing_context"]
    else if id = "native.keyword_recall_proxy" then ["missing_context"]
    else ["missing_generation"]
  | .notApplicable =>
    if id ∈ judgeIds then []
    else if id = "native.citation_index_validity" then ["no_citations"]
    else if id = "native.keyword_recall_proxy" then ["no_required_keywords"]
    else ["missing_fallback_expectation"]

/-- The value of a computed metric. -/
def parseValue (d : MetricDefinition) (raw : Json) : Except PyError MetricValue :=
  match d.valueKind, raw with
  | .boolean, .bool b => pure (.boolean b)
  | .boolean, _ => throw (protocolError "boolean metric value is malformed")
  | .ratio, raw => do
    let x ← ratio d.metricId raw
    pure (.ratio x)

/-- The reason of a metric without a value; looking a container up in a set raises. -/
def parseReason (d : MetricDefinition) (status : Status) (raw reason : Json) : Except PyError String := do
  let malformed := protocolError "unavailable metric value/reason is malformed"
  Checked.require (raw = .null) malformed
  match reason with
  | .str text => do
    Checked.require (text ∈ reasons ∧ text ∈ allowedReasons d.metricId status) malformed
    pure text
  | .arr _ | .obj _ => throw ⟨.typeError, "unhashable type"⟩
  | _ => throw malformed

/-- `_parse_metric`. -/
def parseMetric (d : MetricDefinition) (value : Json) : Except PyError CaseMetricResult := do
  let value ← exactFields ["metric_id", "metric_version", "status", "value", "reason_code"]
    (corruptReport "case metric has invalid fields") value
  Checked.require (field "metric_id" value = .str d.metricId ∧ field "metric_version" value = .int d.metricVersion)
    (protocolError "metric ID/version mismatch")
  let raw := field "value" value
  let reason := field "reason_code" value
  if field "status" value = .str "computed" then do
    Checked.require (reason = .null) (protocolError "computed metric cannot have an unavailable reason")
    let x ← parseValue d raw
    pure ⟨d.metricId, d.metricVersion, .computed, some x, none⟩
  else if field "status" value = .str "unavailable" then do
    let text ← parseReason d .unavailable raw reason
    pure ⟨d.metricId, d.metricVersion, .unavailable, none, some text⟩
  else if field "status" value = .str "not_applicable" then do
    let text ← parseReason d .notApplicable raw reason
    pure ⟨d.metricId, d.metricVersion, .notApplicable, none, some text⟩
  else throw (protocolError "unsupported metric status")

/-- A context hash: a fingerprint or null. -/
def parseContext (value : Json) : Except PyError (Option String) :=
  if value = .null then pure none
  else do
    let text ← fingerprint "context_sha256" value
    pure (some text)

/-- The items of a list, if it is one of a length that will do. -/
def itemsOf (fits : Nat → Bool) (e : PyError) : Json → Except PyError (List Json)
  | .arr items => if fits items.length then .ok items else .error e
  | _ => .error e

/-- One round of the loop over the cases. -/
def parseCase (binding : NativeReportBinding) (raw : Json) : Except PyError NativeCaseResult := do
  let raw ← exactFields ["case_id", "context_sha256", "metrics"] (corruptReport "case has invalid fields") raw
  let caseId ← safeIdentifier caseIdPattern "case_id" (field "case_id" raw)
  let rawMetrics ← itemsOf (· = metricDefinitions.length) (protocolError "case metric count is invalid") (field "metrics" raw)
  let context ← parseContext (field "context_sha256" raw)
  let metrics ← Checked.collect (fun entry => parseMetric entry.2 entry.1) (rawMetrics.zip metricDefinitions)
  Checked.require (context = none → (metrics.take 5).all (·.status ≠ .computed) = true)
    (corruptReport "computed evidence metrics require a context hash")
  Checked.require (binding.judgeBinding = .null → (metrics.take 3).all (·.status ≠ .computed) = true)
    (corruptReport "computed judge metrics require a judge binding")
  pure ⟨caseId, context, metrics⟩

/-- `NativeReportBinding(**raw_binding)`. -/
def bindingOf (raw : List (String × Json)) : NativeReportBinding where
  engineId := field "engine_id" raw
  engineVersion := field "engine_version" raw
  datasetId := field "dataset_id" raw
  datasetVersion := field "dataset_version" raw
  datasetRevision := field "dataset_revision" raw
  generatorModelId := field "generator_model_id" raw
  generatorModelFingerprint := field "generator_model_fingerprint" raw
  generationPromptSha256 := field "generation_prompt_sha256" raw
  generationBinding := field "generation_binding" raw
  retrievalBinding := field "retrieval_binding" raw
  retrievalConfigFingerprint := field "retrieval_config_fingerprint" raw
  embeddingFingerprint := field "embedding_fingerprint" raw
  rerankerFingerprint := field "reranker_fingerprint" raw
  contextBinding := field "context_binding" raw
  judgeModelId := field "judge_model_id" raw
  judgePromptSha256 := field "judge_prompt_sha256" raw
  judgeBinding := field "judge_binding" raw

def bindingNames : List String :=
  ["engine_id", "engine_version", "dataset_id", "dataset_version", "dataset_revision", "generator_model_id",
    "generator_model_fingerprint", "generation_prompt_sha256", "generation_binding", "retrieval_binding",
    "retrieval_config_fingerprint", "embedding_fingerprint", "reranker_fingerprint", "context_binding", "judge_model_id",
    "judge_prompt_sha256", "judge_binding"]

def reportNames : List String :=
  ["protocol", "protocol_version", "run_id", "status", "binding", "metric_definitions", "cases", "aggregates", "digest"]

/-- The parser behind the decoding. -/
def parsePayload (payload : Json) : Except PyError NativeReport := do
  let payload ← exactFields reportNames (corruptReport "native report has invalid fields") payload
  Checked.require (field "protocol" payload = .str "native-evaluation" ∧ field "protocol_version" payload = .int 1)
    ⟨.unsupportedNativeProtocolVersion, "unsupported native protocol/version"⟩
  let runId ← safeIdentifier caseIdPattern "run_id" (field "run_id" payload)
  let rawBinding ← exactFields bindingNames (corruptReport "binding has invalid fields") (field "binding" payload)
  let binding := bindingOf rawBinding
  validateBinding binding
  Checked.require (equal (field "metric_definitions" payload) definitionsJson = true)
    (protocolError "metric definitions or versions differ from the native registry")
  let rawCases ← itemsOf (fun n => 1 ≤ n && n ≤ maxCases) (protocolError "native cases are empty or oversized")
    (field "cases" payload)
  let cases ← Checked.collect (parseCase binding) rawCases
  let ids := cases.map NativeCaseResult.caseId
  Checked.require (ids = ids.dedup.insertionSort (· ≤ ·)) (protocolError "case IDs must be unique and ordered")
  let status := completeness cases
  Checked.require (field "status" payload = .str status.text) (protocolError "report completeness status is inconsistent")
  let aggregates := aggregate m cases
  Checked.require (equal (field "aggregates" payload) (aggregatesJson aggregates) = true)
    (protocolError "aggregate values or denominators are inconsistent")
  let report := undigested m runId binding cases
  let digest ← Checked.orRaise (reportDigest m report) outOfRange
  Checked.require (field "digest" payload = .str digest) (corruptReport "native report digest mismatch")
  pure { report with digest }

/-- What a report is read from. -/
inductive Raw where
  | text (encoded : String)
  | mapping (value : JsonObject)

/-- `json.loads` of the encoded report, a mapping encoded first. -/
def decodeRaw : Raw → Except PyError Json
  | .text encoded => do
    Checked.require (utf8Length encoded ≤ maxReportBytes) (protocolError "native report exceeds the size bound")
    Checked.orRaise (loadsUnique encoded) (protocolError "native report is malformed")
  | .mapping value => do
    let encoded ← Checked.orRaise (canonicalJsonText value.json) outOfRange
    Checked.require (utf8Length encoded ≤ maxReportBytes) (protocolError "native report exceeds the size bound")
    Checked.orRaise (loadsUnique encoded) (protocolError "native report is malformed")

/-- `parse_native_report`. -/
def parseNativeReport (raw : Raw) : Except PyError NativeReport :=
  reraise [.typeError, .valueError, .overflowError] (corruptReport "native report is malformed")
    (translate [(.nativeProtocol, .corruptNativeReport)] (do
      let payload ← decodeRaw raw
      parsePayload m payload))

end Evaluate

end Native
