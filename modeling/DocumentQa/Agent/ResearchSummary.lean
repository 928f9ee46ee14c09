import DocumentQa.Agent.ResearchLedger

/-!
# Summaries of research sessions

The counts, coverage and gaps that are derived from a sound ledger pass their validators, so a
session has a summary after every run of admitted calls, and a view as long as its history has
room: it holds ten actions, and a session bounds its searches but not its reads.
-/

namespace Agent

open Python JsonText

namespace ResearchSession

/-! ## Summaries -/

/-- The status that a session gives an objective. -/
structure StatusOf (s : ResearchSession) (o : ResearchObjective) (status : ResearchObjectiveStatus) : Prop where
  identifier : status.objectiveId = o.objectiveId
  count : status.evidenceCount = s.evidenceCount o.objectiveId
  attempts : status.searchAttempts = s.searchAttempts o.objectiveId
  coverage : status.coverage = s.config.expectedCoverage (s.evidenceCount o.objectiveId)

/-- What a summary says is what the session holds. -/
structure Agrees (s : ResearchSession) (summary : ResearchSummary) : Prop where
  evidence : summary.evidence.map ResearchEvidence.entry = s.ledger
  objectives : List.Forall₂ (StatusOf s) s.config.objectives summary.objectives
  gaps : summary.gaps.map (fun gap => (gap.objectiveId, gap.code)) = s.gapObjectives.map fun o => (o.objectiveId, s.gapCode o)
  capped : summary.evidenceCapped = s.evidenceCapped

theorem status_exists {s : ResearchSession} (sound : Sound s) (o : ResearchObjective) : ∃ status, s.status o = some status := by
  have count : s.evidenceCount o.objectiveId ≤ 6 :=
    Nat.le_trans (List.length_filter_le _ _) (Nat.le_trans sound.capacity s.config.evidence_range.2)
  have attempts := Nat.le_trans (sound.attempts o.objectiveId) s.config.search_range.2
  rw [status, ResearchObjectiveStatus.build, dif_pos ⟨o.identifier, count, attempts⟩]
  exact ⟨_, rfl⟩

theorem status_spec {s : ResearchSession} {o : ResearchObjective} {status : ResearchObjectiveStatus} (h : s.status o = some status) :
    StatusOf s o status := by
  rw [ResearchSession.status, ResearchObjectiveStatus.build] at h
  split at h
  · cases h
    exact ⟨rfl, rfl, rfl, rfl⟩
  · cases h

theorem gap_exists (s : ResearchSession) (o : ResearchObjective) : ∃ gap, ResearchGap.build o.objectiveId (s.gapCode o) = some gap := by
  rw [ResearchGap.build, dif_pos o.identifier]
  exact ⟨_, rfl⟩

theorem gap_spec {objectiveId : String} {code : ResearchGapCode} {gap : ResearchGap}
    (h : ResearchGap.build objectiveId code = some gap) : (gap.objectiveId, gap.code) = (objectiveId, code) := by
  rw [ResearchGap.build] at h
  split at h
  · cases h
    rfl
  · cases h

theorem expectedCoverage_none {config : ResearchConfig} {count : Nat} : config.expectedCoverage count = .none_ ↔ count = 0 := by
  rw [ResearchConfig.expectedCoverage]
  split
  · next zero => exact ⟨fun _ => zero, fun _ => rfl⟩
  · next some_ =>
    constructor
    · intro h
      split at h <;> cases h
    · exact fun zero => absurd zero some_

/-- An objective is known by its ID. -/
theorem objective_unique (config : ResearchConfig) {o o' : ResearchObjective} (mem : o ∈ config.objectives)
    (mem' : o' ∈ config.objectives) (same : o.objectiveId = o'.objectiveId) : o = o' :=
  List.inj_on_of_nodup_map config.distinct mem mem' same

/-- The instances a summary is built of say what the session holds. -/
structure Derived (s : ResearchSession) (statuses : List ResearchObjectiveStatus) (evidence : List ResearchEvidence)
    (gaps : List ResearchGap) : Prop where
  evidence : evidence.map ResearchEvidence.entry = s.ledger
  objectives : List.Forall₂ (StatusOf s) s.config.objectives statuses
  gaps : gaps.map (fun gap => (gap.objectiveId, gap.code)) = s.gapObjectives.map fun o => (o.objectiveId, s.gapCode o)

section Derivation

variable {s : ResearchSession} {statuses : List ResearchObjectiveStatus} {evidence : List ResearchEvidence}
  {gaps : List ResearchGap}

theorem Derived.identifiers (derived : Derived s statuses evidence gaps) :
    statuses.map ResearchObjectiveStatus.objectiveId = s.config.objectives.map ResearchObjective.objectiveId :=
  Checked.map_of_forall₂ derived.objectives fun _ _ status => status.identifier

theorem Derived.gap_identifiers (derived : Derived s statuses evidence gaps) :
    gaps.map ResearchGap.objectiveId = s.gapObjectives.map ResearchObjective.objectiveId := by
  have same := congrArg (List.map Prod.fst) derived.gaps
  rwa [List.map_map, List.map_map] at same

theorem Derived.objective (derived : Derived s statuses evidence gaps) {status : ResearchObjectiveStatus} (mem : status ∈ statuses) :
    ∃ o ∈ s.config.objectives, StatusOf s o status :=
  Checked.forall₂_source derived.objectives mem

/-- Gaps are left exactly for the objectives without sufficient evidence. -/
theorem Derived.gaps_exact (derived : Derived s statuses evidence gaps) {status : ResearchObjectiveStatus} (mem : status ∈ statuses) :
    status.coverage = .sufficient ↔ status.objectiveId ∉ gaps.map ResearchGap.objectiveId := by
  obtain ⟨o, configured, here⟩ := derived.objective mem
  rw [derived.gap_identifiers, here.coverage, here.identifier]
  constructor
  · intro sufficient listed
    obtain ⟨o', gap, same⟩ := List.mem_map.1 listed
    obtain ⟨configured', open_⟩ := List.mem_filter.1 gap
    rw [objective_unique s.config configured' configured same, decide_eq_true_eq] at open_
    exact open_ sufficient
  · intro unlisted
    by_contra open_
    apply unlisted
    exact List.mem_map_of_mem (List.mem_filter.2 ⟨configured, decide_eq_true open_⟩)

theorem Derived.counted (derived : Derived s statuses evidence gaps) {status : ResearchObjectiveStatus} (mem : status ∈ statuses) :
    status.evidenceCount = (evidence.filter fun e => status.objectiveId ∈ e.objectiveIds).length := by
  obtain ⟨o, -, here⟩ := derived.objective mem
  rw [here.count, here.identifier, evidenceCount, ← derived.evidence, List.filter_map, List.length_map]
  rfl

/-- No two entries of a sound ledger are of one source. -/
theorem Derived.distinct (derived : Derived s statuses evidence gaps) (sound : Sound s) :
    (evidence.map fun e => (e.documentId, e.chunkId)).Nodup := by
  have keys_ : keys s.ledger =
      (evidence.map fun e => (e.documentId, e.chunkId)).map fun source => sourceKey source.1 source.2 := by
    rw [keys, ← derived.evidence, List.map_map, List.map_map]
    rfl
  exact List.Nodup.of_map _ (keys_ ▸ sound.distinct)

/-- What is derived from a sound session passes the validators of a summary. -/
theorem Derived.builds (derived : Derived s statuses evidence gaps) (sound : Sound s) :
    ∃ summary, ResearchSummary.build statuses evidence gaps s.evidenceCapped = some summary ∧ Agrees s summary ∧
      summary.objectives.map ResearchObjectiveStatus.objectiveId = s.config.objectives.map ResearchObjective.objectiveId := by
  have lengths : statuses.length = s.config.objectives.length ∧ evidence.length = s.ledger.length ∧
      gaps.length = s.gapObjectives.length := by
    refine ⟨derived.objectives.length_eq.symm, ?_, ?_⟩
    · rw [← derived.evidence, List.length_map]
    · have same := congrArg List.length derived.gaps
      rwa [List.length_map, List.length_map] at same
  have sub : List.Sublist (s.gapObjectives.map ResearchObjective.objectiveId) (s.config.objectives.map ResearchObjective.objectiveId) :=
    List.filter_sublist.map _
  have few : (1 ≤ statuses.length ∧ statuses.length ≤ 6) ∧ evidence.length ≤ 6 ∧ gaps.length ≤ 6 := by
    rw [lengths.1, lengths.2.1, lengths.2.2]
    have gaps_ : s.gapObjectives.length ≤ s.config.objectives.length := List.length_filter_le _ _
    have configured := s.config.few
    have entries := s.config.evidence_range
    have capacity := sound.capacity
    omega
  have distinct : (statuses.map ResearchObjectiveStatus.objectiveId).Nodup ∧
      (evidence.map fun e => (e.documentId, e.chunkId)).Nodup ∧ (gaps.map ResearchGap.objectiveId).Nodup := by
    refine ⟨?_, derived.distinct sound, ?_⟩
    · rw [derived.identifiers]
      exact s.config.distinct
    · rw [derived.gap_identifiers]
      exact s.config.distinct.sublist sub
  have known : (∀ e ∈ evidence, ∀ id ∈ e.objectiveIds, id ∈ statuses.map ResearchObjectiveStatus.objectiveId) ∧
      ∀ gap ∈ gaps, gap.objectiveId ∈ statuses.map ResearchObjectiveStatus.objectiveId := by
    rw [derived.identifiers]
    constructor
    · intro e mem id associated
      have stored : e.entry ∈ s.ledger := derived.evidence ▸ List.mem_map_of_mem mem
      obtain ⟨o, configured, same, -⟩ := (sound.valid _ stored).inScope id associated
      exact same ▸ List.mem_map_of_mem configured
    · intro gap mem
      have listed : gap.objectiveId ∈ gaps.map ResearchGap.objectiveId := List.mem_map_of_mem mem
      rw [derived.gap_identifiers] at listed
      exact sub.subset listed
  have follows : (∀ status ∈ statuses, status.evidenceCount = (evidence.filter fun e => status.objectiveId ∈ e.objectiveIds).length) ∧
      (∀ status ∈ statuses, status.coverage = .none_ ↔ status.evidenceCount = 0) ∧
      ∀ status ∈ statuses, status.coverage = .sufficient ↔ status.objectiveId ∉ gaps.map ResearchGap.objectiveId := by
    refine ⟨fun status => derived.counted, ?_, fun status => derived.gaps_exact⟩
    intro status mem
    obtain ⟨o, -, here⟩ := derived.objective mem
    rw [here.coverage, here.count]
    exact expectedCoverage_none
  rw [ResearchSummary.build, dif_pos few, dif_pos distinct, dif_pos known, dif_pos follows]
  exact ⟨_, rfl, ⟨derived.evidence, derived.objectives, derived.gaps, rfl⟩, derived.identifiers⟩

end Derivation

/-- **A sound session has a summary**, and it says what the session holds. -/
theorem summary_exists {s : ResearchSession} (sound : Sound s) :
    ∃ summary, s.summary = some summary ∧ Agrees s summary ∧
      summary.objectives.map ResearchObjectiveStatus.objectiveId = s.config.objectives.map ResearchObjective.objectiveId := by
  obtain ⟨statuses, statuses_⟩ := Checked.mapM_exists fun o (_ : o ∈ s.config.objectives) => status_exists sound o
  obtain ⟨gaps, gaps_⟩ := Checked.mapM_exists fun o (_ : o ∈ s.gapObjectives) => gap_exists s o
  obtain ⟨evidence, evidence_⟩ := Checked.mapM_exists fun e (mem : e ∈ s.ledger) => (sound.valid e mem).validates
  have derived : Derived s statuses evidence gaps := {
    evidence := by
      rw [Checked.map_of_forall₂ (g := id) (Checked.mapM_eq_some.1 evidence_) fun _ _ passed => LedgerEntry.validate_entry passed]
      exact List.map_id _
    objectives := (Checked.mapM_eq_some.1 statuses_).imp fun _ _ built => status_spec built
    gaps := Checked.map_of_forall₂ (Checked.mapM_eq_some.1 gaps_) fun _ _ built => gap_spec built }
  obtain ⟨summary, built, agrees, identifiers⟩ := derived.builds sound
  refine ⟨summary, ?_, agrees, identifiers⟩
  rw [ResearchSession.summary, statuses_, gaps_, evidence_]
  exact built

/-- A view adds the history, which has room for ten calls. -/
theorem view_exists {s : ResearchSession} (sound : Sound s) (few : s.actions.length ≤ 10) :
    ∃ view, s.view = some view ∧ Agrees s view.summary ∧ view.config = s.config ∧ view.actions = s.actions := by
  obtain ⟨summary, built, agrees, identifiers⟩ := summary_exists sound
  rw [view, built]
  show ∃ view, ResearchView.build summary s.config s.actions = some view ∧ _
  rw [ResearchView.build, dif_pos ⟨few, identifiers.symm⟩]
  exact ⟨_, rfl, agrees, rfl, rfl⟩

/-! ## Coherence -/

/-- What the ledger holds and what is derived from it, after the calls of a run. -/
structure Coherent (config : ResearchConfig) (s : ResearchSession) : Prop where
  configured : s.config = config
  entries : ∀ e ∈ s.ledger, e.Valid config
  distinct : (s.ledger.map fun e => (e.documentId, e.chunkId)).Nodup
  capacity : s.ledger.length ≤ config.maxEvidenceEntries
  capped : s.evidenceCapped = true → s.ledger.length = config.maxEvidenceEntries
  summary : ∃ summary, s.summary = some summary ∧ Agrees s summary

theorem Sound.coherent {s : ResearchSession} (sound : Sound s) : Coherent s.config s where
  configured := rfl
  entries := sound.valid
  distinct := by
    apply List.Nodup.of_map fun source : Option String × String => sourceKey source.1 source.2
    rw [List.map_map]
    exact sound.distinct
  capacity := sound.capacity
  capped := sound.capped
  summary := by
    obtain ⟨summary, built, agrees, -⟩ := summary_exists sound
    exact ⟨summary, built, agrees⟩

/-- **Research sessions are coherent**: when every tool is started as `before_tool` admits it and
only started tools are observed, the summary is built and agrees with the ledger, so is the view
after at most ten observed calls, attempts are the searches started, and the ledger of an earlier
moment stays. -/
theorem research_coherent {config : ResearchConfig} {limits : AgentLimits} {s : ResearchSession}
    (accepted : new config limits = some s) {calls : List Call} (admitted : Runs.Along step Admitted s calls) :
    Coherent config (Runs.run step s calls) ∧
      ((calls.filter Call.isObserved).length ≤ 10 →
        ∃ view, (Runs.run step s calls).view = some view ∧ Agrees (Runs.run step s calls) view.summary ∧
          view.config = config ∧ view.actions = (Runs.run step s calls).actions) ∧
      (∀ id, (Runs.run step s calls).searchAttempts id = (calls.filter (Call.startsSearch id)).length) ∧
      ∀ before after, calls = before ++ after → Advances (Runs.run step s before) (Runs.run step s calls) := by
  obtain ⟨sound, config_, actions, attempts⟩ := new_sound accepted
  have advances := run_advances sound admitted
  refine ⟨?_, ?_, ?_, ?_⟩
  · rw [← config_, ← advances.config]
    exact (run_sound sound admitted).coherent
  · intro few
    have history := run_actions sound admitted
    rw [actions, List.length_nil, Nat.zero_add] at history
    rw [← config_, ← advances.config]
    exact view_exists (run_sound sound admitted) (Nat.le_trans history few)
  · intro id
    rw [run_attempts sound admitted id, attempts, Nat.zero_add]
  · rintro before after rfl
    obtain ⟨first, second⟩ := Runs.along_append.1 admitted
    rw [Runs.run_append]
    exact run_advances (run_sound sound first) second

/-! ## Samples -/

theorem sampleObjectives_named : ["growth", "margin"].all objectivePattern.fullmatch = true := by decide +kernel

theorem sampleScope_ticker : isTicker "AAPL".toList = true := by decide +kernel

/-- One objective within a company, and one without a scope. -/
def sampleResearch : ResearchConfig where
  objectives :=
    [⟨"growth", "How did revenue grow?", some "AAPL", List.all_eq_true.1 sampleObjectives_named "growth" (.head _),
      sampleScope_ticker⟩,
     ⟨"margin", "What is the margin?", none, List.all_eq_true.1 sampleObjectives_named "margin" (.tail _ (.head _)), rfl⟩]
  maxEvidenceEntries := 2
  maxSearchAttemptsPerObjective := 1
  minEvidencePerObjective := 1
  few := ⟨Nat.le_of_ble_eq_true rfl, Nat.le_of_ble_eq_true rfl⟩
  evidence_range := ⟨Nat.le_of_ble_eq_true rfl, Nat.le_of_ble_eq_true rfl⟩
  search_range := ⟨Nat.le_of_ble_eq_true rfl, Nat.le_of_ble_eq_true rfl⟩
  minimum_range := ⟨Nat.le_of_ble_eq_true rfl, Nat.le_of_ble_eq_true rfl⟩
  distinct := by decide +kernel
  scopes := by decide +kernel

def sampleSearch (ticker : Option String) : ToolArguments :=
  ⟨none, ticker, some "revenue", .obj [("query", .str "revenue")]⟩

def sampleSession : ResearchSession :=
  ⟨sampleResearch, [], [], [], fun _ => 0, false⟩

theorem sampleSession_new : new sampleResearch sampleLimits = some sampleSession := by
  rw [new, if_pos (by decide)]
  rfl

/-- A source is found for one objective and shared with the other; a third one has no room. -/
def sampleCalls : List Call :=
  [.beforeTool (some "growth") .searchDocuments (sampleSearch (some "AAPL")),
    .startTool "growth" .searchDocuments (sampleSearch (some "AAPL")),
    .observed "growth" .searchDocuments (sampleSearch (some "AAPL"))
      [⟨some "AAPL:10-K", "AAPL_1"⟩, ⟨some "MSFT:10-K", "MSFT_1"⟩] 1,
    .startTool "margin" .searchDocuments (sampleSearch none),
    .observed "margin" .searchDocuments (sampleSearch none)
      [⟨some "AAPL:10-K", "AAPL_1"⟩, ⟨some "MSFT:10-K", "MSFT_1"⟩, ⟨some "MSFT:10-K", "MSFT_2"⟩] 2]

theorem sample_coherent : Coherent sampleResearch (Runs.run step sampleSession sampleCalls) ∧
    ∃ view, (Runs.run step sampleSession sampleCalls).view = some view := by
  have admitted : Runs.Along step Admitted sampleSession sampleCalls := by decide +kernel
  have coherent := research_coherent sampleSession_new admitted
  obtain ⟨view, built, -⟩ := coherent.2.1 (by decide)
  exact ⟨coherent.1, view, built⟩

/-! ## Histories -/

/-- Reads that find nothing, each admitted, started and observed. -/
def reads (objectiveId : String) (documents : List ToolArguments) : List Call :=
  documents.flatMap fun arguments =>
    [.beforeTool (some objectiveId) .readDocument arguments, .startTool objectiveId .readDocument arguments,
      .observed objectiveId .readDocument arguments [] 1]

theorem observed_nothing {s : ResearchSession} {id : String} {o : ResearchObjective} (found : s.objective (some id) = some o)
    (arguments : ToolArguments) (step : Nat) :
    ∃ action, s.observed id .readDocument arguments [] step = { s with actions := s.actions ++ [action] } := by
  have identifier : objectivePattern.fullmatch id = true := Option.some.inj (objective_mem found).2 ▸ o.identifier
  rw [observed, found]
  dsimp only [observeRecords]
  rw [ResearchAction.build, dif_pos ⟨identifier, Sha256.isSha256Text_hexdigest _, rfl⟩]
  exact ⟨_, rfl⟩

/-- **Any number of different reads** is admitted for an objective without a scope, and each of them
leaves an action. -/
theorem reads_admitted {id : String} {o : ResearchObjective} (documents : List ToolArguments) {s : ResearchSession}
    (found : s.objective (some id) = some o) (unscoped : o.tickerScope = none)
    (new_ : ∀ arguments ∈ documents, (id, fingerprint .readDocument arguments) ∉ s.seen)
    (distinct : (documents.map (fingerprint .readDocument)).Nodup) :
    Runs.Along step Admitted s (reads id documents) ∧
      (Runs.run step s (reads id documents)).actions.length = s.actions.length + documents.length := by
  induction documents generalizing s with
  | nil => exact ⟨trivial, rfl⟩
  | cons arguments documents ih =>
    have same : o.objectiveId = id := Option.some.inj (objective_mem found).2
    obtain ⟨action, here⟩ := observed_nothing (s := s.startTool id .readDocument arguments) found arguments 1
    rw [List.map_cons, List.nodup_cons] at distinct
    obtain ⟨rest, length⟩ := ih (s := (s.startTool id .readDocument arguments).observed id .readDocument arguments [] 1)
      (by rw [here]; exact found) (by
        intro later mem
        rw [here]
        show (id, _) ∉ (id, fingerprint .readDocument arguments) :: s.seen
        rw [List.mem_cons, not_or, Prod.mk.injEq, not_and]
        refine ⟨fun _ equal_ => ?_, new_ later (List.mem_cons_of_mem _ mem)⟩
        exact distinct.1 (equal_ ▸ List.mem_map_of_mem mem)) distinct.2
    have admitted : s.beforeTool (some id) .readDocument arguments = none := by
      rw [beforeTool, found]
      dsimp only
      rw [if_neg (by rw [scopeMismatch, unscoped]; exact Bool.false_ne_true), same, if_neg (new_ arguments List.mem_cons_self)]
      rfl
    constructor
    · exact ⟨trivial, admitted, List.mem_cons_self, rest⟩
    · show (Runs.run step ((s.startTool id .readDocument arguments).observed id .readDocument arguments [] 1) (reads id documents)).actions.length = _
      rw [length, here]
      show (s.actions ++ [action]).length + documents.length = s.actions.length + (arguments :: documents).length
      rw [List.length_append, List.length_singleton, List.length_cons]
      omega

theorem view_none {s : ResearchSession} (many : 10 < s.actions.length) : s.view = none := by
  rw [view]
  cases s.summary with
  | none => rfl
  | some summary =>
    show ResearchView.build summary s.config s.actions = none
    rw [ResearchView.build, dif_neg]
    exact fun fits => Nat.not_le.2 many fits.1

def sampleRead (document : String) : ToolArguments :=
  ⟨some document, some "AAPL", none, .obj [("document_id", .str document)]⟩

/-- Eleven filings. -/
def sampleFilings : List ToolArguments :=
  ["AAPL:1", "AAPL:2", "AAPL:3", "AAPL:4", "AAPL:5", "AAPL:6", "AAPL:7", "AAPL:8", "AAPL:9", "AAPL:10", "AAPL:11"].map sampleRead

theorem sampleFilings_distinct : (sampleFilings.map (fingerprint .readDocument)).Nodup := by decide +kernel

/-- **The history overflows**: a session bounds the searches, not the reads, so eleven of them are
admitted and observed, and the view has room for ten. -/
theorem history_overflows :
    new sampleResearch sampleLimits = some sampleSession ∧ Runs.Along step Admitted sampleSession (reads "margin" sampleFilings) ∧
      (Runs.run step sampleSession (reads "margin" sampleFilings)).view = none := by
  obtain ⟨admitted, length⟩ := reads_admitted sampleFilings
    (show sampleSession.objective (some "margin") = some _ by rfl) rfl (fun _ _ => List.not_mem_nil) sampleFilings_distinct
  refine ⟨sampleSession_new, admitted, view_none ?_⟩
  rw [length]
  decide

end ResearchSession

end Agent
