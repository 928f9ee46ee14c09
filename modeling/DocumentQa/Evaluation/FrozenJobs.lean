import DocumentQa.Evaluation.JobStore
import DocumentQa.Jobs.Admission
import Mathlib.Data.List.Perm.Subperm
import Mathlib.Data.List.ProdSigma

/-!
# Frozen evaluation jobs

What a call can write into the evaluation tables is said once (`Writes`): one row, for a job
that is executing, that fits the payload the job was admitted with. Everything else follows:
the attempts of a job are numbered within its budget, its results and its report fit its frozen
cases, nothing is taken back, and a job that has stopped gets no more rows.
-/

namespace EvaluationJobs

open Python SqlTable Jobs
open JsonText (Json)

/-! ## Calls -/

/-- A call of a mutator of the job repository or of the evaluation store. -/
inductive StoreCall where
  | job (call : JobCall)
  | registerArtifact (content : String)
  | reserveAttempt (jobId caseId : String) (phase : Phase)
  | commitCase (jobId : String) (ordinal : Int) (caseId : String) (result : JsonObject)
  | commitReport (jobId : String) (report : Native.NativeReport)

section Calls

variable (m : Native.Machine)

/-- A call of the job repository, within the same database. -/
def jobBody (repo : JobRepository) (call : JobCall) (db : Store) : Except Exn (Store × JobReply) := do
  let (jobs, reply) ← lift (body repo call db.jobs)
  pure ({ db with jobs }, reply)

/-- The store after a call: what its transaction commits, or the store as it was. -/
def perform (db : Store) (input : JobRepository × StoreCall) : Store :=
  match input.2 with
  | .job call => Checked.commit (jobBody input.1 call db) db
  | .registerArtifact content => Checked.commit (registerArtifact input.1 content db) db
  | .reserveAttempt jobId caseId phase => Checked.commit (reserveAttempt input.1 jobId caseId phase db) db
  | .commitCase jobId ordinal caseId result => Checked.commit (commitCase input.1 jobId ordinal caseId result db) db
  | .commitReport jobId report => Checked.commit (commitReport m input.1 jobId report db) db

/-- The store after some calls. -/
def history (inputs : List (JobRepository × StoreCall)) : Store :=
  Runs.run (perform m) .empty inputs

end Calls

/-! ## What a call writes -/

/-- The job is an evaluation whose payload decodes to the snapshot. -/
def Frozen (jobs : JobStore) (jobId : String) (snapshot : List (String × Json)) : Prop :=
  ∃ r ∈ jobs.jobs.rows, r.jobId = jobId ∧ r.jobNamespace = .evaluation ∧ snapshotOf r.payloadJson = .ok snapshot

/-- The job is in the store and in one of the states. -/
def InState (jobs : JobStore) (jobId : String) (states : List JobState) : Prop :=
  ∃ r ∈ jobs.jobs.rows, r.jobId = jobId ∧ r.state ∈ states

/-- An attempt that fits its job. -/
def FitsBudget (jobs : JobStore) (a : AttemptRow) (used : Nat) : Prop :=
  ∃ snapshot limit, Frozen jobs a.jobId snapshot ∧ budgetLimit snapshot = some limit ∧ (used : Int) ≤ limit ∧
    contains a.caseId (getOrEmpty "case_ids" snapshot) = .ok true

/-- A result that fits its job. -/
structure FitsCase (jobs : JobStore) (x : ResultRow) : Prop where
  frozen : ∃ snapshot, Frozen jobs x.jobId snapshot ∧ named x.ordinal x.caseId (getOrEmpty "case_ids" snapshot) = .ok true
  text : ∃ result : JsonObject, canonicalJsonText result.json = some x.resultJson ∧
    result.get? "case_id" = some (.str x.caseId) ∧ utf8Length x.resultJson ≤ maxCaseResultBytes

/-- A report that fits its job. -/
def FitsPlan (m : Native.Machine) (jobs : JobStore) (x : ReportRow) : Prop :=
  ∃ snapshot report, Frozen jobs x.jobId snapshot ∧ reportContent m report = .ok x.reportJson ∧
    matchesFrozen x.jobId snapshot report = .ok true

/-- **What a call does** to the store. -/
inductive Writes (m : Native.Machine) (db : Store) : Store → Prop
  | same : Writes m db db
  | jobs {forbidden : List String} {jobs : JobStore} (h : Evolves forbidden db.jobs jobs) : Writes m db { db with jobs }
  | artifact {r : ArtifactRow} {artifacts : Table ArtifactRow} (h : db.artifacts.insert? r = some artifacts)
      (named : r.artifactDigest = contentDigest r.content) : Writes m db { db with artifacts }
  | attempt {a : AttemptRow} {attempts : Table AttemptRow} (h : db.attempts.insert? a = some attempts)
      (next : a.ordinal = db.attemptedCount a.jobId + 1) (open_ : InState db.jobs a.jobId [.running])
      (fits : FitsBudget db.jobs a a.ordinal) : Writes m db { db with attempts }
  | result {x : ResultRow} {results : Table ResultRow} (h : db.results.insert? x = some results)
      (open_ : InState db.jobs x.jobId [.running, .cancelling]) (fits : FitsCase db.jobs x) :
      Writes m db { db with results }
  | report {x : ReportRow} {reports : Table ReportRow} (h : db.reports.insert? x = some reports)
      (open_ : InState db.jobs x.jobId [.running, .cancelling]) (fits : FitsPlan m db.jobs x) :
      Writes m db { db with reports }

section Specs

variable {m : Native.Machine} {repo : JobRepository} {db db' : Store}

theorem lift_eq_ok {α : Type} {x : Except PyError α} {a : α} : lift x = .ok a ↔ x = .ok a := by
  cases x <;> simp [lift, Except.mapError]

theorem rewrap_eq_ok {α : Type} {kind : ErrorClass} {message : String} {x : Except Exn α} {a : α} :
    rewrap kind message x = .ok a ↔ x = .ok a := by
  cases x <;> simp [rewrap]

theorem evaluationJob_eq_ok {jobId : String} {states : List JobState} {e : Exn} {job : JobRow}
    (h : evaluationJob db jobId states e = .ok job) :
    job ∈ db.jobs.jobs.rows ∧ job.jobId = jobId ∧ job.jobNamespace = .evaluation ∧ job.state ∈ states := by
  simp only [evaluationJob, Checked.bind_eq_ok, Checked.orRaise_eq_ok, Checked.require_eq_ok, Checked.pure_eq_ok] at h
  obtain ⟨row, found, -, ⟨evaluation, state⟩, rfl⟩ := h
  obtain ⟨mem, same⟩ := job?_spec found
  exact ⟨mem, same, evaluation, state⟩

theorem jobBody_writes {call : JobCall} {reply : JobReply} (h : jobBody repo call db = .ok (db', reply)) : Writes m db db' := by
  simp only [jobBody, Checked.bind_eq_ok, lift_eq_ok, Checked.pure_eq_ok, Prod.mk.injEq] at h
  obtain ⟨⟨jobs, reply'⟩, performed, rfl, -⟩ := h
  exact .jobs (body_evolves performed)

theorem registerArtifact_writes {content digest : String} (h : registerArtifact repo content db = .ok (db', digest)) :
    Writes m db db' := by
  simp only [registerArtifact, Checked.bind_eq_ok, Checked.orRaise_eq_ok, Checked.require_eq_ok, Checked.pure_eq_ok,
    Prod.mk.injEq] at h
  obtain ⟨-, -, -, -, stored, -, -, -, rfl, -⟩ := h
  cases inserted : db.artifacts.insert? ⟨contentDigest content, content, utf8Length content⟩ with
  | none => exact .same
  | some artifacts => exact .artifact inserted rfl

theorem reserveAttempt_spec {jobId caseId : String} {phase : Phase} {ordinal : Nat}
    (h : reserveAttempt repo jobId caseId phase db = .ok (db', ordinal)) :
    ∃ attempts, db.attempts.insert? ⟨jobId, ordinal, caseId, phase, repo.clock⟩ = some attempts ∧
      db' = { db with attempts } ∧ ordinal = db.attemptedCount jobId + 1 ∧ InState db.jobs jobId [.running] ∧
      FitsBudget db.jobs ⟨jobId, ordinal, caseId, phase, repo.clock⟩ ordinal := by
  simp only [reserveAttempt, Checked.bind_eq_ok, Checked.orRaise_eq_ok, Checked.require_eq_ok, Checked.pure_eq_ok,
    Prod.mk.injEq] at h
  obtain ⟨job, found, snapshot, decoded, limit, bounded, known, among, -, rfl, -, room, -, -, attempts, inserted, rfl, rfl⟩ := h
  obtain ⟨mem, same, evaluation, state⟩ := evaluationJob_eq_ok found
  refine ⟨attempts, inserted, rfl, rfl, ⟨job, mem, same, state⟩, ⟨snapshot, limit, ⟨job, mem, same, evaluation, decoded⟩, bounded, ?_, among⟩⟩
  push_cast
  omega

theorem commitCase_spec {jobId caseId : String} {ordinal : Int} {result : JsonObject} {u : Unit}
    (h : commitCase repo jobId ordinal caseId result db = .ok (db', u)) :
    (∃ x ∈ db'.results.rows, x.jobId = jobId ∧ x.caseId = caseId ∧ x.ordinal = ordinal.toNat ∧
      canonicalJsonText result.json = some x.resultJson) ∧ Writes m db db' := by
  simp only [commitCase, Checked.bind_eq_ok, Checked.orRaise_eq_ok, Checked.require_eq_ok, rewrap_eq_ok, lift_eq_ok] at h
  obtain ⟨encoded, text, -, short, -, -, job, found, snapshot, decoded, matching, named_, -, ⟨rfl, ofCase⟩, h⟩ := h
  obtain ⟨mem, same, evaluation, state⟩ := evaluationJob_eq_ok found
  split at h
  · next existing stored =>
    simp only [Checked.bind_eq_ok, Checked.require_eq_ok, Checked.pure_eq_ok, Prod.mk.injEq] at h
    obtain ⟨-, ⟨position, rfl⟩, rfl, -⟩ := h
    have own : existing.jobId = jobId ∧ existing.caseId = caseId := by simpa using Table.find?_holds stored
    exact ⟨⟨existing, Table.find?_mem stored, own.1, own.2, position, text⟩, .same⟩
  · simp only [Checked.bind_eq_ok, Checked.orRaise_eq_ok, Checked.pure_eq_ok, Prod.mk.injEq] at h
    obtain ⟨results, inserted, rfl, -⟩ := h
    have nonneg : 0 ≤ ordinal := by
      unfold named at named_
      split at named_
      all_goals simp at named_
      · exact named_.1
      · exact named_.1
      · split at named_ <;> simp at named_
    have back : ((ordinal.toNat : Nat) : Int) = ordinal := Int.toNat_of_nonneg nonneg
    refine ⟨⟨⟨jobId, ordinal.toNat, caseId, encoded, repo.clock⟩, ?_, rfl, rfl, rfl, text⟩, .result inserted ⟨job, mem, same, state⟩ ⟨⟨snapshot, ⟨job, mem, same, evaluation, decoded⟩, ?_⟩,
      result, text, ofCase, short⟩⟩
    · rw [Table.insert?_rows inserted]
      exact List.mem_append_right _ (List.mem_singleton_self _)
    · show named ((ordinal.toNat : Nat) : Int) caseId _ = _
      rw [back]
      exact named_

theorem commitCase_jobs {jobId caseId : String} {ordinal : Int} {result : JsonObject} {u : Unit}
    (h : commitCase repo jobId ordinal caseId result db = .ok (db', u)) : db'.jobs = db.jobs := by
  simp only [commitCase, Checked.bind_eq_ok] at h
  obtain ⟨encoded, -, -, -, -, -, job, -, snapshot, -, matching, -, -, -, h⟩ := h
  split at h
  · simp only [Checked.bind_eq_ok, Checked.pure_eq_ok, Prod.mk.injEq] at h
    obtain ⟨-, -, rfl, -⟩ := h
    rfl
  · simp only [Checked.bind_eq_ok, Checked.pure_eq_ok, Prod.mk.injEq] at h
    obtain ⟨results, -, rfl, -⟩ := h
    rfl

theorem commitReport_jobs {jobId : String} {report : Native.NativeReport} {u : Unit}
    (h : commitReport m repo jobId report db = .ok (db', u)) : db'.jobs = db.jobs := by
  simp only [commitReport, Checked.bind_eq_ok] at h
  obtain ⟨content, -, job, -, snapshot, -, matching, -, -, -, h⟩ := h
  split at h
  · simp only [Checked.bind_eq_ok, Checked.pure_eq_ok, Prod.mk.injEq] at h
    obtain ⟨-, -, rfl, -⟩ := h
    rfl
  · simp only [Checked.bind_eq_ok, Checked.pure_eq_ok, Prod.mk.injEq] at h
    obtain ⟨reports, -, rfl, -⟩ := h
    rfl

theorem commitReport_spec {jobId : String} {report : Native.NativeReport} {u : Unit}
    (h : commitReport m repo jobId report db = .ok (db', u)) :
    (∃ x ∈ db'.reports.rows, x.jobId = jobId ∧ reportContent m report = .ok x.reportJson ∧
      ∃ snapshot, Frozen db.jobs jobId snapshot ∧ matchesFrozen jobId snapshot report = .ok true) ∧ Writes m db db' := by
  simp only [commitReport, Checked.bind_eq_ok, Checked.require_eq_ok] at h
  obtain ⟨content, text, job, found, snapshot, decoded, matching, fits, -, rfl, h⟩ := h
  obtain ⟨mem, same, evaluation, state⟩ := evaluationJob_eq_ok found
  split at h
  · next row stored =>
    simp only [Checked.bind_eq_ok, Checked.require_eq_ok, Checked.pure_eq_ok, Prod.mk.injEq] at h
    obtain ⟨-, rfl, rfl, -⟩ := h
    have own : row.jobId = jobId := by simpa using Table.find?_holds stored
    exact ⟨⟨row, Table.find?_mem stored, own, text, snapshot, ⟨job, mem, same, evaluation, decoded⟩, fits⟩, .same⟩
  · simp only [Checked.bind_eq_ok, Checked.orRaise_eq_ok, Checked.pure_eq_ok, Prod.mk.injEq] at h
    obtain ⟨reports, inserted, rfl, -⟩ := h
    refine ⟨⟨⟨jobId, content, repo.clock⟩, ?_, rfl, text, snapshot, ⟨job, mem, same, evaluation, decoded⟩, fits⟩, .report inserted ⟨job, mem, same, state⟩
      ⟨snapshot, report, ⟨job, mem, same, evaluation, decoded⟩, text, fits⟩⟩
    rw [Table.insert?_rows inserted]
    exact List.mem_append_right _ (List.mem_singleton_self _)

theorem Writes.commit {α : Type} {x : Except Exn (Store × α)} (spec : ∀ new a, x = .ok (new, a) → Writes m db new) :
    Writes m db (Checked.commit x db) := by
  rcases Checked.commit_cases x db with ⟨new, a, h, e⟩ | e
  · rw [e]
    exact spec new a h
  · rw [e]
    exact .same

/-- **Every call writes** what `Writes` allows. -/
theorem perform_writes (db : Store) (input : JobRepository × StoreCall) : Writes m db (perform m db input) := by
  obtain ⟨repo, call⟩ := input
  cases call with
  | job call => exact .commit fun _ _ => jobBody_writes
  | registerArtifact content => exact .commit fun _ _ => registerArtifact_writes
  | reserveAttempt jobId caseId phase =>
    apply Writes.commit
    intro new ordinal h
    obtain ⟨attempts, inserted, rfl, next, open_, fits⟩ := reserveAttempt_spec h
    exact .attempt inserted next open_ fits
  | commitCase jobId ordinal caseId result => exact .commit fun _ _ h => (commitCase_spec h).2
  | commitReport jobId report => exact .commit fun _ _ h => (commitReport_spec h).2

end Specs

/-! ## What stays of a job -/

theorem Frozen.unique {jobs : JobStore} {jobId : String} {snapshot snapshot' : List (String × Json)}
    (h : Frozen jobs jobId snapshot) (h' : Frozen jobs jobId snapshot') : snapshot = snapshot' := by
  obtain ⟨r, mem, same, -, decoded⟩ := h
  obtain ⟨r', mem', same', -, decoded'⟩ := h'
  obtain rfl := Table.eq_of_clashes mem mem' (sameJob_clashes (same.trans same'.symm))
  rw [decoded] at decoded'
  exact Except.ok.inj decoded'

theorem Frozen.evolves {forbidden : List String} {jobs jobs' : JobStore} {jobId : String} {snapshot : List (String × Json)}
    (h : Evolves forbidden jobs jobs') (frozen : Frozen jobs jobId snapshot) : Frozen jobs' jobId snapshot := by
  obtain ⟨r, mem, same, evaluation, decoded⟩ := frozen
  have held : Holds jobs jobId (fun a => a.jobNamespace = .evaluation ∧ snapshotOf a.payloadJson = .ok snapshot)
      (stepNames jobs jobId) := ⟨r, mem, same, ⟨evaluation, decoded⟩, rfl⟩
  obtain ⟨r', mem', same', ⟨evaluation', decoded'⟩, -⟩ := h.holds held
  exact ⟨r', mem', same', evaluation', decoded'⟩

/-- A job in one of two sets of states is in a state they share. -/
theorem InState.both {jobs : JobStore} {jobId : String} {states states' : List JobState} (h : InState jobs jobId states)
    (h' : InState jobs jobId states') : ∃ s ∈ states, s ∈ states' := by
  obtain ⟨r, mem, same, state⟩ := h
  obtain ⟨r', mem', same', state'⟩ := h'
  obtain rfl := Table.eq_of_clashes mem mem' (sameJob_clashes (same.trans same'.symm))
  exact ⟨r.state, state, state'⟩

/-- The states of a job that will not be executed further. -/
def closed : List JobState :=
  [.cancelling, .cancelled, .succeeded, .failed, .interrupted]

/-- The terminal states. -/
def finished : List JobState :=
  [.cancelled, .succeeded, .failed, .interrupted]

theorem InState.follows_finished {jobs jobs' : JobStore} {jobId : String} (follows : Follows jobs jobs')
    (h : InState jobs jobId finished) : InState jobs' jobId finished := by
  obtain ⟨r, mem, same, state⟩ := h
  obtain ⟨r', mem', same', stays, -⟩ := follows r mem
  have terminal : r.state.terminal = true := by
    cases hs : r.state <;> simp [hs, finished, JobState.terminal] at state ⊢
  obtain ⟨rfl, -, -⟩ := stays terminal
  exact ⟨r', mem', same, state⟩

theorem InState.follows_closed {jobs jobs' : JobStore} {jobId : String} (follows : Follows jobs jobs')
    (h : InState jobs jobId closed) : InState jobs' jobId closed := by
  obtain ⟨r, mem, same, state⟩ := h
  obtain ⟨r', mem', same', stays, withdrawn⟩ := follows r mem
  refine ⟨r', mem', same'.trans same, ?_⟩
  cases terminal : r.state.terminal with
  | true =>
    obtain ⟨rfl, -, -⟩ := stays terminal
    exact state
  | false =>
    have cancelling : r.state = .cancelling := by
      cases hs : r.state <;> simp [hs, closed, JobState.terminal] at state terminal ⊢
    rcases withdrawn (.inl cancelling) with now | now | now
    all_goals
      rw [now]
      decide

/-! ## The invariant -/

/-- What holds of the evaluation tables in every state. -/
structure Sound (m : Native.Machine) (db : Store) : Prop where
  numbered : ∀ jobId, (db.attemptsOf jobId).map (·.ordinal) = List.range' 1 (db.attemptedCount jobId)
  budget : ∀ a ∈ db.attempts.rows, FitsBudget db.jobs a (db.attemptedCount a.jobId)
  results : ∀ x ∈ db.results.rows, FitsCase db.jobs x
  reports : ∀ x ∈ db.reports.rows, FitsPlan m db.jobs x
  artifacts : ∀ r ∈ db.artifacts.rows, r.artifactDigest = contentDigest r.content

/-- How a store may follow another: rows are only added, none to the attempts of a closed job
and none at all to a finished one. -/
structure Extends (db db' : Store) : Prop where
  follows : Follows db.jobs db'.jobs
  frozen : ∀ jobId snapshot, Frozen db.jobs jobId snapshot → Frozen db'.jobs jobId snapshot
  artifacts : db.artifacts.rows <+: db'.artifacts.rows
  attempts : db.attempts.rows <+: db'.attempts.rows
  results : db.results.rows <+: db'.results.rows
  reports : db.reports.rows <+: db'.reports.rows
  closed : ∀ jobId, InState db.jobs jobId closed → db'.attemptsOf jobId = db.attemptsOf jobId
  finished : ∀ jobId, InState db.jobs jobId finished →
    db'.resultsOf jobId = db.resultsOf jobId ∧ db'.report? jobId = db.report? jobId

theorem Extends.refl (db : Store) : Extends db db :=
  ⟨.refl _, fun _ _ => id, List.prefix_rfl, List.prefix_rfl, List.prefix_rfl, List.prefix_rfl, fun _ _ => rfl,
    fun _ _ => ⟨rfl, rfl⟩⟩

theorem Extends.trans {a b c : Store} (h : Extends a b) (h' : Extends b c) : Extends a c where
  follows := h.follows.trans h'.follows
  frozen jobId snapshot := h'.frozen jobId snapshot ∘ h.frozen jobId snapshot
  artifacts := h.artifacts.trans h'.artifacts
  attempts := h.attempts.trans h'.attempts
  results := h.results.trans h'.results
  reports := h.reports.trans h'.reports
  closed jobId state := (h'.closed jobId (state.follows_closed h.follows)).trans (h.closed jobId state)
  finished jobId state := by
    obtain ⟨results, reports⟩ := h.finished jobId state
    obtain ⟨results', reports'⟩ := h'.finished jobId (state.follows_finished h.follows)
    exact ⟨results'.trans results, reports'.trans reports⟩

/-! ## One row more -/

section Insert

variable {ρ : Type} [Row ρ] {t t' : Table ρ} {r : ρ}

/-- The rows of one owner after an insertion. -/
theorem select_insert (inserted : t.insert? r = some t') (p : ρ → Bool) :
    t'.select p = if p r = true then t.select p ++ [r] else t.select p := by
  rw [Table.select, Table.insert?_rows inserted, List.filter_append]
  cases own : p r with
  | true => simp [Table.select, own]
  | false => simp [Table.select, own]

theorem prefix_insert (inserted : t.insert? r = some t') : t.rows <+: t'.rows := by
  rw [Table.insert?_rows inserted]
  exact List.prefix_append _ _

theorem mem_insert (inserted : t.insert? r = some t') {x : ρ} (mem : x ∈ t'.rows) : x ∈ t.rows ∨ x = r := by
  rw [Table.insert?_rows inserted] at mem
  rcases List.mem_append.1 mem with mem | mem
  · exact .inl mem
  · exact .inr (List.mem_singleton.1 mem)

theorem find?_insert (inserted : t.insert? r = some t') {p : ρ → Bool} (other : p r = false) : t'.find? p = t.find? p := by
  rw [Table.find?, Table.insert?_rows inserted, List.find?_append]
  simp [Table.find?, other]

end Insert

section Steps

variable {m : Native.Machine} {db db' : Store}

/-- **One call** only adds rows. -/
theorem Writes.extends (h : Writes m db db') : Extends db db' := by
  have still := Extends.refl db
  cases h with
  | same => exact still
  | jobs h => exact { still with follows := h.follows, frozen := fun _ _ => Frozen.evolves h }
  | artifact h => exact { still with artifacts := prefix_insert h }
  | @attempt a attempts h _ open_ _ =>
    refine { still with attempts := prefix_insert h, closed := fun jobId state => ?_ }
    have other : a.jobId ≠ jobId := by
      rintro rfl
      obtain ⟨s, running, now⟩ := open_.both state
      obtain rfl := List.mem_singleton.1 running
      simp [closed] at now
    exact (select_insert h _).trans (if_neg (by simpa using other))
  | @result x results h open_ _ =>
    refine { still with results := prefix_insert h, finished := fun jobId state => ⟨?_, rfl⟩ }
    have other : x.jobId ≠ jobId := by
      rintro rfl
      obtain ⟨s, active, now⟩ := open_.both state
      simp only [List.mem_cons, List.not_mem_nil, or_false] at active
      rcases active with rfl | rfl <;> simp [finished] at now
    exact (select_insert h _).trans (if_neg (by simpa using other))
  | @report x reports h open_ _ =>
    refine { still with reports := prefix_insert h, finished := fun jobId state => ⟨rfl, ?_⟩ }
    have other : x.jobId ≠ jobId := by
      rintro rfl
      obtain ⟨s, active, now⟩ := open_.both state
      simp only [List.mem_cons, List.not_mem_nil, or_false] at active
      rcases active with rfl | rfl <;> simp [finished] at now
    exact find?_insert h (by simpa using other)

theorem FitsBudget.evolves {forbidden : List String} {jobs jobs' : JobStore} {a : AttemptRow} {used : Nat}
    (h : Evolves forbidden jobs jobs') (fits : FitsBudget jobs a used) : FitsBudget jobs' a used := by
  obtain ⟨snapshot, limit, frozen, rest⟩ := fits
  exact ⟨snapshot, limit, frozen.evolves h, rest⟩

theorem FitsCase.evolves {forbidden : List String} {jobs jobs' : JobStore} {x : ResultRow}
    (h : Evolves forbidden jobs jobs') (fits : FitsCase jobs x) : FitsCase jobs' x := by
  obtain ⟨⟨snapshot, frozen, at_⟩, text⟩ := fits
  exact ⟨⟨snapshot, frozen.evolves h, at_⟩, text⟩

theorem FitsPlan.evolves {forbidden : List String} {jobs jobs' : JobStore} {x : ReportRow}
    (h : Evolves forbidden jobs jobs') (fits : FitsPlan m jobs x) : FitsPlan m jobs' x := by
  obtain ⟨snapshot, report, frozen, rest⟩ := fits
  exact ⟨snapshot, report, frozen.evolves h, rest⟩

theorem Sound.empty : Sound m .empty where
  numbered _ := rfl
  budget _ mem := absurd mem List.not_mem_nil
  results _ mem := absurd mem List.not_mem_nil
  reports _ mem := absurd mem List.not_mem_nil
  artifacts _ mem := absurd mem List.not_mem_nil

/-- The attempts of every job after one more. -/
theorem attemptsOf_insert (db : Store) {a : AttemptRow} {attempts : Table AttemptRow}
    (inserted : db.attempts.insert? a = some attempts) (jobId : String) : ({ db with attempts } : Store).attemptsOf jobId =
      if a.jobId = jobId then db.attemptsOf jobId ++ [a] else db.attemptsOf jobId := by
  refine (select_insert inserted _).trans ?_
  simp only [decide_eq_true_eq, Store.attemptsOf]

/-- **One call** keeps the invariant. -/
theorem Writes.sound (h : Writes m db db') (sound : Sound m db) : Sound m db' := by
  cases h with
  | same => exact sound
  | jobs h =>
    exact ⟨sound.numbered, fun a mem => (sound.budget a mem).evolves h, fun x mem => (sound.results x mem).evolves h,
      fun x mem => (sound.reports x mem).evolves h, sound.artifacts⟩
  | artifact h own =>
    refine { sound with artifacts := fun r mem => ?_ }
    rcases mem_insert h mem with mem | rfl
    · exact sound.artifacts r mem
    · exact own
  | @attempt a attempts h next _ fits =>
    have rows := attemptsOf_insert db h
    have counts (jobId : String) : ({ db with attempts } : Store).attemptedCount jobId =
        if a.jobId = jobId then db.attemptedCount jobId + 1 else db.attemptedCount jobId := by
      rw [Store.attemptedCount, rows, Store.attemptedCount]
      split
      · exact List.length_append
      · rfl
    refine { sound with numbered := fun jobId => ?_, budget := fun b mem => ?_ }
    · rw [rows, counts]
      split
      · next own =>
        rw [List.map_append, sound.numbered, List.range'_concat, List.map_singleton, next, own]
        simp [Nat.add_comm]
      · exact sound.numbered jobId
    · rw [counts]
      by_cases own : a.jobId = b.jobId
      · rw [if_pos own]
        rw [next, own] at fits
        rcases mem_insert h mem with mem | rfl
        · -- an earlier attempt of the job has the same frozen limit
          obtain ⟨snapshot, limit, frozen, bounded, -, known⟩ := sound.budget b mem
          obtain ⟨snapshot', limit', frozen', bounded', room, -⟩ := fits
          rw [own] at frozen'
          obtain rfl := frozen.unique frozen'
          rw [bounded] at bounded'
          obtain rfl := Option.some.inj bounded'
          exact ⟨snapshot, limit, frozen, bounded, room, known⟩
        · exact fits
      · rw [if_neg own]
        rcases mem_insert h mem with mem | rfl
        · exact sound.budget b mem
        · exact absurd rfl own
  | result h _ fits =>
    refine { sound with results := fun x mem => ?_ }
    rcases mem_insert h mem with mem | rfl
    · exact sound.results x mem
    · exact fits
  | report h _ fits =>
    refine { sound with reports := fun x mem => ?_ }
    rcases mem_insert h mem with mem | rfl
    · exact sound.reports x mem
    · exact fits

end Steps

/-! ## Histories -/

section Histories

variable {m : Native.Machine} {db db' : Store}

theorem Reaches.sound (h : Runs.Reaches (perform m) db db') (sound : Sound m db) : Sound m db' :=
  h.invariant sound fun db input => (perform_writes db input).sound

theorem Reaches.extends (h : Runs.Reaches (perform m) db db') : Extends db db' := by
  refine h.relation (I := fun _ => True) trivial (fun _ _ _ => trivial) .refl (fun _ _ _ => .trans) ?_
  exact fun db input _ => (perform_writes db input).extends

theorem history_sound (inputs : List (JobRepository × StoreCall)) : Sound m (history m inputs) := by
  have reaches : Runs.Reaches (perform m) .empty (history m inputs) := ⟨inputs, rfl⟩
  exact Reaches.sound reaches .empty

/-- What a job is attempted for is attempted once. -/
theorem attempts_once (db : Store) (jobId : String) : ((db.attemptsOf jobId).map fun a => (a.caseId, a.phase)).Nodup := by
  rw [List.Nodup, List.pairwise_map]
  have apart := db.attempts.lawful.filter (fun a => a.jobId = jobId)
  refine apart.imp_of_mem fun {a b} ha hb clash same => ?_
  have own : a.jobId = jobId ∧ b.jobId = jobId := by simpa using And.intro (List.mem_filter.1 ha).2 (List.mem_filter.1 hb).2
  have case_ : (a.caseId, a.phase) = (b.caseId, b.phase) := same
  have clashing : clashes a b = true := by simp [clashes, Row.clash, Row.identity, own.1, own.2, case_]
  rw [clashing] at clash
  cases clash

/-- **A job is attempted three times a case at most.** -/
theorem Sound.attempts_le (sound : Sound m db) {jobId : String} {snapshot : List (String × Json)} {items : List Json}
    (frozen : Frozen db.jobs jobId snapshot) (ids : getOrEmpty "case_ids" snapshot = .arr items) :
    db.attemptedCount jobId ≤ 3 * items.length := by
  let phases : List Phase := [.generation, .correction, .judging]
  let keys := (db.attemptsOf jobId).map fun a => (Json.str a.caseId, a.phase)
  have once : keys.Nodup := by
    have pairs := (attempts_once db jobId).map (f := fun p : String × Phase => (Json.str p.1, p.2)) (by
      rintro ⟨a, p⟩ ⟨b, q⟩ same
      simpa using same)
    rwa [List.map_map] at pairs
  have within : keys ⊆ items ×ˢ phases := by
    intro key mem
    obtain ⟨a, ha, rfl⟩ := List.mem_map.1 mem
    obtain ⟨ha, own⟩ := List.mem_filter.1 ha
    obtain ⟨snapshot', limit, frozen', -, -, known⟩ := sound.budget a ha
    rw [show a.jobId = jobId by simpa using own] at frozen'
    obtain rfl := frozen.unique frozen'
    have among : Json.str a.caseId ∈ items := by
      simpa [ids, contains] using known
    have phase : a.phase ∈ phases := by
      cases a.phase <;> simp [phases]
    exact List.mem_product.2 ⟨among, phase⟩
  have length := (once.subperm within).length_le
  have size : (items ×ˢ phases).length = items.length * 3 := List.length_product items phases
  have count : keys.length = db.attemptedCount jobId := List.length_map _
  omega

/-- **The frozen budget.** After any calls, the attempts of a job are numbered from one within the budget
its payload was frozen with, each for a frozen case and a phase that was not attempted before; what is
reserved stays reserved, and once the job is cancelled or over nothing more is. -/
theorem frozen_budget (m : Native.Machine) (inputs more : List (JobRepository × StoreCall)) (jobId : String) :
    let db := history m inputs
    (db.attemptsOf jobId).map (·.ordinal) = List.range' 1 (db.attemptedCount jobId) ∧
    ((db.attemptsOf jobId).map fun a => (a.caseId, a.phase)).Nodup ∧
    (∀ a ∈ db.attemptsOf jobId, ∃ snapshot limit, Frozen db.jobs jobId snapshot ∧ budgetLimit snapshot = some limit ∧
      (db.attemptedCount jobId : Int) ≤ limit ∧ contains a.caseId (getOrEmpty "case_ids" snapshot) = .ok true ∧
      ∀ items, getOrEmpty "case_ids" snapshot = .arr items → db.attemptedCount jobId ≤ 3 * items.length) ∧
    db.attempts.rows <+: (history m (inputs ++ more)).attempts.rows ∧
    (InState db.jobs jobId closed → (history m (inputs ++ more)).attemptsOf jobId = db.attemptsOf jobId) := by
  intro db
  have sound : Sound m db := history_sound inputs
  have later : Extends db (history m (inputs ++ more)) := by
    rw [history, Runs.run_append]
    exact Reaches.extends ⟨more, rfl⟩
  refine ⟨sound.numbered jobId, attempts_once db jobId, fun a mem => ?_, later.attempts, later.closed jobId⟩
  obtain ⟨ha, own⟩ := List.mem_filter.1 mem
  obtain ⟨snapshot, limit, frozen, bounded, room, known⟩ := sound.budget a ha
  rw [show a.jobId = jobId by simpa using own] at frozen room
  exact ⟨snapshot, limit, frozen, bounded, room, known, fun items ids => sound.attempts_le frozen ids⟩

/-- **Frozen results.** After any calls, a committed result is the only one of its case and of its ordinal
in its job, the frozen case at that ordinal; the report of a job is one that reads back, of exactly the frozen cases under
the frozen binding; neither is ever replaced, and a job that is over gets none. An artifact is read back by its digest after
any later calls, with the content it was registered with. -/
theorem frozen_results (m : Native.Machine) (inputs more : List (JobRepository × StoreCall)) :
    let db := history m inputs
    let db' := history m (inputs ++ more)
    (∀ x ∈ db.results.rows, FitsCase db.jobs x ∧ x ∈ db'.results.rows ∧
      ∀ y ∈ db'.results.rows, y.jobId = x.jobId → y.caseId = x.caseId ∨ y.ordinal = x.ordinal → y = x) ∧
    (∀ x ∈ db.reports.rows, FitsPlan m db.jobs x ∧ db'.report? x.jobId = some x) ∧
    (∀ x ∈ db.artifacts.rows, x.artifactDigest = contentDigest x.content ∧ x ∈ db'.artifacts.rows ∧
      artifact x.artifactDigest db' = .ok x.content) ∧
    ∀ jobId, InState db.jobs jobId finished →
      db'.resultsOf jobId = db.resultsOf jobId ∧ db'.report? jobId = db.report? jobId := by
  intro db db'
  have sound : Sound m db := history_sound inputs
  have later : Extends db db' := by
    have whole : db' = Runs.run (perform m) db more := Runs.run_append (perform m) .empty inputs more
    rw [whole]
    exact Reaches.extends ⟨more, rfl⟩
  refine ⟨fun x mem => ⟨sound.results x mem, later.results.subset mem, ?_⟩, fun x mem => ⟨sound.reports x mem, ?_⟩,
    fun x mem => ⟨sound.artifacts x mem, later.artifacts.subset mem, ?_⟩, later.finished⟩
  · intro y there job same
    refine Table.eq_of_clashes there (later.results.subset mem) ?_
    rcases same with case_ | position
    · simp [clashes, Row.clash, Row.identity, job, case_]
    · simp [clashes, Row.clash, Row.identity, job, position]
  · refine Table.find?_eq_some_of_mem (later.reports.subset mem) (by simp) ?_
    intro a b ha hb
    simp only [decide_eq_true_eq] at ha hb
    simp [clashes, Row.clash, Row.identity, ha, hb]
  · have found : db'.artifacts.find? (·.artifactDigest = x.artifactDigest) = some x := by
      refine Table.find?_eq_some_of_mem (later.artifacts.subset mem) (by simp) ?_
      intro a b ha hb
      simp only [decide_eq_true_eq] at ha hb
      simp [clashes, Row.clash, Row.identity, ha, hb]
    simp only [artifact, Checked.bind_eq_ok, Checked.orRaise_eq_ok, Checked.require_eq_ok, Checked.pure_eq_ok]
    exact ⟨x, found, (), (sound.artifacts x mem).symm, rfl⟩

end Histories

end EvaluationJobs
