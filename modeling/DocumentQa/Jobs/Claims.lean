import DocumentQa.Jobs.Invariants

/-!
# Claiming a job

`claim_next_job` hands out the oldest job that is queued for a registered executor. A job
that left the queue never comes back to it, so it is handed out once.
-/

namespace Jobs

open Python SqlTable

/-! ## Leaving the queue -/

/-- The job is in the store and no longer queued. -/
def Started (db : JobStore) (jobId : String) : Prop :=
  ∃ r ∈ db.jobs.rows, r.jobId = jobId ∧ r.state ≠ .queued

theorem not_started {db : JobStore} {r : JobRow} (mem : r ∈ db.jobs.rows) (queued : r.state = .queued) :
    ¬Started db r.jobId := by
  rintro ⟨x, hx, same, started⟩
  obtain rfl := Table.eq_of_clashes hx mem (sameJob_clashes same)
  exact started queued

theorem Evolves.started {forbidden : List String} {db db' : JobStore} (h : Evolves forbidden db db') {jobId : String}
    (started : Started db jobId) : Started db' jobId := by
  induction h with
  | same => exact started
  | admits h =>
    obtain ⟨x, hx, same, out⟩ := started
    refine ⟨x, ?_, same, out⟩
    rw [h.jobs]
    exact List.mem_append_left _ hx
  | @advances mid db' r r' g e _ h ih =>
    obtain ⟨x, hx, same, out⟩ := ih
    by_cases own : x.jobId = r.jobId
    · obtain rfl := Table.eq_of_clashes hx h.found (sameJob_clashes own)
      exact ⟨r', h.mem_jobs.2 (.inl rfl), h.sameId.trans same, h.move.started out⟩
    · exact ⟨x, h.mem_jobs.2 (.inr ⟨hx, own⟩), same, out⟩

theorem perform_started {db : JobStore} {jobId : String} (started : Started db jobId) (input : JobRepository × JobCall) :
    Started (perform db input) jobId :=
  (perform_evolves db input).started started

/-! ## Taking a job out of the queue -/

/-- The call took the job out of the queue and into execution. -/
structure Takes (db db' : JobStore) (r : JobRow) (job : DurableJob) : Prop where
  found : r ∈ db.jobs.rows
  queued : r.state = .queued
  jobId : job.jobId = r.jobId
  state : job.state = .running
  revision : job.revision = r.revision + 1
  /-- The row of the job in the new store. -/
  now : ∃ r' ∈ db'.jobs.rows, r'.jobId = r.jobId ∧ r'.state = .running ∧ r'.revision = r.revision + 1 ∧
    r'.admitted = r.admitted
  others : ∀ x, x.jobId ≠ r.jobId → (x ∈ db'.jobs.rows ↔ x ∈ db.jobs.rows)

theorem Takes.started {db db' : JobStore} {r : JobRow} {job : DurableJob} (h : Takes db db' r job) :
    Started db' job.jobId := by
  obtain ⟨r', mem, same, running, -⟩ := h.now
  refine ⟨r', mem, same.trans h.jobId.symm, ?_⟩
  rw [running]
  exact JobState.noConfusion

theorem Takes.not_started {db db' : JobStore} {r : JobRow} {job : DurableJob} (h : Takes db db' r job) :
    ¬Started db job.jobId := by
  rw [h.jobId]
  exact Jobs.not_started h.found h.queued

section Taking

variable {repo : JobRepository} {db db' : JobStore}

/-- A transition that commits leaves the job in its target state, and returns it. -/
theorem transitionJobIn_wrote {jobId : String} {expectedRevision : Int} {target : JobState} {result : Option JsonObject}
    {failureCode failureMessage : Option String} {job : DurableJob}
    (h : transitionJobIn repo db jobId expectedRevision target result failureCode failureMessage = .ok (db', job)) :
    (∃ x ∈ db.jobs.rows, x.jobId = jobId ∧ target ∈ jobTransitions x.state) ∧
    ∃ row ∈ db'.jobs.rows, row.jobId = jobId ∧ row.state = target ∧ Decodes db' row job := by
  simp only [transitionJobIn, Checked.bind_eq_ok, Checked.pure_eq_ok, Prod.mk.injEq, Checked.require_eq_ok,
    validateJobTransition] at h
  obtain ⟨current, read, -, -, -, legal, -, -, ⟨resultJson, code, message⟩, -, db2, updated, -, -, db3, appended, job',
    reread, rfl, rfl⟩ := h
  obtain ⟨x, hx, rfl, decodes⟩ := jobIn_row read
  rw [decodes.state] at legal
  rw [decodes.revision] at updated
  have found : x ∈ (if target = .failed ∨ target = .interrupted then
      db.updateSteps x.jobId (·.state = .running) (StepRow.finished (stoppedStep target) repo.clock) fun _ => rfl
    else db).jobs.rows := by
    split <;> exact hx
  obtain ⟨jobs, -, -⟩ := updateJob_eq_ok found updated
  obtain ⟨jobs', -⟩ := appendEventIn_eq_ok appended
  obtain ⟨row, here, own, decodes'⟩ := jobIn_row reread
  refine ⟨⟨x, hx, rfl, legal⟩, row, here, own, ?_, decodes'⟩
  rw [jobs', jobs] at here
  obtain ⟨a, -, rfl⟩ := List.mem_map.1 here
  split
  · rfl
  · next other =>
    rw [if_neg other] at own
    exact absurd own other

/-- **A transition to `running` that commits** takes a queued job. -/
theorem transitionJobIn_takes {jobId : String} {expectedRevision : Int} {result : Option JsonObject}
    {failureCode failureMessage : Option String} {job : DurableJob}
    (h : transitionJobIn repo db jobId expectedRevision .running result failureCode failureMessage = .ok (db', job)) :
    ∃ r, r.jobId = jobId ∧ Takes db db' r job := by
  have direct : JobState.running ≠ .cancelling ∧ JobState.running ≠ .cancelled := ⟨JobState.noConfusion, JobState.noConfusion⟩
  obtain ⟨r, r', g, e, rfl, advance⟩ := transitionJobIn_advances direct h
  obtain ⟨⟨x, hx, named, legal⟩, row, here, own, running, decodes⟩ := transitionJobIn_wrote h
  obtain rfl := Table.eq_of_clashes hx advance.found (sameJob_clashes named)
  have queued : x.state = .queued := by
    cases hs : x.state <;> simp [hs, jobTransitions] at legal ⊢
  obtain rfl := Table.eq_of_clashes here (advance.mem_jobs.2 (.inl rfl)) (sameJob_clashes (own.trans advance.sameId.symm))
  refine ⟨x, rfl, hx, queued, decodes.jobId.trans own, decodes.state.trans running, ?_, ?_, ?_⟩
  · rw [decodes.revision, advance.revision]
  · exact ⟨row, here, own, running, advance.revision, advance.kept⟩
  · intro y other
    rw [advance.mem_jobs]
    constructor
    · rintro (rfl | ⟨hy, -⟩)
      · exact absurd own other
      · exact hy
    · exact fun hy => .inr ⟨hy, other⟩

/-- `transition_job` to `running`, as a dispatch makes it. -/
theorem transitionJob_takes {jobId : String} {expectedRevision : Int} {result : Option JsonObject}
    {failureCode failureMessage : Option String} {job : DurableJob}
    (h : transitionJob repo jobId expectedRevision .running result failureCode failureMessage db = .ok (db', job)) :
    ∃ r, r.jobId = jobId ∧ Takes db db' r job := by
  simp only [transitionJob, Checked.bind_eq_ok] at h
  obtain ⟨-, -, h⟩ := h
  exact transitionJobIn_takes h

/-! ## The oldest job -/

instance : Std.Total createdOrder := by
  refine ⟨fun a b => ?_⟩
  rcases lt_trichotomy a.createdAt b.createdAt with less | same | more
  · exact .inl (.inl less)
  · rcases le_total a.jobId b.jobId with le | le
    · exact .inl (.inr ⟨same, le⟩)
    · exact .inr (.inr ⟨same.symm, le⟩)
  · exact .inr (.inl more)

instance : IsTrans JobRow createdOrder := by
  refine ⟨fun a b c ab bc => ?_⟩
  rcases ab with ab | ⟨ab, leab⟩
  · rcases bc with bc | ⟨bc, -⟩
    · exact .inl (ab.trans bc)
    · exact .inl (bc ▸ ab)
  · rcases bc with bc | ⟨bc, lebc⟩
    · exact .inl (ab ▸ bc)
    · exact .inr ⟨ab.trans bc, leab.trans lebc⟩

/-- The first of some rows comes before all of them. -/
theorem oldest_spec {rows : List JobRow} :
    (oldest rows = none ↔ rows = []) ∧ ∀ r, oldest rows = some r → r ∈ rows ∧ ∀ x ∈ rows, createdOrder r x := by
  unfold oldest
  constructor
  · rw [List.head?_eq_none_iff]
    constructor
    · intro none_
      have length := List.length_insertionSort createdOrder rows
      rw [none_] at length
      exact List.eq_nil_of_length_eq_zero length.symm
    · intro none_
      rw [none_]
      rfl
  · intro r first
    cases sorted : rows.insertionSort createdOrder with
    | nil =>
      rw [sorted] at first
      cases first
    | cons a rest =>
      rw [sorted] at first
      obtain rfl : a = r := Option.some.inj first
      have ordered := List.pairwise_insertionSort createdOrder rows
      rw [sorted, List.pairwise_cons] at ordered
      have members : ∀ x, x ∈ a :: rest ↔ x ∈ rows := by
        intro x
        rw [← sorted, List.mem_insertionSort]
      refine ⟨(members a).1 List.mem_cons_self, fun x mem => ?_⟩
      rcases List.mem_cons.1 ((members x).2 mem) with rfl | mem
      · exact .inr ⟨rfl, le_refl _⟩
      · exact ordered.1 x mem

/-- The row is queued for one of the registered executors. -/
def Eligible (eligible : List (JobNamespace × String)) (r : JobRow) : Prop :=
  r.state = .queued ∧ (r.jobNamespace, r.jobType) ∈ eligible

theorem mem_queue {db : JobStore} {e : JobNamespace × String} {r : JobRow} :
    r ∈ db.jobs.select (fun r => r.jobNamespace = e.1 && r.state = .queued && r.jobType = e.2) ↔
      r ∈ db.jobs.rows ∧ r.state = .queued ∧ (r.jobNamespace, r.jobType) = e := by
  simp only [Table.select, List.mem_filter, Bool.and_eq_true, decide_eq_true_eq, Prod.ext_iff]
  constructor
  · rintro ⟨mem, ⟨space, queued⟩, type⟩
    exact ⟨mem, queued, space, type⟩
  · rintro ⟨mem, queued, space, type⟩
    exact ⟨mem, ⟨space, queued⟩, type⟩

/-- The candidates are eligible, and each eligible row has a candidate before it. -/
theorem candidates_spec {db : JobStore} {eligible : List (JobNamespace × String)} :
    (∀ r ∈ candidates db eligible, r ∈ db.jobs.rows ∧ Eligible eligible r) ∧
    ∀ x ∈ db.jobs.rows, Eligible eligible x → ∃ r ∈ candidates db eligible, createdOrder r x := by
  constructor
  · intro r mem
    obtain ⟨e, among, first⟩ := List.mem_filterMap.1 mem
    obtain ⟨here, queued, same⟩ := mem_queue.1 (oldest_spec.2 r first).1
    exact ⟨here, queued, same ▸ among⟩
  · rintro x here ⟨queued, among⟩
    have inside := mem_queue.2 ⟨here, queued, rfl⟩
    cases first : oldest (db.jobs.select fun r =>
        r.jobNamespace = (x.jobNamespace, x.jobType).1 && r.state = .queued && r.jobType = (x.jobNamespace, x.jobType).2) with
    | none =>
      rw [oldest_spec.1.1 first] at inside
      cases inside
    | some r => exact ⟨r, List.mem_filterMap.2 ⟨_, among, first⟩, (oldest_spec.2 r first).2 x inside⟩

/-- **`claim_next_job`** takes the oldest eligible job, and comes back empty only when there is none. -/
theorem claimNextJob_spec {eligible : List (JobNamespace × String)} {claimed : Option DurableJob}
    (h : claimNextJob repo eligible db = .ok (db', claimed)) :
    (∀ job, claimed = some job → ∃ r, Takes db db' r job ∧ Eligible eligible r ∧
      ∀ x ∈ db.jobs.rows, Eligible eligible x → createdOrder r x) ∧
    (claimed = none → db' = db ∧ ∀ x ∈ db.jobs.rows, ¬Eligible eligible x) := by
  simp only [claimNextJob, Checked.bind_eq_ok] at h
  obtain ⟨-, -, -, -, h⟩ := h
  obtain ⟨sound, covered⟩ := @candidates_spec db eligible
  split at h
  · next none_ =>
    rw [Checked.pure_eq_ok, Prod.mk.injEq] at h
    obtain ⟨rfl, rfl⟩ := h
    refine ⟨fun job never => absurd never (Option.some_ne_none job).symm, fun _ => ⟨rfl, fun x here fits => ?_⟩⟩
    obtain ⟨r, mem, -⟩ := covered x here fits
    rw [oldest_spec.1.1 none_] at mem
    cases mem
  · next row first =>
    simp only [Checked.bind_eq_ok, Checked.pure_eq_ok, Prod.exists, Prod.mk.injEq] at h
    obtain ⟨_, job', taken, rfl, rfl⟩ := h
    refine ⟨fun job same => ?_, fun never => absurd never (Option.some_ne_none job')⟩
    obtain rfl := Option.some.inj same
    obtain ⟨among, least⟩ := oldest_spec.2 row first
    obtain ⟨here, fits⟩ := sound row among
    obtain ⟨r, named, takes⟩ := transitionJobIn_takes taken
    obtain rfl := Table.eq_of_clashes takes.found here (sameJob_clashes named)
    refine ⟨r, takes, fits, fun x mem eligible_ => ?_⟩
    obtain ⟨y, candidate, before⟩ := covered x mem eligible_
    exact IsTrans.trans _ _ _ (least y candidate) before

end Taking

/-- **Claims over a history**: a claim hands out the oldest job queued for a registered executor,
no later claim hands out the same job, and a claim comes back empty only when nothing is queued
for the executors. -/
theorem claims_in_order (inputs : List (JobRepository × JobCall)) (repo : JobRepository)
    (eligible : List (JobNamespace × String)) :
    (∀ db' job, claimNextJob repo eligible (history inputs) = .ok (db', some job) →
      (∃ r ∈ (history inputs).jobs.rows, r.jobId = job.jobId ∧ Eligible eligible r ∧
        ∀ x ∈ (history inputs).jobs.rows, Eligible eligible x → createdOrder r x) ∧
      job.state = .running ∧
      ∀ later repo' eligible' db'' job',
        claimNextJob repo' eligible' (history (inputs ++ (repo, .claimNextJob eligible) :: later)) = .ok (db'', some job') →
        job'.jobId ≠ job.jobId) ∧
    ∀ db', claimNextJob repo eligible (history inputs) = .ok (db', none) →
      db' = history inputs ∧ ∀ x ∈ (history inputs).jobs.rows, ¬Eligible eligible x := by
  constructor
  · intro db' job claimed
    obtain ⟨r, takes, fits, least⟩ := (claimNextJob_spec claimed).1 job rfl
    refine ⟨⟨r, takes.found, takes.jobId.symm, fits, least⟩, takes.state, ?_⟩
    intro later repo' eligible' db'' job' again same
    obtain ⟨_, takes', -⟩ := (claimNextJob_spec again).1 job' rfl
    apply takes'.not_started
    have committed : perform (history inputs) (repo, .claimNextJob eligible) = db' := by
      rw [perform, body, claimed]
      rfl
    have whole : history (inputs ++ (repo, .claimNextJob eligible) :: later) = Runs.run perform db' later := by
      rw [history, Runs.run_append, Runs.run_cons]
      exact congrArg (Runs.run perform · later) committed
    have reaches : Runs.Reaches perform db' (Runs.run perform db' later) := ⟨later, rfl⟩
    rw [same, whole]
    exact reaches.invariant (I := fun db => Started db job.jobId) takes.started fun _ _ started => perform_started started _
  · intro db' none_
    exact (claimNextJob_spec none_).2 rfl

end Jobs
