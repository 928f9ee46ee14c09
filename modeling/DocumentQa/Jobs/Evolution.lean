import DocumentQa.Jobs.Machine

/-!
# What a call does to the store

Every mutator either leaves the store alone, admits one job, or advances jobs one at a
time: an `Advance` rewrites one row and its steps by a move of the job machine, bumps the
revision and appends one event. The invariants are read off `Evolves` alone.
-/

namespace Jobs

open Python SqlTable

/-- The job machine's picture of a row and its steps. -/
def view (r : JobRow) (steps : List StepRow) : JobMachine.Job :=
  ⟨r.state, steps.map (·.state), r.resultJson.isSome, r.failureCode.isSome, r.failureMessage.isSome⟩

/-- The columns of a job row that no mutator writes after admission. -/
structure Admitted where
  jobId : String
  jobNamespace : JobNamespace
  jobType : String
  configurationFingerprint : String
  createdAt : String
  recordSchemaVersion : Option Int
  idempotencyKeyHash : Option String
  payloadJson : Option String
  artifactReferencesJson : Option String

def JobRow.admitted (r : JobRow) : Admitted :=
  ⟨r.jobId, r.jobNamespace, r.jobType, r.configurationFingerprint, r.createdAt, r.recordSchemaVersion,
    r.idempotencyKeyHash, r.payloadJson, r.artifactReferencesJson⟩

/-- The columns of a step row that no mutator writes after admission. -/
def StepRow.admitted (s : StepRow) : String × String × Nat × String :=
  (s.stepId, s.jobId, s.ordinal, s.stepName)

/-- The row can be read back. -/
def Readable (forbidden : List String) (db : JobStore) (r : JobRow) : Prop :=
  ∃ job, jobFromRow forbidden db r = .ok job

/-- One job moved: its row `r` became `r'`, its steps were rewritten by `g` and the event
`e` was appended. -/
structure Advance (forbidden : List String) (db db' : JobStore) (r r' : JobRow) (g : StepRow → StepRow)
    (e : EventRow) : Prop where
  found : r ∈ db.jobs.rows
  jobs : db'.jobs.rows = db.jobs.rows.map fun x => if x.jobId = r.jobId then r' else x
  steps : db'.steps.rows = db.steps.rows.map fun s => if s.jobId = r.jobId then g s else s
  events : db'.events.rows = db.events.rows ++ [e]
  kept : r'.admitted = r.admitted
  stepsKept : ∀ s, (g s).admitted = s.admitted
  revision : r'.revision = r.revision + 1
  eventJob : e.jobId = r.jobId
  eventSequence : e.sequence = db.nextSequence r.jobId
  eventState : e.state = some r'.state
  move : JobMachine.Move (view r (db.stepsOf r.jobId)) (view r' ((db.stepsOf r.jobId).map g))
  readable : Readable forbidden db' r'

/-- A job was admitted with the row `r` and the step rows `added`. -/
structure Admits (forbidden : List String) (db db' : JobStore) (r : JobRow) (added : List StepRow) (e : EventRow) :
    Prop where
  fresh : ∀ x ∈ db.jobs.rows, clashes r x = false
  jobs : db'.jobs.rows = db.jobs.rows ++ [r]
  steps : db'.steps.rows = db.steps.rows ++ added
  events : db'.events.rows = db.events.rows ++ [e]
  queued : view r added = JobMachine.Job.admitted added.length
  stepsJob : ∀ s ∈ added, s.jobId = r.jobId
  revision : r.revision = 1
  eventJob : e.jobId = r.jobId
  eventSequence : e.sequence = db.nextSequence r.jobId
  eventState : e.state = some r.state
  readable : Readable forbidden db' r

/-- What a committed call does. -/
inductive Evolves (forbidden : List String) (db : JobStore) : JobStore → Prop
  | same : Evolves forbidden db db
  | admits {db' : JobStore} {r : JobRow} {added : List StepRow} {e : EventRow}
      (h : Admits forbidden db db' r added e) : Evolves forbidden db db'
  | advances {mid db' : JobStore} {r r' : JobRow} {g : StepRow → StepRow} {e : EventRow}
      (before : Evolves forbidden db mid) (h : Advance forbidden mid db' r r' g e) : Evolves forbidden db db'

/-- What a call does that works on the one job `jobId`. -/
def AdvancesJob (forbidden : List String) (jobId : String) (db db' : JobStore) : Prop :=
  ∃ r r' g e, r.jobId = jobId ∧ Advance forbidden db db' r r' g e

theorem AdvancesJob.evolves {forbidden : List String} {jobId : String} {db db' : JobStore}
    (h : AdvancesJob forbidden jobId db db') : Evolves forbidden db db' := by
  obtain ⟨r, r', g, e, -, h⟩ := h
  exact .advances .same h

/-! ## Reading a row -/

/-- The columns of a decoded job are those of its row. -/
structure Decodes (db : JobStore) (r : JobRow) (job : DurableJob) : Prop where
  jobId : job.jobId = r.jobId
  jobNamespace : job.jobNamespace = r.jobNamespace
  jobType : job.jobType = r.jobType
  state : job.state = r.state
  revision : job.revision = r.revision
  configurationFingerprint : job.configurationFingerprint = r.configurationFingerprint
  payload : decodeObject r.payloadJson "job payload" maxJobPayloadBytes = .ok job.payload
  artifacts : decodeArtifacts r.artifactReferencesJson = .ok job.artifactReferences
  progress : job.progress = r.progress
  steps : stepsIn db r.jobId = .ok job.steps

theorem jobFromRow_decodes {forbidden : List String} {db : JobStore} {r : JobRow} {job : DurableJob}
    (h : jobFromRow forbidden db r = .ok job) : Decodes db r job := by
  simp only [jobFromRow, Checked.bind_eq_ok, Checked.pure_eq_ok] at h
  obtain ⟨-, -, -, -, -, -, -, -, payload, hp, artifacts, ha, result, -, -, -, -, -, -, -, steps, hs, rfl⟩ := h
  exact ⟨rfl, rfl, rfl, rfl, rfl, rfl, hp, ha, rfl, hs⟩

theorem readStep_eq_ok {row : StepRow × Nat} {step : JobStep} (h : readStep row = .ok step) :
    step.state = row.1.state ∧ step.name = row.1.stepName := by
  simp only [readStep, Checked.bind_eq_ok, Checked.pure_eq_ok] at h
  obtain ⟨-, -, -, -, rfl⟩ := h
  exact ⟨rfl, rfl⟩

/-- The steps of a decoded job are its step rows. -/
theorem Decodes.mem_steps {db : JobStore} {r : JobRow} {job : DurableJob} (h : Decodes db r job) {s : StepRow}
    (hs : s ∈ db.stepsOf r.jobId) : ∃ step ∈ job.steps, step.state = s.state := by
  have sorted : s ∈ (db.stepsOf r.jobId).insertionSort stepOrder := (List.mem_insertionSort _).2 hs
  obtain ⟨i, hi, e⟩ := List.mem_iff_getElem.1 sorted
  have mem : (s, i) ∈ ((db.stepsOf r.jobId).insertionSort stepOrder).zipIdx := by
    rw [List.mk_mem_zipIdx_iff_getElem?, List.getElem?_eq_getElem hi, e]
  obtain ⟨step, hstep, hread⟩ := Checked.collect_mem h.steps mem
  exact ⟨step, hstep, (readStep_eq_ok hread).1⟩

theorem job?_spec {db : JobStore} {jobId : String} {r : JobRow} (h : db.job? jobId = some r) :
    r ∈ db.jobs.rows ∧ r.jobId = jobId :=
  ⟨Table.find?_mem h, by simpa using Table.find?_holds h⟩

theorem sameJob_clashes {a b : JobRow} (h : a.jobId = b.jobId) : clashes a b = true := by
  simp [clashes, Row.identity, Row.clash, h]

/-- A job row is the one its ID finds. -/
theorem job?_of_mem {db : JobStore} {r : JobRow} (h : r ∈ db.jobs.rows) : db.job? r.jobId = some r := by
  refine Table.find?_eq_some_of_mem h (by simp) ?_
  intro a b ha hb
  refine sameJob_clashes ?_
  simp only [decide_eq_true_eq] at ha hb
  rw [ha, hb]

theorem jobIn_eq_ok {forbidden : List String} {db : JobStore} {jobId : String} {job : DurableJob}
    (h : jobIn forbidden db jobId = .ok job) : ∃ r, db.job? jobId = some r ∧ jobFromRow forbidden db r = .ok job := by
  simp only [jobIn, Checked.bind_eq_ok, Checked.orRaise_eq_ok] at h
  obtain ⟨-, -, r, hr, hj⟩ := h
  exact ⟨r, hr, hj⟩

/-! ## Writing a row -/

/-- The `UPDATE` of a job found at its revision rewrites exactly its row. -/
theorem updateJob_eq_ok {db db' : JobStore} {r : JobRow} {f : JobRow → JobRow} {keep}
    (hr : r ∈ db.jobs.rows) (h : db.updateJob r.jobId r.revision f keep = .ok db') :
    db'.jobs.rows = db.jobs.rows.map (fun x => if x.jobId = r.jobId then f r else x) ∧ db'.steps = db.steps ∧
      db'.events = db.events := by
  simp only [JobStore.updateJob, Checked.bind_eq_ok, Checked.pure_eq_ok] at h
  obtain ⟨-, -, rfl⟩ := h
  refine ⟨?_, rfl, rfl⟩
  refine List.map_congr_left ?_
  intro x hx
  by_cases e : x.jobId = r.jobId
  · rw [Table.eq_of_clashes hx hr (sameJob_clashes e)]
    simp
  · simp [e]

theorem appendEventIn_eq_ok {repo : JobRepository} {k : Nat} {db db' : JobStore} {jobId : String}
    {eventType : JobEventType} {state : JobState} {reason : Option String} {progress : JobProgress}
    {timestamp : String} (h : appendEventIn repo k db jobId eventType state reason progress timestamp = .ok db') :
    db'.jobs = db.jobs ∧ db'.steps = db.steps ∧ ∃ e : EventRow, db'.events.rows = db.events.rows ++ [e] ∧
      e.jobId = jobId ∧ e.sequence = db.nextSequence jobId ∧ e.state = some state := by
  simp only [appendEventIn, reraise_eq_ok, Checked.bind_eq_ok, JobStore.insertEvent, Checked.orRaise_eq_ok,
    Checked.pure_eq_ok] at h
  obtain ⟨eventId, -, events, he, -, -, rfl⟩ := h
  exact ⟨rfl, rfl, _, Table.insert?_rows he, rfl, rfl, rfl⟩

/-- Rewriting the steps of one job. -/
def onSteps (p : StepRow → Bool) (f : StepRow → StepRow) (s : StepRow) : StepRow :=
  if p s then f s else s

theorem updateSteps_rows (db : JobStore) (jobId : String) (p : StepRow → Bool) (f : StepRow → StepRow) (keep) :
    (db.updateSteps jobId p f keep).steps.rows =
      db.steps.rows.map fun s => if s.jobId = jobId then onSteps p f s else s := by
  simp only [JobStore.updateSteps, Table.rows_update]
  refine List.map_congr_left ?_
  intro s _
  by_cases e : s.jobId = jobId <;> simp [onSteps, e]

theorem onSteps_admitted {p : StepRow → Bool} {f : StepRow → StepRow} (keep : ∀ s, (f s).admitted = s.admitted)
    (s : StepRow) : (onSteps p f s).admitted = s.admitted := by
  unfold onSteps
  split
  · exact keep s
  · rfl

theorem onSteps_finished (p : StepRow → Bool) (from_ : List JobStepState) (target : JobStepState)
    (timestamp : String) (hp : ∀ s, p s = true ↔ s.state ∈ from_) (steps : List StepRow) :
    (steps.map (onSteps p (StepRow.finished target timestamp))).map (·.state) =
      JobMachine.sweep from_ target (steps.map (·.state)) := by
  simp only [JobMachine.sweep, List.map_map]
  refine List.map_congr_left ?_
  intro s _
  by_cases h : p s = true
  · simp [onSteps, h, (hp s).1 h, StepRow.finished, StepRow.moved]
  · have out : s.state ∉ from_ := fun hm => h ((hp s).2 hm)
    simp [onSteps, h, out]

/-- What every mutator of one job does once its checks have passed: rewrite the steps and
the row, append the event and read the job back. -/
theorem advance_of_writes {repo : JobRepository} {k : Nat} {db mid db2 db3 : JobStore} {r : JobRow} {job : DurableJob}
    {f : JobRow → JobRow} {keep} (g : StepRow → StepRow) {eventType : JobEventType} {state : JobState}
    {reason : Option String} {progress : JobProgress} {timestamp : String} (found : r ∈ db.jobs.rows)
    (updated : mid.updateJob r.jobId r.revision f keep = .ok db2)
    (appended : appendEventIn repo k db2 r.jobId eventType state reason progress timestamp = .ok db3)
    (reread : jobIn repo.forbidden db3 r.jobId = .ok job) (midJobs : mid.jobs = db.jobs)
    (midEvents : mid.events = db.events)
    (midSteps : mid.steps.rows = db.steps.rows.map fun s => if s.jobId = r.jobId then g s else s)
    (kept : (f r).admitted = r.admitted) (stepsKept : ∀ s, (g s).admitted = s.admitted)
    (revision : (f r).revision = r.revision + 1) (target : (f r).state = state)
    (move : JobMachine.Move (view r (db.stepsOf r.jobId)) (view (f r) ((db.stepsOf r.jobId).map g))) :
    AdvancesJob repo.forbidden r.jobId db db3 := by
  obtain ⟨jobs, steps, events⟩ := updateJob_eq_ok (midJobs ▸ found) updated
  obtain ⟨jobs', steps', e, events', job, sequence, eventState⟩ := appendEventIn_eq_ok appended
  have sameId : (f r).jobId = r.jobId := congrArg Admitted.jobId kept
  have written : f r ∈ db3.jobs.rows := by
    rw [jobs', jobs, midJobs]
    exact List.mem_map.2 ⟨r, found, by simp⟩
  refine ⟨r, f r, g, e, rfl, found, ?_, ?_, ?_, kept, stepsKept, revision, job, ?_, ?_, move, ?_⟩
  · rw [jobs', jobs, midJobs]
  · rw [steps', steps, midSteps]
  · rw [events', events, midEvents]
  · simp only [sequence, JobStore.nextSequence, JobStore.eventsOf, events, midEvents]
  · rw [eventState, target]
  · obtain ⟨row, hrow, decoded⟩ := jobIn_eq_ok reread
    rw [← sameId, job?_of_mem written, Option.some.injEq] at hrow
    exact ⟨_, hrow ▸ decoded⟩

/-- The writes of a mutator that leaves the steps alone. -/
theorem same_steps (db : JobStore) (jobId : String) :
    db.steps.rows = db.steps.rows.map fun s => if s.jobId = jobId then id s else s := by
  simp

end Jobs
