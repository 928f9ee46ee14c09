import DocumentQa.Jobs.Evolution

/-!
# One specification for each mutator

Each call that returns evolves the store (`body_evolves`); one lemma for each mutator
shows which move of the job machine it makes.
-/

namespace Jobs

open Python SqlTable

variable {repo : JobRepository} {db db' : JobStore}

/-- The checks every mutator of a job starts with: the row it works on. -/
theorem jobIn_row {jobId : String} {job : DurableJob} (h : jobIn repo.forbidden db jobId = .ok job) :
    ∃ r, r ∈ db.jobs.rows ∧ r.jobId = jobId ∧ Decodes db r job := by
  obtain ⟨r, hr, decoded⟩ := jobIn_eq_ok h
  obtain ⟨found, id_⟩ := job?_spec hr
  exact ⟨r, found, id_, jobFromRow_decodes decoded⟩

theorem finished_admitted {target : JobStepState} {timestamp : String} (s : StepRow) :
    (StepRow.finished target timestamp s).admitted = s.admitted :=
  rfl

/-- The columns a transition writes fit its target. -/
theorem transitionColumns_spec {jobNamespace : JobNamespace} {target : JobState} {result : Option JsonObject}
    {failureCode failureMessage resultJson code message : Option String}
    (h : transitionColumns repo jobNamespace target result failureCode failureMessage =
      .ok (resultJson, code, message)) :
    match target with
    | .succeeded => resultJson.isSome = true ∧ code = none ∧ message = none
    | .failed | .interrupted => code.isSome = true ∧ message.isSome = true
    | _ => resultJson = none ∧ code = none ∧ message = none := by
  have failure : ∀ {t : JobState}, (t = .failed ∨ t = .interrupted) →
      transitionColumns repo jobNamespace t result failureCode failureMessage = .ok (resultJson, code, message) →
      code.isSome = true ∧ message.isSome = true := by
    rintro t (rfl | rfl) h
    all_goals
      simp only [transitionColumns, Checked.bind_eq_ok] at h
      obtain ⟨⟨c, m⟩, -, h⟩ := h
      cases result with
      | none =>
        simp only [Checked.pure_eq_ok, Prod.mk.injEq] at h
        obtain ⟨-, rfl, rfl⟩ := h
        exact ⟨rfl, rfl⟩
      | some result =>
        simp only [Checked.bind_eq_ok, Checked.pure_eq_ok, Prod.mk.injEq] at h
        obtain ⟨-, -, -, -, -, rfl, rfl⟩ := h
        exact ⟨rfl, rfl⟩
  cases target with
  | succeeded =>
    simp only [transitionColumns, Checked.bind_eq_ok, Checked.pure_eq_ok, Prod.mk.injEq] at h
    obtain ⟨encoded, -, rfl, rfl, rfl⟩ := h
    exact ⟨rfl, rfl, rfl⟩
  | failed => exact failure (.inl rfl) h
  | interrupted => exact failure (.inr rfl) h
  | _ =>
    simp only [transitionColumns, Checked.bind_eq_ok, Checked.pure_eq_ok, Prod.mk.injEq] at h
    obtain ⟨-, -, rfl, rfl, rfl⟩ := h
    exact ⟨rfl, rfl, rfl⟩

/-- The step update of a transition. -/
def stopSteps (target : JobState) (timestamp : String) : StepRow → StepRow :=
  if target = .failed ∨ target = .interrupted then
    onSteps (·.state = .running) (StepRow.finished (stoppedStep target) timestamp)
  else id

theorem stopSteps_admitted (target : JobState) (timestamp : String) (s : StepRow) :
    (stopSteps target timestamp s).admitted = s.admitted := by
  unfold stopSteps
  split
  · exact onSteps_admitted finished_admitted s
  · rfl

theorem stopSteps_states (target : JobState) (timestamp : String) (steps : List StepRow) :
    (steps.map (stopSteps target timestamp)).map (·.state) =
      if target = .failed ∨ target = .interrupted then
        JobMachine.sweep [.running] (stoppedStep target) (steps.map (·.state))
      else steps.map (·.state) := by
  unfold stopSteps
  split
  · exact onSteps_finished _ [.running] _ _ (by simp) steps
  · simp

theorem transitionJobIn_advances {jobId : String} {expectedRevision : Int} {target : JobState}
    {result : Option JsonObject} {failureCode failureMessage : Option String} {job : DurableJob}
    (direct : target ≠ .cancelling ∧ target ≠ .cancelled)
    (h : transitionJobIn repo db jobId expectedRevision target result failureCode failureMessage = .ok (db', job)) :
    AdvancesJob repo.forbidden jobId db db' := by
  simp only [transitionJobIn, Checked.bind_eq_ok, Checked.pure_eq_ok, Prod.mk.injEq, Checked.require_eq_ok,
    validateJobTransition] at h
  obtain ⟨current, read, -, -, -, legal, -, done, ⟨resultJson, code, message⟩, columns, db2, updated, -, -, db3,
    appended, job', reread, rfl, rfl⟩ := h
  obtain ⟨r, found, rfl, decodes⟩ := jobIn_row read
  have columns := transitionColumns_spec columns
  rw [decodes.state] at legal
  rw [decodes.revision] at updated
  refine advance_of_writes (stopSteps target repo.clock) found updated appended reread ?_ ?_ ?_ rfl
    (stopSteps_admitted _ _) rfl rfl ?_
  · split <;> rfl
  · split <;> rfl
  · unfold stopSteps
    split
    · exact updateSteps_rows db r.jobId _ _ _
    · exact same_steps db r.jobId
  · have states := stopSteps_states target repo.clock (db.stepsOf r.jobId)
    simp only [view, states]
    cases target with
    | queued => cases hs : r.state <;> simp [hs, jobTransitions] at legal
    | running =>
      obtain ⟨rfl, rfl, rfl⟩ := columns
      have queued : r.state = .queued := by cases hs : r.state <;> simp [hs, jobTransitions] at legal ⊢
      exact .start queued
    | cancelling => exact absurd rfl direct.1
    | cancelled => exact absurd rfl direct.2
    | succeeded =>
      obtain ⟨some_, rfl, rfl⟩ := columns
      have running : r.state = .running := by cases hs : r.state <;> simp [hs, jobTransitions] at legal ⊢
      rw [some_]
      refine .succeed running ?_
      intro s hs
      obtain ⟨row, hrow, rfl⟩ := List.mem_map.1 hs
      obtain ⟨step, hstep, same⟩ := decodes.mem_steps hrow
      rw [← same]
      exact done rfl step hstep
    | failed =>
      have running : r.state = .running := by cases hs : r.state <;> simp [hs, jobTransitions] at legal ⊢
      rw [columns.1, columns.2]
      exact .fail running _
    | interrupted =>
      have active : r.state = .running ∨ r.state = .cancelling := by
        cases hs : r.state <;> simp [hs, jobTransitions] at legal ⊢
      rw [columns.1, columns.2]
      exact .interrupt active _

theorem claimNextJob_evolves {eligible : List (JobNamespace × String)} {claimed : Option DurableJob}
    (h : claimNextJob repo eligible db = .ok (db', claimed)) : Evolves repo.forbidden db db' := by
  simp only [claimNextJob, Checked.bind_eq_ok] at h
  obtain ⟨-, -, -, -, h⟩ := h
  split at h
  · simp only [Checked.pure_eq_ok, Prod.mk.injEq] at h
    exact h.1 ▸ .same
  · simp only [Checked.bind_eq_ok, Checked.pure_eq_ok, Prod.mk.injEq] at h
    obtain ⟨⟨db2, job⟩, moved, rfl, -⟩ := h
    exact (transitionJobIn_advances (by simp) moved).evolves

theorem reportProgress_advances {jobId : String} {expectedRevision : Int} {progress : JobProgress} {job : DurableJob}
    (h : reportProgress repo jobId expectedRevision progress db = .ok (db', job)) :
    AdvancesJob repo.forbidden jobId db db' := by
  simp only [reportProgress, Checked.bind_eq_ok, Checked.pure_eq_ok, Prod.mk.injEq, Checked.require_eq_ok] at h
  obtain ⟨-, -, current, read, -, -, -, running, -, -, db2, updated, -, -, db3, appended, job', reread, rfl, rfl⟩ := h
  obtain ⟨r, found, rfl, decodes⟩ := jobIn_row read
  rw [decodes.state] at running
  rw [decodes.revision] at updated
  refine advance_of_writes id found updated appended reread rfl rfl (same_steps db r.jobId) rfl (fun _ => rfl) rfl
    running ?_
  rw [List.map_id]
  exact .report (.inl running)

/-- The update of one step rewrites exactly that step. -/
theorem onSteps_one {row : StepRow} (hrow : row ∈ db.steps.rows) (target : JobStepState)
    (startedAt finishedAt : Option String) :
    ∃ before after, (db.stepsOf row.jobId).map (·.state) = before ++ row.state :: after ∧
      ((db.stepsOf row.jobId).map (onSteps (fun r => r.stepId = row.stepId && r.revision = row.revision)
        (·.moved target startedAt finishedAt))).map (·.state) = before ++ target :: after := by
  have mem : row ∈ db.stepsOf row.jobId := List.mem_filter.2 ⟨hrow, by simp⟩
  have distinct : (db.stepsOf row.jobId).Pairwise fun a b => a.stepId ≠ b.stepId := by
    refine (db.steps.lawful.filter _).imp ?_
    intro a b hc
    simp only [clashes, Row.clash, Row.identity, Bool.or_eq_false_iff, decide_eq_false_iff_not] at hc
    exact hc.1
  obtain ⟨before, after, split⟩ := List.append_of_mem mem
  have out : ∀ s ∈ before ++ after, s.stepId ≠ row.stepId := by
    rw [split, List.pairwise_append, List.pairwise_cons] at distinct
    intro s hs
    rcases List.mem_append.1 hs with hs | hs
    · exact distinct.2.2 s hs row (by simp)
    · exact (distinct.2.1.1 s hs).symm
  have same : ∀ l : List StepRow, (∀ s ∈ l, s.stepId ≠ row.stepId) →
      (l.map (onSteps (fun r => r.stepId = row.stepId && r.revision = row.revision)
        (·.moved target startedAt finishedAt))).map (·.state) = l.map (·.state) := by
    intro l hl
    rw [List.map_map]
    refine List.map_congr_left ?_
    intro s hs
    simp [onSteps, hl s hs]
  refine ⟨before.map (·.state), after.map (·.state), by rw [split]; simp, ?_⟩
  rw [split, List.map_append, List.map_append, same before fun s hs => out s (by simp [hs]), List.map_cons,
    List.map_cons, same after fun s hs => out s (by simp [hs])]
  simp [onSteps, StepRow.moved]

theorem transitionStep_advances {jobId stepId : String} {expectedJobRevision expectedStepRevision : Int}
    {target : JobStepState} {job : DurableJob}
    (h : transitionStep repo jobId stepId expectedJobRevision expectedStepRevision target db = .ok (db', job)) :
    AdvancesJob repo.forbidden jobId db db' := by
  simp only [transitionStep, Checked.bind_eq_ok, Checked.pure_eq_ok, Prod.mk.injEq, Checked.require_eq_ok,
    Checked.orRaise_eq_ok, validateStepTransition] at h
  obtain ⟨-, -, current, read, -, -, row, hrow, -, -, -, legal, -, allowed, -, -, db2, updated, -, -, db3, appended,
    job', reread, rfl, rfl⟩ := h
  obtain ⟨r, found, rfl, decodes⟩ := jobIn_row read
  have here : row.stepId = stepId ∧ row.jobId = r.jobId := by simpa using Table.find?_holds hrow
  obtain ⟨rfl, same⟩ := here
  rw [decodes.state] at allowed appended
  rw [decodes.revision] at updated
  refine advance_of_writes _ found updated appended reread rfl rfl (updateSteps_rows db r.jobId _ _ _) rfl
    (onSteps_admitted fun _ => rfl) rfl rfl ?_
  obtain ⟨before, after, split, moved⟩ := onSteps_one (Table.find?_mem hrow) target
    (if target = .running then some repo.clock else row.startedAt) (if target.terminal then some repo.clock else none)
  rw [same] at split moved
  simp only [view, moved]
  exact .step (j := view r (db.stepsOf r.jobId)) split legal allowed

theorem requestCancellation_evolves {jobId : String} {expectedRevision : Int} {job : DurableJob}
    (h : requestCancellation repo jobId expectedRevision db = .ok (db', job)) :
    db' = db ∨ AdvancesJob repo.forbidden jobId db db' := by
  simp only [requestCancellation, Checked.bind_eq_ok] at h
  obtain ⟨current, read, -, -, h⟩ := h
  split at h
  · simp only [Checked.pure_eq_ok, Prod.mk.injEq] at h
    exact .inl h.1.symm
  · simp only [Checked.bind_eq_ok, Checked.pure_eq_ok, Prod.mk.injEq, Checked.require_eq_ok] at h
    obtain ⟨-, open_, -, -, db2, updated, -, -, db3, appended, job', reread, rfl, rfl⟩ := h
    obtain ⟨r, found, rfl, decodes⟩ := jobIn_row read
    rw [decodes.state] at open_ updated appended
    rw [decodes.revision] at updated
    rcases open_ with queued | running
    · simp only [queued, if_true] at updated appended
      refine .inr (advance_of_writes _ found updated appended reread rfl rfl (updateSteps_rows db r.jobId _ _ _) rfl
        (onSteps_admitted finished_admitted) rfl rfl ?_)
      rw [view, view, onSteps_finished _ [.pending] _ _ (by simp)]
      exact .withdraw queued
    · simp only [running, reduceCtorEq, if_false] at updated appended
      refine .inr (advance_of_writes id found updated appended reread rfl rfl (same_steps db r.jobId) rfl
        (fun _ => rfl) rfl rfl ?_)
      simp only [view, List.map_id]
      exact .requestCancel running

theorem acknowledgeCancellation_advances {jobId : String} {expectedRevision : Int} {result : Option JsonObject}
    {job : DurableJob} (h : acknowledgeCancellation repo jobId expectedRevision result db = .ok (db', job)) :
    AdvancesJob repo.forbidden jobId db db' := by
  simp only [acknowledgeCancellation, Checked.bind_eq_ok, Checked.pure_eq_ok, Prod.mk.injEq, Checked.require_eq_ok,
    validateJobTransition] at h
  obtain ⟨current, read, -, -, -, legal, resultJson, -, db2, updated, -, -, db3, appended, job', reread, rfl, rfl⟩ := h
  obtain ⟨r, found, rfl, decodes⟩ := jobIn_row read
  rw [decodes.state] at legal
  rw [decodes.revision] at updated
  refine advance_of_writes _ found updated appended reread rfl rfl (updateSteps_rows db r.jobId _ _ _) rfl
    (onSteps_admitted finished_admitted) rfl rfl ?_
  have open_ : r.state = .queued ∨ r.state = .cancelling := by
    cases hs : r.state <;> simp [hs, jobTransitions] at legal ⊢
  rw [view, view, onSteps_finished _ [.pending, .running] _ _ (by simp)]
  exact .acknowledge open_ _

theorem recoverJob_advances {k : Nat} {jobId : String} {job : DurableJob}
    (h : recoverJob repo k jobId db = .ok (db', job)) : AdvancesJob repo.forbidden jobId db db' := by
  simp only [recoverJob, Checked.bind_eq_ok, Checked.pure_eq_ok, Prod.mk.injEq, Checked.require_eq_ok,
    validateJobTransition] at h
  obtain ⟨current, read, -, legal, db2, updated, -, -, db3, appended, job', reread, rfl, rfl⟩ := h
  obtain ⟨r, found, rfl, decodes⟩ := jobIn_row read
  rw [decodes.state] at legal
  rw [decodes.revision] at updated
  refine advance_of_writes _ found updated appended reread rfl rfl (updateSteps_rows db r.jobId _ _ _) rfl
    (onSteps_admitted finished_admitted) rfl rfl ?_
  have active : r.state = .running ∨ r.state = .cancelling := by
    cases hs : r.state <;> simp [hs, jobTransitions] at legal ⊢
  rw [view, view, onSteps_finished _ [.running] _ _ (by simp)]
  exact .interrupt active _

theorem Evolves.trans {forbidden : List String} {a b c : JobStore} (h : Evolves forbidden a b)
    (h' : ∃ jobId, AdvancesJob forbidden jobId b c) : Evolves forbidden a c := by
  obtain ⟨-, r, r', g, e, -, h'⟩ := h'
  exact .advances h h'

theorem recoverJobs_evolves {k : Nat} {jobIds : List String} {start : JobStore} {jobs : List DurableJob}
    (before : Evolves repo.forbidden start db) (h : recoverJobs repo k jobIds db = .ok (db', jobs)) :
    Evolves repo.forbidden start db' := by
  induction jobIds generalizing k db jobs with
  | nil =>
    simp only [recoverJobs, Checked.pure_eq_ok, Prod.mk.injEq] at h
    exact h.1 ▸ before
  | cons jobId rest ih =>
    simp only [recoverJobs, Checked.bind_eq_ok, Checked.pure_eq_ok, Prod.mk.injEq] at h
    obtain ⟨⟨mid, job⟩, one, ⟨last, jobs'⟩, others, rfl, -⟩ := h
    exact ih (before.trans ⟨jobId, recoverJob_advances one⟩) others

theorem recoverInterruptedJobs_evolves {limit : Int} {jobs : List DurableJob}
    (h : recoverInterruptedJobs repo limit db = .ok (db', jobs)) : Evolves repo.forbidden db db' := by
  simp only [recoverInterruptedJobs, Checked.bind_eq_ok] at h
  obtain ⟨-, -, h⟩ := h
  exact recoverJobs_evolves .same h

/-! ## Decision events -/

/-- What a readable row consists of. -/
structure Legible (forbidden : List String) (db : JobStore) (r : JobRow) (payload : JsonObject)
    (artifacts : List String) (result : Option JsonObject) (steps : List JobStep) : Prop where
  schema : r.recordSchemaVersion = some jobRecordSchemaVersion
  jobId : validateOpaque r.jobId "job ID" = .ok ()
  jobType : validateName r.jobType "job type" = .ok ()
  fingerprint : isSha256Text r.configurationFingerprint = true
  revision : 1 ≤ r.revision
  payloadRead : decodeObject r.payloadJson "job payload" maxJobPayloadBytes = .ok payload
  artifactsRead : decodeArtifacts r.artifactReferencesJson = .ok artifacts
  resultRead : decodeResult r.resultJson = .ok result
  stored : validateStored forbidden r payload result = .ok ()
  succeeded : r.state = .succeeded → result.isSome = true
  failed : r.state = .failed ∨ r.state = .interrupted → r.failureCode.isSome = true ∧ r.failureMessage.isSome = true
  stepsRead : stepsIn db r.jobId = .ok steps

theorem readable_iff {forbidden : List String} {r : JobRow} :
    Readable forbidden db r ↔ ∃ payload artifacts result steps, Legible forbidden db r payload artifacts result steps := by
  constructor
  · rintro ⟨job, h⟩
    simp only [jobFromRow, Checked.bind_eq_ok, Checked.require_eq_ok, reraise_eq_ok] at h
    obtain ⟨-, schema, ⟨⟩, ⟨⟨⟩, id_, type_⟩, -, print, -, rev, payload, decoded, artifacts, arts, result, res, ⟨⟩,
      stored, -, done, -, failure, steps, read, -⟩ := h
    exact ⟨payload, artifacts, result, steps, schema, id_, type_, print, rev, decoded, arts, res, stored, done,
      failure, read⟩
  · rintro ⟨payload, artifacts, result, steps, l⟩
    simp only [Readable, jobFromRow, Checked.bind_eq_ok, Checked.pure_eq_ok, Checked.require_eq_ok, reraise_eq_ok]
    exact ⟨_, (), l.schema, (), ⟨(), l.jobId, l.jobType⟩, (), l.fingerprint, (), l.revision, payload, l.payloadRead,
      artifacts, l.artifactsRead, result, l.resultRead, (), l.stored, (), l.succeeded, (), l.failed, steps, l.stepsRead,
      rfl⟩

/-- A row stays readable when only its progress, revision and update time change. -/
theorem Readable.progressed {forbidden : List String} {r : JobRow} {timestamp : String} {progress : JobProgress}
    (h : Readable forbidden db r) (hp : validateProgress progress = .ok ()) (same : db'.steps = db.steps) :
    Readable forbidden db' { r.bumped timestamp with progress } := by
  obtain ⟨payload, artifacts, result, steps, l⟩ := readable_iff.1 h
  have stored := l.stored
  simp only [validateStored, Checked.bind_eq_ok] at stored
  obtain ⟨-, -, rest⟩ := stored
  refine readable_iff.2 ⟨payload, artifacts, result, steps, { l with revision := ?_, stored := ?_, stepsRead := ?_ }⟩
  · exact Nat.le_add_left 1 r.revision
  · simp only [validateStored, Checked.bind_eq_ok]
    exact ⟨(), hp, rest⟩
  · have read : stepsIn db' r.jobId = stepsIn db r.jobId := by simp only [stepsIn, JobStore.stepsOf, same]
    exact read.trans l.stepsRead

theorem appendAgentDecisionEvent_evolves {jobId eventKey : String} {payload : JsonObject} {stepCount maxSteps : Int}
    {event : AgentJobEvent}
    (h : appendAgentDecisionEvent repo jobId eventKey payload stepCount maxSteps db = .ok (db', event)) :
    db' = db ∨ AdvancesJob repo.forbidden jobId db db' := by
  simp only [appendAgentDecisionEvent, Checked.bind_eq_ok, Checked.require_eq_ok] at h
  obtain ⟨-, -, -, -, index, hindex, -, bounds, -, ceiling, encoded, -, job, read, -, -, h⟩ := h
  split at h
  · simp only [Checked.bind_eq_ok, Checked.pure_eq_ok, Prod.mk.injEq] at h
    obtain ⟨-, -, -, -, rfl, -⟩ := h
    exact .inl rfl
  · simp only [Checked.bind_eq_ok, Checked.pure_eq_ok, Prod.mk.injEq, Checked.require_eq_ok, JobStore.insertEvent,
      Checked.orRaise_eq_ok] at h
    obtain ⟨-, active, -, -, -, position, db2, updated, eventId, -, db3, ⟨events, inserted, -, -, rfl⟩, event, -, rfl,
      -⟩ := h
    obtain ⟨r, hr, decoded⟩ := jobIn_eq_ok read
    obtain ⟨found, rfl⟩ := job?_spec hr
    have decodes := jobFromRow_decodes decoded
    rw [decodes.revision] at updated
    rw [decodes.state] at active inserted
    obtain ⟨jobs, steps, events'⟩ := updateJob_eq_ok found updated
    have progress : validateProgress ⟨some "execute_agent", some stepCount, some maxSteps⟩ = .ok () := by
      have one : 1 ≤ maxSteps := by omega
      have name : validateName "execute_agent" "progress stage" = .ok () := by decide
      simp only [validateProgress, name, Checked.ok_bind, Checked.require_eq_ok]
      exact ⟨one, bounds.1, bounds.2.1⟩
    obtain ⟨e, appended, ofJob, sequence, state⟩ : ∃ e : EventRow, events.rows = db2.events.rows ++ [e] ∧
        e.jobId = r.jobId ∧ e.sequence = db.nextSequence r.jobId ∧ e.state = some r.state :=
      ⟨_, Table.insert?_rows inserted, rfl, rfl, rfl⟩
    refine .inr ⟨r, _, id, e, rfl, found, jobs, ?_, ?_, rfl, fun _ => rfl, rfl, ofJob, sequence, state, ?_, ?_⟩
    · rw [steps]
      exact same_steps db r.jobId
    · rw [appended, events']
    · rw [List.map_id]
      exact .report active
    · exact Readable.progressed ⟨job, decoded⟩ progress steps

/-! ## Admission -/

theorem insertSteps_spec {jobId : String} {steps : List (String × Nat)}
    (h : insertSteps repo jobId steps db = .ok db') :
    db'.jobs = db.jobs ∧ db'.events = db.events ∧ ∃ added : List StepRow, db'.steps.rows = db.steps.rows ++ added ∧
      added.map (fun s => (s.stepName, s.ordinal)) = steps ∧ ∀ s ∈ added, s.jobId = jobId ∧ s.state = .pending := by
  induction steps generalizing db with
  | nil =>
    simp only [insertSteps, Checked.pure_eq_ok] at h
    subst h
    exact ⟨rfl, rfl, [], by simp⟩
  | cons step steps ih =>
    simp only [insertSteps, Checked.bind_eq_ok, JobStore.insertStep, Checked.orRaise_eq_ok, Checked.pure_eq_ok] at h
    obtain ⟨stepId, -, mid, ⟨table, inserted, -, -, rfl⟩, rest⟩ := h
    obtain ⟨jobs, events, added, rows, names, good⟩ := ih rest
    refine ⟨jobs, events, newStepRow stepId jobId step :: added, ?_, ?_, ?_⟩
    · rw [rows, Table.insert?_rows inserted]
      simp
    · rw [List.map_cons, names]
      rfl
    · intro s hs
      rcases List.mem_cons.1 hs with rfl | hs
      · exact ⟨rfl, rfl⟩
      · exact good s hs

/-- A request that meets no job under its key admits one, with its row and its steps. -/
theorem admit_admits {req : JobRequest} {payloadJson : String} {job : DurableJob}
    (h : admitJob repo req payloadJson db = .ok (db', job)) :
    ∃ jobId added e, Admits repo.forbidden db db' (newJobRow jobId req payloadJson repo.clock) added e ∧
      added.map (fun s => (s.stepName, s.ordinal)) = req.steps.zipIdx ∧ job.jobId = jobId := by
  simp only [admitJob, Checked.bind_eq_ok, reraise_eq_ok, JobStore.insertJob, Checked.orRaise_eq_ok, Checked.pure_eq_ok,
    Prod.mk.injEq] at h
  obtain ⟨jobId, -, db2, ⟨mid, ⟨table, inserted, rfl⟩, stepped⟩, db3, appended, -, -, job', reread, rfl, rfl⟩ := h
  obtain ⟨jobs, events, added, rows, names, good⟩ := insertSteps_spec stepped
  obtain ⟨jobs', steps', e, events', eJob, eSequence, eState⟩ := appendEventIn_eq_ok appended
  obtain ⟨fresh, jobRows⟩ := Table.insert?_eq_some.1 inserted
  have written : newJobRow jobId req payloadJson repo.clock ∈ db3.jobs.rows := by
    rw [jobs', jobs, jobRows]
    simp
  obtain ⟨row, hrow, decoded⟩ := jobIn_eq_ok reread
  have same : newJobRow jobId req payloadJson repo.clock = row := by
    have := job?_of_mem written
    rw [show (newJobRow jobId req payloadJson repo.clock).jobId = jobId from rfl, hrow] at this
    exact (Option.some.inj this).symm
  refine ⟨jobId, added, e, ⟨fresh, ?_, ?_, ?_, ?_, fun s hs => (good s hs).1, rfl, eJob, ?_, eState, ?_⟩, names, ?_⟩
  · rw [jobs', jobs, jobRows]
  · rw [steps', rows]
  · rw [events', events]
  · have pending : added.map (·.state) = List.replicate added.length .pending := by
      refine List.eq_replicate_iff.2 ⟨by simp, ?_⟩
      intro s hs
      obtain ⟨row, hrow, rfl⟩ := List.mem_map.1 hs
      exact (good row hrow).2
    simp [view, pending, newJobRow, JobMachine.Job.admitted]
  · simp only [eSequence, JobStore.nextSequence, JobStore.eventsOf, events]
    rfl
  · exact ⟨_, same ▸ decoded⟩
  · rw [(jobFromRow_decodes decoded).jobId, ← same]
    rfl

theorem createJob_evolves {req : JobRequest} {job : DurableJob} (h : createJob repo req db = .ok (db', job)) :
    Evolves repo.forbidden db db' := by
  simp only [createJob, Checked.bind_eq_ok] at h
  obtain ⟨payloadJson, -, h⟩ := h
  split at h
  · simp only [Checked.bind_eq_ok] at h
    obtain ⟨stored, -, h⟩ := h
    split at h
    · simp only [Checked.pure_eq_ok, Prod.mk.injEq] at h
      exact h.1 ▸ .same
    · simp only [Checked.throw_ne_ok] at h
  · obtain ⟨_, _, _, admits, -⟩ := admit_admits h
    exact .admits admits

/-! ## Every call -/

theorem tagged_eq_ok {α : Type} {tag : α → JobReply} {x : Except PyError (JobStore × α)} {reply : JobReply}
    (h : tagged tag x = .ok (db', reply)) : ∃ a, x = .ok (db', a) ∧ reply = tag a := by
  simp only [tagged, Checked.bind_eq_ok, Checked.pure_eq_ok, Prod.mk.injEq] at h
  obtain ⟨⟨_, a⟩, hx, rfl, rfl⟩ := h
  exact ⟨a, hx, rfl⟩

theorem evolves_of_either {forbidden : List String} {jobId : String}
    (h : db' = db ∨ AdvancesJob forbidden jobId db db') : Evolves forbidden db db' := by
  rcases h with rfl | h
  · exact .same
  · exact h.evolves

/-- **Every call that returns evolves the store.** -/
theorem body_evolves {call : JobCall} {reply : JobReply} (h : body repo call db = .ok (db', reply)) :
    Evolves repo.forbidden db db' := by
  cases call with
  | createJob request =>
    obtain ⟨_, h, -⟩ := tagged_eq_ok h
    exact createJob_evolves h
  | claimNextJob eligible =>
    obtain ⟨_, h, -⟩ := tagged_eq_ok h
    exact claimNextJob_evolves h
  | transitionJob jobId revision target result code message =>
    obtain ⟨_, h, -⟩ := tagged_eq_ok h
    simp only [transitionJob, Checked.bind_eq_ok, Checked.require_eq_ok] at h
    obtain ⟨-, direct, h⟩ := h
    exact (transitionJobIn_advances direct h).evolves
  | reportProgress jobId revision progress =>
    obtain ⟨_, h, -⟩ := tagged_eq_ok h
    exact (reportProgress_advances h).evolves
  | transitionStep jobId stepId jobRevision stepRevision target =>
    obtain ⟨_, h, -⟩ := tagged_eq_ok h
    exact (transitionStep_advances h).evolves
  | requestCancellation jobId revision =>
    obtain ⟨_, h, -⟩ := tagged_eq_ok h
    exact evolves_of_either (requestCancellation_evolves h)
  | acknowledgeCancellation jobId revision result =>
    obtain ⟨_, h, -⟩ := tagged_eq_ok h
    exact (acknowledgeCancellation_advances h).evolves
  | recoverInterruptedJobs limit =>
    obtain ⟨_, h, -⟩ := tagged_eq_ok h
    exact recoverInterruptedJobs_evolves h
  | appendAgentDecisionEvent jobId key payload stepCount maxSteps =>
    obtain ⟨_, h, -⟩ := tagged_eq_ok h
    exact evolves_of_either (appendAgentDecisionEvent_evolves h)

/-- **Every call evolves the store**, whether it commits or rolls back. -/
theorem perform_evolves (db : JobStore) (input : JobRepository × JobCall) :
    Evolves input.1.forbidden db (perform db input) := by
  rcases Checked.commit_cases (body input.1 input.2 db) db with ⟨new, reply, h, e⟩ | e
  · rw [perform, e]
    exact body_evolves h
  · rw [perform, e]
    exact .same

end Jobs
