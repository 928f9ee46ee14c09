import DocumentQa.Jobs.Claims

/-!
# What a mutator writes

A mutator leaves the rows and events of the store alone but for those it writes: an event it
appends carries the clock reading of the call, and no mutator but `transition_job` makes a job
succeed, and that one only the job it names.
-/

namespace Jobs

open Python SqlTable

/-- A row the store did not have satisfies `P`, and an event it did not have was stamped by the call. -/
structure Wrote (repo : JobRepository) (P : JobRow → Prop) (db db' : JobStore) : Prop where
  jobs : ∀ x ∈ db'.jobs.rows, x ∈ db.jobs.rows ∨ P x
  events : ∀ e ∈ db'.events.rows, e ∈ db.events.rows ∨ e.occurredAt = repo.clock

/-- Whatever succeeded in the new store had succeeded in the old one. -/
def Spares (db db' : JobStore) : Prop :=
  ∀ x ∈ db'.jobs.rows, x.state = .succeeded → ∃ y ∈ db.jobs.rows, y.jobId = x.jobId ∧ y.state = .succeeded

theorem Spares.refl (db : JobStore) : Spares db db :=
  fun x mem done => ⟨x, mem, rfl, done⟩

/-- The row did not succeed. -/
def Unfinished (r : JobRow) : Prop :=
  r.state ≠ .succeeded

section Writing

variable {repo : JobRepository} {db db' : JobStore} {P Q : JobRow → Prop}

theorem Wrote.refl (db : JobStore) : Wrote repo P db db :=
  ⟨fun _ => .inl, fun _ => .inl⟩

theorem Wrote.mono (h : Wrote repo P db db') (weaker : ∀ r, P r → Q r) : Wrote repo Q db db' :=
  ⟨fun x mem => (h.jobs x mem).imp_right (weaker x), h.events⟩

theorem Wrote.trans {a b c : JobStore} (h : Wrote repo P a b) (h' : Wrote repo P b c) : Wrote repo P a c := by
  constructor
  · intro x mem
    rcases h'.jobs x mem with mem | new
    · exact h.jobs x mem
    · exact .inr new
  · intro e mem
    rcases h'.events e mem with mem | new
    · exact h.events e mem
    · exact .inr new

/-- The event that is appended carries the clock reading. -/
theorem appendEventIn_stamps {k : Nat} {jobId : String} {eventType : JobEventType} {state : JobState} {reason : Option String}
    {progress : JobProgress} (h : appendEventIn repo k db jobId eventType state reason progress repo.clock = .ok db') :
    ∀ e ∈ db'.events.rows, e ∈ db.events.rows ∨ e.occurredAt = repo.clock := by
  simp only [appendEventIn, reraise_eq_ok, Checked.bind_eq_ok, JobStore.insertEvent, Checked.orRaise_eq_ok,
    Checked.pure_eq_ok] at h
  obtain ⟨eventId, -, events, inserted, -, -, rfl⟩ := h
  intro e mem
  have rows : events.rows = db.events.rows ++ [_] := Table.insert?_rows inserted
  rw [rows, List.mem_append, List.mem_singleton] at mem
  rcases mem with mem | rfl
  · exact .inl mem
  · exact .inr rfl

/-- The writes of a mutator: the row it worked on is rewritten and an event appended. -/
theorem wrote {k : Nat} {mid db2 db3 : JobStore} {r : JobRow} {f : JobRow → JobRow} {keep} {eventType : JobEventType}
    {state : JobState} {reason : Option String} {progress : JobProgress} (found : r ∈ db.jobs.rows)
    (midJobs : mid.jobs = db.jobs ∧ mid.events = db.events) (updated : mid.updateJob r.jobId r.revision f keep = .ok db2)
    (appended : appendEventIn repo k db2 r.jobId eventType state reason progress repo.clock = .ok db3) (rewritten : P (f r)) :
    Wrote repo P db db3 := by
  obtain ⟨jobs, -, events⟩ := updateJob_eq_ok (midJobs.1 ▸ found) updated
  obtain ⟨jobs', -⟩ := appendEventIn_eq_ok appended
  constructor
  · intro x mem
    rw [jobs', jobs, midJobs.1] at mem
    obtain ⟨y, hy, rfl⟩ := List.mem_map.1 mem
    split
    · exact .inr rewritten
    · exact .inl hy
  · intro e mem
    have stamped := appendEventIn_stamps appended e mem
    rwa [events, midJobs.2] at stamped

theorem transitionJobIn_writes {jobId : String} {expectedRevision : Int} {target : JobState} {result : Option JsonObject}
    {failureCode failureMessage : Option String} {job : DurableJob}
    (h : transitionJobIn repo db jobId expectedRevision target result failureCode failureMessage = .ok (db', job)) :
    Wrote repo (fun r => r.jobId = jobId ∧ r.state = target) db db' := by
  simp only [transitionJobIn, Checked.bind_eq_ok, Checked.pure_eq_ok, Prod.mk.injEq] at h
  obtain ⟨current, read, -, -, -, -, -, -, ⟨resultJson, code, message⟩, -, db2, updated, -, -, db3, appended, job', -,
    rfl, -⟩ := h
  obtain ⟨r, found, rfl, decodes⟩ := jobIn_row read
  rw [decodes.revision] at updated
  apply wrote found _ updated appended
  · exact ⟨rfl, rfl⟩
  · split <;> exact ⟨rfl, rfl⟩

theorem Wrote.transitioned {jobId : String} {target : JobState} (h : Wrote repo (fun r => r.jobId = jobId ∧ r.state = target) db db')
    (other : target ≠ .succeeded) : Wrote repo Unfinished db db' := by
  apply h.mono
  rintro r ⟨-, rfl⟩
  exact other

theorem claimNextJob_writes {eligible : List (JobNamespace × String)} {claimed : Option DurableJob}
    (h : claimNextJob repo eligible db = .ok (db', claimed)) : Wrote repo Unfinished db db' := by
  simp only [claimNextJob, Checked.bind_eq_ok] at h
  obtain ⟨-, -, -, -, h⟩ := h
  split at h
  · simp only [Checked.pure_eq_ok, Prod.mk.injEq] at h
    exact h.1 ▸ .refl _
  · simp only [Checked.bind_eq_ok, Checked.pure_eq_ok, Prod.mk.injEq] at h
    obtain ⟨⟨db2, job⟩, moved, rfl, -⟩ := h
    exact (transitionJobIn_writes moved).transitioned JobState.noConfusion

theorem reportProgress_writes {jobId : String} {expectedRevision : Int} {progress : JobProgress} {job : DurableJob}
    (h : reportProgress repo jobId expectedRevision progress db = .ok (db', job)) : Wrote repo Unfinished db db' := by
  simp only [reportProgress, Checked.bind_eq_ok, Checked.pure_eq_ok, Prod.mk.injEq, Checked.require_eq_ok] at h
  obtain ⟨-, -, current, read, -, -, -, running, -, -, db2, updated, -, -, db3, appended, job', -, rfl, -⟩ := h
  obtain ⟨r, found, rfl, decodes⟩ := jobIn_row read
  rw [decodes.state] at running
  rw [decodes.revision] at updated
  apply wrote found ⟨rfl, rfl⟩ updated appended
  show r.state ≠ .succeeded
  rw [running]
  exact JobState.noConfusion

theorem transitionStep_writes {jobId stepId : String} {expectedJobRevision expectedStepRevision : Int}
    {target : JobStepState} {job : DurableJob}
    (h : transitionStep repo jobId stepId expectedJobRevision expectedStepRevision target db = .ok (db', job)) :
    Wrote repo Unfinished db db' := by
  simp only [transitionStep, Checked.bind_eq_ok, Checked.pure_eq_ok, Prod.mk.injEq, Checked.require_eq_ok] at h
  obtain ⟨-, -, current, read, -, -, row, -, -, -, -, -, -, allowed, -, -, db2, updated, -, -, db3, appended, job', -,
    rfl, -⟩ := h
  obtain ⟨r, found, rfl, decodes⟩ := jobIn_row read
  rw [decodes.state] at allowed
  rw [decodes.revision] at updated
  apply wrote found _ updated appended
  · show r.state ≠ .succeeded
    intro done
    rw [done] at allowed
    exact List.not_mem_nil allowed
  · exact ⟨rfl, rfl⟩

theorem requestCancellation_writes {jobId : String} {expectedRevision : Int} {job : DurableJob}
    (h : requestCancellation repo jobId expectedRevision db = .ok (db', job)) : Wrote repo Unfinished db db' := by
  simp only [requestCancellation, Checked.bind_eq_ok] at h
  obtain ⟨current, read, -, -, h⟩ := h
  split at h
  · simp only [Checked.pure_eq_ok, Prod.mk.injEq] at h
    exact h.1 ▸ .refl _
  · simp only [Checked.bind_eq_ok, Checked.pure_eq_ok, Prod.mk.injEq] at h
    obtain ⟨-, -, -, -, db2, updated, -, -, db3, appended, job', -, rfl, -⟩ := h
    obtain ⟨r, found, rfl, decodes⟩ := jobIn_row read
    rw [decodes.revision] at updated
    apply wrote found _ updated appended
    · show (if current.state = .queued then JobState.cancelled else .cancelling) ≠ .succeeded
      split <;> exact JobState.noConfusion
    · split <;> exact ⟨rfl, rfl⟩

theorem acknowledgeCancellation_writes {jobId : String} {expectedRevision : Int} {result : Option JsonObject}
    {job : DurableJob} (h : acknowledgeCancellation repo jobId expectedRevision result db = .ok (db', job)) :
    Wrote repo Unfinished db db' := by
  simp only [acknowledgeCancellation, Checked.bind_eq_ok, Checked.pure_eq_ok, Prod.mk.injEq] at h
  obtain ⟨current, read, -, -, -, -, resultJson, -, db2, updated, -, -, db3, appended, job', -, rfl, -⟩ := h
  obtain ⟨r, found, rfl, decodes⟩ := jobIn_row read
  rw [decodes.revision] at updated
  apply wrote found _ updated appended
  · exact JobState.noConfusion
  · exact ⟨rfl, rfl⟩

theorem recoverJob_writes {k : Nat} {jobId : String} {job : DurableJob} (h : recoverJob repo k jobId db = .ok (db', job)) :
    Wrote repo Unfinished db db' := by
  simp only [recoverJob, Checked.bind_eq_ok, Checked.pure_eq_ok, Prod.mk.injEq] at h
  obtain ⟨current, read, -, -, db2, updated, -, -, db3, appended, job', -, rfl, -⟩ := h
  obtain ⟨r, found, rfl, decodes⟩ := jobIn_row read
  rw [decodes.revision] at updated
  apply wrote found _ updated appended
  · exact JobState.noConfusion
  · exact ⟨rfl, rfl⟩

theorem recoverJobs_writes {k : Nat} {jobIds : List String} {jobs : List DurableJob}
    (h : recoverJobs repo k jobIds db = .ok (db', jobs)) : Wrote repo Unfinished db db' := by
  induction jobIds generalizing k db jobs with
  | nil =>
    simp only [recoverJobs, Checked.pure_eq_ok, Prod.mk.injEq] at h
    exact h.1 ▸ .refl _
  | cons jobId rest ih =>
    simp only [recoverJobs, Checked.bind_eq_ok, Checked.pure_eq_ok, Prod.mk.injEq] at h
    obtain ⟨⟨mid, job⟩, one, ⟨last, jobs'⟩, others, rfl, -⟩ := h
    exact (recoverJob_writes one).trans (ih others)

theorem recoverInterruptedJobs_writes {limit : Int} {jobs : List DurableJob}
    (h : recoverInterruptedJobs repo limit db = .ok (db', jobs)) : Wrote repo Unfinished db db' := by
  simp only [recoverInterruptedJobs, Checked.bind_eq_ok] at h
  obtain ⟨-, -, h⟩ := h
  exact recoverJobs_writes h

theorem appendAgentDecisionEvent_writes {jobId eventKey : String} {payload : JsonObject} {stepCount maxSteps : Int}
    {event : AgentJobEvent}
    (h : appendAgentDecisionEvent repo jobId eventKey payload stepCount maxSteps db = .ok (db', event)) :
    Wrote repo Unfinished db db' := by
  simp only [appendAgentDecisionEvent, Checked.bind_eq_ok, Checked.require_eq_ok] at h
  obtain ⟨-, -, -, -, index, -, -, -, -, -, encoded, -, job, read, -, -, h⟩ := h
  split at h
  · simp only [Checked.bind_eq_ok, Checked.pure_eq_ok, Prod.mk.injEq] at h
    obtain ⟨-, -, -, -, rfl, -⟩ := h
    exact .refl _
  · simp only [Checked.bind_eq_ok, Checked.pure_eq_ok, Prod.mk.injEq, Checked.require_eq_ok, JobStore.insertEvent,
      Checked.orRaise_eq_ok] at h
    obtain ⟨-, active, -, -, -, -, db2, updated, eventId, -, db3, ⟨events, inserted, -, -, rfl⟩, event, -, rfl, -⟩ := h
    obtain ⟨r, found, rfl, decodes⟩ := jobIn_row read
    rw [decodes.revision] at updated
    rw [decodes.state] at active
    obtain ⟨jobs, -, log⟩ := updateJob_eq_ok found updated
    constructor
    · intro x mem
      rw [jobs] at mem
      obtain ⟨y, hy, rfl⟩ := List.mem_map.1 mem
      split
      · -- the row whose progress was recorded
        refine .inr ?_
        show r.state ≠ .succeeded
        intro done
        rw [done] at active
        rcases active with active | active <;> cases active
      · exact .inl hy
    · intro e mem
      have rows : events.rows = db2.events.rows ++ [_] := Table.insert?_rows inserted
      rw [rows, log, List.mem_append, List.mem_singleton] at mem
      rcases mem with mem | rfl
      · exact .inl mem
      · exact .inr rfl

theorem admitJob_writes {req : JobRequest} {payloadJson : String} {job : DurableJob}
    (h : admitJob repo req payloadJson db = .ok (db', job)) : Wrote repo Unfinished db db' := by
  constructor
  · intro x mem
    obtain ⟨jobId, _, _, admits, -⟩ := admit_admits h
    rw [admits.jobs, List.mem_append, List.mem_singleton] at mem
    rcases mem with mem | rfl
    · exact .inl mem
    · exact .inr JobState.noConfusion
  · intro e mem
    simp only [admitJob, Checked.bind_eq_ok, reraise_eq_ok, JobStore.insertJob, Checked.orRaise_eq_ok, Checked.pure_eq_ok,
      Prod.mk.injEq] at h
    obtain ⟨jobId, -, db2, ⟨mid, ⟨table, -, rfl⟩, stepped⟩, db3, appended, -, -, job', -, rfl, -⟩ := h
    obtain ⟨-, events, -⟩ := insertSteps_spec stepped
    have stamped := appendEventIn_stamps appended e mem
    rwa [events] at stamped

theorem createJob_writes {req : JobRequest} {job : DurableJob} (h : createJob repo req db = .ok (db', job)) :
    Wrote repo Unfinished db db' := by
  simp only [createJob, Checked.bind_eq_ok] at h
  obtain ⟨payloadJson, -, h⟩ := h
  split at h
  · simp only [Checked.bind_eq_ok] at h
    obtain ⟨stored, -, h⟩ := h
    split at h
    · simp only [Checked.pure_eq_ok, Prod.mk.injEq] at h
      exact h.1 ▸ .refl _
    · simp only [Checked.throw_ne_ok] at h
  · exact admitJob_writes h

/-- The call makes the job succeed. -/
def Succeeds (jobId : String) (call : JobCall) : Prop :=
  ∃ revision result code message, call = .transitionJob jobId revision .succeeded result code message

/-- **What a call writes**: a job succeeds by a `transition_job` for it only, and the log is stamped
with the clock reading of the call. -/
theorem body_writes {call : JobCall} {reply : JobReply} (h : body repo call db = .ok (db', reply)) :
    Wrote repo (fun r => r.state = .succeeded → Succeeds r.jobId call) db db' := by
  have spared (w : Wrote repo Unfinished db db') : Wrote repo (fun r => r.state = .succeeded → Succeeds r.jobId call) db db' :=
    w.mono fun r other done => absurd done other
  cases call with
  | transitionJob jobId revision target result code message =>
    obtain ⟨job, h, -⟩ := tagged_eq_ok h
    simp only [transitionJob, Checked.bind_eq_ok] at h
    obtain ⟨-, -, moved⟩ := h
    apply (transitionJobIn_writes moved).mono
    rintro r ⟨rfl, rfl⟩ done
    rw [done]
    exact ⟨revision, result, code, message, rfl⟩
  | createJob request =>
    obtain ⟨job, h, -⟩ := tagged_eq_ok h
    exact spared (createJob_writes h)
  | claimNextJob eligible =>
    obtain ⟨claimed, h, -⟩ := tagged_eq_ok h
    exact spared (claimNextJob_writes h)
  | reportProgress jobId revision progress =>
    obtain ⟨job, h, -⟩ := tagged_eq_ok h
    exact spared (reportProgress_writes h)
  | transitionStep jobId stepId jobRevision stepRevision target =>
    obtain ⟨job, h, -⟩ := tagged_eq_ok h
    exact spared (transitionStep_writes h)
  | requestCancellation jobId revision =>
    obtain ⟨job, h, -⟩ := tagged_eq_ok h
    exact spared (requestCancellation_writes h)
  | acknowledgeCancellation jobId revision result =>
    obtain ⟨job, h, -⟩ := tagged_eq_ok h
    exact spared (acknowledgeCancellation_writes h)
  | recoverInterruptedJobs limit =>
    obtain ⟨jobs, h, -⟩ := tagged_eq_ok h
    exact spared (recoverInterruptedJobs_writes h)
  | appendAgentDecisionEvent jobId key payload stepCount maxSteps =>
    obtain ⟨event, h, -⟩ := tagged_eq_ok h
    exact spared (appendAgentDecisionEvent_writes h)

/-- **Only `transition_job` makes a job succeed**, and only the job it is called for. -/
theorem body_succeeds {call : JobCall} {reply : JobReply} (h : body repo call db = .ok (db', reply)) {x : JobRow}
    (mem : x ∈ db'.jobs.rows) (done : x.state = .succeeded) :
    (∃ y ∈ db.jobs.rows, y.jobId = x.jobId ∧ y.state = .succeeded) ∨ Succeeds x.jobId call := by
  rcases (body_writes h).jobs x mem with before | new
  · exact .inl ⟨x, before, rfl, done⟩
  · exact .inr (new done)

end Writing

end Jobs
