import DocumentQa.Jobs.Mutators
import DocumentQa.Lib.Runs

/-!
# Invariants of the job store

The event log counts the revisions of its job and ends in its state (`durable_log`); the
steps and columns of a job fit its state, and what is terminal or withdrawn stays so
(`durable_coherence`). Both hold after every sequence of calls, whichever of them fail.
-/

namespace Jobs

open Python SqlTable

/-- The store after a sequence of calls from an empty database. -/
def history (inputs : List (JobRepository × JobCall)) : JobStore :=
  Runs.run perform .empty inputs

theorem history_reaches (inputs : List (JobRepository × JobCall)) :
    Runs.Reaches perform .empty (history inputs) :=
  ⟨inputs, rfl⟩

section Frames

variable {forbidden : List String} {db db' : JobStore} {r r' : JobRow} {g : StepRow → StepRow} {e : EventRow}
  {added : List StepRow}

/-- The rewritten row keeps its ID. -/
theorem Advance.sameId (h : Advance forbidden db db' r r' g e) : r'.jobId = r.jobId :=
  congrArg Admitted.jobId h.kept

theorem Advance.stepSameJob (h : Advance forbidden db db' r r' g e) (s : StepRow) : (g s).jobId = s.jobId := by
  have := h.stepsKept s
  simp only [StepRow.admitted, Prod.mk.injEq] at this
  exact this.2.1

/-- The rows after an advance: the moved one and the others as they were. -/
theorem Advance.mem_jobs (h : Advance forbidden db db' r r' g e) {x : JobRow} :
    x ∈ db'.jobs.rows ↔ x = r' ∨ (x ∈ db.jobs.rows ∧ x.jobId ≠ r.jobId) := by
  rw [h.jobs, List.mem_map]
  constructor
  · rintro ⟨a, ha, rfl⟩
    by_cases same : a.jobId = r.jobId
    · simp [same]
    · simp [same, ha]
  · rintro (rfl | ⟨hx, other⟩)
    · exact ⟨r, h.found, by simp⟩
    · exact ⟨x, hx, by simp [other]⟩

theorem Advance.stepsOf (h : Advance forbidden db db' r r' g e) (jobId : String) :
    db'.stepsOf jobId = if jobId = r.jobId then (db.stepsOf jobId).map g else db.stepsOf jobId := by
  have keep : ∀ s : StepRow, (if s.jobId = r.jobId then g s else s).jobId = s.jobId := by
    intro s
    split
    · exact h.stepSameJob s
    · rfl
  simp only [JobStore.stepsOf, Table.select, h.steps, List.filter_map, Function.comp_def, keep]
  by_cases own : jobId = r.jobId
  · rw [if_pos own]
    refine List.map_congr_left ?_
    intro s hs
    have : s.jobId = jobId := by simpa using (List.mem_filter.1 hs).2
    rw [if_pos (this.trans own)]
  · rw [if_neg own]
    refine (List.map_congr_left ?_).trans (List.map_id _)
    intro s hs
    have : s.jobId = jobId := by simpa using (List.mem_filter.1 hs).2
    rw [if_neg (this ▸ own)]
    rfl

theorem Advance.eventsOf (h : Advance forbidden db db' r r' g e) (jobId : String) :
    db'.eventsOf jobId = if jobId = r.jobId then db.eventsOf jobId ++ [e] else db.eventsOf jobId := by
  simp only [JobStore.eventsOf, Table.select, h.events, List.filter_append]
  by_cases own : jobId = r.jobId
  · simp [own, h.eventJob]
  · simp [own, h.eventJob, Ne.symm own]

theorem Admits.other (h : Admits forbidden db db' r added e) {x : JobRow} (hx : x ∈ db.jobs.rows) :
    x.jobId ≠ r.jobId := by
  intro same
  have clash := h.fresh x hx
  rw [sameJob_clashes same.symm] at clash
  cases clash

theorem Admits.stepsOf (h : Admits forbidden db db' r added e) (jobId : String) :
    db'.stepsOf jobId = if jobId = r.jobId then db.stepsOf jobId ++ added else db.stepsOf jobId := by
  simp only [JobStore.stepsOf, Table.select, h.steps, List.filter_append]
  by_cases own : jobId = r.jobId
  · have all : added.filter (fun s => s.jobId = jobId) = added :=
      List.filter_eq_self.2 fun s hs => by simp [h.stepsJob s hs, own]
    rw [if_pos own, all]
  · have none_ : added.filter (fun s => s.jobId = jobId) = [] :=
      List.filter_eq_nil_iff.2 fun s hs => by simp [h.stepsJob s hs, Ne.symm own]
    rw [if_neg own, none_, List.append_nil]

theorem Admits.eventsOf (h : Admits forbidden db db' r added e) (jobId : String) :
    db'.eventsOf jobId = if jobId = r.jobId then db.eventsOf jobId ++ [e] else db.eventsOf jobId := by
  simp only [JobStore.eventsOf, Table.select, h.events, List.filter_append]
  by_cases own : jobId = r.jobId
  · simp [own, h.eventJob]
  · simp [own, h.eventJob, Ne.symm own]

end Frames

/-! ## Invariants -/

/-- Steps and events belong to jobs of the store. -/
structure Owned (db : JobStore) : Prop where
  steps : ∀ s ∈ db.steps.rows, ∃ r ∈ db.jobs.rows, r.jobId = s.jobId
  events : ∀ e ∈ db.events.rows, ∃ r ∈ db.jobs.rows, r.jobId = e.jobId

/-- The log of a job: its events count its revisions and end in its state. -/
structure Logged (db : JobStore) (r : JobRow) : Prop where
  sequences : (db.eventsOf r.jobId).map (·.sequence) = List.range' 1 r.revision
  last : ∃ e, (db.eventsOf r.jobId).getLast? = some e ∧ e.state = some r.state

/-- The invariant of the job store. -/
structure Sound (db : JobStore) : Prop where
  owned : Owned db
  logged : ∀ r ∈ db.jobs.rows, Logged db r
  coherent : ∀ r ∈ db.jobs.rows, JobMachine.Coherent (view r (db.stepsOf r.jobId))

theorem Sound.empty : Sound .empty :=
  ⟨⟨by simp [JobStore.empty], by simp [JobStore.empty]⟩, by simp [JobStore.empty], by simp [JobStore.empty]⟩

/-- The next sequence number is the number of events counted from one. -/
theorem nextSequence_eq {db : JobStore} {jobId : String} {n : Nat}
    (h : (db.eventsOf jobId).map (·.sequence) = List.range' 1 n) : db.nextSequence jobId = n + 1 := by
  have fold : ∀ k start, start ≤ k → (List.range' k n).foldl max start = if n = 0 then start else k + n - 1 := by
    clear h
    induction n with
    | zero => simp
    | succ n ih =>
      intro k start le
      rw [List.range'_succ, List.foldl_cons, Nat.max_eq_right le, ih (k + 1) k (by omega)]
      split <;> simp_all
  rw [JobStore.nextSequence, h, fold 1 0 (by omega)]
  split <;> omega

section Steps

variable {forbidden : List String} {db db' : JobStore} {r r' : JobRow} {g : StepRow → StepRow} {e : EventRow}
  {added : List StepRow}

/-- A job nobody has admitted yet has no steps and no events. -/
theorem Owned.nothing (o : Owned db) {jobId : String} (h : ∀ x ∈ db.jobs.rows, x.jobId ≠ jobId) :
    db.stepsOf jobId = [] ∧ db.eventsOf jobId = [] := by
  constructor
  · refine List.filter_eq_nil_iff.2 ?_
    intro s hs
    obtain ⟨x, hx, same⟩ := o.steps s hs
    simpa [same] using h x hx
  · refine List.filter_eq_nil_iff.2 ?_
    intro s hs
    obtain ⟨x, hx, same⟩ := o.events s hs
    simpa [same] using h x hx

theorem Advance.owned (h : Advance forbidden db db' r r' g e) (o : Owned db) : Owned db' := by
  have still : ∀ jobId, (∃ x ∈ db.jobs.rows, x.jobId = jobId) → ∃ x ∈ db'.jobs.rows, x.jobId = jobId := by
    rintro jobId ⟨x, hx, rfl⟩
    by_cases same : x.jobId = r.jobId
    · exact ⟨r', h.mem_jobs.2 (.inl rfl), h.sameId.trans same.symm⟩
    · exact ⟨x, h.mem_jobs.2 (.inr ⟨hx, same⟩), rfl⟩
  constructor
  · intro s hs
    rw [h.steps] at hs
    obtain ⟨a, ha, rfl⟩ := List.mem_map.1 hs
    have same : (if a.jobId = r.jobId then g a else a).jobId = a.jobId := by
      split
      · exact h.stepSameJob a
      · rfl
    rw [same]
    exact still a.jobId (o.steps a ha)
  · intro a ha
    rw [h.events, List.mem_append, List.mem_singleton] at ha
    rcases ha with ha | rfl
    · exact still _ (o.events a ha)
    · exact still _ ⟨r, h.found, h.eventJob.symm⟩

theorem Admits.owned (h : Admits forbidden db db' r added e) (o : Owned db) : Owned db' := by
  have still : ∀ jobId, (∃ x ∈ db.jobs.rows, x.jobId = jobId) → ∃ x ∈ db'.jobs.rows, x.jobId = jobId := by
    rintro jobId ⟨x, hx, same⟩
    exact ⟨x, by simp [h.jobs, hx], same⟩
  have new : r ∈ db'.jobs.rows := by simp [h.jobs]
  constructor
  · intro s hs
    rw [h.steps, List.mem_append] at hs
    rcases hs with hs | hs
    · exact still _ (o.steps s hs)
    · exact ⟨r, new, (h.stepsJob s hs).symm⟩
  · intro a ha
    rw [h.events, List.mem_append, List.mem_singleton] at ha
    rcases ha with ha | rfl
    · exact still _ (o.events a ha)
    · exact ⟨r, new, h.eventJob.symm⟩

/-- **An advance keeps the invariant.** -/
theorem Advance.sound (h : Advance forbidden db db' r r' g e) (s : Sound db) : Sound db' := by
  refine ⟨h.owned s.owned, ?_, ?_⟩
  · intro x hx
    rcases h.mem_jobs.1 hx with rfl | ⟨hx, other⟩
    · have log := (s.logged r h.found).sequences
      constructor
      · rw [h.sameId, h.eventsOf, if_pos rfl, List.map_append, log, h.revision, List.range'_concat]
        simp [h.eventSequence, nextSequence_eq log, Nat.add_comm]
      · exact ⟨e, by simp [h.sameId, h.eventsOf], h.eventState⟩
    · have log := s.logged x hx
      constructor
      · rw [h.eventsOf, if_neg other]
        exact log.sequences
      · rw [h.eventsOf, if_neg other]
        exact log.last
  · intro x hx
    rcases h.mem_jobs.1 hx with rfl | ⟨hx, other⟩
    · rw [h.sameId, h.stepsOf, if_pos rfl]
      exact h.move.coherent (s.coherent r h.found)
    · rw [h.stepsOf, if_neg other]
      exact s.coherent x hx

/-- **An admission keeps the invariant.** -/
theorem Admits.sound (h : Admits forbidden db db' r added e) (s : Sound db) : Sound db' := by
  obtain ⟨noSteps, noEvents⟩ := s.owned.nothing fun x hx => h.other hx
  refine ⟨h.owned s.owned, ?_, ?_⟩
  · intro x hx
    rw [h.jobs, List.mem_append, List.mem_singleton] at hx
    rcases hx with hx | rfl
    · have log := s.logged x hx
      have other := h.other hx
      constructor
      · rw [h.eventsOf, if_neg other]
        exact log.sequences
      · rw [h.eventsOf, if_neg other]
        exact log.last
    · have first : db.nextSequence x.jobId = 1 := by simp [JobStore.nextSequence, noEvents]
      constructor
      · simp [h.eventsOf, noEvents, h.revision, h.eventSequence, first]
      · exact ⟨e, by simp [h.eventsOf, noEvents], h.eventState⟩
  · intro x hx
    rw [h.jobs, List.mem_append, List.mem_singleton] at hx
    rcases hx with hx | rfl
    · rw [h.stepsOf, if_neg (h.other hx)]
      exact s.coherent x hx
    · rw [h.stepsOf, if_pos rfl, noSteps, List.nil_append, h.queued]
      exact .admitted _

theorem Evolves.sound (h : Evolves forbidden db db') (s : Sound db) : Sound db' := by
  induction h with
  | same => exact s
  | admits h => exact h.sound s
  | advances _ h ih => exact h.sound ih

end Steps

theorem perform_sound (db : JobStore) (input : JobRepository × JobCall) (s : Sound db) : Sound (perform db input) :=
  (perform_evolves db input).sound s

theorem Reaches.sound {db db' : JobStore} (h : Runs.Reaches perform db db') (s : Sound db) : Sound db' :=
  h.invariant s perform_sound

/-- **The durable log.** After any calls, each committed or failed at any point, the
events of a job are numbered from one to its revision and the last one carries its state. -/
theorem durable_log (inputs : List (JobRepository × JobCall)) :
    ∀ r ∈ (history inputs).jobs.rows,
      ((history inputs).eventsOf r.jobId).map (·.sequence) = List.range' 1 r.revision ∧
        ∃ e, ((history inputs).eventsOf r.jobId).getLast? = some e ∧ e.state = some r.state := by
  intro r hr
  have log := (Reaches.sound (history_reaches inputs) .empty).logged r hr
  exact ⟨log.sequences, log.last⟩

/-- A repository whose identifiers start with `tag`. -/
def sampleRepository (tag : String) : JobRepository :=
  ⟨"2026-01-01T00:00:00.000000Z", fun k => tag ++ toString k, fun _ _ => .ok (), []⟩

def sampleRequest (key : String) : JobRequest :=
  ⟨.pipeline, "ingest", key, String.ofList (List.replicate 64 'a'), ⟨[("depth", .int 2)], by decide⟩, ["run.1"],
    ["parse"]⟩

/-- Two jobs are admitted, one is claimed and the other withdrawn. -/
def sampleCalls : List (JobRepository × JobCall) :=
  [(sampleRepository "a", .createJob (sampleRequest "first")), (sampleRepository "b", .claimNextJob [(.pipeline, "ingest")]),
    (sampleRepository "c", .createJob (sampleRequest "second")), (sampleRepository "d", .requestCancellation "job_c0" 1)]

theorem durable_log_sample :
    ∃ r ∈ (history sampleCalls).jobs.rows,
      ((history sampleCalls).eventsOf r.jobId).map (·.sequence) = List.range' 1 r.revision ∧
        ∃ e, ((history sampleCalls).eventsOf r.jobId).getLast? = some e ∧ e.state = some r.state := by
  have admitted : ∃ r, r ∈ (history sampleCalls).jobs.rows :=
    List.isEmpty_eq_false_iff_exists_mem.1 (by decide +kernel)
  obtain ⟨r, hr⟩ := admitted
  exact ⟨r, hr, durable_log sampleCalls r hr⟩

/-! ## What never changes again -/

/-- How a store may follow another: jobs stay, a terminal job stays as it is with its steps
and events, and a withdrawn job stays withdrawn. -/
def Follows (db db' : JobStore) : Prop :=
  ∀ r ∈ db.jobs.rows, ∃ r' ∈ db'.jobs.rows, r'.jobId = r.jobId ∧
    (r.state.terminal = true →
      r' = r ∧ db'.stepsOf r.jobId = db.stepsOf r.jobId ∧ db'.eventsOf r.jobId = db.eventsOf r.jobId) ∧
    (JobMachine.Withdrawn r.state → JobMachine.Withdrawn r'.state)

theorem Follows.refl (db : JobStore) : Follows db db :=
  fun r hr => ⟨r, hr, rfl, fun _ => ⟨rfl, rfl, rfl⟩, id⟩

theorem Follows.trans {a b c : JobStore} (h : Follows a b) (h' : Follows b c) : Follows a c := by
  intro r hr
  obtain ⟨s, hs, same, done, gone⟩ := h r hr
  obtain ⟨t, ht, same', done', gone'⟩ := h' s hs
  refine ⟨t, ht, same'.trans same, ?_, gone' ∘ gone⟩
  intro terminal
  obtain ⟨rfl, steps, events⟩ := done terminal
  obtain ⟨rfl, steps', events'⟩ := done' terminal
  exact ⟨rfl, steps'.trans steps, events'.trans events⟩

theorem Advance.follows {forbidden : List String} {db db' : JobStore} {r r' : JobRow} {g : StepRow → StepRow}
    {e : EventRow} (h : Advance forbidden db db' r r' g e) : Follows db db' := by
  intro x hx
  by_cases same : x.jobId = r.jobId
  · obtain rfl := Table.eq_of_clashes hx h.found (sameJob_clashes same)
    refine ⟨r', h.mem_jobs.2 (.inl rfl), h.sameId, ?_, h.move.withdrawn⟩
    intro terminal
    have active : x.state.terminal = false := h.move.active
    rw [active] at terminal
    cases terminal
  · refine ⟨x, h.mem_jobs.2 (.inr ⟨hx, same⟩), rfl, ?_, id⟩
    intro
    rw [h.stepsOf, h.eventsOf, if_neg same, if_neg same]
    exact ⟨rfl, rfl, rfl⟩

theorem Admits.follows {forbidden : List String} {db db' : JobStore} {r : JobRow} {added : List StepRow}
    {e : EventRow} (h : Admits forbidden db db' r added e) : Follows db db' := by
  intro x hx
  refine ⟨x, by simp [h.jobs, hx], rfl, ?_, id⟩
  intro
  rw [h.stepsOf, h.eventsOf, if_neg (h.other hx), if_neg (h.other hx)]
  exact ⟨rfl, rfl, rfl⟩

theorem Evolves.follows {forbidden : List String} {db db' : JobStore} (h : Evolves forbidden db db') :
    Follows db db' := by
  induction h with
  | same => exact .refl _
  | admits h => exact h.follows
  | advances _ h ih => exact ih.trans h.follows

theorem Reaches.follows {db db' : JobStore} (h : Runs.Reaches perform db db') : Follows db db' := by
  refine h.relation (I := fun _ => True) trivial (fun _ _ _ => trivial) .refl (fun _ _ _ => .trans) ?_
  exact fun s input _ => (perform_evolves s input).follows

/-- The row a later store has for a job. -/
theorem Follows.row {db db' : JobStore} (h : Follows db db') {r r' : JobRow} (hr : r ∈ db.jobs.rows)
    (hr' : r' ∈ db'.jobs.rows) (same : r'.jobId = r.jobId) (gone : JobMachine.Withdrawn r.state) :
    JobMachine.Withdrawn r'.state := by
  obtain ⟨x, hx, sameX, -, keeps⟩ := h r hr
  obtain rfl := Table.eq_of_clashes hx hr' (sameJob_clashes (sameX.trans same.symm))
  exact keeps gone

/-- A cancellation request that commits on a running job leaves it cancelling. -/
theorem requestCancellation_running {repo : JobRepository} {db db' : JobStore} {r : JobRow} {revision : Int}
    {job : DurableJob} (hr : r ∈ db.jobs.rows) (running : r.state = .running)
    (h : requestCancellation repo r.jobId revision db = .ok (db', job)) :
    ∃ r' ∈ db'.jobs.rows, r'.jobId = r.jobId ∧ r'.state = .cancelling := by
  simp only [requestCancellation, Checked.bind_eq_ok] at h
  obtain ⟨current, read, -, -, h⟩ := h
  obtain ⟨x, hx, same, decodes⟩ := jobIn_row read
  obtain rfl := Table.eq_of_clashes hx hr (sameJob_clashes same)
  have state : current.state = .running := decodes.state.trans running
  simp only [state, reduceCtorEq, or_self, if_false, Checked.bind_eq_ok, Checked.pure_eq_ok, Prod.mk.injEq] at h
  obtain ⟨-, -, -, -, db2, updated, -, -, db3, appended, -, -, rfl, -⟩ := h
  rw [decodes.revision] at updated
  obtain ⟨jobs, -, -⟩ := updateJob_eq_ok hx updated
  obtain ⟨jobs', -⟩ := appendEventIn_eq_ok appended
  have written : ∃ r' ∈ db2.jobs.rows, r'.jobId = x.jobId ∧ r'.state = .cancelling := by
    rw [jobs]
    exact ⟨_, List.mem_map.2 ⟨x, hx, rfl⟩, by simp [JobRow.bumped]⟩
  rwa [jobs']

/-- **Durable coherence and finality.** After any calls, the steps of a job and its result
and failure columns fit its state; whatever is called later, a terminal job keeps its
row, steps and events, and a running job whose cancellation was requested neither succeeds
nor fails. -/
theorem durable_coherence (inputs : List (JobRepository × JobCall)) :
    (∀ r ∈ (history inputs).jobs.rows,
      (r.state = .queued → ∀ s ∈ (history inputs).stepsOf r.jobId, s.state = .pending) ∧
      (r.state.terminal = true → ∀ s ∈ (history inputs).stepsOf r.jobId, s.state ≠ .running) ∧
      (r.state = .succeeded → ∀ s ∈ (history inputs).stepsOf r.jobId, s.state = .succeeded ∨ s.state = .skipped) ∧
      (r.state = .cancelled →
        ∀ s ∈ (history inputs).stepsOf r.jobId, s.state ≠ .pending ∧ s.state ≠ .running) ∧
      (r.failureCode.isSome = true ↔ r.state = .failed ∨ r.state = .interrupted) ∧
      (r.failureMessage.isSome = true ↔ r.state = .failed ∨ r.state = .interrupted) ∧
      (r.state = .succeeded → r.resultJson.isSome = true) ∧
      (r.state = .queued ∨ r.state = .running ∨ r.state = .cancelling → r.resultJson = none)) ∧
    (∀ r ∈ (history inputs).jobs.rows, r.state.terminal = true → ∀ later : List (JobRepository × JobCall),
      r ∈ (history (inputs ++ later)).jobs.rows ∧
      (history (inputs ++ later)).stepsOf r.jobId = (history inputs).stepsOf r.jobId ∧
      (history (inputs ++ later)).eventsOf r.jobId = (history inputs).eventsOf r.jobId) ∧
    (∀ r ∈ (history inputs).jobs.rows, r.state = .running → ∀ (repo : JobRepository) (revision : Int),
      (∃ done, requestCancellation repo r.jobId revision (history inputs) = .ok done) →
      ∀ later : List (JobRepository × JobCall),
        ∀ r' ∈ (history (inputs ++ (repo, .requestCancellation r.jobId revision) :: later)).jobs.rows,
          r'.jobId = r.jobId → r'.state ≠ .succeeded ∧ r'.state ≠ .failed) := by
  have sound := Reaches.sound (history_reaches inputs) .empty
  refine ⟨?_, ?_, ?_⟩
  · intro r hr
    have c := sound.coherent r hr
    have steps : ∀ {P : JobStepState → Prop}, (∀ s ∈ (view r ((history inputs).stepsOf r.jobId)).steps, P s) →
        ∀ s ∈ (history inputs).stepsOf r.jobId, P s.state :=
      fun h s hs => h _ (List.mem_map_of_mem hs)
    refine ⟨fun e => steps (c.queued e), fun e => steps (c.stopped e), fun e => steps (c.succeeded e),
      fun e => steps (c.cancelled e), c.failureCode, c.failureMessage, c.hasResult, ?_⟩
    intro e
    simpa [view] using c.noResult e
  · intro r hr terminal later
    have follows : Follows (history inputs) (history (inputs ++ later)) :=
      Reaches.follows ⟨later, (Runs.run_append _ _ _ _).symm⟩
    obtain ⟨r', hr', -, done, -⟩ := follows r hr
    obtain ⟨rfl, steps, events⟩ := done terminal
    exact ⟨hr', steps, events⟩
  · rintro r hr running repo revision ⟨⟨db', job⟩, ok⟩ later r' hr' same
    obtain ⟨x, hx, sameX, cancelling⟩ := requestCancellation_running hr running ok
    have committed : perform (history inputs) (repo, .requestCancellation r.jobId revision) = db' := by
      simp [perform, body, tagged, ok]
    have follows : Follows db' (history (inputs ++ (repo, .requestCancellation r.jobId revision) :: later)) := by
      refine Reaches.follows ⟨later, ?_⟩
      rw [history, Runs.run_append, Runs.run_cons]
      exact congrArg (Runs.run perform · later) committed.symm
    have gone := follows.row hx hr' (same.trans sameX.symm) (.inl cancelling)
    rcases gone with e | e | e <;> simp [e]

/-- Whether a row of this state answers the ID. -/
def hasState (db : JobStore) (jobId : String) (state : JobState) : Bool :=
  db.jobs.rows.any fun r => r.jobId = jobId && r.state = state

theorem exists_of_hasState {db : JobStore} {jobId : String} {state : JobState} (h : hasState db jobId state = true) :
    ∃ r ∈ db.jobs.rows, r.jobId = jobId ∧ r.state = state := by
  obtain ⟨r, hr, e⟩ := List.any_eq_true.1 h
  exact ⟨r, hr, by simpa using e⟩

theorem durable_coherence_sample :
    (∃ r ∈ (history sampleCalls).jobs.rows, r.state = .cancelled ∧
      (∀ s ∈ (history sampleCalls).stepsOf r.jobId, s.state ≠ .pending ∧ s.state ≠ .running) ∧
      r ∈ (history (sampleCalls ++ sampleCalls)).jobs.rows) ∧
    (∃ r ∈ (history sampleCalls).jobs.rows, r.state = .running ∧ r.resultJson = none ∧
      ∀ r' ∈ (history (sampleCalls ++ [(sampleRepository "e", .requestCancellation r.jobId 2)])).jobs.rows,
        r'.jobId = r.jobId → r'.state ≠ .succeeded ∧ r'.state ≠ .failed) := by
  obtain ⟨coherent, final, withdrawn⟩ := durable_coherence sampleCalls
  constructor
  · obtain ⟨r, hr, -, cancelled⟩ := exists_of_hasState
      (show hasState (history sampleCalls) "job_c0" .cancelled = true by decide +kernel)
    obtain ⟨-, -, -, closed, -⟩ := coherent r hr
    exact ⟨r, hr, cancelled, closed cancelled, (final r hr (by rw [cancelled]; rfl) sampleCalls).1⟩
  · obtain ⟨r, hr, same, running⟩ := exists_of_hasState
      (show hasState (history sampleCalls) "job_a0" .running = true by decide +kernel)
    obtain ⟨-, -, -, -, -, -, -, open_⟩ := coherent r hr
    have accepted : (requestCancellation (sampleRepository "e") "job_a0" 2 (history sampleCalls)).isOk = true := by
      decide +kernel
    refine ⟨r, hr, running, open_ (.inr (.inl running)), withdrawn r hr running (sampleRepository "e") 2 ?_ []⟩
    rw [same]
    cases h : requestCancellation (sampleRepository "e") "job_a0" 2 (history sampleCalls) with
    | ok done => exact ⟨done, rfl⟩
    | error e => rw [h] at accepted; cases accepted

end Jobs
