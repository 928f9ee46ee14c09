import DocumentQa.Jobs.Repository

/-!
# The job machine

What a durable job is for, apart from its tables: a state, the states of its steps, and
whether a result and a failure are recorded. `Move` lists what a job may do; `Coherent`
is what every job it starts as or moves to satisfies.
-/

namespace JobMachine

open Jobs

/-- A job and its steps, without identities, texts and times. -/
structure Job where
  state : JobState
  steps : List JobStepState
  result : Bool
  failureCode : Bool
  failureMessage : Bool

/-- Put the steps in one of the states `from_` into the state `target`. -/
def sweep (from_ : List JobStepState) (target : JobStepState) (steps : List JobStepState) : List JobStepState :=
  steps.map fun s => if s ∈ from_ then target else s

/-- A freshly admitted job. -/
def Job.admitted (count : Nat) : Job :=
  ⟨.queued, List.replicate count .pending, false, false, false⟩

inductive Move : Job → Job → Prop
  | start {j : Job} (queued : j.state = .queued) :
    Move j ⟨.running, j.steps, false, false, false⟩
  | succeed {j : Job} (running : j.state = .running) (done : ∀ s ∈ j.steps, s = .succeeded ∨ s = .skipped) :
    Move j ⟨.succeeded, j.steps, true, false, false⟩
  | fail {j : Job} (running : j.state = .running) (result : Bool) :
    Move j ⟨.failed, sweep [.running] .failed j.steps, result, true, true⟩
  | interrupt {j : Job} (active : j.state = .running ∨ j.state = .cancelling) (result : Bool) :
    Move j ⟨.interrupted, sweep [.running] .interrupted j.steps, result, true, true⟩
  | report {j : Job} (active : j.state = .running ∨ j.state = .cancelling) : Move j j
  | step {j : Job} {before after : List JobStepState} {s t : JobStepState} (split : j.steps = before ++ s :: after)
      (legal : t ∈ stepTransitions s) (allowed : t ∈ allowedStepTargets j.state) :
    Move j { j with steps := before ++ t :: after }
  | withdraw {j : Job} (queued : j.state = .queued) :
    Move j { j with state := .cancelled, steps := sweep [.pending] .cancelled j.steps }
  | requestCancel {j : Job} (running : j.state = .running) : Move j { j with state := .cancelling }
  | acknowledge {j : Job} (open_ : j.state = .queued ∨ j.state = .cancelling) (result : Bool) :
    Move j { j with state := .cancelled, steps := sweep [.pending, .running] .cancelled j.steps, result }

/-- The relations between a job's state, its steps and its columns. -/
structure Coherent (j : Job) : Prop where
  queued : j.state = .queued → ∀ s ∈ j.steps, s = .pending
  stopped : j.state.terminal = true → ∀ s ∈ j.steps, s ≠ .running
  succeeded : j.state = .succeeded → ∀ s ∈ j.steps, s = .succeeded ∨ s = .skipped
  cancelled : j.state = .cancelled → ∀ s ∈ j.steps, s ≠ .pending ∧ s ≠ .running
  failureCode : j.failureCode = true ↔ j.state = .failed ∨ j.state = .interrupted
  failureMessage : j.failureMessage = true ↔ j.state = .failed ∨ j.state = .interrupted
  hasResult : j.state = .succeeded → j.result = true
  noResult : j.state = .queued ∨ j.state = .running ∨ j.state = .cancelling → j.result = false

/-- After a sweep no step is in a state swept from, unless it is the target. -/
theorem sweep_spec {from_ : List JobStepState} {target s : JobStepState} {steps : List JobStepState}
    (h : s ∈ sweep from_ target steps) : s = target ∨ (s ∈ steps ∧ s ∉ from_) := by
  obtain ⟨a, ha, rfl⟩ := List.mem_map.1 h
  by_cases hf : a ∈ from_
  · simp [hf]
  · simp [hf, ha]

theorem Coherent.admitted (count : Nat) : Coherent (Job.admitted count) where
  queued _ s hs := List.eq_of_mem_replicate hs
  stopped h := by cases h
  succeeded h := by cases h
  cancelled h := by cases h
  failureCode := by simp [Job.admitted]
  failureMessage := by simp [Job.admitted]
  hasResult h := by cases h
  noResult _ := rfl

/-- A move leaves a state that is not terminal. -/
theorem Move.active {j j' : Job} (h : Move j j') : j.state.terminal = false := by
  cases h with
  | start queued => simp [queued, JobState.terminal]
  | succeed running => simp [running, JobState.terminal]
  | fail running => simp [running, JobState.terminal]
  | interrupt active => rcases active with e | e <;> simp [e, JobState.terminal]
  | report active => rcases active with e | e <;> simp [e, JobState.terminal]
  | step split legal allowed =>
    cases e : j.state <;> simp [e, allowedStepTargets, JobState.terminal] at allowed ⊢
  | withdraw queued => simp [queued, JobState.terminal]
  | requestCancel running => simp [running, JobState.terminal]
  | acknowledge open_ => rcases open_ with e | e <;> simp [e, JobState.terminal]

/-- **Coherence is kept by every move.** -/
theorem Move.coherent {j j' : Job} (h : Move j j') (c : Coherent j) : Coherent j' := by
  cases h with
  | start queued =>
    exact ⟨by simp, by simp [JobState.terminal], by simp, by simp, by simp, by simp, by simp, by simp⟩
  | succeed running done =>
    refine ⟨by simp, ?_, fun _ => done, by simp, by simp, by simp, by simp, by simp⟩
    rintro - s hs rfl
    simpa using done _ hs
  | fail running result =>
    refine ⟨by simp, ?_, by simp, by simp, by simp, by simp, by simp, by simp⟩
    rintro - s hs rfl
    simpa using sweep_spec hs
  | interrupt active result =>
    refine ⟨by simp, ?_, by simp, by simp, by simp, by simp, by simp, by simp⟩
    rintro - s hs rfl
    simpa using sweep_spec hs
  | report active => exact c
  | @step before after s t split legal allowed =>
    have active : j.state = .running ∨ j.state = .cancelling := by
      cases e : j.state <;> simp [e, allowedStepTargets] at allowed ⊢
    refine ⟨?_, ?_, ?_, ?_, c.failureCode, c.failureMessage, c.hasResult, c.noResult⟩
    all_goals
      intro e
      simp only at e
      rcases active with a | a <;> rw [a] at e <;> cases e
  | withdraw queued =>
    have pending := c.queued queued
    refine ⟨by simp, ?_, by simp, ?_, ?_, ?_, by simp, by simp⟩
    · rintro - s hs rfl
      rcases sweep_spec hs with e | ⟨hs, -⟩
      · cases e
      · cases pending _ hs
    · rintro - s hs
      constructor
      · rintro rfl
        simpa using sweep_spec hs
      · rintro rfl
        rcases sweep_spec hs with e | ⟨hs, -⟩
        · cases e
        · cases pending _ hs
    · simpa [queued] using c.failureCode
    · simpa [queued] using c.failureMessage
  | requestCancel running =>
    refine ⟨by simp, by simp [JobState.terminal], by simp, by simp, ?_, ?_, by simp, ?_⟩
    · simpa [running] using c.failureCode
    · simpa [running] using c.failureMessage
    · exact fun _ => c.noResult (.inr (.inl running))
  | acknowledge open_ result =>
    have swept : ∀ s ∈ sweep [.pending, .running] .cancelled j.steps, s ≠ .pending ∧ s ≠ .running := by
      intro s hs
      constructor
      · rintro rfl
        simpa using sweep_spec hs
      · rintro rfl
        simpa using sweep_spec hs
    refine ⟨by simp, fun _ s hs => (swept s hs).2, by simp, fun _ => swept, ?_, ?_, by simp, by simp⟩
    · rcases open_ with e | e <;> simpa [e] using c.failureCode
    · rcases open_ with e | e <;> simpa [e] using c.failureMessage

/-- A cancellation in progress or done. -/
def Withdrawn (s : JobState) : Prop :=
  s = .cancelling ∨ s = .cancelled ∨ s = .interrupted

/-- **Once a cancellation was requested the job neither succeeds nor fails.** -/
theorem Move.withdrawn {j j' : Job} (h : Move j j') (w : Withdrawn j.state) : Withdrawn j'.state := by
  have active := h.active
  have cancelling : j.state = .cancelling := by
    rcases w with e | e | e
    · exact e
    all_goals
      rw [e] at active
      cases active
  cases h with
  | start queued => rw [cancelling] at queued; cases queued
  | succeed running => rw [cancelling] at running; cases running
  | fail running => rw [cancelling] at running; cases running
  | interrupt => exact .inr (.inr rfl)
  | report => exact w
  | step => exact w
  | withdraw queued => rw [cancelling] at queued; cases queued
  | requestCancel running => rw [cancelling] at running; cases running
  | acknowledge => exact .inr (.inl rfl)

/-- **A job that left the queue does not come back to it.** -/
theorem Move.started {j j' : Job} (h : Move j j') (started : j.state ≠ .queued) : j'.state ≠ .queued := by
  cases h with
  | report => exact started
  | step => exact started
  | start => exact JobState.noConfusion
  | succeed => exact JobState.noConfusion
  | fail => exact JobState.noConfusion
  | interrupt => exact JobState.noConfusion
  | withdraw => exact JobState.noConfusion
  | requestCancel => exact JobState.noConfusion
  | acknowledge => exact JobState.noConfusion

end JobMachine
