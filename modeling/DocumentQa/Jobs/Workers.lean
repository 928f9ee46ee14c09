import DocumentQa.Jobs.Claims

/-!
# Workers

`WorkerSupervisor` runs workers over the job store. A worker claims a job, calls its executor
and reconciles what the executor left behind; `AgentDurableService.run` and
`EvaluationJobService.run` dispatch a job on their own. Each repository call is one
transaction, and between two of them every other actor may go on: the API, the executors
themselves, a restart's recovery. `executes_once` holds in every such interleaving.
-/

namespace Jobs

open Python SqlTable

/-- Where an actor stands between two transactions. -/
inductive Stage where
  | idle
  /-- A worker's claim committed; the executor has not been called. -/
  | claimed (jobId : String)
  /-- A dispatch read the job in the queue, at a revision. -/
  | looked (jobId : String) (revision : Nat)
  /-- The executor was called, by a worker or by a dispatch. -/
  | executing (jobId : String) (byWorker : Bool)
  /-- In `_interrupt`, before the read of a try, with the tries left. -/
  | reconciling (jobId : String) (tries : Nat)
  /-- In `_interrupt`, between the read of a try and its transition. -/
  | interrupting (jobId : String) (tries revision : Nat)
deriving DecidableEq

/-- The job an actor has taken out of the queue and not let go of. -/
def Stage.holds : Stage → Option String
  | .claimed jobId | .executing jobId _ | .reconciling jobId _ | .interrupting jobId _ _ => some jobId
  | .idle | .looked _ _ => none

/-- The store, the actors and what happened to jobs so far. -/
structure Pool where
  store : JobStore
  stage : Nat → Stage
  /-- `_stop`. -/
  stopping : Bool
  /-- The jobs whose executor was called, latest first. -/
  executed : List String
  /-- The jobs that `_interrupt` returned for. -/
  settled : List String

namespace Pool

def start : Pool :=
  ⟨.empty, fun _ => .idle, false, [], []⟩

/-- The actor goes on to another stage. -/
def goes (p : Pool) (actor : Nat) (stage : Stage) : Pool :=
  { p with stage := Function.update p.stage actor stage }

@[simp] theorem goes_same (p : Pool) (actor : Nat) (stage : Stage) : (p.goes actor stage).stage actor = stage :=
  Function.update_self ..

@[simp] theorem goes_other (p : Pool) {actor a : Nat} (other : a ≠ actor) (stage : Stage) :
    (p.goes actor stage).stage a = p.stage a :=
  Function.update_of_ne other ..

/-- The executor is called for the job. -/
def executes (p : Pool) (actor : Nat) (jobId : String) (byWorker : Bool) : Pool :=
  { p.goes actor (.executing jobId byWorker) with executed := jobId :: p.executed }

/-- `_interrupt` returns. -/
def settles (p : Pool) (actor : Nat) (jobId : String) : Pool :=
  { p.goes actor .idle with settled := jobId :: p.settled }

/-- `_claim`. -/
def claim (eligible : List (JobNamespace × String)) (p : Pool) (actor : Nat) (repo : JobRepository) : Pool :=
  match p.stage actor with
  | .idle =>
    match claimNextJob repo eligible p.store with
    | .ok (store, some job) => { p with store }.goes actor (.claimed job.jobId)
    | .ok (_, none) => p
    | .error _ => p
  | _ => p

/-- After the claim: `_execute`, or `_reconcile` when the supervisor stops or the task was cancelled. -/
def take (p : Pool) (actor : Nat) (cancelled : Bool) : Pool :=
  match p.stage actor with
  | .claimed jobId => if p.stopping || cancelled then p.goes actor (.reconciling jobId 3) else p.executes actor jobId true
  | _ => p

/-- The read of a dispatch. -/
def look (p : Pool) (actor : Nat) (repo : JobRepository) (jobId : String) : Pool :=
  match p.stage actor with
  | .idle =>
    match jobIn repo.forbidden p.store jobId with
    | .ok job => if job.state = .queued then p.goes actor (.looked job.jobId job.revision) else p
    | .error _ => p
  | _ => p

/-- The transition of a dispatch, and the call of its executor. -/
def dispatch (p : Pool) (actor : Nat) (repo : JobRepository) : Pool :=
  match p.stage actor with
  | .looked jobId revision =>
    match transitionJob repo jobId revision .running none none none p.store with
    | .ok (store, job) => { p with store }.executes actor job.jobId false
    | .error _ => p.goes actor .idle
  | _ => p

/-- The executor returns or raises. -/
def leave (p : Pool) (actor : Nat) : Pool :=
  match p.stage actor with
  | .executing jobId byWorker => p.goes actor (if byWorker then .reconciling jobId 3 else .idle)
  | _ => p

/-- The read of a try in `_interrupt`; what it raises is swallowed by `_reconcile`. -/
def read (p : Pool) (actor : Nat) (repo : JobRepository) : Pool :=
  match p.stage actor with
  | .reconciling _ 0 => p.goes actor .idle
  | .reconciling jobId (tries + 1) =>
    match jobIn repo.forbidden p.store jobId with
    | .ok job =>
      if job.state = .running ∨ job.state = .cancelling then p.goes actor (.interrupting jobId tries job.revision)
      else p.settles actor jobId
    | .error _ => p.goes actor .idle
  | _ => p

/-- The transition of a try in `_interrupt`. -/
def interrupt (p : Pool) (actor : Nat) (repo : JobRepository) : Pool :=
  match p.stage actor with
  | .interrupting jobId tries revision =>
    match transitionJob repo jobId revision .interrupted none (some "worker_interrupted")
        (some "Worker stopped before terminal execution was committed.") p.store with
    | .ok (store, _) => { p with store }.settles actor jobId
    | .error e =>
      p.goes actor (if e.kind = .jobConflict ∨ e.kind = .jobTransition then .reconciling jobId tries else .idle)
  | _ => p

end Pool

/-- What one actor does next. -/
inductive PoolAction where
  /-- A repository call of anyone else: the API, an executor, a restart. -/
  | call (input : JobRepository × JobCall)
  | claim (actor : Nat) (repo : JobRepository)
  | take (actor : Nat) (cancelled : Bool)
  | look (actor : Nat) (repo : JobRepository) (jobId : String)
  | dispatch (actor : Nat) (repo : JobRepository)
  | leave (actor : Nat)
  | read (actor : Nat) (repo : JobRepository)
  | interrupt (actor : Nat) (repo : JobRepository)
  | stop

/-- One step of the pool whose registry has these executors. -/
def poolStep (eligible : List (JobNamespace × String)) (p : Pool) : PoolAction → Pool
  | .call input => { p with store := perform p.store input }
  | .claim actor repo => p.claim eligible actor repo
  | .take actor cancelled => p.take actor cancelled
  | .look actor repo jobId => p.look actor repo jobId
  | .dispatch actor repo => p.dispatch actor repo
  | .leave actor => p.leave actor
  | .read actor repo => p.read actor repo
  | .interrupt actor repo => p.interrupt actor repo
  | .stop => { p with stopping := true }

/-! ## The invariant -/

/-- The job is in the store in a terminal state. -/
def Finished (db : JobStore) (jobId : String) : Prop :=
  ∃ r ∈ db.jobs.rows, r.jobId = jobId ∧ r.state.terminal = true

/-- What every pool satisfies. -/
structure Pool.Sound (p : Pool) : Prop where
  held : ∀ actor jobId, (p.stage actor).holds = some jobId → Started p.store jobId
  apart : ∀ a b jobId, (p.stage a).holds = some jobId → (p.stage b).holds = some jobId → a = b
  claimed : ∀ actor jobId, p.stage actor = .claimed jobId → jobId ∉ p.executed
  executed : ∀ jobId ∈ p.executed, Started p.store jobId
  once : p.executed.Nodup
  settled : ∀ jobId ∈ p.settled, Finished p.store jobId
  /-- The store is one that repository calls lead to. -/
  reached : Runs.Reaches perform .empty p.store

theorem Pool.Sound.start : Pool.start.Sound where
  held _ _ holds := by cases holds
  apart _ _ _ holds := by cases holds
  claimed _ _ stage := by cases stage
  executed _ mem := absurd mem List.not_mem_nil
  once := List.nodup_nil
  settled _ mem := absurd mem List.not_mem_nil
  reached := .refl _ _

section Steps

variable {p : Pool} {db' : JobStore} {actor : Nat} {stage : Stage}

/-- **A call of the repository** keeps the invariant. -/
theorem Pool.Sound.calls (h : p.Sound) (input : JobRepository × JobCall) : { p with store := perform p.store input }.Sound where
  held a jobId holds := perform_started (h.held a jobId holds) input
  apart := h.apart
  claimed := h.claimed
  executed jobId mem := perform_started (h.executed jobId mem) input
  once := h.once
  settled jobId mem := by
    obtain ⟨r, here, same, terminal⟩ := h.settled jobId mem
    obtain ⟨r', here', same', done, -⟩ := (perform_evolves p.store input).follows r here
    obtain ⟨rfl, -⟩ := done terminal
    exact ⟨r', here', same, terminal⟩
  reached := h.reached.tail input

/-- An actor that lets go of its job, or goes on with it after its claim. -/
theorem Pool.Sound.goes (h : p.Sound) (keeps : stage.holds = none ∨ stage.holds = (p.stage actor).holds)
    (later : ∀ jobId, stage ≠ .claimed jobId) : (p.goes actor stage).Sound := by
  have before : ∀ a jobId, ((p.goes actor stage).stage a).holds = some jobId → (p.stage a).holds = some jobId := by
    intro a jobId holds
    by_cases own : a = actor
    · rw [own, Pool.goes_same] at holds
      rcases keeps with none_ | same
      · rw [none_] at holds
        cases holds
      · rw [own, ← same, holds]
    · rwa [Pool.goes_other _ own] at holds
  refine ⟨fun a jobId holds => h.held a jobId (before a jobId holds), ?_, ?_, h.executed, h.once, h.settled, h.reached⟩
  · exact fun a b jobId ha hb => h.apart a b jobId (before a jobId ha) (before b jobId hb)
  · intro a jobId holds
    by_cases own : a = actor
    · rw [own, Pool.goes_same] at holds
      exact absurd holds (later jobId)
    · rw [Pool.goes_other _ own] at holds
      exact h.claimed a jobId holds

/-- An actor that takes a job no one has taken before. -/
theorem Pool.Sound.takes (h : p.Sound) {jobId : String} (fresh : ¬Started p.store jobId)
    (after : { p with store := db' }.Sound) (started : Started db' jobId) (holds : stage.holds = some jobId) :
    ({ p with store := db' }.goes actor stage).Sound := by
  have unheld : ∀ a, (p.stage a).holds ≠ some jobId := fun a same => fresh (h.held a jobId same)
  refine ⟨?_, ?_, ?_, after.executed, after.once, after.settled, after.reached⟩
  · intro a id same
    by_cases own : a = actor
    · rw [own, Pool.goes_same, holds] at same
      obtain rfl := Option.some.inj same
      exact started
    · rw [Pool.goes_other _ own] at same
      exact after.held a id same
  · intro a b id ha hb
    by_cases owna : a = actor
    · by_cases ownb : b = actor
      · rw [owna, ownb]
      · rw [owna, Pool.goes_same, holds] at ha
        rw [Pool.goes_other _ ownb] at hb
        exact absurd (hb.trans ha.symm) (unheld b)
    · by_cases ownb : b = actor
      · rw [ownb, Pool.goes_same, holds] at hb
        rw [Pool.goes_other _ owna] at ha
        exact absurd (ha.trans hb.symm) (unheld a)
      · rw [Pool.goes_other _ owna] at ha
        rw [Pool.goes_other _ ownb] at hb
        exact h.apart a b id ha hb
  · intro a id same
    by_cases own : a = actor
    · rw [own, Pool.goes_same] at same
      rw [same] at holds
      obtain rfl : id = jobId := Option.some.inj holds
      exact fun mem => fresh (h.executed id mem)
    · rw [Pool.goes_other _ own] at same
      exact h.claimed a id same

/-- The call of an executor that was not called for the job. -/
theorem Pool.Sound.executes {jobId : String} {byWorker : Bool} (h : (p.goes actor (.executing jobId byWorker)).Sound)
    (fresh : jobId ∉ p.executed) : (p.executes actor jobId byWorker).Sound := by
  have own : ((p.goes actor (.executing jobId byWorker)).stage actor).holds = some jobId := by
    rw [Pool.goes_same]
    rfl
  refine ⟨h.held, h.apart, ?_, ?_, List.nodup_cons.2 ⟨fresh, h.once⟩, h.settled, h.reached⟩
  · intro a id claimed mem
    rcases List.mem_cons.1 mem with rfl | mem
    · have holds : ((p.goes actor (.executing id byWorker)).stage a).holds = some id := by
        rw [show (p.goes actor (.executing id byWorker)).stage a = .claimed id from claimed]
        rfl
      obtain rfl := h.apart a actor id holds own
      have executing : (p.goes a (.executing id byWorker)).stage a = .executing id byWorker := by
        rw [Pool.goes_same]
      have both : Stage.claimed id = .executing id byWorker := Eq.trans (Eq.symm claimed) executing
      cases both
    · exact h.claimed a id claimed mem
  · intro id mem
    rcases List.mem_cons.1 mem with rfl | mem
    · exact h.held actor id own
    · exact h.executed id mem

/-- `_interrupt` returns for a job that is terminal. -/
theorem Pool.Sound.settles (h : p.Sound) {jobId : String} (finished : Finished p.store jobId) : (p.settles actor jobId).Sound := by
  have idle : (p.goes actor .idle).Sound := h.goes (.inl rfl) fun _ => Stage.noConfusion
  refine ⟨idle.held, idle.apart, idle.claimed, idle.executed, idle.once, fun id mem => ?_, idle.reached⟩
  rcases List.mem_cons.1 mem with rfl | mem
  · exact finished
  · exact h.settled id mem

/-! ## One step -/

/-- A call that commits is performed. -/
theorem performed {input : JobRepository × JobCall} {db : JobStore} {reply : JobReply}
    (h : body input.1 input.2 db = .ok (db', reply)) : perform db input = db' := by
  rw [perform, h]
  rfl

theorem Pool.Sound.claim (h : p.Sound) (eligible : List (JobNamespace × String)) (repo : JobRepository) :
    (p.claim eligible actor repo).Sound := by
  unfold Pool.claim
  split
  · split
    · next store job committed =>
      obtain ⟨r, takes, -⟩ := (claimNextJob_spec committed).1 job rfl
      have done : perform p.store (repo, .claimNextJob eligible) = store := by
        apply performed
        rw [body, committed]
        rfl
      have after := h.calls (repo, .claimNextJob eligible)
      rw [done] at after
      exact h.takes takes.not_started after takes.started rfl
    · exact h
    · exact h
  · exact h

theorem Pool.Sound.take (h : p.Sound) (cancelled : Bool) : (p.take actor cancelled).Sound := by
  unfold Pool.take
  split
  · next jobId stage =>
    split
    · apply h.goes (.inr _) fun _ => Stage.noConfusion
      rw [stage]
      rfl
    · apply Pool.Sound.executes _ (h.claimed actor jobId stage)
      apply h.goes (.inr _) fun _ => Stage.noConfusion
      rw [stage]
      rfl
  · exact h

theorem Pool.Sound.look (h : p.Sound) (repo : JobRepository) (jobId : String) : (p.look actor repo jobId).Sound := by
  unfold Pool.look
  split
  · split
    · split
      · exact h.goes (.inl rfl) fun _ => Stage.noConfusion
      · exact h
    · exact h
  · exact h

theorem Pool.Sound.dispatch (h : p.Sound) (repo : JobRepository) : (p.dispatch actor repo).Sound := by
  unfold Pool.dispatch
  split
  · next jobId revision stage =>
    split
    · next store job committed =>
      obtain ⟨r, -, takes⟩ := transitionJob_takes committed
      have done : perform p.store (repo, .transitionJob jobId revision .running none none none) = store := by
        apply performed
        rw [body, committed]
        rfl
      have after := h.calls (repo, .transitionJob jobId revision .running none none none)
      rw [done] at after
      apply Pool.Sound.executes
      · exact h.takes takes.not_started after takes.started rfl
      · exact fun mem => takes.not_started (h.executed job.jobId mem)
    · exact h.goes (.inl rfl) fun _ => Stage.noConfusion
  · exact h

theorem Pool.Sound.leave (h : p.Sound) : (p.leave actor).Sound := by
  unfold Pool.leave
  split
  · next jobId byWorker stage =>
    cases byWorker with
    | true =>
      apply h.goes (.inr _) fun _ => Stage.noConfusion
      rw [stage]
      rfl
    | false => exact h.goes (.inl rfl) fun _ => Stage.noConfusion
  · exact h

theorem Pool.Sound.read (h : p.Sound) (repo : JobRepository) : (p.read actor repo).Sound := by
  unfold Pool.read
  split
  · exact h.goes (.inl rfl) fun _ => Stage.noConfusion
  · next jobId tries stage =>
    have holds : (p.stage actor).holds = some jobId := by
      rw [stage]
      rfl
    split
    · next job read =>
      split
      · exact h.goes (.inr holds.symm) fun _ => Stage.noConfusion
      · next over_ =>
        apply h.settles
        obtain ⟨r, here, rfl, decodes⟩ := jobIn_row read
        obtain ⟨x, hx, same, started⟩ := h.held actor r.jobId holds
        obtain rfl := Table.eq_of_clashes hx here (sameJob_clashes same)
        refine ⟨x, here, rfl, ?_⟩
        rw [decodes.state] at over_
        cases state : x.state with
        | queued => exact absurd state started
        | running => exact absurd (.inl state) over_
        | cancelling => exact absurd (.inr state) over_
        | _ => rfl
    · exact h.goes (.inl rfl) fun _ => Stage.noConfusion
  · exact h

theorem Pool.Sound.interrupt (h : p.Sound) (repo : JobRepository) : (p.interrupt actor repo).Sound := by
  unfold Pool.interrupt
  split
  · next jobId tries revision stage =>
    have holds : (p.stage actor).holds = some jobId := by
      rw [stage]
      rfl
    split
    · next store job committed =>
      have done : perform p.store (repo, .transitionJob jobId revision .interrupted none (some "worker_interrupted")
          (some "Worker stopped before terminal execution was committed.")) = store := by
        apply performed
        rw [body, committed]
        rfl
      have after := h.calls (repo, .transitionJob jobId revision .interrupted none (some "worker_interrupted")
        (some "Worker stopped before terminal execution was committed."))
      rw [done] at after
      apply after.settles
      simp only [transitionJob, Checked.bind_eq_ok] at committed
      obtain ⟨-, -, committed⟩ := committed
      obtain ⟨-, row, here, same, state, -⟩ := transitionJobIn_wrote committed
      refine ⟨row, here, same, ?_⟩
      rw [state]
      rfl
    · split
      · exact h.goes (.inr holds.symm) fun _ => Stage.noConfusion
      · exact h.goes (.inl rfl) fun _ => Stage.noConfusion
  · exact h

/-- **Every step** keeps the invariant. -/
theorem poolStep_sound (eligible : List (JobNamespace × String)) (h : p.Sound) (action : PoolAction) :
    (poolStep eligible p action).Sound := by
  cases action with
  | call input => exact h.calls input
  | claim actor repo => exact h.claim eligible repo
  | take actor cancelled => exact h.take cancelled
  | look actor repo jobId => exact h.look repo jobId
  | dispatch actor repo => exact h.dispatch repo
  | leave actor => exact h.leave
  | read actor repo => exact h.read repo
  | interrupt actor repo => exact h.interrupt repo
  | stop => exact ⟨h.held, h.apart, h.claimed, h.executed, h.once, h.settled, h.reached⟩

end Steps

/-- **At most one execution.** However the workers, the dispatches, the API and restarts
interleave: no executor is called twice for a job, no two actors hold one job, an executor is
called for no job that is still queued, and every job that `_interrupt` returned for is
terminal. The store is one that repository calls lead to. -/
theorem executes_once (eligible : List (JobNamespace × String)) (actions : List PoolAction) :
    let p := Runs.run (poolStep eligible) .start actions
    p.executed.Nodup ∧
    (∀ a b jobId, (p.stage a).holds = some jobId → (p.stage b).holds = some jobId → a = b) ∧
    (∀ jobId ∈ p.executed, ∃ r ∈ p.store.jobs.rows, r.jobId = jobId ∧ r.state ≠ .queued) ∧
    (∀ jobId ∈ p.settled, ∃ r ∈ p.store.jobs.rows, r.jobId = jobId ∧ r.state.terminal = true) ∧
    ∃ inputs, history inputs = p.store := by
  intro p
  have reaches : Runs.Reaches (poolStep eligible) .start p := ⟨actions, rfl⟩
  have sound : p.Sound := reaches.invariant Pool.Sound.start fun _ _ h => poolStep_sound eligible h _
  exact ⟨sound.once, sound.apart, sound.executed, sound.settled, sound.reached⟩

end Jobs
