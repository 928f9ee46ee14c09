import DocumentQa.Jobs.Invariants

/-!
# Idempotent admission

A job answers every later request with its namespace, key and content, however far it has
come meanwhile, and refuses any other request with its key. What the comparison reads is
fixed at admission (`Holds`), and every stored row can be read back, so the outcome is
decided by the request alone.
-/

namespace Jobs

open Python SqlTable

/-- The repository with these configured secrets. -/
def JobRepository.configured (repo : JobRepository) (secrets : List String) : JobRepository :=
  { repo with secretValues := secrets }

/-- The names of a job's steps, in the order they are read. -/
def stepNames (db : JobStore) (jobId : String) : List String :=
  ((db.stepsOf jobId).insertionSort stepOrder).map (·.stepName)

theorem collect_names {rows : List (StepRow × Nat)} {steps : List JobStep} (h : Checked.collect readStep rows = .ok steps) :
    steps.map (·.name) = rows.map fun row => row.1.stepName := by
  induction Checked.collect_eq_ok.1 h with
  | nil => rfl
  | cons first _ ih => rw [List.map_cons, List.map_cons, (readStep_eq_ok first).2, ih (Checked.collect_eq_ok.2 ‹_›)]

theorem Decodes.stepNames {db : JobStore} {r : JobRow} {job : DurableJob} (h : Decodes db r job) :
    job.steps.map (·.name) = Jobs.stepNames db r.jobId := by
  rw [collect_names h.steps, Jobs.stepNames]
  conv_rhs => rw [← List.zipIdx_map_fst 0 ((db.stepsOf r.jobId).insertionSort stepOrder)]
  rw [List.map_map]
  rfl

/-- Rewriting steps in place keeps their names and order. -/
theorem names_map {g : StepRow → StepRow} (kept : ∀ s, (g s).admitted = s.admitted) (steps : List StepRow) :
    ((steps.map g).insertionSort stepOrder).map (·.stepName) = (steps.insertionSort stepOrder).map (·.stepName) := by
  have columns : ∀ s, (g s).stepId = s.stepId ∧ (g s).ordinal = s.ordinal ∧ (g s).stepName = s.stepName := by
    intro s
    have := kept s
    simp only [StepRow.admitted, Prod.mk.injEq] at this
    exact ⟨this.1, this.2.2.1, this.2.2.2⟩
  have order : ∀ a ∈ steps, ∀ b ∈ steps, stepOrder a b ↔ stepOrder (g a) (g b) := by
    intro a _ b _
    simp only [stepOrder, (columns a).1, (columns a).2.1, (columns b).1, (columns b).2.1]
  rw [← List.map_insertionSort _ _ g steps order, List.map_map]
  exact List.map_congr_left fun s _ => (columns s).2.2

/-! ## What a job keeps -/

theorem Readable.frame {forbidden : List String} {db db' : JobStore} {r : JobRow} (h : Readable forbidden db r)
    (same : db'.stepsOf r.jobId = db.stepsOf r.jobId) : Readable forbidden db' r := by
  obtain ⟨payload, artifacts, result, steps, l⟩ := readable_iff.1 h
  have read : stepsIn db' r.jobId = stepsIn db r.jobId := by simp only [stepsIn, same]
  exact readable_iff.2 ⟨payload, artifacts, result, steps, { l with stepsRead := read.trans l.stepsRead }⟩

/-- The job `jobId` has admission columns that satisfy `P` and steps with these names. -/
def Holds (db : JobStore) (jobId : String) (P : Admitted → Prop) (names : List String) : Prop :=
  ∃ r ∈ db.jobs.rows, r.jobId = jobId ∧ P r.admitted ∧ stepNames db jobId = names

/-- **What is compared never changes.** -/
theorem Evolves.holds {forbidden : List String} {db db' : JobStore} {jobId : String} {P : Admitted → Prop}
    {names : List String} (h : Evolves forbidden db db') (held : Holds db jobId P names) :
    Holds db' jobId P names := by
  induction h with
  | same => exact held
  | admits h =>
    obtain ⟨x, hx, rfl, columns, kept⟩ := held
    refine ⟨x, by simp [h.jobs, hx], rfl, columns, ?_⟩
    rw [stepNames, h.stepsOf, if_neg (h.other hx)]
    exact kept
  | @advances mid db' r r' g e _ h ih =>
    obtain ⟨x, hx, rfl, columns, kept⟩ := ih
    by_cases same : x.jobId = r.jobId
    · obtain rfl := Table.eq_of_clashes hx h.found (sameJob_clashes same)
      refine ⟨r', h.mem_jobs.2 (.inl rfl), h.sameId, h.kept ▸ columns, ?_⟩
      rw [stepNames, h.stepsOf, if_pos rfl, names_map h.stepsKept]
      exact kept
    · refine ⟨x, h.mem_jobs.2 (.inr ⟨hx, same⟩), rfl, columns, ?_⟩
      rw [stepNames, h.stepsOf, if_neg same]
      exact kept

/-- The admission columns answer the request with this canonical payload. -/
structure Content (req : JobRequest) (payloadJson : String) (a : Admitted) : Prop where
  jobNamespace : a.jobNamespace = req.jobNamespace
  keyed : a.idempotencyKeyHash = some (keyHash req.idempotencyKey)
  jobType : a.jobType = req.jobType
  fingerprint : a.configurationFingerprint = req.configurationFingerprint
  payload : ∃ payload, decodeObject a.payloadJson "job payload" maxJobPayloadBytes = .ok payload ∧
    dumps payload.json = some payloadJson
  artifacts : decodeArtifacts a.artifactReferencesJson = .ok req.artifactReferences

end Jobs
