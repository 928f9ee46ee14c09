import DocumentQa.Evaluation.JobService

/-!
# The protocol of the evaluation workers

Whatever the workers, the API and the other parties of the database do between two steps of a
worker, a provider is called within a reserved slot that was not called for before, and an
evaluation that succeeded has its report and the results of all its cases.

A worker relies on two things only: the store it saw is extended and not taken back, and the
slot it reserved stays its own.
-/

namespace EvaluationJobs

open Python SqlTable Jobs Interleaving
open JsonText (Json)

/-- The job has a stored report that is complete and fits its frozen plan, and a result for
every frozen case. -/
def Reported (m : Native.Machine) (db : Store) (jobId : String) : Prop :=
  ∃ x ∈ db.reports.rows, x.jobId = jobId ∧ ∃ snapshot report, Frozen db.jobs jobId snapshot ∧
    reportContent m report = .ok x.reportJson ∧ matchesFrozen jobId snapshot report = .ok true ∧ report.status = .complete ∧
    ∀ items, getOrEmpty "case_ids" snapshot = .arr items → ∀ i < items.length,
      ∃ y ∈ db.results.rows, y.jobId = jobId ∧ y.ordinal = i

theorem Reported.extends {m : Native.Machine} {db db' : Store} {jobId : String} (h : Extends db db')
    (reported : Reported m db jobId) : Reported m db' jobId := by
  obtain ⟨x, mem, own, snapshot, report, frozen, content, fits, complete, covered⟩ := reported
  refine ⟨x, h.reports.subset mem, own, snapshot, report, h.frozen _ _ frozen, content, fits, complete, fun items ids i lt => ?_⟩
  obtain ⟨y, there, rest⟩ := covered items ids i lt
  exact ⟨y, h.results.subset there, rest⟩

/-- What holds whenever nobody is in the middle of a step. -/
structure Inv (m : Native.Machine) (s : Site) : Prop where
  sound : Sound m s.store
  once : (s.calls.map (·.slot)).Nodup
  reserved : ∀ c ∈ s.calls, ∃ a ∈ s.store.attempts.rows, a.slot = c.slot
  held : ∀ k slot, s.owner k = some slot → (∃ a ∈ s.store.attempts.rows, a.slot = slot) ∧ slot ∉ s.calls.map (·.slot)
  apart : ∀ j k slot, s.owner j = some slot → s.owner k = some slot → j = k
  succeeded : ∀ r ∈ s.store.jobs.jobs.rows, r.jobNamespace = .evaluation → r.state = .succeeded → Reported m s.store r.jobId

theorem Inv.start {m : Native.Machine} : Inv m .start where
  sound := .empty
  once := List.nodup_nil
  reserved _ mem := absurd mem List.not_mem_nil
  held _ _ none_ := absurd none_ (Option.some_ne_none _).symm
  apart _ _ _ none_ := absurd none_ (Option.some_ne_none _).symm
  succeeded _ mem := absurd mem List.not_mem_nil

/-- The protocol: the invariant, and what a worker relies on. -/
def protocol (m : Native.Machine) : Protocol Site Nat where
  inv := Inv m
  rely k s t := Extends s.store t.store ∧ t.owner k = s.owner k
  refl _ s := ⟨.refl s.store, rfl⟩
  trans _ _ _ _ h h' := ⟨h.1.trans h'.1, h'.2.trans h.2⟩

/-! ## Transactions of the store -/

section Transactions

variable {m : Native.Machine}

/-- The namespace of a job is the one it was admitted with. -/
theorem same_namespace {forbidden : List String} {jobs jobs' : JobStore} (h : Evolves forbidden jobs jobs') {r r' : JobRow}
    (mem : r ∈ jobs.jobs.rows) (mem' : r' ∈ jobs'.jobs.rows) (same : r'.jobId = r.jobId) :
    r'.jobNamespace = r.jobNamespace := by
  have held : Holds jobs r.jobId (fun a => a.jobNamespace = r.jobNamespace) (stepNames jobs r.jobId) :=
    ⟨r, mem, rfl, rfl, rfl⟩
  obtain ⟨x, there, own, space, -⟩ := h.holds held
  obtain rfl := Table.eq_of_clashes there mem' (sameJob_clashes (own.trans same.symm))
  exact space

/-- A transaction that makes no job succeed keeps the invariant. -/
theorem Inv.writes {s : Site} {store : Store} (inv : Inv m s) (w : Writes m s.store store)
    (spares : ∀ r ∈ store.jobs.jobs.rows, r.jobNamespace = .evaluation → r.state = .succeeded →
      (∃ y ∈ s.store.jobs.jobs.rows, y.jobId = r.jobId ∧ y.state = .succeeded) ∨ Reported m store r.jobId) :
    Inv m { s with store } where
  sound := w.sound inv.sound
  once := inv.once
  reserved c mem := by
    obtain ⟨a, there, same⟩ := inv.reserved c mem
    exact ⟨a, w.extends.attempts.subset there, same⟩
  held k slot own := by
    obtain ⟨⟨a, there, same⟩, fresh⟩ := inv.held k slot own
    exact ⟨⟨a, w.extends.attempts.subset there, same⟩, fresh⟩
  apart := inv.apart
  succeeded r mem evaluation done := by
    rcases spares r mem evaluation done with ⟨y, there, same, before⟩ | reported
    · have space : y.jobNamespace = .evaluation := by
        cases w with
        | jobs h => exact (same_namespace h there mem same.symm).symm.trans evaluation
        | _ =>
          obtain rfl := Table.eq_of_clashes there mem (sameJob_clashes same)
          exact evaluation
      rw [← same]
      exact (inv.succeeded y there space before).extends w.extends
    · exact reported

end Transactions

/-! ## Programs with nothing to show for -/

/-- The program keeps to the protocol from every state on. -/
def Quiet (m : Native.Machine) (k : Nat) {β : Type} (p : Run β) : Prop :=
  ∀ s, Safe (protocol m) k (fun _ _ => True) (fun _ _ => True) p s

section Quiet

variable {m : Native.Machine} {k : Nat} {β γ : Type}

theorem Quiet.done (b : β) : Quiet m k (.done b : Run β) :=
  fun _ => trivial

theorem Quiet.fail (e : Exn) : Quiet m k (.fail e : Run β) :=
  fun _ => trivial

theorem Quiet.ofExcept (x : Except Exn β) : Quiet m k (.ofExcept x : Run β) :=
  fun _ => .ofExcept (fun _ _ => trivial) fun _ _ => trivial

theorem Quiet.look (f : Outside → Site → Except Exn β) : Quiet m k (.look f : Run β) :=
  fun _ => .look (fun _ _ _ _ _ _ => trivial) fun _ _ _ _ _ _ => trivial

theorem Quiet.bind {p : Run β} {f : β → Run γ} (h : Quiet m k p) (rest : ∀ b, Quiet m k (f b)) : Quiet m k (p >>= f) :=
  fun s => .bind ((h s).mono (fun t b _ => rest b t) fun _ _ _ => trivial)

theorem Quiet.handle {p : Run β} {f : Exn → Run β} (h : Quiet m k p) (rest : ∀ e, Quiet m k (f e)) :
    Quiet m k (p.handle f) :=
  fun s => .handle ((h s).mono (fun _ _ _ => trivial) fun t e _ => rest e t)

theorem Quiet.fold {f : γ → β → Run γ} (round : ∀ c b, Quiet m k (f c b)) (c : γ) (bs : List β) :
    Quiet m k (.fold f c bs) :=
  fun _ => (Safe.fold (J := fun _ _ _ => True) (fun b _ c s _ => round c b s) trivial).mono (fun _ _ _ => trivial)
    fun _ _ _ => trivial

theorem Quiet.ite {c : Prop} [Decidable c] {p q : Run β} (h : Quiet m k p) (h' : Quiet m k q) :
    Quiet m k (if c then p else q) := by
  split
  · exact h
  · exact h'

/-- **A transaction that makes no job succeed** keeps to the protocol, and what it commits is seen. -/
theorem onStore_safe {f : JobRepository → Store → Except Exn (Store × β)} {Q : Site → β → Prop} {s : Site}
    (writes : ∀ repo db db' b, f repo db = .ok (db', b) → Writes m db db' ∧ Spares db.jobs db'.jobs)
    (seen : ∀ repo t store b, Inv m t → Extends s.store t.store → f repo t.store = .ok (store, b) →
      Q { t with store } b) :
    Safe (protocol m) k Q (fun _ _ => True) (onStore f) s := by
  apply Safe.transact
  · intro t a t' b inv since performed
    obtain ⟨⟨store, b'⟩, done, same⟩ := Checked.map_eq_ok.1 performed
    cases same
    obtain ⟨w, spares⟩ := writes a.repo t.store store b' done
    refine ⟨Inv.writes inv w fun r mem _ there => .inl (spares r mem there), fun j _ => ⟨w.extends, rfl⟩, ?_⟩
    exact seen a.repo t store b' inv since.1 done
  · exact fun _ _ _ _ _ _ => trivial

theorem Quiet.onStore {f : JobRepository → Store → Except Exn (Store × β)}
    (writes : ∀ repo db db' b, f repo db = .ok (db', b) → Writes m db db' ∧ Spares db.jobs db'.jobs) :
    Quiet m k (EvaluationJobs.onStore f) :=
  fun _ => onStore_safe writes fun _ _ _ _ _ _ _ => trivial

/-- A mutator of the job repository that makes no job succeed. -/
theorem Quiet.onJobs {f : JobRepository → JobStore → Except PyError (JobStore × DurableJob)}
    (evolves : ∀ repo db db' job, f repo db = .ok (db', job) → Evolves repo.forbidden db db' ∧ Spares db db') :
    Quiet m k (EvaluationJobs.onJobs f) := by
  apply Quiet.onStore
  intro repo db db' job performed
  obtain ⟨⟨jobs, job'⟩, done, same⟩ := Checked.map_eq_ok.1 performed
  cases same
  obtain ⟨h, spares⟩ := evolves repo db.jobs jobs job' (lift_eq_ok.1 done)
  exact ⟨.jobs h, spares⟩

end Quiet

/-! ## Attempts -/

section Attempts

variable {m : Native.Machine} {k : Nat}

theorem readJob_quiet (jobId : String) : Quiet m k (readJob jobId) :=
  .look _

theorem checkCancel_quiet (jobId : String) : Quiet m k (checkCancel jobId) :=
  .bind (readJob_quiet jobId) fun _ => .ite (.fail _) (.done _)

/-- **The reservation** makes the slot the worker's own. -/
theorem reserve_safe (slot : Slot) (s : Site) :
    Safe (protocol m) k (fun t _ => t.owner k = some slot) (fun _ _ => True) (reserve k slot) s := by
  apply Safe.transact
  · intro t a t' ordinal inv since performed
    obtain ⟨⟨store, ordinal'⟩, done, same⟩ := Checked.map_eq_ok.1 performed
    cases same
    obtain ⟨attempts, inserted, rfl, next, open_, fits⟩ := reserveAttempt_spec done
    have inv : Inv m t := inv
    have w : Writes m t.store { t.store with attempts } := .attempt inserted next open_ fits
    have kept := inv.writes w fun r mem _ there => .inl ⟨r, mem, rfl, there⟩
    -- no earlier attempt has the slot
    have fresh : ∀ a ∈ t.store.attempts.rows, a.slot ≠ slot := by
      intro b mem same
      have clash := (Table.insert?_eq_some.1 inserted).1 b mem
      have clashing : clashes (⟨slot.jobId, ordinal', slot.caseId, slot.phase, a.repo.clock⟩ : AttemptRow) b = true := by
        rw [← same]
        simp [clashes, Row.clash, Row.identity, AttemptRow.slot]
      rw [clashing] at clash
      cases clash
    have there : ∃ b ∈ attempts.rows, b.slot = slot := by
      refine ⟨⟨slot.jobId, ordinal', slot.caseId, slot.phase, a.repo.clock⟩, ?_, rfl⟩
      rw [Table.insert?_rows inserted]
      exact List.mem_append_right _ (List.mem_singleton_self _)
    have unused : slot ∉ t.calls.map (·.slot) := by
      intro mem
      obtain ⟨c, hc, rfl⟩ := List.mem_map.1 mem
      obtain ⟨b, hb, same⟩ := inv.reserved c hc
      exact fresh b hb same
    have nobody : ∀ j, t.owner j ≠ some slot := by
      intro j own
      obtain ⟨⟨b, hb, same⟩, -⟩ := inv.held j slot own
      exact fresh b hb same
    refine ⟨⟨kept.sound, kept.once, kept.reserved, ?_, ?_, kept.succeeded⟩, fun j other => ⟨w.extends, if_neg other⟩, if_pos rfl⟩
    · intro j slot' own
      by_cases mine : j = k
      · simp only [mine, if_true] at own
        obtain rfl := Option.some.inj own
        exact ⟨there, unused⟩
      · simp only [mine, if_false] at own
        exact kept.held j slot' own
    · intro i j slot' left right
      by_cases mine : i = k <;> by_cases mine' : j = k
      · rw [mine, mine']
      · simp only [mine, mine', if_true, if_false] at left right
        obtain rfl := Option.some.inj left
        exact absurd right (nobody j)
      · simp only [mine, mine', if_true, if_false] at left right
        obtain rfl := Option.some.inj right
        exact absurd left (nobody i)
      · simp only [mine, mine', if_false] at left right
        exact inv.apart i j slot' left right
  · exact fun _ _ _ _ _ _ => trivial

/-- **The call** uses the worker's slot up. -/
theorem invoke_safe {β : Type} {slot : Slot} (prompt : String) (reply : Outside → Option β) {s : Site}
    (own : s.owner k = some slot) :
    Safe (protocol m) k (fun _ _ => True) (fun _ _ => True) (invoke k slot prompt reply) s := by
  intro t a inv since
  have inv : Inv m t := inv
  have mine : t.owner k = some slot := since.2.trans own
  obtain ⟨there, unused⟩ := inv.held k slot mine
  refine ⟨⟨inv.sound, ?_, ?_, ?_, ?_, inv.succeeded⟩, fun j other => ⟨.refl _, if_neg other⟩, Quiet.ofExcept _ _⟩
  · show ((t.calls ++ [ProviderCall.mk slot prompt]).map ProviderCall.slot).Nodup
    rw [List.map_append, List.nodup_append]
    refine ⟨inv.once, List.nodup_singleton _, ?_⟩
    intro x hx y hy same
    obtain rfl := List.mem_singleton.1 hy
    exact unused (same ▸ hx)
  · intro c mem
    rcases List.mem_append.1 mem with mem | mem
    · exact inv.reserved c mem
    · obtain rfl := List.mem_singleton.1 mem
      exact there
  · intro j slot' own'
    by_cases same : j = k
    · simp only [same, if_true] at own'
      cases own'
    · simp only [same, if_false] at own'
      obtain ⟨there', unused'⟩ := inv.held j slot' own'
      refine ⟨there', ?_⟩
      show slot' ∉ (t.calls ++ [ProviderCall.mk slot prompt]).map ProviderCall.slot
      rw [List.map_append, List.mem_append]
      rintro (used | used)
      · exact unused' used
      · obtain rfl := List.mem_singleton.1 used
        exact same (inv.apart j k _ own' mine)
  · intro i j slot' left right
    by_cases same : i = k
    · simp only [same, if_true] at left
      cases left
    · by_cases same' : j = k
      · simp only [same', if_true] at right
        cases right
      · simp only [same, same', if_false] at left right
        exact inv.apart i j slot' left right

theorem attempt_quiet {β : Type} (slot : Slot) (prompt : String) (reply : Outside → Option β) :
    Quiet m k (attempt k slot prompt reply) := by
  apply Quiet.bind (checkCancel_quiet slot.jobId)
  intro _ s
  apply Safe.bind
  exact (reserve_safe slot s).mono (fun _ _ own => invoke_safe prompt reply own) fun _ _ => id

theorem completed_quiet (slot : Slot) (c : Completion) : Quiet m k (completed k slot c) := by
  induction c with
  | answer text => exact .done text
  | raise e => exact .fail e
  | correct prompt next ih =>
    apply Quiet.bind
    · exact .handle (attempt_quiet slot prompt _) fun _ => .fail _
    · exact ih

end Attempts

/-! ## Calls of the job repository -/

section Calls

variable {m : Native.Machine} {k : Nat}

theorem spares_of {call : JobCall} {repo : JobRepository} {db db' : JobStore} {reply : JobReply} (other : success? call = none)
    (h : body repo call db = .ok (db', reply)) : Spares db db' := by
  intro x mem done
  rcases body_succeeds h mem done with before | ⟨revision, result, code, message, rfl⟩
  · exact before
  · cases other

/-- A mutator that is no success. -/
theorem Quiet.onCall {f : JobRepository → JobStore → Except PyError (JobStore × DurableJob)} (call : JobCall)
    (other : success? call = none) (same : ∀ repo db, body repo call db = tagged .job (f repo db)) :
    Quiet m k (EvaluationJobs.onJobs f) := by
  apply Quiet.onJobs
  intro repo db db' job done
  have performed : body repo call db = .ok (db', .job job) := by
    rw [same, tagged, done]
    rfl
  exact ⟨body_evolves performed, spares_of other performed⟩

theorem reportProgress_quiet (jobId : String) (job : DurableJob) (progress : JobProgress) :
    Quiet m k (onJobs fun repo db => reportProgress repo jobId job.revision progress db) :=
  .onCall (.reportProgress jobId job.revision progress) rfl fun _ _ => rfl

theorem moveStep_quiet (jobId : String) (job : DurableJob) (i : Nat) (target : JobStepState) :
    Quiet m k (moveStep jobId job i target) := by
  apply Quiet.bind (.ofExcept _)
  intro step
  exact .onCall (.transitionStep jobId step.stepId job.revision step.revision target) rfl fun _ _ => rfl

theorem finishFailure_quiet (jobId code message : String) (rounds : Nat) :
    Quiet m k (finishFailure jobId code message rounds) := by
  induction rounds with
  | zero => exact .fail _
  | succ rounds ih =>
    apply Quiet.bind (readJob_quiet jobId)
    intro current
    refine .handle (.ite ?_ (.ite ?_ (.done _))) fun e => .ite ih (.fail e)
    · exact .bind (.onCall (.acknowledgeCancellation jobId current.revision none) rfl fun _ _ => rfl) fun _ => .done _
    · exact .bind (.onCall (.transitionJob jobId current.revision .failed none (some code) (some message)) rfl
        fun _ _ => rfl) fun _ => .done _

theorem recover_quiet (jobId : String) (e : Exn) : Quiet m k (recover jobId e) := by
  refine .ite (finishFailure_quiet _ _ _ _) (.bind (readJob_quiet jobId) fun current => ?_)
  exact .ite (finishFailure_quiet _ _ _ _) (.ite (finishFailure_quiet _ _ _ _) (.done _))

theorem claim_quiet (jobId : String) (job : DurableJob) : Quiet m k (claim jobId job) := by
  apply Quiet.handle
  · refine .bind ?_ fun _ => .done _
    exact .onCall (.transitionJob jobId job.revision .running none none none) rfl fun _ _ => rfl
  · exact fun e => .ite (.done _) (.fail e)

end Calls

/-! ## A worker -/

section Worker

variable {m : Native.Machine} {k : Nat} (tools : Tools)

theorem prepare_quiet (snapshot : JsonObject) : Quiet m k (prepare tools snapshot) := by
  refine .bind (.ofExcept _) fun _ => .bind (.ofExcept _) fun digest => .bind (.look _) fun content => ?_
  refine .bind (.ofExcept _) fun cases => .bind (.ofExcept _) fun hashes => .bind (.ofExcept _) fun _ => ?_
  exact .bind (.ofExcept _) fun binding => .bind (.look _) fun _ => .done _

theorem answerCase_quiet (jobId caseId : String) (binding : Native.NativeReportBinding) (case_ : FrozenCase) :
    Quiet m k (answerCase m tools k jobId caseId binding case_) := by
  refine .bind (attempt_quiet _ _ _) fun draft => .bind (completed_quiet _ _) fun answer => .bind (attempt_quiet _ _ _) fun raw => ?_
  exact .bind (.ofExcept _) fun scores => .bind (.ofExcept _) fun input => .bind (.ofExcept _) fun result => .done _

theorem commitCase_quiet (jobId caseId : String) (ordinal : Int) (result : JsonObject) :
    Quiet m k (onStore fun repo db => commitCase repo jobId ordinal caseId result db) := by
  apply Quiet.onStore
  intro repo db db' u done
  have w := (commitCase_spec (m := m) done).2
  exact ⟨w, commitCase_jobs done ▸ .refl _⟩

theorem runCase_quiet (jobId : String) (snapshot : JsonObject) (binding : Native.NativeReportBinding) (total : Nat)
    (job : DurableJob) (entry : FrozenCase × Nat) : Quiet m k (runCase m tools k jobId snapshot binding total job entry) := by
  refine .bind (checkCancel_quiet jobId) fun _ => .bind (.ofExcept _) fun ids => .bind (.ofExcept _) fun caseId => ?_
  refine .bind (.ofExcept _) fun hashes => .bind (.ofExcept _) fun hash => .bind (.ofExcept _) fun _ => ?_
  refine .bind (answerCase_quiet tools _ _ _ _) fun result => .bind (commitCase_quiet _ _ _ _) fun _ => ?_
  exact .bind (checkCancel_quiet jobId) fun _ => .bind (readJob_quiet jobId) fun current => reportProgress_quiet _ _ _

end Worker

/-! ## The end of a run -/

section Conclusion

variable {m : Native.Machine} {k : Nat} {jobId : String}

/-- A program with nothing to show for takes nothing back. -/
theorem Quiet.frame {β : Type} {p : Run β} (h : Quiet m k p) {F : Store → Prop}
    (stable : ∀ db db', Extends db db' → F db → F db') {s : Site} (start : F s.store) :
    Safe (protocol m) k (fun t _ => F t.store) (fun _ _ => True) p s := by
  have others : ∀ t u, (protocol m).rely k t u → F t.store → F u.store := fun t u since => stable _ _ since.1
  have own : ∀ t u, (∀ j, j ≠ k → (protocol m).rely j t u) → F t.store → F u.store :=
    fun t u guarantee => stable _ _ (guarantee (k + 1) (Nat.succ_ne_self k)).1
  have framed := Safe.frame (F := fun t : Site => F t.store) others own (h s) start
  exact framed.mono (fun _ _ kept => kept.2) fun _ _ => id

/-- Distinct numbers below their count are all the numbers below it. -/
theorem covers {l : List Nat} (distinct : l.Nodup) (below : ∀ i ∈ l, i < l.length) {i : Nat} (lt : i < l.length) : i ∈ l := by
  have within : l ⊆ List.range l.length := fun i mem => List.mem_range.2 (below i mem)
  have perm := (distinct.subperm within).perm_of_length_le (by rw [List.length_range])
  exact perm.mem_iff.2 (List.mem_range.2 lt)

theorem named_lt {ordinal : Nat} {caseId : String} {items : List Json} (h : named ordinal caseId (.arr items) = .ok true) :
    ordinal < items.length := by
  simp only [named, Checked.pure_eq_ok, Bool.and_eq_true, decide_eq_true_eq] at h
  obtain ⟨-, here⟩ := h
  rw [Int.toNat_natCast] at here
  exact (List.getElem?_eq_some_iff.1 here).1

/-- A report of the frozen cases has one case for each. -/
theorem matchesFrozen_length {snapshot : List (String × Json)} {report : Native.NativeReport} {items : List Json}
    (h : matchesFrozen jobId snapshot report = .ok true) (ids : getOrEmpty "case_ids" snapshot = .arr items) :
    items.length = report.cases.length := by
  unfold matchesFrozen at h
  split at h
  · simp only [Checked.bind_eq_ok, required, Checked.orRaise_eq_ok] at h
    obtain ⟨values, found, same, compared, h⟩ := h
    have listed : values = .arr items := by
      rw [getOrEmpty, found] at ids
      exact ids
    subst listed
    split at h
    · next true_ =>
      subst true_
      unfold sameIds at compared
      simp only [Checked.bind_eq_ok, elements, Checked.pure_eq_ok] at compared
      obtain ⟨_, rfl, compared⟩ := compared
      split at compared
      · next length => exact length.trans (List.length_map _)
      · cases compared
    · cases h
  · cases h

/-- The results of the job that the report was made of. -/
def Seen (jobId : String) (count : Nat) (db : Store) : Prop :=
  ∃ rows : List ResultRow, rows.length = count ∧ (rows.map (·.ordinal)).Nodup ∧
    ∀ y ∈ rows, y ∈ db.results.rows ∧ y.jobId = jobId

theorem Seen.extends {count : Nat} {db db' : Store} (h : Extends db db') (seen : Seen jobId count db) :
    Seen jobId count db' := by
  obtain ⟨rows, length, distinct, there⟩ := seen
  exact ⟨rows, length, distinct, fun y mem => ⟨h.results.subset (there y mem).1, (there y mem).2⟩⟩

theorem allCases_seen {db : Store} {rows : List JsonObject} (h : allCases jobId db = .ok rows) : Seen jobId rows.length db := by
  refine ⟨db.resultsOf jobId, ?_, ?_, fun y mem => ?_⟩
  · have length := (Checked.collect_eq_ok.1 h).length_eq
    rwa [List.length_insertionSort] at length
  · rw [List.Nodup, List.pairwise_map]
    have apart := db.results.lawful.filter (fun x => x.jobId = jobId)
    refine apart.imp_of_mem fun {a b} ha hb clash same => ?_
    have own : a.jobId = jobId ∧ b.jobId = jobId := by simpa using And.intro (List.mem_filter.1 ha).2 (List.mem_filter.1 hb).2
    have clashing : clashes a b = true := by simp [clashes, Row.clash, Row.identity, own.1, own.2, same]
    rw [clashing] at clash
    cases clash
  · obtain ⟨there, own⟩ := List.mem_filter.1 mem
    exact ⟨there, by simpa using own⟩

/-- **A committed report** of as many cases as there are results is about all of them. -/
theorem commitReport_reported {repo : JobRepository} {db db' : Store} {report : Native.NativeReport} {u : Unit}
    (sound : Sound m db) (done : commitReport m repo jobId report db = .ok (db', u)) (complete : report.status = .complete)
    (seen : Seen jobId report.cases.length db) : Reported m db' jobId := by
  obtain ⟨⟨x, mem, own, content, snapshot, frozen, fits⟩, w⟩ := commitReport_spec done
  obtain ⟨rows, length, distinct, there⟩ := seen
  refine ⟨x, mem, own, snapshot, report, w.extends.frozen _ _ frozen, content, fits, complete, fun items ids i lt => ?_⟩
  have count := matchesFrozen_length fits ids
  have below : ∀ j ∈ rows.map (·.ordinal), j < (rows.map (·.ordinal)).length := by
    intro j mem
    obtain ⟨y, hy, rfl⟩ := List.mem_map.1 mem
    obtain ⟨here, mine⟩ := there y hy
    obtain ⟨snapshot', frozen', named_⟩ := (sound.results y here).frozen
    rw [mine] at frozen'
    obtain rfl := frozen.unique frozen'
    rw [ids] at named_
    have small := named_lt named_
    rw [List.length_map]
    omega
  have among : i ∈ rows.map (·.ordinal) := by
    apply covers distinct below
    rw [List.length_map]
    omega
  obtain ⟨y, hy, rfl⟩ := List.mem_map.1 among
  obtain ⟨here, mine⟩ := there y hy
  exact ⟨y, w.extends.results.subset here, mine, rfl⟩

theorem aggregateReport_safe (binding : Native.NativeReportBinding) {inputs : List Native.NativeCaseInput} {s : Site}
    (seen : Seen jobId inputs.length s.store) :
    Safe (protocol m) k (fun t _ => Reported m t.store jobId) (fun _ _ => True) (aggregateReport m jobId binding inputs) s := by
  apply Safe.handle
  apply Safe.bind
  refine Safe.ofExcept (fun report built => ?_) fun _ _ => trivial
  apply Safe.bind
  refine Safe.ofExcept (fun _ checked => ?_) fun _ _ => trivial
  apply Safe.bind
  have complete : report.status = .complete := Checked.require_eq_ok.1 checked
  have length : report.cases.length = inputs.length := by
    obtain ⟨results, digest, text, made, rfl⟩ := Native.buildNativeReport_eq_ok.1 (lift_eq_ok.1 built)
    have same := (Checked.collect_eq_ok.1 made.evaluated).length_eq
    show (Native.sortCases results).length = _
    rw [Native.sortCases, List.length_insertionSort]
    exact same.symm
  have stored : Safe (protocol m) k (fun t _ => Reported m t.store jobId) (fun _ _ => True)
      (onStore fun repo db => commitReport m repo jobId report db) s := by
    apply onStore_safe
    · intro repo db db' u done
      exact ⟨(commitReport_spec done).2, commitReport_jobs done ▸ .refl _⟩
    · intro repo t store u inv since done
      apply commitReport_reported inv.sound done complete
      rw [length]
      exact seen.extends since
  exact stored.mono (fun _ _ => id) fun _ _ _ => trivial

/-- **Success** is recorded for a job that has its report only. -/
theorem succeed_safe (job : DurableJob) (digest : String) (consumed : Nat) {s : Site} (reported : Reported m s.store jobId) :
    Safe (protocol m) k (fun _ _ => True) (fun _ _ => True) (onJobs fun repo db => transitionJob repo jobId job.revision .succeeded
      (some ⟨_, outcome_distinct digest consumed⟩) none none db) s := by
  apply Safe.transact
  · intro t a t' b inv since performed
    obtain ⟨⟨store, b'⟩, done, same⟩ := Checked.map_eq_ok.1 performed
    cases same
    obtain ⟨⟨jobs, job'⟩, moved, same⟩ := Checked.map_eq_ok.1 done
    cases same
    have called : body a.repo (.transitionJob jobId job.revision .succeeded (some ⟨_, outcome_distinct digest consumed⟩) none none)
        t.store.jobs = .ok (jobs, .job job') := by
      simp only [lift_eq_ok] at moved
      rw [body, tagged, moved]
      rfl
    have w : Writes m t.store { t.store with jobs } := .jobs (body_evolves called)
    refine ⟨Inv.writes inv w fun r mem _ succeeded => ?_, fun j _ => ⟨w.extends, rfl⟩, trivial⟩
    rcases body_succeeds called mem succeeded with before | ⟨revision, result, code, message, same⟩
    · exact .inl before
    · cases same
      exact .inr ((reported.extends since.1).extends w.extends)
  · exact fun _ _ _ _ _ _ => trivial

theorem conclude_safe (binding : Native.NativeReportBinding) (total : Nat) (job : DurableJob) :
    Quiet m k (conclude m jobId binding total job) := by
  have stable : ∀ db db', Extends db db' → Reported m db jobId → Reported m db' jobId := fun _ _ => Reported.extends
  intro s
  apply Safe.bind
  refine Safe.look (fun t a rows _ _ read => ?_) fun _ _ _ _ _ _ => trivial
  apply Safe.bind
  refine Safe.ofExcept (fun _ _ => ?_) fun _ _ => trivial
  apply Safe.bind
  refine Safe.ofExcept (fun inputs collected => ?_) fun _ _ => trivial
  have length := (Checked.collect_eq_ok.1 collected).length_eq
  have seen : Seen jobId inputs.length t.store := length ▸ allCases_seen read
  apply Safe.bind
  refine (aggregateReport_safe binding seen).mono (fun u report reported => ?_) fun _ _ => id
  apply Safe.bind
  refine ((checkCancel_quiet jobId).frame stable reported).mono (fun u _ reported => ?_) fun _ _ => id
  apply Safe.bind
  refine ((moveStep_quiet jobId job 1 .succeeded).frame stable reported).mono (fun u job reported => ?_) fun _ _ => id
  apply Safe.bind
  refine ((Quiet.look _).frame stable reported).mono (fun u consumed reported => ?_) fun _ _ => id
  apply Safe.bind
  exact (succeed_safe job report.digest consumed reported).mono (fun _ _ _ => trivial) fun _ _ => id

theorem execute_quiet (tools : Tools) (claimed : DurableJob) : Quiet m k (execute m tools k jobId claimed) := by
  refine .bind (prepare_quiet tools _) fun prepared => .bind (moveStep_quiet _ _ _ _) fun job => ?_
  refine .bind (reportProgress_quiet _ _ _) fun job => .bind (.fold (runCase_quiet tools _ _ _ _) _ _) fun job => ?_
  exact .bind (moveStep_quiet _ _ _ _) fun job => .bind (moveStep_quiet _ _ _ _) fun job => conclude_safe _ _ _

theorem run_quiet (tools : Tools) : Quiet m k (run m tools k jobId) := by
  refine .bind (readJob_quiet jobId) fun job => .ite (.bind (claim_quiet jobId job) fun claimed => ?_) (.done _)
  cases claimed with
  | none => exact .done _
  | some job => exact .handle (execute_quiet tools job) fun e => recover_quiet jobId e

end Conclusion

/-! ## The service -/

section Service

variable {m : Native.Machine} {k : Nat}

theorem foreignCall_spares {repo : JobRepository} {call : JobCall} {s : Site} {db' : Store} {reply : JobReply}
    (done : foreignCall repo call s.store = .ok (db', reply)) :
    Writes m s.store db' ∧ ∀ r ∈ db'.jobs.jobs.rows, r.jobNamespace = .evaluation → r.state = .succeeded →
      ∃ y ∈ s.store.jobs.jobs.rows, y.jobId = r.jobId ∧ y.state = .succeeded := by
  simp only [foreignCall, Checked.bind_eq_ok, Checked.require_eq_ok] at done
  obtain ⟨-, foreign_, done⟩ := done
  refine ⟨jobBody_writes done, fun r mem evaluation succeeded => ?_⟩
  simp only [jobBody, Checked.bind_eq_ok, lift_eq_ok, Checked.pure_eq_ok, Prod.mk.injEq] at done
  obtain ⟨⟨jobs, reply'⟩, performed, rfl, -⟩ := done
  rcases body_succeeds performed mem succeeded with before | ⟨revision, result, code, message, rfl⟩
  · exact before
  · -- the job was there, and of another namespace
    have evolves := body_evolves performed
    obtain ⟨job, moved, -⟩ := tagged_eq_ok performed
    simp only [transitionJob, Checked.bind_eq_ok] at moved
    obtain ⟨-, -, moved⟩ := moved
    obtain ⟨⟨y, there, same, -⟩, -⟩ := transitionJobIn_wrote moved
    have found : s.store.jobs.job? r.jobId = some y := same ▸ job?_of_mem there
    have space := same_namespace evolves there mem same.symm
    simp only [success?, Option.bind_some, found, Option.all_some, decide_eq_true_eq, ne_eq] at foreign_
    exact absurd (space.symm.trans evaluation) foreign_

theorem serve_quiet (tools : Tools) (request : Request) : Quiet m k (serve m tools k request) := by
  cases request with
  | run jobId => exact run_quiet tools
  | registerArtifact content =>
    refine .bind (.onStore ?_) fun _ => .done _
    intro repo db db' digest done
    refine ⟨registerArtifact_writes done, ?_⟩
    simp only [registerArtifact, Checked.bind_eq_ok, Checked.pure_eq_ok, Prod.mk.injEq] at done
    obtain ⟨-, -, -, -, stored, -, -, -, rfl, -⟩ := done
    exact .refl _
  | call call =>
    refine .bind (fun s => ?_) fun _ => .done _
    apply Safe.transact
    · intro t a t' b inv since performed
      obtain ⟨⟨store, b'⟩, done, same⟩ := Checked.map_eq_ok.1 performed
      cases same
      obtain ⟨w, spares⟩ := foreignCall_spares (m := m) done
      exact ⟨Inv.writes inv w fun r mem evaluation there => .inl (spares r mem evaluation there),
        fun j _ => ⟨w.extends, rfl⟩, trivial⟩
    · exact fun _ _ _ _ _ _ => trivial

/-- The state after some events, from an empty database and idle workers. -/
def after (m : Native.Machine) (tools : Tools) (events : List (PoolEvent Outside Nat Request)) : Site :=
  (Runs.run (Pool.act (serve m tools)) (Pool.idle .start) events).state

theorem after_inv (tools : Tools) (events : List (PoolEvent Outside Nat Request)) : Inv m (after m tools events) :=
  Pool.run_inv (P := protocol m) (fun _ request s _ => serve_quiet tools request s) Inv.start events

/-- **One slot, one call; no success without a report.** However workers, the API and the other parties interleave, and
wherever workers stop: every provider call has a reserved attempt of its own, so a job is called for within its frozen
budget and for each case at most once a phase; and an evaluation that succeeded has its complete report of exactly the frozen
cases, and a committed result for every one of them. -/
theorem evaluation_runs (m : Native.Machine) (tools : Tools) (events : List (PoolEvent Outside Nat Request)) :
    let s := after m tools events
    (s.calls.map (·.slot)).Nodup ∧
    (∀ jobId, (s.calls.filter fun c => c.slot.jobId = jobId).length ≤ s.store.attemptedCount jobId) ∧
    (∀ a ∈ s.store.attempts.rows, FitsBudget s.store.jobs a (s.store.attemptedCount a.jobId)) ∧
    (∀ c ∈ s.calls, ∃ a ∈ s.store.attempts.rows, a.slot = c.slot) ∧
    ∀ r ∈ s.store.jobs.jobs.rows, r.jobNamespace = .evaluation → r.state = .succeeded → Reported m s.store r.jobId := by
  intro s
  have inv : Inv m s := after_inv tools events
  refine ⟨inv.once, fun jobId => ?_, inv.sound.budget, inv.reserved, inv.succeeded⟩
  have distinct : ((s.calls.filter fun c => c.slot.jobId = jobId).map (·.slot)).Nodup :=
    inv.once.sublist (List.filter_sublist.map _)
  have within : (s.calls.filter fun c => c.slot.jobId = jobId).map (·.slot) ⊆ (s.store.attemptsOf jobId).map AttemptRow.slot := by
    intro slot mem
    obtain ⟨c, hc, rfl⟩ := List.mem_map.1 mem
    obtain ⟨hc, own⟩ := List.mem_filter.1 hc
    obtain ⟨a, there, same⟩ := inv.reserved c hc
    refine List.mem_map.2 ⟨a, List.mem_filter.2 ⟨there, ?_⟩, same⟩
    have job : a.jobId = c.slot.jobId := congrArg Slot.jobId same
    rw [job]
    exact own
  have length := (distinct.subperm within).length_le
  rwa [List.length_map, List.length_map] at length

end Service

end EvaluationJobs
