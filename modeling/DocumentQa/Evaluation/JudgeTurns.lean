import DocumentQa.Evaluation.JudgePhase

/-!
# What a judge run leaves

A run takes a turn for every OK generation; it returns exactly when no question it judges ends
in the failure that has no status (`judgeAll_spec`).
-/

namespace Judge

open Python JsonText Generation

variable (s : Setup)

/-! ## Turns -/

/-- What was done for one question. -/
structure Turn where
  record : Record
  resumed : Bool
  calls : List Event

def Turn.events (t : Turn) : List Event :=
  if t.resumed then t.calls else t.calls ++ [.appended t.record]

def Event.isAppended : Event → Bool
  | .appended _ => true
  | _ => false

/-- The turn answers from the store without a call, or is judged; scores are what a call returned. -/
structure Turn.Good (id : Identity) (done : String → Option Record) (t : Turn) : Prop where
  calls : ∀ e ∈ t.calls, e.isAppended = false
  resumed : t.resumed = true → done t.record.question = some t.record ∧ t.calls = []
  fresh : t.resumed = false → done t.record.question = none ∧ t.record.identity = id ∧
    ∀ scores, t.record.outcome = .ok scores → ∃ n, .judged n (.returned scores) ∈ t.calls

/-- The run returned a record for every OK generation, from good turns. -/
def Sound (id : Identity) (done : String → Option Record) (selected : List String) (w : World)
    (run : World × Except PyError (List Record)) : Prop :=
  ∃ turns : List Turn, (∀ t ∈ turns, t.Good id done) ∧
    run.1.trace = w.trace ++ turns.flatMap Turn.events ∧
    run.1.store = w.store ++ (turns.filter fun t => !t.resumed).map Turn.record ∧
    run.2 = .ok (turns.map Turn.record) ∧ turns.map (fun t => t.record.question) = okGenerations s selected

/-! ## One question -/

/-- A failure that has a status of its own. -/
def isQuota (error : Option String) : Bool :=
  match error with
  | some error => looksLikeQuotaError error
  | none => false

/-- The loop ends with a value or a parse error, or its last failure looks like a quota error. -/
def Settles (place : Nat) (text : String) : Nat → List Double → Option String → Prop
  | _, [], last => isQuota last = true
  | n, _ :: rest, last =>
    match s.judge place n text with
    | .returned scores => scores ≠ .null ∨ isQuota last = true
    | .parseError _ => True
    | .raised message => Settles place text (n + 1) rest (some message)

theorem classify_spec (v : Verdict) :
    ((∃ outcome, classify v = .ok outcome) ↔ v.scores ≠ .null ∨ v.parseInvalid = true ∨ isQuota v.error = true) ∧
      ∀ scores, classify v = .ok (.ok scores) → v.scores = scores ∧ scores ≠ .null := by
  unfold classify
  by_cases scored : v.scores ≠ .null
  · rw [if_pos scored]
    refine ⟨⟨fun _ => .inl scored, fun _ => ⟨_, rfl⟩⟩, ?_⟩
    rintro scores ⟨⟩
    exact ⟨rfl, scored⟩
  · rw [if_neg scored]
    cases v.parseInvalid with
    | true => simp
    | false =>
      cases v.error with
      | none => simp [scored, isQuota]
      | some error => cases h : looksLikeQuotaError error <;> simp [scored, isQuota, h]

theorem retry_spec (place : Nat) (text : String) (ws : List Double) (n : Nat) (v : Verdict) (w : World)
    (unscored : v.scores = .null) (valid : v.parseInvalid = false) :
    ∃ calls, (retry s place text n ws v w).1 = { w with trace := w.trace ++ calls } ∧
      (∀ e ∈ calls, e.isAppended = false) ∧
      ((∃ outcome, classify (retry s place text n ws v w).2 = .ok outcome) ↔ Settles s place text n ws v.error) ∧
      ∀ scores, (retry s place text n ws v w).2.scores = scores → scores ≠ .null → ∃ m, .judged m (.returned scores) ∈ calls := by
  induction ws generalizing n v w with
  | nil =>
    refine ⟨[], by rw [List.append_nil]; rfl, nofun, ?_, ?_⟩
    · rw [retry, (classify_spec v).1, unscored, valid, Settles]
      simp
    · rintro scores rfl some_
      exact absurd unscored some_
  | cons wait rest ih =>
    obtain ⟨slept, hslept⟩ : ∃ slept, slept = if isWait wait then [Event.slept n] else [] := ⟨_, rfl⟩
    have plain : ∀ e ∈ slept ++ [Event.judged n (s.judge place n text)], e.isAppended = false := by
      intro e he
      rcases List.mem_append.1 he with he | he
      · rw [hslept] at he
        split at he
        · rw [List.mem_singleton.1 he]
          rfl
        · cases he
      · rw [List.mem_singleton.1 he]
        rfl
    rw [retry, Settles, ← hslept]
    cases hj : s.judge place n text with
    | returned scores =>
      rw [hj] at plain
      refine ⟨_, rfl, plain, ?_, ?_⟩
      · dsimp only
        rw [(classify_spec _).1, valid]
        simp
      · rintro _ rfl _
        exact ⟨n, by simp⟩
    | parseError message =>
      rw [hj] at plain
      refine ⟨_, rfl, plain, ?_, ?_⟩
      · dsimp only
        rw [(classify_spec _).1]
        simp
      · rintro _ rfl some_
        exact absurd unscored some_
    | raised message =>
      rw [hj] at plain
      obtain ⟨calls, world, callsPlain, settles, scored⟩ := ih (n + 1) { v with error := some message }
        { w with trace := w.trace ++ (slept ++ [.judged n (.raised message)]) } unscored valid
      refine ⟨slept ++ [.judged n (.raised message)] ++ calls, ?_, ?_, settles, ?_⟩
      · refine world.trans ?_
        rw [List.append_assoc]
      · intro e he
        rcases List.mem_append.1 he with he | he
        · exact plain e he
        · exact callsPlain e he
      · intro scores same some_
        obtain ⟨m, mem⟩ := scored scores same some_
        exact ⟨m, List.mem_append_right _ mem⟩

/-- A question is judged to the end: its evidence and its ground truth are there, and its
loop settles. -/
def Judged (place : Nat) (question answer : String) : Prop :=
  match s.evidence question, s.truth question with
  | some evidence, some truth =>
    Settles s place (prompt s question answer evidence truth) 1 (waits s.backoff s.maxRetries) none
  | _, _ => False

variable {s}

/-- A question gets its record exactly when it is judged to the end. -/
theorem judgeQuestion_spec (id : Identity) (done : String → Option Record) {question : String} (none_ : done question = none)
    (place : Nat) (answer : String) (w : World) :
    ((∃ r, (judgeQuestion s id place question answer w).2 = .ok r) ↔ Judged s place question answer) ∧
      ∀ r, (judgeQuestion s id place question answer w).2 = .ok r → ∃ t : Turn, t.Good id done ∧ t.resumed = false ∧
        t.record = r ∧ r.question = question ∧
        (judgeQuestion s id place question answer w).1 = ⟨w.store ++ [r], w.trace ++ t.events⟩ := by
  unfold judgeQuestion Judged
  cases s.evidence question with
  | none => simp
  | some evidence =>
    cases s.truth question with
    | none => simp
    | some truth =>
      dsimp only
      obtain ⟨calls, world, plain, settles, scored⟩ := retry_spec s place (prompt s question answer evidence truth)
        (waits s.backoff s.maxRetries) 1 ⟨.null, none, false⟩ w rfl rfl
      rw [← settles]
      generalize retry s place (prompt s question answer evidence truth) 1 (waits s.backoff s.maxRetries) ⟨.null, none, false⟩ w
        = result at world scored
      obtain ⟨w', v⟩ := result
      subst world
      dsimp only at scored ⊢
      cases hv : classify v with
      | error e => simp
      | ok outcome =>
        refine ⟨by simp, ?_⟩
        rintro r ⟨⟩
        refine ⟨⟨⟨question, id, outcome⟩, false, calls⟩, ⟨plain, nofun, fun _ => ⟨none_, rfl, ?_⟩⟩, rfl, rfl, rfl, ?_⟩
        · rintro scores rfl
          obtain ⟨same, some_⟩ := (classify_spec v).2 scores hv
          exact scored scores same some_
        · simp only [Turn.events, List.append_assoc]
          rfl

/-! ## A whole run -/

variable (s) in
/-- Every selected question has a generation record, and every OK one without a stored record
is judged to the end. -/
def Clean (done : String → Option Record) : Nat → List String → Prop
  | _, [] => True
  | place, question :: rest =>
    match s.generations question with
    | none => False
    | some generation =>
      (∀ answer, answerOf generation = some answer → done question = none → Judged s place question answer) ∧
        Clean done (place + 1) rest

theorem map_ok {α β : Type} {x : Except PyError α} {f : α → β} {b : β} :
    x.map f = .ok b ↔ ∃ a, x = .ok a ∧ f a = b := by
  cases x <;> simp [Except.map]

/-- A turn before the turns of the rest. -/
theorem Sound.cons {id : Identity} {done : String → Option Record} {question : String} {rest : List String} {w w' : World}
    {run : World × Except PyError (List Record)} (h : Sound s id done rest w' run) (ok : question ∈ okGenerations s [question])
    {t : Turn} (good : t.Good id done) (own : t.record.question = question) (trace : w'.trace = w.trace ++ t.events)
    (store : w'.store = w.store ++ ([t].filter fun t => !t.resumed).map Turn.record) :
    Sound s id done (question :: rest) w (run.1, run.2.map (t.record :: ·)) := by
  obtain ⟨turns, each, trace', store', records, questions⟩ := h
  refine ⟨t :: turns, ?_, ?_, ?_, ?_, ?_⟩
  · intro a ha
    rcases List.mem_cons.1 ha with rfl | ha
    · exact good
    · exact each a ha
  · rw [trace', trace, List.flatMap_cons, List.append_assoc]
  · rw [store', store, List.append_assoc, ← List.map_append, ← List.filter_append]
    rfl
  · rw [records]
    rfl
  · have head : okGenerations s (question :: rest) = question :: okGenerations s rest :=
      List.filter_cons_of_pos (List.mem_filter.1 ok).2
    rw [head, List.map_cons, own, questions]

/-- **The loop over the questions** returns exactly when it is clean, and then it is sound. -/
theorem judgeAll_spec (id : Identity) (done : String → Option Record) (own : ∀ q r, done q = some r → r.question = q)
    (selected : List String) (place : Nat) (w : World) :
    ((∃ records, (judgeAll s id done place selected w).2 = .ok records) ↔ Clean s done place selected) ∧
      (Clean s done place selected → Sound s id done selected w (judgeAll s id done place selected w)) := by
  induction selected generalizing place w with
  | nil =>
    rw [judgeAll, Clean]
    exact ⟨by simp, fun _ => ⟨[], nofun, (List.append_nil _).symm, (List.append_nil _).symm, rfl, rfl⟩⟩
  | cons question rest ih =>
    rw [judgeAll, Clean]
    cases hg : s.generations question with
    | none => simp
    | some generation =>
      dsimp only
      cases ha : answerOf generation with
      | none =>
        have skip : okGenerations s (question :: rest) = okGenerations s rest := by
          refine List.filter_cons_of_neg ?_
          rw [hg, Option.bind_some, ha]
          simp
        obtain ⟨returns, sound⟩ := ih (place + 1) w
        simp only [reduceCtorEq, false_implies, implies_true, true_and]
        refine ⟨returns, fun clean => ?_⟩
        unfold Sound
        rw [skip]
        exact sound clean
      | some answer =>
        have ok : question ∈ okGenerations s [question] := by
          refine List.mem_filter.2 ⟨by simp, ?_⟩
          rw [hg, Option.bind_some, ha]
          rfl
        dsimp only
        cases hr : done question with
        | some r =>
          obtain ⟨returns, sound⟩ := ih (place + 1) w
          simp only [reduceCtorEq, false_implies, implies_true, true_and]
          refine ⟨?_, fun clean => ?_⟩
          · simp only [map_ok, ← returns]
            exact ⟨fun ⟨_, a, h, _⟩ => ⟨a, h⟩, fun ⟨a, h⟩ => ⟨_, a, h, rfl⟩⟩
          · refine (sound clean).cons ok (t := ⟨r, true, []⟩) ⟨nofun, fun _ => ⟨?_, rfl⟩, nofun⟩ (own _ _ hr)
              (List.append_nil _).symm (List.append_nil _).symm
            rw [own _ _ hr, hr]
        | none =>
          obtain ⟨judged, turn⟩ := judgeQuestion_spec id done hr place answer w
          generalize judgeQuestion s id place question answer w = run at judged turn ⊢
          obtain ⟨w', result⟩ := run
          simp only [Option.some.injEq, forall_eq', forall_const]
          rw [← judged]
          cases result with
          | error e => simp
          | ok r =>
            obtain ⟨t, good, fresh, rfl, here, rfl⟩ := turn r rfl
            obtain ⟨returns, sound⟩ := ih (place + 1) ⟨w.store ++ [t.record], w.trace ++ t.events⟩
            refine ⟨?_, fun clean => ?_⟩
            · simp only [map_ok, ← returns, Except.ok.injEq, exists_eq', true_and]
              exact ⟨fun ⟨_, a, h, _⟩ => ⟨a, h⟩, fun ⟨a, h⟩ => ⟨_, a, h, rfl⟩⟩
            · refine (sound clean.2).cons ok good here rfl ?_
              rw [List.filter_cons, fresh]
              rfl

theorem loadCompatible_question {binding : String} {store : List Record} {question : String} {r : Record}
    (h : loadCompatible binding store question = some r) : r.question = question := by
  have mem := List.mem_filter.1 (List.mem_of_getLast? h)
  simp only [Bool.and_eq_true, decide_eq_true_eq] at mem
  exact mem.2.2

/-- **Judge checkpointing.** Over generations of one binding a run is sound exactly when it is
clean: no question it judges ends in the failure that has no status. -/
theorem judge_checkpointing (s : Setup) (selected : List String) (w : World) (generation : String)
    (bound : ∀ q r, s.generations q = some r → r.upstream.binding = generation) :
    Sound s (identity s selected) (loadCompatible (identity s selected).binding w.store) selected w
        (runJudgePhase s selected w) ↔
      Clean s (loadCompatible (identity s selected).binding w.store) 0 selected := by
  have one : ¬(bindings s selected).dedup.length > 1 := by
    have same : ∀ b ∈ (bindings s selected).dedup, b = generation := by
      intro b hb
      rw [List.mem_dedup, bindings, List.mem_filterMap] at hb
      obtain ⟨q, -, hq⟩ := hb
      obtain ⟨r, hr, rfl⟩ := Option.map_eq_some_iff.1 hq
      exact bound q r hr
    have short : _ ≤ [generation].length := (List.nodup_dedup (bindings s selected)).length_le_of_subset
      fun b hb => List.mem_singleton.2 (same b hb)
    exact Nat.not_lt.2 short
  obtain ⟨returns, sound⟩ := judgeAll_spec (s := s) (identity s selected)
    (loadCompatible (identity s selected).binding w.store) (fun _ _ => loadCompatible_question) selected 0 w
  rw [runJudgePhase, if_neg one]
  refine ⟨?_, sound⟩
  rintro ⟨turns, -, -, -, records, -⟩
  exact returns.1 ⟨_, records⟩

/-! ## Samples -/

/-- Two OK generations and a judge that fails with `message` on the first one. -/
def sampleSetup (message : String) : Setup where
  generations := fun question => some ⟨question, sampleUpstream, .ok "answer" none⟩
  evidence := fun _ => some "evidence"
  truth := fun _ => some "truth"
  bind := fun _ _ => ⟨"binding", "model", "prompt", 512, "context"⟩
  compose := none
  judge := fun place _ _ => if place = 0 then .raised message else .returned (.int 5)
  backoff := []
  maxRetries := 2

def sampleWorld : World :=
  ⟨[], []⟩

theorem judge_checkpointing_sample :
    Sound (sampleSetup "429") (identity (sampleSetup "429") ["q", "r"])
      (loadCompatible (identity (sampleSetup "429") ["q", "r"]).binding sampleWorld.store) ["q", "r"] sampleWorld
      (runJudgePhase (sampleSetup "429") ["q", "r"] sampleWorld) := by
  have bound : ∀ q r, (sampleSetup "429").generations q = some r → r.upstream.binding = "binding" := by
    rintro q _ ⟨⟩
    rfl
  refine (judge_checkpointing _ _ _ "binding" bound).2 ⟨?_, ?_, trivial⟩
  · rintro answer - -
    change isQuota (some "429") = true
    decide
  · rintro answer - -
    exact .inl nofun

/-- A judge that times out on the first question ends the run, so the second one is not judged. -/
theorem failure_aborts :
    runJudgePhase (sampleSetup "timed out") ["q", "r"] sampleWorld =
        (⟨[], [.judged 1 (.raised "timed out")]⟩, .error undefinedStatus) ∧
      ¬Sound (sampleSetup "timed out") (identity (sampleSetup "timed out") ["q", "r"])
        (loadCompatible (identity (sampleSetup "timed out") ["q", "r"]).binding sampleWorld.store) ["q", "r"] sampleWorld
        (runJudgePhase (sampleSetup "timed out") ["q", "r"] sampleWorld) := by
  have run : runJudgePhase (sampleSetup "timed out") ["q", "r"] sampleWorld =
      (⟨[], [.judged 1 (.raised "timed out")]⟩, .error undefinedStatus) := rfl
  refine ⟨run, ?_⟩
  rintro ⟨turns, -, -, -, records, -⟩
  rw [run] at records
  cases records

end Judge
