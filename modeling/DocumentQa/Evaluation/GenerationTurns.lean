import DocumentQa.Evaluation.GenerationPhase

/-!
# What a generation run leaves

A run takes a turn for every question, and a turn is good when it resumes the stored record
without a call or carries the answer of one attempt. The loop leaves the answer of the attempt
that ends it; when every attempt fails it leaves the last draft, which no attempt completed.
A run is sound exactly when no wait raises and no draft is left that way.
-/

namespace Generation

open Python JsonText

variable {Case : Type}

/-! ## Turns -/

/-- What was done for one question. -/
structure Turn where
  record : Record
  resumed : Bool
  calls : List Event

def Turn.events (t : Turn) : List Event :=
  if t.resumed then t.calls else t.calls ++ [.appended t.record]

/-- One attempt among the calls returned the answer: the postprocessor for the draft of this
very attempt, or the provider where there is no postprocessor. -/
def Carried (cb : Callbacks Case) (calls : List Event) (answer : String) : Prop :=
  ∃ n draft, .generated n (.returned draft) ∈ calls ∧
    match cb.postprocess with
    | some _ => .postprocessed n draft (.returned (some answer)) ∈ calls
    | none => draft = some answer

def Event.isAppended : Event → Bool
  | .appended _ => true
  | _ => false

/-- The turn answers from the store without a call, or from one attempt. -/
structure Turn.Good (cb : Callbacks Case) (done : String → Option Record) (t : Turn) : Prop where
  calls : ∀ e ∈ t.calls, e.isAppended = false
  resumed : t.resumed = true → done t.record.question = some t.record ∧ t.calls = []
  fresh : t.resumed = false → done t.record.question = none ∧
    ∀ answer completion, t.record.outcome = .ok answer completion → Carried cb t.calls answer

/-- The run from `w` took good turns: one for every selected question, whose records it
returns, or one for every question before the first without evidence, for which it raises. -/
def Sound (s : Setup Case) (done : String → Option Record) (selected : List String) (w : World)
    (run : World × Except Stop (List Record)) : Prop :=
  ∃ turns : List Turn, (∀ t ∈ turns, t.Good s.callbacks done) ∧
    run.1.trace = w.trace ++ turns.flatMap Turn.events ∧
    run.1.store = w.store ++ (turns.filter fun t => !t.resumed).map Turn.record ∧
    ((run.2 = .ok (turns.map Turn.record) ∧ turns.map (fun t => t.record.question) = selected) ∨
      ∃ question rest, run.2 = .error (.noEvidence question) ∧ s.cases question = none ∧ done question = none ∧
        selected = turns.map (fun t => t.record.question) ++ question :: rest)

/-! ## One question -/

section Question

variable (cb : Callbacks Case) (place : Nat) (question context : String)

def AttemptEnd.isFailed : AttemptEnd → Bool
  | .failed _ _ => true
  | _ => false

/-- No wait before an attempt that is made raises. -/
def Quiet : Nat → List Double → Prop
  | _, [] => True
  | n, wait :: rest =>
    (isWait wait = true → cb.sleep place n = none) ∧
      ((attempt cb place question context n).isFailed = true → Quiet (n + 1) rest)

/-- The draft that stays in `answer` when every attempt fails. -/
def staleDraft : Nat → List Double → Option String → Option String
  | _, [], answer => answer
  | n, _ :: rest, answer =>
    match attempt cb place question context n with
    | .failed draft _ => staleDraft (n + 1) rest (draft.getD answer)
    | _ => none

/-- The calls of an attempt that answers hold the answer. -/
theorem attempt_carried {n : Nat} {answer : String} (h : attempt cb place question context n = .answered (some answer)) :
    Carried cb (attemptEvents cb place question context n) answer := by
  unfold attempt at h
  unfold attemptEvents Carried
  cases hg : cb.generate place n (cb.compose context question) with
  | raised e =>
    rw [hg] at h
    cases e <;> cases h
  | returned draft =>
    rw [hg] at h
    refine ⟨n, draft, by simp, ?_⟩
    cases hp : cb.postprocess with
    | none =>
      simp only [hp, AttemptEnd.answered.injEq] at h
      exact h
    | some post =>
      simp only [hp] at h
      cases hr : post place n question context draft with
      | raised e =>
        rw [hr] at h
        cases e <;> cases h
      | returned a =>
        rw [hr] at h
        cases h
        simp [hr]

/-- A failed attempt returned no answer. -/
theorem failed_calls {n : Nat} {draft : Option (Option String)} {message : String}
    (h : attempt cb place question context n = .failed draft message) :
    (∀ m d a, .postprocessed m d (.returned a) ∉ attemptEvents cb place question context n) ∧
      (cb.postprocess = none → ∀ m d, .generated m (.returned d) ∉ attemptEvents cb place question context n) := by
  unfold attempt at h
  unfold attemptEvents
  cases hg : cb.generate place n (cb.compose context question) with
  | raised e => simp
  | returned d =>
    rw [hg] at h
    cases hp : cb.postprocess with
    | none => simp [hp] at h
    | some post =>
      simp only [hp] at h
      cases hr : post place n question context d with
      | returned a =>
        rw [hr] at h
        cases h
      | raised e => simp [hr]

theorem attemptEvents_plain (n : Nat) : ∀ e ∈ attemptEvents cb place question context n, e.isAppended = false := by
  unfold attemptEvents
  intro e he
  rcases List.mem_cons.1 he with rfl | he
  · rfl
  · split at he
    · rw [List.mem_singleton.1 he]
      rfl
    · cases he

/-- What the calls of a loop that only failed do not hold. -/
def Fruitless (calls : List Event) : Prop :=
  (∀ m d a, .postprocessed m d (.returned a) ∉ calls) ∧
    (cb.postprocess = none → ∀ m d, .generated m (.returned d) ∉ calls)

theorem Fruitless.not_carried {calls : List Event} (h : Fruitless cb calls) (answer : String) :
    ¬Carried cb calls answer := by
  rintro ⟨n, draft, generated, carried⟩
  cases hp : cb.postprocess with
  | none => exact h.2 hp n draft generated
  | some post =>
    rw [hp] at carried
    exact h.1 _ _ _ carried

theorem Fruitless.append {as bs : List Event} (ha : Fruitless cb as) (hb : Fruitless cb bs) : Fruitless cb (as ++ bs) := by
  constructor
  · intro m d a mem
    rcases List.mem_append.1 mem with mem | mem
    · exact ha.1 m d a mem
    · exact hb.1 m d a mem
  · intro none_ m d mem
    rcases List.mem_append.1 mem with mem | mem
    · exact ha.2 none_ m d mem
    · exact hb.2 none_ m d mem

variable {cb} in
theorem Carried.mono {as bs : List Event} {answer : String} (h : Carried cb as answer) (sub : ∀ e ∈ as, e ∈ bs) :
    Carried cb bs answer := by
  obtain ⟨n, draft, generated, carried⟩ := h
  refine ⟨n, draft, sub _ generated, ?_⟩
  cases hp : cb.postprocess with
  | none =>
    rw [hp] at carried
    exact carried
  | some post =>
    rw [hp] at carried
    exact sub _ carried

/-- How the loop ends: a wait raises; an attempt answers or is abandoned; all fail. -/
inductive LoopEnd (calls : List Event) (stale : Option String) : Except Stop Draft → Prop where
  | answered {d : Draft} (carried : ∀ answer, d.answer = some answer → Carried cb calls answer) (none_ : stale = none) :
      LoopEnd calls stale (.ok d)
  | exhausted {d : Draft} (left : d.answer = stale) (fruitless : Fruitless cb calls) : LoopEnd calls stale (.ok d)

variable {cb} in
theorem LoopEnd.prepend {front calls : List Event} {stale : Option String} {r : Except Stop Draft}
    (h : LoopEnd cb calls stale r) (fruitless : Fruitless cb front) : LoopEnd cb (front ++ calls) stale r := by
  cases h with
  | answered carried none_ =>
    exact .answered (fun a ea => (carried a ea).mono fun _ => List.mem_append_right _) none_
  | exhausted left rest => exact .exhausted left (fruitless.append cb rest)

/-- **The loop.** It makes calls and leaves the file alone; it returns exactly when no wait
raises, and then with the answer of an attempt or with the stale draft. -/
theorem retry_spec (ws : List Double) (n : Nat) (d : Draft) (w : World) :
    ∃ calls, (retry cb place question context n ws d w).1.trace = w.trace ++ calls ∧
      (retry cb place question context n ws d w).1.store = w.store ∧ (∀ e ∈ calls, e.isAppended = false) ∧
      ((¬Quiet cb place question context n ws ∧ ∃ e, (retry cb place question context n ws d w).2 = .error (.sleeping e)) ∨
        (Quiet cb place question context n ws ∧
          LoopEnd cb calls (staleDraft cb place question context n ws d.answer)
            (retry cb place question context n ws d w).2)) := by
  induction ws generalizing n d w with
  | nil =>
    refine ⟨[], (List.append_nil _).symm, rfl, nofun, .inr ⟨trivial, ?_⟩⟩
    exact .exhausted rfl ⟨nofun, fun _ => nofun⟩
  | cons wait rest ih =>
    cases hs : (if isWait wait then cb.sleep place n else none) with
    | some e =>
      refine ⟨[.slept n], ?_, ?_, ?_, .inl ⟨?_, e, ?_⟩⟩
      · rw [retry, hs]
        rfl
      · rw [retry, hs]
        rfl
      · intro e' he
        rw [List.mem_singleton.1 he]
        rfl
      · rintro ⟨quiet, -⟩
        split at hs
        · next isWait_ =>
          rw [quiet isWait_] at hs
          cases hs
        · cases hs
      · rw [retry, hs]
    | none =>
      have quiet : isWait wait = true → cb.sleep place n = none := fun isWait_ => by rwa [if_pos isWait_] at hs
      obtain ⟨slept, hslept⟩ : ∃ slept, slept = if isWait wait then [Event.slept n] else [] := ⟨_, rfl⟩
      have sleptPlain : ∀ e ∈ slept, e.isAppended = false ∧ (∀ m d a, e ≠ .postprocessed m d a) ∧ ∀ m a, e ≠ .generated m a := by
        intro e he
        rw [hslept] at he
        split at he
        · rw [List.mem_singleton.1 he]
          simp [Event.isAppended]
        · cases he
      have sleptFruitless : Fruitless cb slept :=
        ⟨fun m d a mem => (sleptPlain _ mem).2.1 _ _ _ rfl, fun _ m d mem => (sleptPlain _ mem).2.2 _ _ rfl⟩
      have plain : ∀ e ∈ slept ++ attemptEvents cb place question context n, e.isAppended = false := by
        intro e he
        rcases List.mem_append.1 he with he | he
        · exact (sleptPlain e he).1
        · exact attemptEvents_plain cb place question context n e he
      rw [retry, hs, ← hslept]
      cases ha : attempt cb place question context n with
      | answered answer =>
        refine ⟨_, rfl, rfl, plain, .inr ⟨⟨quiet, fun failed => ?_⟩, ?_⟩⟩
        · rw [ha] at failed
          cases failed
        · refine .answered ?_ (by rw [staleDraft, ha])
          intro a ea
          have carried := attempt_carried cb place question context (ha.trans (congrArg AttemptEnd.answered ea))
          exact carried.mono fun _ => List.mem_append_right _
      | abandoned message =>
        refine ⟨_, rfl, rfl, plain, .inr ⟨⟨quiet, fun failed => ?_⟩, ?_⟩⟩
        · rw [ha] at failed
          cases failed
        · exact .answered nofun (by rw [staleDraft, ha])
      | failed draft message =>
        obtain ⟨calls, trace, store, callsPlain, ending⟩ := ih (n + 1) ⟨draft.getD d.answer, some message⟩
          { w.log (slept ++ attemptEvents cb place question context n) with
            metadata := attemptMetadata cb place question context n (w.log (slept ++ attemptEvents cb place question context n)).metadata }
        refine ⟨slept ++ attemptEvents cb place question context n ++ calls, ?_, store, ?_, ?_⟩
        · rw [← List.append_assoc]
          exact trace
        · intro e he
          rcases List.mem_append.1 he with he | he
          · exact plain e he
          · exact callsPlain e he
        · rcases ending with ⟨loud, raised⟩ | ⟨quiet', ended⟩
          · refine .inl ⟨fun q => loud (q.2 ?_), raised⟩
            rw [ha]
            rfl
          · refine .inr ⟨⟨quiet, fun _ => quiet'⟩, ?_⟩
            rw [staleDraft, ha]
            exact ended.prepend (sleptFruitless.append cb (failed_calls cb place question context ha))

end Question

/-! ## A whole run -/

section Run

variable (s : Setup Case) (done : String → Option Record)

/-- No wait of the question raises, and its loop leaves no draft no attempt completed. -/
def Fine (place : Nat) (question : String) (evidence : Case) : Prop :=
  let context := s.callbacks.render evidence
  Quiet s.callbacks place question context 1 (waits s.backoff s.maxRetries) ∧
    staleDraft s.callbacks place question context 1 (waits s.backoff s.maxRetries) none = none

/-- Every question the run takes up without a stored record is fine. -/
def Clean : Nat → List String → Prop
  | _, [] => True
  | place, question :: rest =>
    match done question with
    | some _ => Clean (place + 1) rest
    | none =>
      match s.cases question with
      | none => True
      | some evidence => Fine s place question evidence ∧ Clean (place + 1) rest

/-- A question without a stored record ends its turn with the record it appends, unless a
wait raises. -/
theorem answerQuestion_spec (place : Nat) (question : String) (evidence : Case) (w : World) :
    let run := answerQuestion s place question evidence w
    (¬Fine s place question evidence ∧ ∃ e, run.2 = .error (.sleeping e)) ∨
      ∃ calls r, run.2 = .ok r ∧ run.1.trace = w.trace ++ (calls ++ [.appended r]) ∧ run.1.store = w.store ++ [r] ∧
        r.question = question ∧ (∀ e ∈ calls, e.isAppended = false) ∧
        (Fine s place question evidence ↔
          ∀ answer completion, r.outcome = .ok answer completion → Carried s.callbacks calls answer) := by
  intro run
  obtain ⟨calls, trace, store, plain, ending⟩ := retry_spec s.callbacks place question (s.callbacks.render evidence)
    (waits s.backoff s.maxRetries) 1 ⟨none, none⟩ w
  unfold run answerQuestion
  dsimp only
  generalize retry s.callbacks place question (s.callbacks.render evidence) 1 (waits s.backoff s.maxRetries) ⟨none, none⟩ w
    = result at trace store ending
  obtain ⟨w', r⟩ := result
  rcases ending with ⟨loud, e, rfl⟩ | ⟨quiet, ended⟩
  · exact .inl ⟨fun fine => loud fine.1, e, rfl⟩
  · refine .inr ?_
    cases r with
    | error stop => cases ended
    | ok d =>
      refine ⟨calls, _, rfl, ?_, congrArg (· ++ _) store, rfl, plain, ?_⟩
      · rw [← List.append_assoc, ← trace]
        rfl
      · have outcome : ∀ answer completion, (∃ c, classify d c = .ok answer completion) → d.answer = some answer := by
          rintro answer completion ⟨c, h⟩
          unfold classify at h
          split at h
          · next a ha =>
            cases h
            exact ha
          · split at h
            · split at h <;> cases h
            · cases h
        constructor
        · rintro ⟨-, clean⟩ answer completion hr
          have own := outcome _ _ ⟨_, hr⟩
          cases ended with
          | answered carried => exact carried _ own
          | exhausted left =>
            rw [left, clean] at own
            cases own
        · intro carried
          refine ⟨quiet, ?_⟩
          cases ended with
          | answered _ none_ => exact none_
          | exhausted left fruitless =>
            rw [← left]
            by_contra some_
            obtain ⟨answer, ha⟩ := Option.ne_none_iff_exists'.1 some_
            refine fruitless.not_carried _ answer (carried answer (w'.metadata.bind fun m => m.find question) ?_)
            unfold classify
            rw [ha]

/-- The first appended record of a trace and the calls before it. -/
theorem split_appended {as bs : List Event} {r r' : Record} {xs ys : List Event} (ha : ∀ e ∈ as, e.isAppended = false)
    (hb : ∀ e ∈ bs, e.isAppended = false) (h : as ++ .appended r :: xs = bs ++ .appended r' :: ys) :
    as = bs ∧ r = r' ∧ xs = ys := by
  induction as generalizing bs with
  | nil =>
    cases bs with
    | nil =>
      simp only [List.nil_append, List.cons.injEq, Event.appended.injEq] at h
      exact ⟨rfl, h⟩
    | cons b bs =>
      rw [List.nil_append, List.cons_append, List.cons.injEq] at h
      have plain := hb b (by simp)
      rw [← h.1] at plain
      cases plain
  | cons a as ih =>
    cases bs with
    | nil =>
      rw [List.nil_append, List.cons_append, List.cons.injEq] at h
      have plain := ha a (by simp)
      rw [h.1] at plain
      cases plain
    | cons b bs =>
      rw [List.cons_append, List.cons_append, List.cons.injEq] at h
      obtain ⟨same, rest⟩ := ih (fun e he => ha e (List.mem_cons_of_mem _ he))
        (fun e he => hb e (List.mem_cons_of_mem _ he)) h.2
      exact ⟨by rw [h.1, same], rest⟩

variable {s done}

/-- A resumed question is a turn of its own. -/
theorem sound_resumed (own : ∀ q r, done q = some r → r.question = q) {question : String} {rest : List String} {r : Record}
    (hr : done question = some r) {w w' w'' : World} {records : Except Stop (List Record)}
    (same : w'.trace = w.trace ∧ w'.store = w.store) :
    Sound s done (question :: rest) w (w'', records.map (r :: ·)) ↔ Sound s done rest w' (w'', records) := by
  constructor
  · rintro ⟨turns, good, trace, store, ending⟩
    cases turns with
    | nil =>
      rcases ending with ⟨-, empty⟩ | ⟨q, rest', -, -, none_, questions⟩
      · cases empty
      · cases questions
        rw [hr] at none_
        cases none_
    | cons t turns =>
      have head := good t (by simp)
      have here : t.record.question = question := by
        rcases ending with ⟨-, questions⟩ | ⟨q, rest', -, -, -, questions⟩
        · exact (List.cons.inj questions).1
        · exact (List.cons.inj questions).1.symm
      have resumed : t.resumed = true := by
        by_contra fresh
        have none_ := (head.fresh (by simpa using fresh)).1
        rw [here, hr] at none_
        cases none_
      obtain ⟨known, calls⟩ := head.resumed resumed
      rw [here, hr, Option.some.injEq] at known
      refine ⟨turns, fun t ht => good t (List.mem_cons_of_mem _ ht), ?_, ?_, ?_⟩
      · rw [same.1, trace, List.flatMap_cons, Turn.events, resumed, calls]
        rfl
      · rw [same.2, store, List.filter_cons, resumed]
        rfl
      · rcases ending with ⟨returned, questions⟩ | ⟨q, rest', raised, evidence, none_, questions⟩
        · refine .inl ⟨?_, (List.cons.inj questions).2⟩
          cases records with
          | error stop => cases returned
          | ok records =>
            simp only [Except.map, Except.ok.injEq, List.map_cons, List.cons.injEq] at returned
            exact congrArg Except.ok returned.2
        · refine .inr ⟨q, rest', ?_, evidence, none_, (List.cons.inj questions).2⟩
          cases records with
          | ok records => cases raised
          | error stop => exact raised
  · rintro ⟨turns, good, trace, store, ending⟩
    refine ⟨⟨r, true, []⟩ :: turns, ?_, ?_, ?_, ?_⟩
    · intro t ht
      rcases List.mem_cons.1 ht with rfl | ht
      · exact ⟨nofun, fun _ => ⟨by rw [own _ _ hr, hr], rfl⟩, nofun⟩
      · exact good t ht
    · rw [trace, same.1]
      rfl
    · rw [store, same.2]
      rfl
    · rcases ending with ⟨returned, questions⟩ | ⟨q, rest', raised, evidence, none_, questions⟩
      · refine .inl ⟨?_, ?_⟩
        · change records = _ at returned
          rw [returned]
          rfl
        · rw [List.map_cons, questions, own _ _ hr]
      · refine .inr ⟨q, rest', ?_, evidence, none_, ?_⟩
        · change records = _ at raised
          rw [raised]
          rfl
        · rw [questions, List.map_cons, own _ _ hr]
          rfl

/-- A question that got a record is a turn of its own when it is fine, and no turn else. -/
theorem sound_fresh {question : String} {rest : List String} {evidence : Case} (none_ : done question = none)
    (some_ : s.cases question = some evidence) {calls : List Event} {r : Record} (hr : r.question = question)
    (plain : ∀ e ∈ calls, e.isAppended = false) {w w' w'' : World} {records : Except Stop (List Record)}
    (trace' : w'.trace = w.trace ++ (calls ++ [.appended r])) (store' : w'.store = w.store ++ [r])
    (grows : ∃ events, w''.trace = w'.trace ++ events) :
    Sound s done (question :: rest) w (w'', records.map (r :: ·)) ↔
      (∀ answer completion, r.outcome = .ok answer completion → Carried s.callbacks calls answer) ∧
        Sound s done rest w' (w'', records) := by
  constructor
  · rintro ⟨turns, good, trace, store, ending⟩
    cases turns with
    | nil =>
      rcases ending with ⟨-, empty⟩ | ⟨q, rest', -, missing, -, questions⟩
      · cases empty
      · cases questions
        rw [some_] at missing
        cases missing
    | cons t turns =>
      have head := good t (by simp)
      have here : t.record.question = question := by
        rcases ending with ⟨-, questions⟩ | ⟨q, rest', -, -, -, questions⟩
        · exact (List.cons.inj questions).1
        · exact (List.cons.inj questions).1.symm
      have fresh : t.resumed = false := by
        by_contra resumed
        have known := (head.resumed (by simpa using resumed)).1
        rw [here, none_] at known
        cases known
      obtain ⟨events, grown⟩ := grows
      -- the first record appended to the trace is the one of this turn
      obtain ⟨sameCalls, sameRecord, sameRest⟩ : calls = t.calls ∧ r = t.record ∧ events = turns.flatMap Turn.events := by
        apply split_appended plain head.calls
        refine @List.append_cancel_left _ w.trace _ _ ?_
        dsimp only at trace
        rw [grown, trace', List.flatMap_cons, Turn.events, fresh] at trace
        simpa using trace
      refine ⟨?_, turns, fun t ht => good t (List.mem_cons_of_mem _ ht), ?_, ?_, ?_⟩
      · rw [sameCalls, sameRecord]
        exact (head.fresh fresh).2
      · rw [← sameRest]
        exact grown
      · dsimp only at store ⊢
        rw [store, store', List.filter_cons, fresh, sameRecord, List.append_assoc]
        rfl
      · rcases ending with ⟨returned, questions⟩ | ⟨q, rest', raised, missing, none', questions⟩
        · refine .inl ⟨?_, (List.cons.inj questions).2⟩
          cases records with
          | error stop => cases returned
          | ok records =>
            simp only [Except.map, Except.ok.injEq, List.map_cons, List.cons.injEq] at returned
            exact congrArg Except.ok returned.2
        · refine .inr ⟨q, rest', ?_, missing, none', (List.cons.inj questions).2⟩
          cases records with
          | ok records => cases raised
          | error stop => exact raised
  · rintro ⟨carried, turns, good, trace, store, ending⟩
    refine ⟨⟨r, false, calls⟩ :: turns, ?_, ?_, ?_, ?_⟩
    · intro t ht
      rcases List.mem_cons.1 ht with rfl | ht
      · exact ⟨plain, nofun, fun _ => ⟨by rw [hr, none_], carried⟩⟩
      · exact good t ht
    · rw [trace, trace', List.append_assoc]
      rfl
    · rw [store, store', List.append_assoc]
      rfl
    · rcases ending with ⟨returned, questions⟩ | ⟨q, rest', raised, missing, none', questions⟩
      · refine .inl ⟨?_, ?_⟩
        · change records = _ at returned
          rw [returned]
          rfl
        · rw [List.map_cons, questions, hr]
      · refine .inr ⟨q, rest', ?_, missing, none', ?_⟩
        · change records = _ at raised
          rw [raised]
          rfl
        · rw [questions, List.map_cons, hr]
          rfl

/-- The trace only grows. -/
theorem answerAll_grows (selected : List String) (place : Nat) (w : World) :
    ∃ events, (answerAll s done place selected w).1.trace = w.trace ++ events := by
  induction selected generalizing place w with
  | nil => exact ⟨[], (List.append_nil _).symm⟩
  | cons question rest ih =>
    rw [answerAll]
    split
    · exact ih _ _
    · split
      · exact ⟨[], (List.append_nil _).symm⟩
      · next evidence _ =>
        have turn := answerQuestion_spec s place question evidence w
        obtain ⟨w', r, hrun⟩ : ∃ w' r, answerQuestion s place question evidence w = (w', r) := ⟨_, _, rfl⟩
        rw [hrun] at turn ⊢
        cases r with
        | error stop =>
          have calls := (retry_spec s.callbacks place question (s.callbacks.render evidence)
            (waits s.backoff s.maxRetries) 1 ⟨none, none⟩ w)
          obtain ⟨calls, trace, -⟩ := calls
          refine ⟨calls, ?_⟩
          unfold answerQuestion at hrun
          dsimp only at hrun
          split at hrun
          · next w₁ stop' h =>
            cases hrun
            rw [h] at trace
            exact trace
          · cases hrun
        | ok r =>
          rcases turn with ⟨-, e, raised⟩ | ⟨calls, r', -, trace, -⟩
          · cases raised
          · obtain ⟨events, grown⟩ := ih (place + 1) w'
            exact ⟨calls ++ [.appended r'] ++ events, by rw [← List.append_assoc, ← trace]; exact grown⟩

/-- **The loop over the questions** is sound exactly when every question it takes up is fine. -/
theorem answerAll_sound (own : ∀ q r, done q = some r → r.question = q) (selected : List String) (place : Nat) (w : World) :
    Sound s done selected w (answerAll s done place selected w) ↔ Clean s done place selected := by
  induction selected generalizing place w with
  | nil =>
    rw [answerAll, Clean, iff_true]
    exact ⟨[], nofun, (List.append_nil _).symm, (List.append_nil _).symm, .inl ⟨rfl, rfl⟩⟩
  | cons question rest ih =>
    rw [answerAll, Clean]
    cases hr : done question with
    | some r =>
      dsimp only
      rw [← ih (place + 1) { w with metadata := resumeMetadata r w.metadata }]
      exact sound_resumed own hr ⟨rfl, rfl⟩
    | none =>
      cases known : s.cases question with
      | none =>
        dsimp only
        rw [iff_true]
        exact ⟨[], nofun, (List.append_nil _).symm, (List.append_nil _).symm, .inr ⟨question, rest, rfl, known, hr, rfl⟩⟩
      | some evidence =>
        dsimp only
        have turn := answerQuestion_spec s place question evidence w
        obtain ⟨w', result, hrun⟩ : ∃ w' r, answerQuestion s place question evidence w = (w', r) := ⟨_, _, rfl⟩
        rw [hrun] at turn ⊢
        rcases turn with ⟨not_, e, rfl⟩ | ⟨calls, r, rfl, trace, store, hq, plain, fine⟩
        · refine iff_of_false ?_ fun clean => not_ clean.1
          rintro ⟨turns, -, -, -, ⟨returned, -⟩ | ⟨q, rest', raised, -⟩⟩
          · cases returned
          · cases raised
        · dsimp only
          rw [sound_fresh hr known hq plain trace store (answerAll_grows rest (place + 1) w'), ih (place + 1) w', fine]

/-- A stored record is a record of its question. -/
theorem stored_question {store : List Record} {question : String} {r : Record} (h : stored store question = some r) :
    r.question = question := by
  have mem := List.mem_filter.1 (List.mem_of_getLast? h)
  simp only [Bool.and_eq_true, decide_eq_true_eq] at mem
  exact mem.2.2

/-- **Generation checkpointing.** On a checkpoint of the same binding a run is sound exactly
when no wait raises and no question is left with a draft that no attempt completed. -/
theorem generation_checkpointing (s : Setup Case) (selected : List String) (w : World)
    (earlier : ∀ r ∈ w.store, r.upstream.binding = s.upstream.binding) :
    Sound s (stored w.store) selected w (runGenerationPhase s selected w) ↔ Clean s (stored w.store) 0 selected := by
  have loaded : loadCompatible s.upstream w.store = .ok (stored w.store) := by
    simp only [loadCompatible, Checked.bind_eq_ok, Checked.require_eq_ok, Checked.pure_eq_ok, and_true]
    exact ⟨(), earlier⟩
  rw [runGenerationPhase, loaded]
  exact answerAll_sound (fun _ _ => stored_question) selected 0 w

/-! ## Samples -/

def sampleUpstream : Upstream :=
  ⟨"binding", "model", "prompt", "full_evidence_v1", "builder", "completion", "profile", "system", "artifact"⟩

/-- A provider that answers once and fails from then on, and a postprocessor that does what
`post` says. -/
def sampleSetup (post : CallResult) : Setup Unit where
  upstream := sampleUpstream
  cases := fun question => if question = "q" then some () else none
  callbacks :=
    { render := fun _ => "context"
      compose := fun context question => context ++ question
      generate := fun _ n _ => if n = 1 then .returned (some "draft") else .raised (.other "connection reset")
      postprocess := some fun _ _ _ _ _ => post
      completion := fun _ _ m => m
      sleep := fun _ _ => none }
  backoff := [.finite ⟨false, 5, 0, by decide⟩, .finite ⟨false, 25, 0, by decide⟩]
  maxRetries := 2

def sampleWorld : World :=
  ⟨[], none, []⟩

theorem generation_checkpointing_sample :
    Sound (sampleSetup (.returned (some "answer"))) (stored sampleWorld.store) ["q", "r"] sampleWorld
      (runGenerationPhase (sampleSetup (.returned (some "answer"))) ["q", "r"] sampleWorld) := by
  have none_ : ∀ r ∈ sampleWorld.store, r.upstream.binding = (sampleSetup (.returned (some "answer"))).upstream.binding :=
    fun r hr => absurd hr List.not_mem_nil
  refine (generation_checkpointing _ _ _ none_).2 ⟨⟨⟨fun _ => rfl, ?_⟩, rfl⟩, trivial⟩
  intro failed
  exact absurd failed (by decide)

/-- The draft whose postprocessing failed is recorded as the answer when the further attempts
fail before a draft. -/
theorem draft_recorded_as_answer :
    ∃ w r, runGenerationPhase (sampleSetup (.raised (.other "bad citation"))) ["q"] sampleWorld = (w, .ok [r]) ∧
      w.store = [r] ∧ (∃ completion, r.outcome = .ok "draft" completion) ∧
      ¬Sound (sampleSetup (.raised (.other "bad citation"))) (stored sampleWorld.store) ["q"] sampleWorld
        (runGenerationPhase (sampleSetup (.raised (.other "bad citation"))) ["q"] sampleWorld) := by
  refine ⟨_, _, rfl, rfl, ⟨none, rfl⟩, ?_⟩
  intro sound
  obtain ⟨⟨-, clean⟩, -⟩ := (answerAll_sound (fun _ _ => stored_question) ["q"] 0 sampleWorld).1 sound
  exact absurd clean (by decide)

end Run

end Generation
