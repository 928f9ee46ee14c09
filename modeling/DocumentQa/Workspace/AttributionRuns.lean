import DocumentQa.Lib.Runs
import DocumentQa.Workspace.AttributionSummary

/-!
# Runs of an instrumented operation

What leaves a block is what its body returned or raised, in every run in which no span is left
below an enclosing one whose ordinal has reached the cap and no error is left whose status
cannot be compared with a number. The invariant (`Sound`) says that every parent a task, a
block or an observation held back knows was reserved before the ordinal it will stand beside.
-/

namespace Attribution

/-! ## Recording -/

/-- The ordinals that were handed out, up to the cap. -/
def Known (next : Nat) (parent : Option Nat) : Prop :=
  ∀ p ∈ parent, 1 ≤ p ∧ p ≤ maxOrdinal ∧ p < next

theorem Known.mono {m n : Nat} {parent : Option Nat} (h : Known m parent) (le : m ≤ n) : Known n parent :=
  fun p mem => ⟨(h p mem).1, (h p mem).2.1, Nat.lt_of_lt_of_le (h p mem).2.2 le⟩

/-- An observation that will be a valid span once its ordinal is settled. -/
structure EntryOk (next : Nat) (e : Entry) : Prop where
  short : Short e.startNs e.endNs
  clock : e.endNs ≤ maxClock
  known : Known next e.parent
  below : ∀ p ∈ e.parent, p ≠ maxOrdinal
  ordinal : ∀ o ∈ e.ordinal, (1 ≤ o ∧ o ≤ maxOrdinal) ∧ ∀ p ∈ e.parent, p < o

theorem EntryOk.mono {m n : Nat} {e : Entry} (h : EntryOk m e) (le : m ≤ n) : EntryOk n e :=
  { h with known := h.known.mono le }

section Record

variable {R : Rounding} {t : Trace} {v : TimingSpan} {e : Entry}

theorem Kept.drop (h : Kept t) (n : Nat) : Kept (t.drop n) :=
  { h with dropped := Nat.min_le_right .. }

theorem Kept.makeRoom (h : Kept t) (v : TimingSpan) : Kept (t.makeRoom v) := by
  rw [Trace.makeRoom]
  split
  · apply Kept.drop
    refine ⟨fun w mem => h.short w (List.mem_of_mem_dropLast mem), ?_, h.dropped, h.groups,
      fun w mem => h.keys w (List.mem_of_mem_dropLast mem)⟩
    show t.records.dropLast.length ≤ t.limit
    rw [List.length_dropLast]
    have := h.length
    omega
  · exact h

theorem Kept.append (h : Kept t) (short : Short v.startNs v.endNs) : Kept (t.append v) := by
  rw [Trace.append]
  split
  · exact h.drop 1
  · next room =>
    rw [not_or, not_and_or, not_le, not_not, not_le] at room
    obtain ⟨some_, group⟩ := room
    refine ⟨?_, ?_, h.dropped, ?_, ?_⟩
    · intro w mem
      rcases List.mem_append.1 mem with mem | mem
      · exact h.short w mem
      · rw [List.mem_singleton.1 mem]
        exact short
    · show (t.records ++ [v]).length ≤ t.limit
      rw [List.length_append, List.length_singleton]
      exact some_
    · show (t.groups.insert v.key).length ≤ maxGroups
      by_cases known : v.key ∈ t.groups
      · rw [List.insert_of_mem known]
        exact h.groups
      · have few := group.resolve_left known
        have cap : (if Trace.isRoot v.phase then maxGroups else maxGroups - 1) ≤ maxGroups := by
          split
          · exact Nat.le_refl _
          · exact Nat.sub_le ..
        rw [List.length_insert_of_not_mem known]
        exact (Nat.succ_le_of_lt few).trans cap
    · intro w mem
      rcases List.mem_append.1 mem with mem | mem
      · exact List.mem_insert_of_mem (h.keys w mem)
      · rw [List.mem_singleton.1 mem]
        exact List.mem_insert_self

theorem Kept.keep (h : Kept t) (short : Short v.startNs v.endNs) : Kept (t.keep v) := by
  rw [Trace.keep]
  split
  · exact h
  · exact (h.makeRoom v).append short

theorem keep_nextId (t : Trace) (v : TimingSpan) : (t.keep v).nextId = t.nextId := by
  rw [Trace.keep]
  split
  · rfl
  · have room : (t.makeRoom v).nextId = t.nextId := by
      rw [Trace.makeRoom]
      split <;> rfl
    rw [← room, Trace.append]
    split <;> rfl

/-- What recording keeps true, and that it did not raise. -/
structure Recorded (t : Trace) (r : Trace × Bool) : Prop where
  valid : r.2 = true
  kept : Kept r.1
  later : t.nextId ≤ r.1.nextId

/-- **One observation.** -/
theorem record_recorded (h : Kept t) (ids : 1 ≤ t.nextId) (ok : EntryOk t.nextId e) : Recorded t (t.record R e) := by
  obtain ⟨settled, ordinal, parent⟩ : (t.settle e).2.nextId ≥ t.nextId ∧ (1 ≤ (t.settle e).1 ∧ (t.settle e).1 ≤ maxOrdinal) ∧
      ∀ p ∈ e.parent, p < (t.settle e).1 := by
    rw [Trace.settle]
    split
    · next o known =>
      obtain ⟨range, above⟩ := ok.ordinal o known
      exact ⟨Nat.le_refl _, range, above⟩
    · refine ⟨Nat.le_succ _, ⟨?_, Nat.min_le_right ..⟩, ?_⟩
      · exact Nat.le_min.2 ⟨ids, by decide⟩
      · intro p mem
        obtain ⟨-, cap, less⟩ := ok.known p mem
        exact Nat.lt_min.2 ⟨less, Nat.lt_of_le_of_ne cap (ok.below p mem)⟩
  have keeps : Kept (t.settle e).2 := by
    rw [Trace.settle]
    split
    · exact h
    · exact { h with }
  have valid : (Trace.Entry.span e (t.settle e).1).Valid R := by
    refine ⟨ordinal, ?_, ⟨ok.short.order.trans ok.clock, ok.clock⟩, ok.short.order, durationMs_le ok.short⟩
    intro p mem
    obtain ⟨low, cap, -⟩ := ok.known p mem
    exact ⟨⟨low, cap⟩, parent p mem⟩
  rw [Trace.record]
  dsimp only
  rw [if_pos valid]
  refine ⟨rfl, keeps.keep ok.short, ?_⟩
  rw [keep_nextId]
  exact settled

/-- **The observations held back.** -/
theorem recordAll_recorded {es : List Entry} (h : Kept t) (ids : 1 ≤ t.nextId) (ok : ∀ e ∈ es, EntryOk t.nextId e) :
    Recorded t (t.recordAll R es) := by
  induction es generalizing t with
  | nil => exact ⟨rfl, h, Nat.le_refl _⟩
  | cons e es ih =>
    have first := @record_recorded R t e h ids (ok e (by simp))
    rw [Trace.recordAll]
    generalize t.record R e = r at first
    obtain ⟨t', valid⟩ := r
    obtain ⟨rfl, kept, later⟩ := first
    have rest := ih kept (ids.trans later) fun e mem => (ok e (List.mem_cons_of_mem _ mem)).mono later
    exact ⟨rest.valid, rest.kept, later.trans rest.later⟩

end Record

/-! ## The invariant -/

/-- A block a task is in. -/
def FrameOk (next now : Nat) : Frame → Prop
  | .span _ started ordinal parent =>
    started ≤ now ∧ (1 ≤ ordinal ∧ ordinal ≤ maxOrdinal) ∧ Known next parent ∧ ∀ p ∈ parent, p < ordinal ∨ p = maxOrdinal
  | .deferral _ => True
  | .nested => True

theorem FrameOk.mono {m n now now' : Nat} {f : Frame} (h : FrameOk m now f) (le : m ≤ n) (later : now ≤ now') :
    FrameOk n now' f := by
  cases f with
  | span phase started ordinal parent =>
    obtain ⟨started, range, known, below⟩ := h
    exact ⟨started.trans later, range, known.mono le, below⟩
  | deferral => trivial
  | nested => trivial

structure ContextOk (next now : Nat) (c : Context) : Prop where
  known : Known next c.parent
  frames : ∀ f ∈ c.frames, FrameOk next now f

theorem ContextOk.mono {m n now now' : Nat} {c : Context} (h : ContextOk m now c) (le : m ≤ n) (later : now ≤ now') :
    ContextOk n now' c :=
  ⟨h.known.mono le, fun f mem => (h.frames f mem).mono le later⟩

/-- **The invariant.** -/
structure Sound (s : System) : Prop where
  kept : Kept s.trace
  ids : 1 ≤ s.trace.nextId
  clock : s.now ≤ maxClock
  tasks : ∀ task, ContextOk s.trace.nextId s.now (s.tasks task)
  pendings : ∀ p ∈ s.pendings, ∀ e ∈ p.entries, EntryOk s.trace.nextId e

theorem sound_start (source : Source) : Sound (.start source) where
  kept := {
    short := by simp [System.start, Trace.start]
    length := Nat.zero_le _
    dropped := Nat.zero_le _
    groups := Nat.zero_le _
    keys := by simp [System.start, Trace.start] }
  ids := Nat.le_refl 1
  clock := Nat.zero_le _
  tasks _ := ⟨by simp [Known, System.start], by simp [System.start]⟩
  pendings := by simp [System.start]

/-- A task moves on; what the others know stays known. -/
theorem Sound.setTask {s : System} (h : Sound s) {task : Nat} {c : Context} (ok : ContextOk s.trace.nextId s.now c) :
    Sound (s.setTask task c) := by
  refine { h with tasks := ?_ }
  intro other
  show ContextOk s.trace.nextId s.now (Function.update s.tasks task c other)
  by_cases same : other = task
  · rw [same, Function.update_self]
    exact ok
  · rw [Function.update_of_ne same]
    exact h.tasks other

/-- A trace that handed out more ordinals. -/
theorem Sound.setTrace {s : System} (h : Sound s) {trace : Trace} (kept : Kept trace) (later : s.trace.nextId ≤ trace.nextId) :
    Sound { s with trace } where
  kept := kept
  ids := h.ids.trans later
  clock := h.clock
  tasks task := (h.tasks task).mono later (Nat.le_refl _)
  pendings p mem e held := (h.pendings p mem e held).mono later

section Steps

variable {ε : Type} {R : Rounding} {E : Errors ε} {s : System}

/-- **An observation handed over** is recorded or held back, and does not raise. -/
theorem observe_sound (h : Sound s) (deferred : Option Nat) {e : Entry} (ok : EntryOk s.trace.nextId e) :
    (observe R s deferred e).2 = true ∧ Sound (observe R s deferred e).1 := by
  cases deferred with
  | none =>
    have recorded := @record_recorded R s.trace e h.kept h.ids ok
    exact ⟨recorded.valid, h.setTrace recorded.kept recorded.later⟩
  | some d =>
    refine ⟨rfl, { h with pendings := ?_ }⟩
    intro p mem f held
    obtain ⟨i, at_⟩ := List.mem_iff_getElem?.1 mem
    change (s.pendings.modify d fun p => p.defer e)[i]? = some p at at_
    rw [List.getElem?_modify] at at_
    obtain ⟨q, there, rfl⟩ := Option.map_eq_some_iff.1 at_
    have known := h.pendings q (List.mem_of_getElem? there)
    split at held
    · rw [Pending.defer] at held
      split at held
      · rcases List.mem_append.1 held with held | held
        · exact known f held
        · rw [List.mem_singleton.1 held]
          exact ok
      · exact known f held
    · exact known f held

theorem enterSpan_sound (h : Sound s) (task : Nat) (phase : Phase) {now : Nat} (later : s.now ≤ now) (clock : now ≤ maxClock) :
    Sound (enterSpan s task phase now) := by
  have more : s.trace.nextId ≤ s.trace.nextId + 1 := Nat.le_succ _
  have next : Sound { s with trace := s.trace.takeId.2, now } := by
    refine ⟨{ h.kept with }, h.ids.trans more, clock, fun t => (h.tasks t).mono more later, ?_⟩
    exact fun p mem e held => (h.pendings p mem e held).mono more
  apply next.setTask
  have context := (h.tasks task).mono more later
  have range : 1 ≤ min s.trace.nextId maxOrdinal ∧ min s.trace.nextId maxOrdinal ≤ maxOrdinal :=
    ⟨Nat.le_min.2 ⟨h.ids, by decide⟩, Nat.min_le_right ..⟩
  constructor
  · intro p mem
    cases mem
    exact ⟨range.1, range.2, Nat.lt_succ_of_le (Nat.min_le_left ..)⟩
  · intro f mem
    rcases List.mem_cons.1 mem with rfl | mem
    · refine ⟨Nat.le_refl now, range, context.known, ?_⟩
      intro p known
      obtain ⟨-, cap, less⟩ := (h.tasks task).known p known
      by_cases capped : p = maxOrdinal
      · exact .inr capped
      · exact .inl (Nat.lt_min.2 ⟨less, Nat.lt_of_le_of_ne cap capped⟩)
    · exact context.frames f mem

theorem enterDeferral_sound (h : Sound s) (task : Nat) : Sound (enterDeferral s task) := by
  have context := h.tasks task
  rw [enterDeferral]
  split
  · apply h.setTask
    refine ⟨context.known, ?_⟩
    intro f mem
    rcases List.mem_cons.1 mem with rfl | mem
    · trivial
    · exact context.frames f mem
  · have opened : Sound { s with pendings := s.pendings ++ [Pending.mk [] 0 s.trace.limit] } := by
      refine { h with pendings := ?_ }
      intro p mem e held
      rcases List.mem_append.1 mem with mem | mem
      · exact h.pendings p mem e held
      · rw [List.mem_singleton.1 mem] at held
        cases held
    apply opened.setTask
    refine ⟨context.known, ?_⟩
    intro f mem
    rcases List.mem_cons.1 mem with rfl | mem
    · trivial
    · exact context.frames f mem

/-- The span and its override end by the clock, before the longest duration. -/
structure Ends (s : System) (started now : Nat) (override : Override) : Prop where
  later : s.now ≤ now
  clock : now ≤ maxClock
  reading : ∀ stop ∈ override.endNs, stop ≤ now
  short : Short started (override.endNs.getD now)

theorem judge_body (body : Option ε) (comparable : ∀ e ∈ body, E.isCancelled e = true ∨ E.status e ≠ .incomparable) :
    (judge E body).2 = body := by
  cases body with
  | none => rfl
  | some e =>
    rw [judge]
    split
    · rfl
    · next running =>
      have status := (comparable e rfl).resolve_left running
      split
      · rfl
      · rfl
      · next other => exact absurd other status

theorem leaveSpan_sound (h : Sound s) {task now : Nat} (operation : Operation) {override : Override} {body : Option ε}
    {phase : Phase} {started ordinal : Nat} {parent : Option Nat} {frames : List Frame}
    (blocks : (s.tasks task).frames = .span phase started ordinal parent :: frames) (ends : Ends s started now override)
    (uncapped : parent ≠ some maxOrdinal)
    (comparable : ∀ e ∈ body, E.isCancelled e = true ∨ E.status e ≠ .incomparable) :
    (leaveSpan R E { s with now } task now operation override body phase started ordinal parent frames).2 = body ∧
      Sound (leaveSpan R E { s with now } task now operation override body phase started ordinal parent frames).1 := by
  have context := h.tasks task
  have frame : FrameOk s.trace.nextId s.now (.span phase started ordinal parent) :=
    context.frames _ (by rw [blocks]; exact List.mem_cons_self ..)
  obtain ⟨-, range, known, below⟩ := frame
  have timed : Sound { s with now } :=
    { h with clock := ends.clock, tasks := fun t => (h.tasks t).mono (Nat.le_refl _) ends.later }
  have left : Sound (({ s with now } : System).setTask task ⟨parent, (s.tasks task).deferred, frames⟩) := by
    apply timed.setTask
    refine ⟨known, fun f mem => (context.frames f ?_).mono (Nat.le_refl _) ends.later⟩
    rw [blocks]
    exact List.mem_cons_of_mem _ mem
  have stop : override.endNs.getD now ≤ maxClock := by
    cases e : override.endNs with
    | none => exact ends.clock
    | some stop => exact (ends.reading stop e).trans ends.clock
  have entry : EntryOk s.trace.nextId (Entry.mk phase operation (override.outcome.getD (judge E body).1) (some ordinal) parent
      started (override.endNs.getD now)) := by
    refine ⟨ends.short, stop, known, ?_, ?_⟩
    · rintro p mem rfl
      exact uncapped mem
    · rintro o ⟨⟩
      refine ⟨range, fun p mem => (below p mem).resolve_right ?_⟩
      rintro rfl
      exact uncapped mem
  have observed := @observe_sound R _ left (s.tasks task).deferred _ entry
  rw [leaveSpan]
  dsimp only
  rw [observed.1]
  exact ⟨judge_body body comparable, observed.2⟩

/-- **Outside a deferral the condition is exact**: a span below the cap's is refused, and an incomparable
status raises in its error's place. -/
theorem leaveSpan_transparent_iff (h : Sound s) {task now : Nat} (operation : Operation) {override : Override} {body : Option ε}
    {phase : Phase} {started ordinal : Nat} {parent : Option Nat} {frames : List Frame}
    (blocks : (s.tasks task).frames = .span phase started ordinal parent :: frames) (ends : Ends s started now override)
    (direct : (s.tasks task).deferred = none) (type_ : body ≠ some E.typeError) (validation : body ≠ some E.validationError) :
    (leaveSpan R E { s with now } task now operation override body phase started ordinal parent frames).2 = body ↔
      parent ≠ some maxOrdinal ∧ ∀ e ∈ body, E.isCancelled e = true ∨ E.status e ≠ .incomparable := by
  constructor
  · intro same
    obtain ⟨-, range, -⟩ : FrameOk s.trace.nextId s.now (.span phase started ordinal parent) :=
      (h.tasks task).frames _ (by rw [blocks]; exact List.mem_cons_self ..)
    rw [leaveSpan] at same
    simp only [observe, System.setTask, direct] at same
    generalize record : Trace.record R s.trace (Entry.mk phase operation (override.outcome.getD (judge E body).1) (some ordinal)
      parent started (override.endNs.getD now)) = r at same
    cases valid : r.2 with
    | false =>
      rw [valid] at same
      exact absurd same.symm validation
    | true =>
      rw [valid] at same
      constructor
      · rintro rfl
        have refused : r.2 = false := by
          rw [← record, Trace.record, Trace.settle]
          dsimp only
          rw [if_neg]
          intro accepted
          exact absurd (accepted.parent maxOrdinal rfl).2 (Nat.not_lt.2 range.2)
        rw [refused] at valid
        cases valid
      · intro e mem
        rw [Option.mem_def] at mem
        subst mem
        by_contra neither
        rw [not_or, not_not, Bool.not_eq_true] at neither
        have replaced : (judge E (some e)).2 = some E.typeError := by
          rw [judge, neither.1, neither.2]
          rfl
        exact absurd (same.symm.trans replaced) type_
  · rintro ⟨uncapped, comparable⟩
    exact (leaveSpan_sound h operation blocks ends uncapped comparable).1

theorem leaveDeferral_sound (h : Sound s) {task pending : Nat} {body : Option ε} {frames : List Frame}
    (blocks : (s.tasks task).frames = .deferral pending :: frames) :
    (leaveDeferral R E s task pending body frames).2 = body ∧ Sound (leaveDeferral R E s task pending body frames).1 := by
  have context := h.tasks task
  have left : Sound (s.setTask task ⟨(s.tasks task).parent, none, frames⟩) := by
    apply h.setTask
    refine ⟨context.known, fun f mem => context.frames f ?_⟩
    rw [blocks]
    exact List.mem_cons_of_mem _ mem
  have held : ∀ e ∈ (s.pendings.getD pending (Pending.mk [] 0 0)).entries, EntryOk s.trace.nextId e := by
    intro e mem
    cases there : s.pendings[pending]? with
    | none =>
      rw [List.getD_eq_getElem?_getD, there] at mem
      cases mem
    | some p =>
      rw [List.getD_eq_getElem?_getD, there] at mem
      exact h.pendings p (List.mem_of_getElem? there) e mem
  have recorded := @recordAll_recorded R (s.trace.drop (s.pendings.getD pending (Pending.mk [] 0 0)).dropped) _
    (h.kept.drop _) h.ids held
  rw [leaveDeferral]
  dsimp only
  exact ⟨congrArg (fun valid => raised E valid body) recorded.valid, left.setTrace recorded.kept recorded.later⟩

/-- Leaving a block inside a deferral. -/
theorem leaveNested_sound (h : Sound s) {task : Nat} {frames : List Frame} (blocks : (s.tasks task).frames = .nested :: frames) :
    Sound (s.setTask task { s.tasks task with frames }) := by
  have context := h.tasks task
  apply h.setTask
  refine ⟨context.known, fun f mem => context.frames f ?_⟩
  rw [blocks]
  exact List.mem_cons_of_mem _ mem

theorem recordInterval_sound (h : Sound s) {task : Nat} (phase : Phase) {startNs endNs : Nat} (outcome : Outcome)
    (operation : Operation) (short : Short startNs endNs) (clock : endNs ≤ maxClock)
    (uncapped : (s.tasks task).parent ≠ some maxOrdinal) :
    (recordInterval R E s task phase startNs endNs outcome operation).2 = none ∧
      Sound (recordInterval R E s task phase startNs endNs outcome operation).1 := by
  have entry : EntryOk s.trace.nextId (Entry.mk phase operation outcome none (s.tasks task).parent startNs endNs) := by
    refine ⟨short, clock, (h.tasks task).known, ?_, ?_⟩
    · rintro p mem rfl
      exact uncapped mem
    · rintro o ⟨⟩
  have observed := @observe_sound R s h (s.tasks task).deferred _ entry
  exact ⟨congrArg (fun valid => raised E valid none) observed.1, observed.2⟩

/-! ## Steps and runs -/

variable (E)

/-- A step of a well-nested run: the clock does not go back and stays in its range, a block is left by
a task that is in one, a span and an interval are shorter than the longest duration, and a new task
is in no block. -/
def Admissible (s : System) : Event ε → Prop
  | .enter _ _ now => s.now ≤ now ∧ now ≤ maxClock
  | .defers _ => True
  | .leave task now _ override _ =>
    match (s.tasks task).frames with
    | [] => False
    | .span _ started _ _ :: _ => Ends s started now override
    | .deferral _ :: _ => True
    | .nested :: _ => True
  | .fork task child => child ≠ task ∧ (s.tasks child).frames = []
  | .interval _ _ startNs endNs _ _ => Short startNs endNs ∧ endNs ≤ maxClock
  | .close => True

/-- The step stays clear of the cap and of statuses without order: the ordinal of the enclosing span of
the one that is left, or of the interval's task, is below the cap, and an error that leaves a span is a
cancellation or has a status that can be compared with a number, or none. -/
def Clear (s : System) : Event ε → Prop
  | .leave task _ _ _ body =>
    match (s.tasks task).frames with
    | .span _ _ _ parent :: _ =>
      parent ≠ some maxOrdinal ∧ ∀ e ∈ body, E.isCancelled e = true ∨ E.status e ≠ .incomparable
    | _ => True
  | .interval task _ _ _ _ _ => (s.tasks task).parent ≠ some maxOrdinal
  | _ => True

/-- What comes out of the step is what comes out of the body. -/
def Transparent (R : Rounding) (s : System) (x : Event ε) : Prop :=
  (step R E s x).2 = x.body

/-- The state after a step. -/
def next (R : Rounding) (s : System) (x : Event ε) : System :=
  (step R E s x).1

variable {E}

/-- **One step.** -/
theorem step_sound (h : Sound s) {x : Event ε} (admissible : Admissible s x) (clear : Clear E s x) :
    Transparent E R s x ∧ Sound (next E R s x) := by
  cases x with
  | enter task phase now => exact ⟨rfl, enterSpan_sound h task phase admissible.1 admissible.2⟩
  | defers task => exact ⟨rfl, enterDeferral_sound h task⟩
  | leave task now operation override body =>
    rw [Transparent, next, step, leave]
    simp only [Admissible, Clear] at admissible clear
    cases blocks : (s.tasks task).frames with
    | nil =>
      rw [blocks] at admissible
      cases admissible
    | cons f frames =>
      rw [blocks] at admissible clear
      cases f with
      | span phase started ordinal parent =>
        exact leaveSpan_sound h operation blocks admissible clear.1 clear.2
      | deferral pending => exact leaveDeferral_sound h blocks
      | nested => exact ⟨rfl, leaveNested_sound h blocks⟩
  | fork task child =>
    refine ⟨rfl, h.setTask ⟨(h.tasks task).known, ?_⟩⟩
    intro f mem
    cases mem
  | interval task phase startNs endNs outcome operation =>
    exact recordInterval_sound h phase outcome operation admissible.1 admissible.2 clear
  | close => exact ⟨rfl, { h with kept := { h.kept with } }⟩

/-- **A run.** -/
theorem run_sound (h : Sound s) {events : List (Event ε)}
    (along : Runs.Along (next E R) (fun s x => Admissible s x ∧ Clear E s x) s events) :
    Runs.Along (next E R) (Transparent E R) s events ∧ Runs.Throughout (next E R) Sound s events := by
  induction events generalizing s with
  | nil => exact ⟨trivial, h⟩
  | cons x xs ih =>
    obtain ⟨transparent, sound⟩ := @step_sound _ R E s h x along.1.1 along.1.2
    obtain ⟨rest, through⟩ := ih sound along.2
    exact ⟨⟨transparent, rest⟩, h, through⟩

end Steps

/-- The summary of the trace is accepted, and a remainder it reports is the root's duration less the
measure of the union of the other spans inside it. -/
def Summarizes (R : Rounding) (F : FloatText) (s : System) : Prop :=
  ∃ summary, s.trace.summary R F = some summary ∧ ∀ x ∈ summary.remainderMs, Remains R s.trace x

/-- **Attribution is transparent and adds up** in every run that stays clear of the cap and of statuses
without order: every step lets out what its body lets out, and in every state the summary is
accepted and its remainder is what the other spans leave of the root. -/
theorem attribution_transparent {ε : Type} (R : Rounding) (F : FloatText) (E : Errors ε) (source : Source)
    (events : List (Event ε))
    (along : Runs.Along (next E R) (fun s x => Admissible s x ∧ Clear E s x) (.start source) events) :
    Runs.Along (next E R) (Transparent E R) (.start source) events ∧
      Runs.Throughout (next E R) (Summarizes R F) (.start source) events := by
  obtain ⟨transparent, sound⟩ := run_sound (sound_start source) along
  refine ⟨transparent, sound.mono ?_⟩
  intro s h
  exact ⟨s.trace.draft R, summary_some F h.kept, fun x mem => (remainder_remains h.kept mem).1⟩

/-- Exceptions told apart by a number. -/
def plainErrors : Errors Nat where
  isCancelled _ := false
  status _ := .absent
  typeError := 1
  validationError := 2

section Sample

/-- The text of a small whole float. -/
def wholeText : FloatText where
  text x := String.ofList ((JsonText.intText x.floor ++ ['.', '0']).take 6)
  short x := by
    have size := Python.utf8Length_le ((JsonText.intText x.floor ++ ['.', '0']).take 6)
    have few := List.length_take_le 6 (JsonText.intText x.floor ++ ['.', '0'])
    omega

/-- A read of two milliseconds in a request of five, and an error that leaves the request. -/
def sampleRun : List (Event Nat) :=
  [.enter 0 .apiTotal 0, .enter 0 .apiRead 1000000, .leave 0 3000000 .jobRead {} none, .leave 0 5000000 .none {} (some 7)]

theorem attribution_transparent_sample :
    Runs.Along (next plainErrors Rounding.exact) (Transparent plainErrors Rounding.exact) (.start .api) sampleRun ∧
      Runs.Throughout (next plainErrors Rounding.exact) (Summarizes Rounding.exact wholeText) (.start .api) sampleRun := by
  apply attribution_transparent
  refine ⟨⟨⟨by decide, by decide⟩, trivial⟩, ⟨⟨by decide, by decide⟩, trivial⟩, ⟨?_, ?_⟩, ⟨?_, ?_⟩, trivial⟩
  · exact ⟨by decide, by decide, by simp, by decide, by decide⟩
  · exact ⟨by decide, by simp⟩
  · exact ⟨by decide, by decide, by simp, by decide, by decide⟩
  · exact ⟨by decide, fun e _ => .inr (by simp [plainErrors])⟩

end Sample

/-! ## At the cap -/

section Cap

/-- A span entered and left. -/
def round : List (Event Nat) :=
  [.enter 0 .apiRead 0, .leave 0 0 .none {} none]

/-- As many ordinals were taken, and the task is in no block. -/
structure Idle (n : Nat) (s : System) : Prop where
  task : s.tasks 0 = ⟨none, none, []⟩
  next : s.trace.nextId = n + 1
  now : s.now = 0

theorem record_nextId (R : Rounding) (t : Trace) {e : Entry} {o : Nat} (known : e.ordinal = some o) :
    (t.record R e).1.nextId = t.nextId := by
  rw [Trace.record, Trace.settle, known]
  dsimp only
  split
  · exact keep_nextId t _
  · rfl

theorem round_idle {n : Nat} {s : System} (h : Idle n s) :
    Runs.Along (next plainErrors Rounding.exact) (Admissible) s round ∧
      Idle (n + 1) (Runs.run (next plainErrors Rounding.exact) s round) := by
  have entered : (enterSpan s 0 .apiRead 0).tasks 0 =
      ⟨some (min (n + 1) maxOrdinal), none, [.span .apiRead 0 (min (n + 1) maxOrdinal) none]⟩ := by
    rw [enterSpan]
    simp only [Trace.takeId, System.setTask, Function.update_self, h.task, h.next]
  have left : next plainErrors Rounding.exact (enterSpan s 0 .apiRead 0) (.leave 0 0 .none {} none) =
      (leaveSpan Rounding.exact plainErrors { enterSpan s 0 .apiRead 0 with now := 0 } 0 0 .none {} none .apiRead 0
        (min (n + 1) maxOrdinal) none []).1 := by
    rw [next, step, leave, entered]
  constructor
  · refine ⟨⟨Nat.le_of_eq h.now, Nat.zero_le _⟩, ?_, trivial⟩
    show Admissible (enterSpan s 0 .apiRead 0) (.leave 0 0 .none {} none : Event Nat)
    simp only [Admissible, entered]
    exact ⟨Nat.le_refl 0, Nat.zero_le _, by simp, ⟨Nat.le_refl 0, by decide⟩⟩
  · show Idle (n + 1) (next plainErrors Rounding.exact (enterSpan s 0 .apiRead 0) (.leave 0 0 .none {} none))
    rw [left]
    refine ⟨?_, ?_, ?_⟩
    · rw [leaveSpan]
      simp only [observe, System.setTask, entered, Function.update_self]
    · rw [leaveSpan]
      simp only [observe, System.setTask, entered]
      rw [record_nextId _ _ rfl]
      show s.trace.nextId + 1 = n + 1 + 1
      rw [h.next]
    · rw [leaveSpan]
      simp only [observe, System.setTask, entered]

theorem rounds_idle (n : Nat) :
    Runs.Along (next plainErrors Rounding.exact) Admissible (.start .worker) (List.replicate n round).flatten ∧
      Idle n (Runs.run (next plainErrors Rounding.exact) (.start .worker) (List.replicate n round).flatten) := by
  induction n with
  | zero => exact ⟨trivial, rfl, rfl, rfl⟩
  | succ n ih =>
    obtain ⟨along, idle⟩ := round_idle ih.2
    rw [List.replicate_succ', List.flatten_append, List.flatten_singleton, Runs.along_append, Runs.run_append]
    exact ⟨⟨ih.1, along⟩, idle⟩

/-- The span below the one that takes the last ordinal. -/
def nestedRound : List (Event Nat) :=
  [.enter 0 .apiRead 0, .enter 0 .apiRead 0, .leave 0 0 .none {} none]

/-- A span beside its own ordinal is refused. -/
theorem record_capped (t : Trace) (phase : Phase) (operation : Operation) (outcome : Outcome) (startNs endNs : Nat) :
    (t.record Rounding.exact ⟨phase, operation, outcome, some maxOrdinal, some maxOrdinal, startNs, endNs⟩).2 = false := by
  rw [Trace.record, Trace.settle]
  dsimp only
  rw [if_neg]
  intro valid
  exact absurd (valid.parent maxOrdinal rfl).2 (Nat.lt_irrefl _)

/-- With one ordinal left, the nested span is left with an exception that its body did not raise. -/
theorem nestedRound_raises {n : Nat} (cap : n + 1 = maxOrdinal) {s : System} (idle : Idle n s) :
    Runs.Along (next plainErrors Rounding.exact) Admissible s nestedRound ∧
      ¬ Runs.Along (next plainErrors Rounding.exact) (Transparent plainErrors Rounding.exact) s nestedRound := by
  have outer : (enterSpan s 0 .apiRead 0).tasks 0 = ⟨some maxOrdinal, none, [.span .apiRead 0 maxOrdinal none]⟩ := by
    rw [enterSpan]
    simp only [Trace.takeId, System.setTask, Function.update_self, idle.task, idle.next, cap, Nat.min_self]
  have following : (enterSpan s 0 .apiRead 0).trace.nextId = maxOrdinal + 1 := by
    show s.trace.nextId + 1 = maxOrdinal + 1
    rw [idle.next, cap]
  have inner : (enterSpan (enterSpan s 0 .apiRead 0) 0 .apiRead 0).tasks 0 =
      ⟨some maxOrdinal, none, [.span .apiRead 0 maxOrdinal (some maxOrdinal), .span .apiRead 0 maxOrdinal none]⟩ := by
    rw [enterSpan]
    simp only [Trace.takeId, System.setTask, Function.update_self, outer, following, Nat.min_eq_right (Nat.le_succ _)]
  constructor
  · refine ⟨⟨Nat.le_of_eq idle.now, Nat.zero_le _⟩, ⟨Nat.le_refl 0, Nat.zero_le _⟩, ?_, trivial⟩
    show Admissible (enterSpan (enterSpan s 0 .apiRead 0) 0 .apiRead 0) (.leave 0 0 .none {} none : Event Nat)
    simp only [Admissible, inner]
    exact ⟨Nat.le_refl 0, Nat.zero_le _, by simp, ⟨Nat.le_refl 0, by decide⟩⟩
  · rintro ⟨-, -, last, -⟩
    have raises : (leave Rounding.exact plainErrors (enterSpan (enterSpan s 0 .apiRead 0) 0 .apiRead 0) 0 0 .none {} none).2 =
        some 2 := by
      rw [leave, inner]
      show (leaveSpan _ _ _ _ _ _ _ _ _ _ _ _ _).2 = _
      rw [leaveSpan]
      simp only [observe, System.setTask, inner]
      exact congrArg (fun valid => raised plainErrors valid none) (record_capped ..)
    have same : (leave Rounding.exact plainErrors (enterSpan (enterSpan s 0 .apiRead 0) 0 .apiRead 0) 0 0 .none {} none).2 =
        none := last
    rw [raises] at same
    cases same

/-- **The cap raises.** The span below the millionth is given the same ordinal as its parent, and
leaving it raises although its body returned. -/
theorem cap_raises :
    ¬ ∀ {ε : Type} (R : Rounding) (E : Errors ε) (source : Source) (events : List (Event ε)),
      Runs.Along (next E R) Admissible (.start source) events →
        Runs.Along (next E R) (Transparent E R) (.start source) events := by
  intro claim
  obtain ⟨n, cap⟩ : ∃ n, n + 1 = maxOrdinal := ⟨999999, rfl⟩
  obtain ⟨along, idle⟩ := rounds_idle n
  obtain ⟨admissible, raises⟩ := nestedRound_raises cap idle
  have transparent := claim Rounding.exact plainErrors .worker _ (Runs.along_append.2 ⟨along, admissible⟩)
  exact raises (Runs.along_append.1 transparent).2

end Cap

end Attribution
