import DocumentQa.Lib.Rounding
import DocumentQa.Lib.Sweep
import DocumentQa.Lib.Checked
import DocumentQa.Lib.Json.Number
import DocumentQa.Python.Text

/-!
# Stage attribution

`src/workspace/attribution.py`: the spans of one trace, entered and left by the tasks that
share it. A step of the system is one span entry or exit, one deferral block, a recorded
interval or a new task; what leaves the block of a step is the result of the body unless the
instrumentation raises. `summary` groups what was recorded and validates it again.
-/

namespace Attribution

/-- `PHASES`. -/
inductive Phase where
  | apiTotal
  | apiAccess
  | apiValidation
  | apiFreeze
  | apiAdmission
  | apiRead
  | apiServiceInit
  | workspaceSerializedWait
  | workspaceConnectionOpen
  | workspaceTransaction
  | workspaceRead
  | workspaceInitialize
  | workspaceCriticalSection
  | workerCycle
  | workerClaim
  | workerPollWait
  | workerService
  | workerQueueWait
  | agentDecision
  | agentProvider
  | agentToolSearchDocuments
  | agentToolInspectRetrieval
  | agentToolReadDocument
  | agentToolAskRag
  | agentPersistResult
  | retrievalSearch
  | retrievalInspect
  | generatorTransport
  | evaluationCompute
  | sseReadEvents
  | sseSerialize
  | sseSend
deriving DecidableEq, Repr

def Phase.text : Phase → String
  | .apiTotal => "api.total"
  | .apiAccess => "api.access"
  | .apiValidation => "api.validation"
  | .apiFreeze => "api.freeze"
  | .apiAdmission => "api.admission"
  | .apiRead => "api.read"
  | .apiServiceInit => "api.service_init"
  | .workspaceSerializedWait => "workspace.serialized_wait"
  | .workspaceConnectionOpen => "workspace.connection_open"
  | .workspaceTransaction => "workspace.transaction"
  | .workspaceRead => "workspace.read"
  | .workspaceInitialize => "workspace.initialize"
  | .workspaceCriticalSection => "workspace.critical_section"
  | .workerCycle => "worker.cycle"
  | .workerClaim => "worker.claim"
  | .workerPollWait => "worker.poll_wait"
  | .workerService => "worker.service"
  | .workerQueueWait => "worker.queue_wait"
  | .agentDecision => "agent.decision"
  | .agentProvider => "agent.provider"
  | .agentToolSearchDocuments => "agent.tool.search_documents"
  | .agentToolInspectRetrieval => "agent.tool.inspect_retrieval"
  | .agentToolReadDocument => "agent.tool.read_document"
  | .agentToolAskRag => "agent.tool.ask_rag"
  | .agentPersistResult => "agent.persist_result"
  | .retrievalSearch => "retrieval.search"
  | .retrievalInspect => "retrieval.inspect"
  | .generatorTransport => "generator.transport"
  | .evaluationCompute => "evaluation.compute"
  | .sseReadEvents => "sse.read_events"
  | .sseSerialize => "sse.serialize"
  | .sseSend => "sse.send"

/-- `OPERATIONS`. -/
inductive Operation where
  | none
  | jobCreate
  | jobClaim
  | jobTransition
  | jobStep
  | jobRead
  | jobList
  | jobEventRead
  | jobEventAppend
  | jobCancel
  | jobRecover
deriving DecidableEq, Repr

def Operation.text : Operation → String
  | .none => "none"
  | .jobCreate => "job_create"
  | .jobClaim => "job_claim"
  | .jobTransition => "job_transition"
  | .jobStep => "job_step"
  | .jobRead => "job_read"
  | .jobList => "job_list"
  | .jobEventRead => "job_event_read"
  | .jobEventAppend => "job_event_append"
  | .jobCancel => "job_cancel"
  | .jobRecover => "job_recover"

inductive Outcome where
  | completed
  | rejected
  | failed
  | cancelled
deriving DecidableEq, Repr

inductive Source where
  | api
  | worker
deriving DecidableEq, Repr

def maxDurationMs : Nat :=
  86400000

def maxOrdinal : Nat :=
  1000000

def maxClock : Nat :=
  9223372036854775807

def maxGroups : Nat :=
  64

def maxRunSpans : Nat :=
  512

def maxApiSpans : Nat :=
  128

def maxSummaryBytes : Nat :=
  16384

/-! ## Spans -/

structure TimingSpan where
  phase : Phase
  operation : Operation
  outcome : Outcome
  ordinal : Nat
  parent : Option Nat
  startNs : Nat
  endNs : Nat
deriving DecidableEq

namespace TimingSpan

/-- `duration_ms`. -/
def durationMs (R : Rounding) (v : TimingSpan) : ℚ :=
  R.fl (((v.endNs : ℚ) - v.startNs) / 1000000)

/-- What the model accepts; the phase and the operation are in their lists by their types. -/
structure Valid (R : Rounding) (v : TimingSpan) : Prop where
  ordinal : 1 ≤ v.ordinal ∧ v.ordinal ≤ maxOrdinal
  parent : ∀ p ∈ v.parent, (1 ≤ p ∧ p ≤ maxOrdinal) ∧ p < v.ordinal
  clock : v.startNs ≤ maxClock ∧ v.endNs ≤ maxClock
  monotonic : v.startNs ≤ v.endNs ∧ v.durationMs R ≤ maxDurationMs

instance (R : Rounding) (v : TimingSpan) : Decidable (v.Valid R) :=
  decidable_of_iff ((1 ≤ v.ordinal ∧ v.ordinal ≤ maxOrdinal) ∧ (∀ p ∈ v.parent, (1 ≤ p ∧ p ≤ maxOrdinal) ∧ p < v.ordinal) ∧
      (v.startNs ≤ maxClock ∧ v.endNs ≤ maxClock) ∧ (v.startNs ≤ v.endNs ∧ v.durationMs R ≤ maxDurationMs))
    ⟨fun h => ⟨h.1, h.2.1, h.2.2.1, h.2.2.2⟩, fun h => ⟨h.ordinal, h.parent, h.clock, h.monotonic⟩⟩

def key (v : TimingSpan) : Phase × Operation :=
  (v.phase, v.operation)

end TimingSpan

/-! ## The trace -/

structure Trace where
  source : Source
  nextId : Nat
  records : List TimingSpan
  groups : List (Phase × Operation)
  dropped : Nat
  closed : Bool

/-- What is known of an observation before its ordinal is settled. -/
structure Entry where
  phase : Phase
  operation : Operation
  outcome : Outcome
  ordinal : Option Nat
  parent : Option Nat
  startNs : Nat
  endNs : Nat

namespace Trace

/-- `Trace(source)`. -/
def start (source : Source) : Trace :=
  ⟨source, 1, [], [], 0, false⟩

def limit (t : Trace) : Nat :=
  match t.source with
  | .api => maxApiSpans
  | .worker => maxRunSpans

/-- `min(next(self._ids), 1_000_000)`. -/
def takeId (t : Trace) : Nat × Trace :=
  (min t.nextId maxOrdinal, { t with nextId := t.nextId + 1 })

/-- `self.dropped = min(self.dropped + n, 1_000_000)`. -/
def drop (t : Trace) (n : Nat) : Trace :=
  { t with dropped := min (t.dropped + n) maxOrdinal }

def isRoot (phase : Phase) : Bool :=
  phase = .apiTotal || phase = .workerCycle

/-- Room for a root: the last record gives way when the trace is full. -/
def makeRoom (t : Trace) (v : TimingSpan) : Trace :=
  if t.limit ≤ t.records.length ∧ isRoot v.phase then { t with records := t.records.dropLast }.drop 1 else t

/-- `group_limit`: a root may open the last group. -/
def groupLimit (phase : Phase) : Nat :=
  if isRoot phase then maxGroups else maxGroups - 1

/-- A trace with room takes the span, unless it would open one group too many. -/
def append (t : Trace) (v : TimingSpan) : Trace :=
  if t.limit ≤ t.records.length ∨ (v.key ∉ t.groups ∧ groupLimit v.phase ≤ t.groups.length) then
    t.drop 1
  else { t with groups := t.groups.insert v.key, records := t.records ++ [v] }

/-- The part of `record` under the lock. -/
def keep (t : Trace) (v : TimingSpan) : Trace :=
  if t.closed then t else (t.makeRoom v).append v

/-- `ordinal or min(next(self._ids), 1_000_000)`. -/
def settle (t : Trace) (e : Entry) : Nat × Trace :=
  match e.ordinal with
  | some ordinal => (ordinal, t)
  | none => t.takeId

def Entry.span (e : Entry) (ordinal : Nat) : TimingSpan :=
  ⟨e.phase, e.operation, e.outcome, ordinal, e.parent, e.startNs, e.endNs⟩

variable (R : Rounding)

/-- `record`: the trace, and whether the span was valid. -/
def record (t : Trace) (e : Entry) : Trace × Bool :=
  let (ordinal, t) := t.settle e
  if (Entry.span e ordinal).Valid R then (t.keep (Entry.span e ordinal), true) else (t, false)

/-- Record the entries in order, up to one that is not valid. -/
def recordAll : Trace → List Entry → Trace × Bool
  | t, [] => (t, true)
  | t, e :: es =>
    match t.record R e with
    | (t, true) => recordAll t es
    | (t, false) => (t, false)

end Trace

/-! ## Steps -/

/-- The value of an exception's `status_code`, against the numbers it is compared with. -/
inductive Status where
  | absent
  | number (n : ℚ)
  | incomparable

/-- The exceptions of a run, and the two the instrumentation can raise itself. -/
structure Errors (ε : Type) where
  isCancelled : ε → Bool
  status : ε → Status
  typeError : ε
  validationError : ε

/-- `pending`: the observations held back while a lock is held. -/
structure Pending where
  entries : List Entry
  dropped : Nat
  limit : Nat

/-- `_defer`. -/
def Pending.defer (p : Pending) (e : Entry) : Pending :=
  if p.entries.length < p.limit then { p with entries := p.entries ++ [e] }
  else { p with dropped := min (p.dropped + 1) maxOrdinal }

/-- A block a task is in: a span, the outermost deferral or one inside it. -/
inductive Frame where
  | span (phase : Phase) (started ordinal : Nat) (parent : Option Nat)
  | deferral (pending : Nat)
  | nested

/-- The context variables of a task and the blocks it is in, the innermost first. -/
structure Context where
  parent : Option Nat
  deferred : Option Nat
  frames : List Frame

/-- A trace, the deferrals opened so far and the tasks that share them. -/
structure System where
  trace : Trace
  pendings : List Pending
  tasks : Nat → Context
  now : Nat

namespace System

/-- `capture(source)`: no task is in a block. -/
def start (source : Source) : System :=
  ⟨.start source, [], fun _ => ⟨none, none, []⟩, 0⟩

def setTask (s : System) (task : Nat) (context : Context) : System :=
  { s with tasks := Function.update s.tasks task context }

end System

/-- What the body of a span puts into `override`. -/
structure Override where
  endNs : Option Nat := none
  outcome : Option Outcome := none

inductive Event (ε : Type) where
  | enter (task : Nat) (phase : Phase) (now : Nat)
  | defers (task : Nat)
  | leave (task now : Nat) (operation : Operation) (override : Override) (body : Option ε)
  | fork (task child : Nat)
  | interval (task : Nat) (phase : Phase) (startNs endNs : Nat) (outcome : Outcome) (operation : Operation)
  | close

section Steps

variable {ε : Type} (R : Rounding) (E : Errors ε)

/-- The `except` clause of `span`: the outcome, and what is raised on. -/
def judge : Option ε → Outcome × Option ε
  | none => (.completed, none)
  | some error =>
    if E.isCancelled error then (.cancelled, some error)
    else
      match E.status error with
      | .absent => (.failed, some error)
      | .number n => (if 400 ≤ n ∧ n < 500 then .rejected else .failed, some error)
      | .incomparable => (.completed, some E.typeError)

/-- Hand an observation over: recorded at once, or held back by the task's deferral. -/
def observe (s : System) (deferred : Option Nat) (e : Entry) : System × Bool :=
  match deferred with
  | none =>
    let (trace, valid) := s.trace.record R e
    ({ s with trace }, valid)
  | some d => ({ s with pendings := s.pendings.modify d fun p => p.defer e }, true)

/-- What leaves a block whose own code may have found an invalid span. -/
def raised (valid : Bool) (leaving : Option ε) : Option ε :=
  if valid then leaving else some E.validationError

/-- Leaving a span. -/
def leaveSpan (s : System) (task now : Nat) (operation : Operation) (override : Override) (body : Option ε)
    (phase : Phase) (started ordinal : Nat) (parent : Option Nat) (frames : List Frame) : System × Option ε :=
  let deferred := (s.tasks task).deferred
  let (outcome, leaving) := judge E body
  let s := s.setTask task ⟨parent, deferred, frames⟩
  let (s, valid) := observe R s deferred
    (Entry.mk phase operation (override.outcome.getD outcome) (some ordinal) parent started (override.endNs.getD now))
  (s, raised E valid leaving)

/-- Leaving the outermost deferral: what it dropped is counted, what it held back is recorded. -/
def leaveDeferral (s : System) (task pending : Nat) (body : Option ε) (frames : List Frame) : System × Option ε :=
  let s := s.setTask task ⟨(s.tasks task).parent, none, frames⟩
  let p := s.pendings.getD pending (Pending.mk [] 0 0)
  let (trace, valid) := (s.trace.drop p.dropped).recordAll R p.entries
  ({ s with trace }, raised E valid body)

/-- Entering a span. -/
def enterSpan (s : System) (task : Nat) (phase : Phase) (now : Nat) : System :=
  let context := s.tasks task
  let (ordinal, trace) := s.trace.takeId
  { s with trace, now }.setTask task
    { context with parent := some ordinal, frames := .span phase now ordinal context.parent :: context.frames }

/-- Entering `defer_database_observations`. -/
def enterDeferral (s : System) (task : Nat) : System :=
  let context := s.tasks task
  match context.deferred with
  | some _ => s.setTask task { context with frames := .nested :: context.frames }
  | none =>
    { s with pendings := s.pendings ++ [Pending.mk [] 0 s.trace.limit] }.setTask task
      { context with deferred := some s.pendings.length, frames := .deferral s.pendings.length :: context.frames }

/-- Leaving the innermost block of a task. -/
def leave (s : System) (task now : Nat) (operation : Operation) (override : Override) (body : Option ε) :
    System × Option ε :=
  match (s.tasks task).frames with
  | [] => (s, body)
  | .span phase started ordinal parent :: frames =>
    leaveSpan R E { s with now } task now operation override body phase started ordinal parent frames
  | .deferral pending :: frames => leaveDeferral R E s task pending body frames
  | .nested :: frames => (s.setTask task { s.tasks task with frames }, body)

/-- `record_interval`. -/
def recordInterval (s : System) (task : Nat) (phase : Phase) (startNs endNs : Nat) (outcome : Outcome) (operation : Operation) :
    System × Option ε :=
  let context := s.tasks task
  let (s, valid) := observe R s context.deferred ⟨phase, operation, outcome, none, context.parent, startNs, endNs⟩
  (s, raised E valid none)

/-- One step, and the exception that comes out of it. -/
def step (s : System) : Event ε → System × Option ε
  | .enter task phase now => (enterSpan s task phase now, none)
  | .defers task => (enterDeferral s task, none)
  | .leave task now operation override body => leave R E s task now operation override body
  | .fork task child => (s.setTask child { s.tasks task with frames := [] }, none)
  | .interval task phase startNs endNs outcome operation => recordInterval R E s task phase startNs endNs outcome operation
  | .close => ({ s with trace := { s.trace with closed := true } }, none)

/-- What comes out of a step without instrumentation. -/
def Event.body : Event ε → Option ε
  | .leave _ _ _ _ body => body
  | _ => none

end Steps

/-! ## The summary -/

structure PhaseSummary where
  phase : Phase
  operation : Operation
  count : Nat
  totalMs : ℚ
  maxMs : ℚ
  completed : Nat
  rejected : Nat
  failed : Nat
  cancelled : Nat

/-- What the model of a phase accepts. -/
structure PhaseSummary.Valid (p : PhaseSummary) : Prop where
  count : 1 ≤ p.count ∧ p.count ≤ maxRunSpans
  total : 0 ≤ p.totalMs ∧ p.totalMs ≤ maxRunSpans * maxDurationMs
  largest : 0 ≤ p.maxMs ∧ p.maxMs ≤ maxDurationMs
  outcomes : (p.completed ≤ maxRunSpans ∧ p.rejected ≤ maxRunSpans) ∧ p.failed ≤ maxRunSpans ∧ p.cancelled ≤ maxRunSpans
  sums : p.completed + p.rejected + p.failed + p.cancelled = p.count
  aggregate : p.maxMs ≤ p.totalMs

instance (p : PhaseSummary) : Decidable p.Valid :=
  decidable_of_iff ((1 ≤ p.count ∧ p.count ≤ maxRunSpans) ∧ (0 ≤ p.totalMs ∧ p.totalMs ≤ maxRunSpans * maxDurationMs) ∧
      (0 ≤ p.maxMs ∧ p.maxMs ≤ maxDurationMs) ∧
      ((p.completed ≤ maxRunSpans ∧ p.rejected ≤ maxRunSpans) ∧ p.failed ≤ maxRunSpans ∧ p.cancelled ≤ maxRunSpans) ∧
      p.completed + p.rejected + p.failed + p.cancelled = p.count ∧ p.maxMs ≤ p.totalMs)
    ⟨fun h => ⟨h.1, h.2.1, h.2.2.1, h.2.2.2.1, h.2.2.2.2.1, h.2.2.2.2.2⟩,
      fun h => ⟨h.count, h.total, h.largest, h.outcomes, h.sums, h.aggregate⟩⟩

structure TimingSummary where
  source : Source
  spanCount : Nat
  dropped : Nat
  remainderMs : Option ℚ
  phases : List PhaseSummary

/-- How the serializer writes a float: 24 characters hold the shortest text of any double. -/
structure FloatText where
  text : ℚ → String
  short (x : ℚ) : Python.utf8Length (text x) ≤ 24

section Json

def number (n : Nat) : String :=
  String.ofList (JsonText.natText n)

def Source.text : Source → String
  | .api => "api"
  | .worker => "worker"

variable (F : FloatText)

/-- The parts of a phase in `model_dump_json()`. -/
def PhaseSummary.parts (p : PhaseSummary) : List String :=
  ["\x7b\"phase\":\"", p.phase.text, "\",\"operation\":\"", p.operation.text, "\",\"count\":", number p.count,
    ",\"total_ms\":", F.text p.totalMs, ",\"max_ms\":", F.text p.maxMs, ",\"completed\":", number p.completed,
    ",\"rejected\":", number p.rejected, ",\"failed\":", number p.failed, ",\"cancelled\":", number p.cancelled, "\x7d"]

/-- A comma before every phase but the first. -/
def separated (first : Bool) : List PhaseSummary → List String
  | [] => []
  | p :: ps => (if first then [] else [","]) ++ (p.parts F ++ separated false ps)

def remainderText : Option ℚ → String
  | some x => F.text x
  | none => "null"

/-- The parts of `model_dump_json()`. -/
def TimingSummary.parts (s : TimingSummary) : List String :=
  ["\x7b\"protocol\":\"obs-001-attribution-v1\",\"source\":\"", s.source.text, "\",\"span_count\":", number s.spanCount,
    ",\"dropped\":", number s.dropped, ",\"remainder_ms\":",
    remainderText F s.remainderMs, ",\"phases\":["] ++ separated F true s.phases ++ ["]\x7d"]

/-- `len(self.model_dump_json().encode("utf-8"))`. -/
def TimingSummary.bytes (s : TimingSummary) : Nat :=
  ((s.parts F).map Python.utf8Length).foldr (· + ·) 0

/-- What the model of a summary accepts. -/
structure TimingSummary.Valid (s : TimingSummary) : Prop where
  count : s.spanCount ≤ maxRunSpans
  dropped : s.dropped ≤ maxOrdinal
  remainder : ∀ x ∈ s.remainderMs, 0 ≤ x ∧ x ≤ maxDurationMs
  phases : s.phases.length ≤ maxGroups
  budget : s.source = .api → s.spanCount ≤ maxApiSpans
  keys : (s.phases.map fun p => (p.phase, p.operation)).Nodup
  sums : (s.phases.map PhaseSummary.count).foldr (· + ·) 0 = s.spanCount
  bytes : s.bytes F ≤ maxSummaryBytes

instance (s : TimingSummary) : Decidable (s.Valid F) :=
  decidable_of_iff (s.spanCount ≤ maxRunSpans ∧ s.dropped ≤ maxOrdinal ∧ (∀ x ∈ s.remainderMs, 0 ≤ x ∧ x ≤ maxDurationMs) ∧
      s.phases.length ≤ maxGroups ∧ (s.source = .api → s.spanCount ≤ maxApiSpans) ∧
      (s.phases.map fun p => (p.phase, p.operation)).Nodup ∧
      (s.phases.map PhaseSummary.count).foldr (· + ·) 0 = s.spanCount ∧ s.bytes F ≤ maxSummaryBytes)
    ⟨fun h => ⟨h.1, h.2.1, h.2.2.1, h.2.2.2.1, h.2.2.2.2.1, h.2.2.2.2.2.1, h.2.2.2.2.2.2.1, h.2.2.2.2.2.2.2⟩,
      fun h => ⟨h.count, h.dropped, h.remainder, h.phases, h.budget, h.keys, h.sums, h.bytes⟩⟩

end Json

namespace Trace

variable (R : Rounding) (F : FloatText)

/-- The order of `sorted(grouped.items())`, whose keys differ. -/
def keyLe (a b : Phase × Operation) : Prop :=
  a.1.text < b.1.text ∨ (a.1.text = b.1.text ∧ a.2.text ≤ b.2.text)

instance (a b : Phase × Operation) : Decidable (keyLe a b) :=
  inferInstanceAs (Decidable (_ ∨ _))

/-- The keys of the groups, sorted. -/
def keys (t : Trace) : List (Phase × Operation) :=
  ((t.records.map TimingSpan.key).dedup).insertionSort keyLe

def countOutcome (o : Outcome) (values : List TimingSpan) : Nat :=
  (values.filter fun v => v.outcome = o).length

/-- One group. -/
def phaseSummary (key : Phase × Operation) (values : List TimingSpan) : PhaseSummary where
  phase := key.1
  operation := key.2
  count := values.length
  totalMs := R.sum (values.map fun v => v.durationMs R)
  maxMs := ((values.map fun v => v.durationMs R).max?).getD 0
  completed := countOutcome .completed values
  rejected := countOutcome .rejected values
  failed := countOutcome .failed values
  cancelled := countOutcome .cancelled values

/-- The groups of the records. -/
def phases (t : Trace) : List PhaseSummary :=
  t.keys.map fun key => phaseSummary R key (t.records.filter fun v => v.key = key)

/-- The part of a record inside the root. -/
def clip (root v : TimingSpan) : Nat × Nat :=
  (max v.startNs root.startNs, min v.endNs root.endNs)

def intervalLe (i j : Nat × Nat) : Prop :=
  i.1 < j.1 ∨ (i.1 = j.1 ∧ i.2 ≤ j.2)

instance (i j : Nat × Nat) : Decidable (intervalLe i j) :=
  inferInstanceAs (Decidable (_ ∨ _))

/-- The intervals of the other records that meet the root. -/
def intervals (root : TimingSpan) (others : List TimingSpan) : List (Nat × Nat) :=
  ((others.filter fun v => root.startNs < v.endNs && v.startNs < root.endNs).map (clip root)).insertionSort intervalLe

/-- What the sweep leaves of the root. -/
def remainderMs (root : TimingSpan) (others : List TimingSpan) : ℚ :=
  R.fl (((root.endNs : ℚ) - root.startNs - (Sweep.sweep root.startNs (intervals root others)).1) / 1000000)

/-- `api.total` is recorded once in an API trace that dropped nothing: the remainder is known. -/
def remainder (t : Trace) : Option ℚ :=
  match t.records.filter fun v => v.phase = .apiTotal with
  | [root] =>
    if t.source = .api ∧ t.dropped = 0 then some (remainderMs R root (t.records.filter fun v => v.phase ≠ .apiTotal))
    else none
  | _ => none

def draft (t : Trace) : TimingSummary :=
  ⟨t.source, t.records.length, t.dropped, t.remainder R, t.phases R⟩

/-- `summary`, `none` where a model refuses. -/
def summary (t : Trace) : Option TimingSummary :=
  if (∀ p ∈ t.phases R, p.Valid) ∧ (t.draft R).Valid F then some (t.draft R) else none

end Trace

end Attribution
