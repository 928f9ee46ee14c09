import DocumentQa.Agent.EventPages
import DocumentQa.Browser.AgentEvents
import DocumentQa.Jobs.Outcomes

/-!
# Following a run

The event log of a run grows while a client polls it. Each request carries the number of the last
event the client took; the server looks the run up, reads a page behind that number and frames it;
the client parses the body it gets. Writers come in anywhere between, requests fail and answers
are lost. The client holds a front part of the log at any time (`agent_feed`).
-/

namespace Agent

open Python JsonText Jobs SqlTable Browser

/-! ## One frame through the client -/

section Frames

/-- An event as the client holds it. -/
def StreamedEvent.held (e : StreamedEvent) : AgentEvent :=
  ⟨e.sequence.toNat, e.dump.map fun f => (f.1, jsValue f.2)⟩

/-- What `json.dumps` wrote of an object is read back by `JSON.parse`. -/
theorem jsonParse_python {fields : List (String × Json)} (dumpable : Dumpable (.obj fields)) :
    jsonParse (pythonPrinter.text (.obj fields)) = some (jsValue (.obj fields)) := by
  have ends : pythonPrinter.text (.obj fields) = '{' :: (pythonPrinter.textFields fields ++ ['}']) := by
    rw [Printer.text]
  have whole : Python.stripBy isBlank (pythonPrinter.text (.obj fields)) = pythonPrinter.text (.obj fields) := by
    have := @Python.stripBy_between isBlank [] (pythonPrinter.text (.obj fields)) [] (by simp) (by simp)
      (by rw [ends]; rfl) (by rw [ends]; exact Spacing.closes_iff.2 ⟨_, '}', List.cons_append.symm, rfl⟩)
    rwa [List.nil_append, List.append_nil] at this
  have keeps : ({ Hooks.plain with constants := false } : Hooks).Keeps := ⟨Hooks.plain_keeps.object, Hooks.plain_keeps.number⟩
  have read : loadsWith { Hooks.plain with constants := false } (pythonPrinter.text (.obj fields)) = some (.obj fields) := by
    rw [loadsWith_text pythonPrinter_reads keeps dumpable.1 dumpable.2, rebuild_float]
  rw [jsonParse, whole, read]
  rfl

variable {dates : DateParser} {runId : String} {e : StreamedEvent} {previous n : Nat}

theorem natText_digits (n : Nat) : Nat.ofDigitChars 10 (natText n) 0 = n :=
  Nat.ofDigitChars_ten_toDigits

theorem isSequenceText_natText (h : 0 < n) : isSequenceText (natText n) = true := by
  obtain ⟨c, cs, text, lead⟩ := natText_head h
  have digits : ∀ d ∈ natText n, d.isDigit = true := fun d => natText_isDigit
  have first : ('1' ≤ c && c ≤ '9') = true := by
    have digit := digits c (by rw [text]; exact List.mem_cons_self)
    have other : c.toNat ≠ 48 := fun same => lead (Char.toNat_inj.1 same)
    rw [Char.isDigit, Bool.and_eq_true, decide_eq_true_eq, decide_eq_true_eq] at digit
    have low : 48 ≤ c.toNat := digit.1
    have high : c.toNat ≤ 57 := digit.2
    rw [Bool.and_eq_true, decide_eq_true_eq, decide_eq_true_eq]
    refine ⟨?_, digit.2⟩
    show 49 ≤ c.toNat
    omega
  rw [isSequenceText, List.all_eq_true.2 digits, text, Bool.and_true]
  exact first

/-- **The event of a frame** is taken as it was dumped while its number is safe. -/
theorem acceptEvent_held (own : e.runId = runId) (place : e.sequence = n) (behind : previous < n)
    (date : dates.isFinite e.occurredAt = true) :
    acceptEvent dates runId previous ⟨natText n, [pythonPrinter.text (.obj e.dump)]⟩ =
      if n ≤ maxSafeInteger then .ok e.held else .error 502 := by
  have number : Json.lookup "sequence" e.held.raw = some (.float (.ofInt n)) := by
    rw [← place]
    rfl
  have run : Json.lookup "run_id" e.held.raw = some (.str runId) := by
    rw [← own]
    rfl
  have moment : isDate dates (Json.lookup "occurred_at" e.held.raw) = true := date
  have texts : isText (Json.lookup "event_id" e.held.raw) = true ∧ isText (Json.lookup "event_type" e.held.raw) = true :=
    ⟨rfl, rfl⟩
  have fits : announced dates runId previous (natText n) e.held.raw = true ↔ n ≤ maxSafeInteger := by
    rw [announced, natText_digits, isSequenceText_natText (by omega), number, run, moment, texts.1, texts.2]
    simp [behind]
  have same : e.held = ⟨n, e.held.raw⟩ := by
    rw [StreamedEvent.held, place, Int.toNat_natCast]
  have object : jsValue (.obj e.dump) = .obj e.held.raw := by
    rw [jsValue, Json.rebuild_obj]
    rfl
  rw [acceptEvent, List.intercalate_singleton, jsonParse_python e.dumpable, object]
  show (do Checked.require (announced dates runId previous (natText n) e.held.raw = true) 502
           pure ⟨Nat.ofDigitChars 10 (natText n) 0, e.held.raw⟩ : Except Nat AgentEvent) = _
  rw [Checked.require, natText_digits]
  by_cases safe : n ≤ maxSafeInteger
  · rw [if_pos (fits.2 safe), if_pos safe, same]
    rfl
  · rw [if_neg (mt fits.1 safe), if_neg safe]
    rfl

theorem natText_line (n : Nat) : '\n' ∉ natText n ∧ '\r' ∉ natText n :=
  ⟨fun mem => absurd (natText_isDigit mem) (by decide), fun mem => absurd (natText_isDigit mem) (by decide)⟩

theorem payload_line (j : Json) : '\n' ∉ pythonPrinter.text j ∧ '\r' ∉ pythonPrinter.text j :=
  ⟨fun mem => absurd (payload_visible mem) (by decide), fun mem => absurd (payload_visible mem) (by decide)⟩

theorem eventType_line (t : JobEventType) : '\n' ∉ t.text.toList ∧ '\r' ∉ t.text.toList := by
  cases t <;> decide

/-- What the server streams of the event log: an event of the run, dated by its clock. -/
structure Streams (dates : DateParser) (runId : String) (e : StreamedEvent) : Prop where
  own : e.runId = runId
  date : dates.isFinite e.occurredAt = true
  type : ∃ t : JobEventType, e.eventType = t.text

theorem frame_lines (id type data : List Char) :
    "id: ".toList ++ id ++ "\nevent: ".toList ++ type ++ "\ndata: ".toList ++ data ++ "\n\n".toList =
      sseFrame id type data ++ ['\n', '\n'] := by
  rw [sseFrame]
  simp only [List.append_assoc, List.cons_append]
  rfl

theorem StreamedEvent.frame_eq (place : e.sequence = n) :
    e.frame = sseFrame (natText n) e.eventType.toList (pythonPrinter.text (.obj e.dump)) ++ ['\n', '\n'] := by
  have number : intText e.sequence = natText n := by
    rw [place, intText, if_neg (by omega), Int.natAbs_natCast]
  unfold StreamedEvent.frame
  rw [number]
  exact frame_lines (natText n) e.eventType.toList (pythonPrinter.text (.obj e.dump))

/-- No frame has a carriage return. -/
theorem frame_unix (streams : Streams dates runId e) (place : e.sequence = n) : '\r' ∉ e.frame := by
  obtain ⟨t, type⟩ := streams.type
  have texts := (eventType_line t).2
  rw [← type] at texts
  rw [StreamedEvent.frame_eq place, sseFrame]
  simp only [List.mem_append, List.mem_cons, not_or]
  exact ⟨⟨⟨by decide, (natText_line n).2⟩, by decide, ⟨by decide, texts⟩, by decide, by decide, (payload_line _).2⟩,
    by decide, by decide, List.not_mem_nil⟩

/-- The fields the client finds in a frame. -/
theorem frame_fields (streams : Streams dates runId e) :
    frameFields (sseFrame (natText n) e.eventType.toList (pythonPrinter.text (.obj e.dump))) =
      ⟨natText n, [pythonPrinter.text (.obj e.dump)]⟩ := by
  obtain ⟨t, type⟩ := streams.type
  have digits (c : Char) (mem : c ∈ natText n) : isTrimmed c = false := by
    have digit := natText_isDigit mem
    rw [Char.isDigit, Bool.and_eq_true, decide_eq_true_eq, decide_eq_true_eq] at digit
    have low : 48 ≤ c.toNat := digit.1
    have high : c.toNat ≤ 57 := digit.2
    exact isTrimmed_visible (by omega) (by omega)
  have open_ : Spacing.opens isTrimmed (natText n) = true := by
    obtain ⟨c, cs, text⟩ := List.exists_cons_of_ne_nil (natText_ne_nil n)
    exact Spacing.opens_iff.2 ⟨c, cs, text, digits c (by rw [text]; exact List.mem_cons_self)⟩
  have close : Spacing.closes isTrimmed (natText n) = true := by
    obtain ⟨cs, c, text⟩ := List.eq_nil_or_concat'  (natText n) |>.resolve_left (natText_ne_nil n)
    exact Spacing.closes_iff.2 ⟨cs, c, text, digits c (by rw [text]; simp)⟩
  have id : trim (' ' :: natText n) = natText n := by
    have cut := @Python.stripBy_between isTrimmed [' '] (natText n) [] (by simp [isTrimmed]) (by simp) open_ close
    rwa [List.append_nil] at cut
  have data : (' ' :: pythonPrinter.text (.obj e.dump)).dropWhile isTrimmed = pythonPrinter.text (.obj e.dump) := by
    rw [Printer.text]
    rfl
  rw [frameFields_sseFrame (natText_line n).1 (type ▸ (eventType_line t).1) (payload_line _).1, id, data]

/-- **A page of frames** is parsed to its events while their numbers are safe. -/
theorem parseFrames_frames {views : List StreamedEvent} (streams : ∀ e ∈ views, Streams dates runId e)
    (places : views.map (·.sequence) = (List.range' (previous + 1) views.length).map Int.ofNat)
    (within : previous ≤ maxSafeInteger) :
    parseFrames dates runId previous (Python.splitText "\n\n".toList 0 (frames views)) =
      if previous + views.length ≤ maxSafeInteger then .ok (views.map StreamedEvent.held) else .error 502 := by
  induction views generalizing previous with
  | nil =>
    rw [List.length_nil, Nat.add_zero, if_pos within]
    rfl
  | cons e views ih =>
    have mine := streams e List.mem_cons_self
    obtain ⟨t, type⟩ := mine.type
    rw [List.map_cons, List.length_cons, List.range'_succ, List.map_cons] at places
    obtain ⟨place, rest⟩ := List.cons.inj places
    have solid : Solid (sseFrame (natText (previous + 1)) e.eventType.toList (pythonPrinter.text (.obj e.dump))) :=
      sseFrame_solid (natText_line _).1 (type ▸ (eventType_line t).1) (payload_line _).1
    have cut : frames (e :: views) = sseFrame (natText (previous + 1)) e.eventType.toList (pythonPrinter.text (.obj e.dump)) ++
        ('\n' :: '\n' :: frames views) := by
      rw [frames, List.flatMap_cons, StreamedEvent.frame_eq place, List.append_assoc]
      rfl
    have some_ : trim (sseFrame (natText (previous + 1)) e.eventType.toList (pythonPrinter.text (.obj e.dump))) ≠ [] :=
      trim_ne_nil (by decide)
    have taken := @acceptEvent_held dates runId e previous (previous + 1) mine.own place (by omega) mine.date
    rw [cut, splitText_blank solid, parseFrames, frame_fields mine, if_neg (by simp [some_]), taken, List.length_cons]
    by_cases safe : previous + 1 ≤ maxSafeInteger
    · have number : e.held.sequence = previous + 1 := by
        rw [StreamedEvent.held, place]
        rfl
      have later := @ih (previous + 1) (fun e mem => streams e (List.mem_cons_of_mem _ mem)) rest safe
      have count : previous + 1 + views.length = previous + (views.length + 1) := by omega
      rw [if_pos safe, Checked.ok_bind, number, later, count]
      split <;> rfl
    · rw [if_neg safe, if_neg (by omega)]
      rfl

end Frames

/-! ## The client and the server -/

/-- The database, the request that has passed the lookup of the run, by the number it asks
behind, and what the client holds. -/
structure Feed where
  store : JobStore
  asked : Option Nat
  received : List AgentEvent

def Feed.start : Feed :=
  ⟨.empty, none, []⟩

/-- The number of the last event the client took. -/
def Feed.cursor (s : Feed) : Nat :=
  (s.received.getLast?.map (·.sequence)).getD 0

/-- A repository whose clock is `utc_timestamp`. -/
def timed (repo : JobRepository) (now : Fin maxMicros) : JobRepository :=
  { repo with clock := isoText true now }

/-- What happens: a writer calls the repository, the client's request is looked up, its page is
read and delivered, or the request or its answer is lost. -/
inductive FeedEvent where
  | write (repo : JobRepository) (now : Fin maxMicros) (call : JobCall)
  | ask (repo : JobRepository)
  | answer (repo : JobRepository)
  | lose

/-- The events of the run. -/
def logOf (runId : String) (db : JobStore) : List EventRow :=
  db.eventsOf (jobName runId)

section Feed

variable (validateSummary : JsonObject → Option AgentEventSummary) (dates : DateParser) (runId : String)

/-- The first transaction of `events`, for the header the client sends. -/
def askedFor (repo : JobRepository) (header : List Char) (db : JobStore) : Except PyError Nat := do
  let afterSequence ← lastSequence header
  let _ ← runJob repo runId db
  pure afterSequence

/-- The response body. -/
def response (repo : JobRepository) (afterSequence : Nat) (db : JobStore) : Except PyError (List UInt8) := do
  let views ← eventsBehind validateSummary repo runId afterSequence db
  pure (Utf8.encode (frames views))

/-- `response.text()` and `parseAgentSseBatch`. -/
def batchOf (cursor : Nat) (body : List UInt8) : Except Nat (List AgentEvent) :=
  parseAgentSseBatch dates runId (decoded body) cursor

/-- The client is answered, behind the number it asked for. -/
def Feed.deliver (s : Feed) (afterSequence : Nat) : Except PyError (List UInt8) → Feed
  | .ok body =>
    match batchOf dates runId afterSequence body with
    | .ok batch => { s with asked := none, received := s.received ++ batch }
    | .error _ => { s with asked := none }
  | .error _ => { s with asked := none }

def Feed.step (s : Feed) : FeedEvent → Feed
  | .write repo now call => { s with store := perform s.store (timed repo now, call) }
  | .ask repo => { s with asked := (askedFor runId repo (natText s.cursor) s.store).toOption }
  | .answer repo =>
    match s.asked with
    | some afterSequence => s.deliver dates runId afterSequence (response validateSummary runId repo afterSequence s.store)
    | none => s
  | .lose => { s with asked := none }

/-- What `parseAgentSseBatch` returns when the poll is answered now. -/
def Feed.batch (s : Feed) : FeedEvent → Option (List AgentEvent)
  | .answer repo => do
    let afterSequence ← s.asked
    let body ← (response validateSummary runId repo afterSequence s.store).toOption
    (batchOf dates runId afterSequence body).toOption
  | _ => none

/-- What the polls return while some events happen. -/
def Feed.batches : Feed → List FeedEvent → List (List AgentEvent)
  | _, [] => []
  | s, event :: events =>
    (s.batch validateSummary dates runId event).toList ++ batches (s.step validateSummary dates runId event) events

/-- The summary of an event of the log: that of its payload, when it has one. -/
def SummaryOf (row : EventRow) (summary : Json) : Prop :=
  match row.agentPayloadJson with
  | none => summary = .null
  | some raw => ∃ payload s, loadsObject raw = some payload ∧ validateSummary payload = some s ∧ summary = jsValue s.json

/-- The event of a row of the log, as the client gets it. -/
def Shows (row : EventRow) (e : AgentEvent) : Prop :=
  ∃ summary, SummaryOf validateSummary row summary ∧ e =
    { sequence := row.sequence
      raw := [("run_id", .str runId), ("event_id", .str row.eventId), ("sequence", .float (.ofInt row.sequence)),
        ("event_type", .str row.eventType.text), ("state", textOrNull (row.state.map JobState.text)),
        ("reason_code", textOrNull row.reasonCode), ("occurred_at", .str row.occurredAt), ("summary", summary)] }

end Feed

/-! ## The log -/

section Log

variable {db db' : JobStore}

/-- The log of a job is numbered from one. -/
theorem numbered_log (sound : Jobs.Sound db) (jobId : String) : Numbered.InOrder EventRow.sequence (db.eventsOf jobId) := by
  by_cases there : ∃ r ∈ db.jobs.rows, r.jobId = jobId
  · obtain ⟨r, mem, rfl⟩ := there
    have numbers := (sound.logged r mem).sequences
    have length : (db.eventsOf r.jobId).length = r.revision := by
      rw [← List.length_map (f := EventRow.sequence), numbers, List.length_range']
    unfold Numbered.InOrder
    rw [length]
    exact numbers
  · have nothing := (sound.owned.nothing fun x mem same => there ⟨x, mem, same⟩).2
    rw [nothing]
    exact rfl

/-- The log is written at its end only. -/
theorem log_grows {forbidden : List String} (h : Evolves forbidden db db') (jobId : String) :
    db.eventsOf jobId <+: db'.eventsOf jobId := by
  induction h with
  | same => exact List.prefix_refl _
  | admits h =>
    rw [h.eventsOf]
    split
    · exact List.prefix_append _ _
    · exact List.prefix_refl _
  | advances before h ih =>
    refine ih.trans ?_
    rw [h.eventsOf]
    split
    · exact List.prefix_append _ _
    · exact List.prefix_refl _

/-- Every event carries a time of `utc_timestamp`. -/
def Dated (db : JobStore) : Prop :=
  ∀ e ∈ db.events.rows, ∃ now : Fin maxMicros, e.occurredAt = isoText true now

theorem Dated.perform (dated : Dated db) (repo : JobRepository) (now : Fin maxMicros) (call : JobCall) :
    Dated (Jobs.perform db (timed repo now, call)) := by
  unfold Jobs.perform
  cases outcome : body (timed repo now) call db with
  | error e => exact dated
  | ok result =>
    obtain ⟨db', reply⟩ := result
    intro e mem
    rcases (body_writes outcome).events e mem with mem | stamped
    · exact dated e mem
    · exact ⟨now, stamped⟩

end Log

/-! ## A page -/

section Page

variable {validateSummary : JsonObject → Option AgentEventSummary} {dates : DateParser} {runId : String}
  {repo : JobRepository} {db : JobStore} {c : Nat} {views : List StreamedEvent}

theorem lastSequence_natText (h : lastSequence (natText n) = .ok c) : c = n := by
  simp only [lastSequence, Checked.bind_eq_ok, Checked.pure_eq_ok] at h
  obtain ⟨-, -, -, -, -, -, rfl⟩ := h
  exact natText_digits n

/-- A view of a row of the log. -/
def Views (validateSummary : JsonObject → Option AgentEventSummary) (runId : String) (row : EventRow) (view : StreamedEvent) :
    Prop :=
  ∃ forbidden event, agentEventFromRow forbidden row = .ok event ∧ eventView validateSummary runId event = .ok view

theorem agentEventFromRow_columns {forbidden : List String} {row : EventRow} {event : AgentJobEvent}
    (h : agentEventFromRow forbidden row = .ok event) : ∃ payload,
      event = ⟨row.eventId, row.sequence, row.eventType, row.state, row.reasonCode, row.occurredAt, payload⟩ ∧
      match row.agentPayloadJson with
      | none => payload.fields = []
      | some raw => loadsObject raw = some payload ∧ payload.fields ≠ [] := by
  unfold agentEventFromRow at h
  cases given : row.agentPayloadJson with
  | none =>
    simp only [given, Checked.bind_eq_ok, Checked.pure_eq_ok] at h
    obtain ⟨payload, rfl, -, -, rfl⟩ := h
    exact ⟨_, rfl, rfl⟩
  | some raw =>
    simp only [given, Checked.bind_eq_ok, Checked.require_eq_ok, Checked.orRaise_eq_ok, Checked.pure_eq_ok, decodeObject] at h
    obtain ⟨payload, ⟨text, same, _, _, read⟩, _, known, _, rfl, _, _, rfl⟩ := h
    obtain rfl := Option.some.inj same
    refine ⟨payload, rfl, read, fun none_ => ?_⟩
    have keys : payload.keys = [] := by rw [JsonObject.keys, none_, List.map_nil]
    rw [hasAgentEventFields, keys] at known
    revert known
    decide

theorem Views.fields {row : EventRow} {view : StreamedEvent} (h : Views validateSummary runId row view) :
    view.runId = runId ∧ view.sequence = row.sequence ∧ view.eventType = row.eventType.text ∧ view.occurredAt = row.occurredAt := by
  obtain ⟨forbidden, event, read, viewed⟩ := h
  obtain ⟨payload, rfl, -⟩ := agentEventFromRow_columns read
  simp only [eventView, Checked.bind_eq_ok, Checked.pure_eq_ok] at viewed
  obtain ⟨summary, -, rfl⟩ := viewed
  exact ⟨rfl, rfl, rfl, rfl⟩

theorem jsValue_textOrNull (text : Option String) : jsValue (textOrNull text) = textOrNull text := by
  cases text <;> rfl

/-- **A view shows its row**, field by field. -/
theorem Views.shows {row : EventRow} {view : StreamedEvent} (h : Views validateSummary runId row view) :
    Shows validateSummary runId row view.held := by
  obtain ⟨forbidden, event, read, viewed⟩ := h
  obtain ⟨payload, rfl, carried⟩ := agentEventFromRow_columns read
  simp only [eventView, Checked.bind_eq_ok, Checked.pure_eq_ok] at viewed
  obtain ⟨summary, summarized, rfl⟩ := viewed
  refine ⟨jsValue ((summary.map AgentEventSummary.json).getD .null), ?_, ?_⟩
  · unfold SummaryOf
    unfold eventSummary at summarized
    split at carried
    · rw [if_pos carried] at summarized
      cases summarized
      rfl
    · obtain ⟨loaded, some_⟩ := carried
      rw [if_neg some_] at summarized
      simp only [Checked.bind_eq_ok, Checked.orRaise_eq_ok, Checked.pure_eq_ok] at summarized
      obtain ⟨s, valid, rfl⟩ := summarized
      exact ⟨payload, s, loaded, valid, rfl⟩
  · unfold StreamedEvent.held StreamedEvent.dump
    simp only [List.map_cons, List.map_nil, jsValue_textOrNull]
    rfl

/-- Two loops, one over what the other returned. -/
theorem forall₂_comp {α β γ : Type} {R : α → β → Prop} {S : β → γ → Prop} {as : List α} {bs : List β} {cs : List γ}
    (h : List.Forall₂ R as bs) (h' : List.Forall₂ S bs cs) : List.Forall₂ (fun a c => ∃ b, R a b ∧ S b c) as cs := by
  induction h generalizing cs with
  | nil =>
    cases h'
    exact .nil
  | cons r _ ih =>
    cases h' with
    | cons s rest => exact .cons ⟨_, r, s⟩ (ih rest)

/-- **What a page shows**: the next events of the log behind the number. -/
theorem eventsBehind_views (sound : Jobs.Sound db) (h : eventsBehind validateSummary repo runId c db = .ok views) :
    List.Forall₂ (Views validateSummary runId) (((logOf runId db).drop c).take 100) views := by
  simp only [eventsBehind, jobIdOf, listAgentEvents, Checked.bind_eq_ok, Checked.pure_eq_ok, Checked.collect_eq_ok] at h
  obtain ⟨_, ⟨-, -, rfl⟩, events, ⟨-, -, job, -, -, -, read⟩, viewed⟩ := h
  rw [eventPage_eq (numbered_log sound (jobName runId))] at read
  refine (forall₂_comp read viewed).imp ?_
  rintro row view ⟨event, decoded, seen⟩
  exact ⟨_, event, decoded, seen⟩

/-- The numbers of a page follow the number it was asked behind. -/
theorem page_places {log : List EventRow} (numbered : Numbered.InOrder EventRow.sequence log)
    (page : List.Forall₂ (Views validateSummary runId) ((log.drop c).take 100) views) :
    views.map (·.sequence) = (List.range' (c + 1) views.length).map Int.ofNat := by
  have same : views.map (·.sequence) = ((log.drop c).take 100).map fun row => (row.sequence : Int) :=
    Checked.map_of_forall₂ page fun row view related => related.fields.2.1
  rw [same, ← page.length_eq, ← numbered.page, List.map_map]
  rfl

theorem page_streams (dated : Dated db)
    (page : List.Forall₂ (Views validateSummary runId) (((logOf runId db).drop c).take 100) views) :
    ∀ e ∈ views, Streams dates runId e := by
  intro e mem
  obtain ⟨row, there, view⟩ := Checked.forall₂_source page mem
  obtain ⟨own, -, type, date⟩ := view.fields
  have logged := (List.mem_filter.1 (List.mem_of_mem_drop (List.mem_of_mem_take there))).1
  obtain ⟨now, stamp⟩ := dated row logged
  refine ⟨own, ?_, row.eventType, type⟩
  rw [date, stamp]
  exact dates.reads now now.isLt

/-- **One page through the client.** -/
theorem batchOf_page (sound : Jobs.Sound db) (dated : Dated db) (within : c ≤ maxSafeInteger)
    (h : eventsBehind validateSummary repo runId c db = .ok views) :
    batchOf dates runId c (Utf8.encode (frames views)) =
      if c + views.length ≤ maxSafeInteger then .ok (views.map StreamedEvent.held) else .error 502 := by
  have page := eventsBehind_views sound h
  have numbered : Numbered.InOrder EventRow.sequence (logOf runId db) := numbered_log sound (jobName runId)
  have text : decoded (Utf8.encode (frames views)) = frames views := by
    apply TextDecoder.decode_encode
    cases views with
    | nil => exact (Option.some_ne_none _).symm
    | cons e views =>
      show some 'i' ≠ some byteOrderMark
      decide
  have streams : ∀ e ∈ views, Streams dates runId e := page_streams dated page
  have unix : unixLines (frames views) = frames views := by
    refine unixLines_plain fun mem => ?_
    obtain ⟨e, there, inside⟩ := List.mem_flatMap.1 mem
    obtain ⟨row, -, view⟩ := Checked.forall₂_source page there
    exact frame_unix (streams e there) view.fields.2.1 inside
  rw [batchOf, text, parseAgentSseBatch, unix, Checked.require, if_pos within, Checked.ok_bind]
  exact parseFrames_frames streams (page_places numbered page) within

end Page

/-! ## Any interleaving -/

section Feed

variable {validateSummary : JsonObject → Option AgentEventSummary} {dates : DateParser} {runId : String}

/-- What holds between any two events. -/
structure Feed.Inv (validateSummary : JsonObject → Option AgentEventSummary) (runId : String) (s : Feed) : Prop where
  sound : Jobs.Sound s.store
  dated : Dated s.store
  holds : Numbered.Holds (Shows validateSummary runId) (logOf runId s.store) s.received
  numbers : s.received.map (·.sequence) = List.range' 1 s.received.length
  asked : ∀ c, s.asked = some c → c = s.received.length
  safe : s.received.length ≤ maxSafeInteger

theorem Feed.Inv.start : Feed.Inv validateSummary runId .start where
  sound := .empty
  dated _ mem := absurd mem List.not_mem_nil
  holds := .nothing
  numbers := rfl
  asked _ none_ := absurd none_ (Option.some_ne_none _).symm
  safe := Nat.zero_le _

/-- The client asks behind the events it holds. -/
theorem Feed.Inv.cursor {s : Feed} (inv : Feed.Inv validateSummary runId s) : s.cursor = s.received.length := by
  have last : s.received.getLast?.map (·.sequence) = (List.range' 1 s.received.length).getLast? := by
    rw [← inv.numbers, List.getLast?_map]
  rw [Feed.cursor, last]
  cases s.received.length with
  | zero => rfl
  | succ n =>
    rw [List.range'_concat]
    simp
    omega

/-- The page the server answers with, and what the client makes of it. -/
theorem Feed.Inv.page {s : Feed} (inv : Feed.Inv validateSummary runId s) (dates : DateParser) {repo : JobRepository}
    {views : List StreamedEvent} (h : eventsBehind validateSummary repo runId s.received.length s.store = .ok views) :
    batchOf dates runId s.received.length (Utf8.encode (frames views)) =
        (if s.received.length + views.length ≤ maxSafeInteger then .ok (views.map StreamedEvent.held) else .error 502) ∧
      List.Forall₂ (Shows validateSummary runId) (((logOf runId s.store).drop s.received.length).take 100)
        (views.map StreamedEvent.held) ∧
      (views.map StreamedEvent.held).map (·.sequence) = List.range' (s.received.length + 1) views.length := by
  have page := eventsBehind_views inv.sound h
  refine ⟨?_, ?_, ?_⟩
  · exact batchOf_page inv.sound inv.dated inv.safe h
  · rw [List.forall₂_map_right_iff]
    exact page.imp fun row view viewed => viewed.shows
  · have places := page_places (numbered_log inv.sound (jobName runId)) page
    have numbers := congrArg (List.map Int.toNat) places
    rw [List.map_map, List.map_map] at numbers
    rw [List.map_map]
    refine numbers.trans ?_
    exact List.map_id _

theorem Feed.Inv.idle {s : Feed} (inv : Feed.Inv validateSummary runId s) :
    Feed.Inv validateSummary runId { s with asked := none } :=
  { inv with asked := fun c none_ => absurd none_ (Option.some_ne_none c).symm }

/-- **An answer** continues what the client holds, or leaves it. -/
theorem Feed.Inv.deliver {s : Feed} (inv : Feed.Inv validateSummary runId s) (repo : JobRepository) :
    Feed.Inv validateSummary runId
      (s.deliver dates runId s.received.length (response validateSummary runId repo s.received.length s.store)) := by
  cases answered : response validateSummary runId repo s.received.length s.store with
  | error e => exact inv.idle
  | ok body =>
    simp only [response, Checked.bind_eq_ok, Checked.pure_eq_ok] at answered
    obtain ⟨views, read, rfl⟩ := answered
    obtain ⟨parsed, next, numbers⟩ := inv.page dates read
    rw [Feed.deliver, parsed]
    by_cases safe : s.received.length + views.length ≤ maxSafeInteger
    · rw [if_pos safe]
      refine ⟨inv.sound, inv.dated, inv.holds.page next, ?_, fun c none_ => absurd none_ (Option.some_ne_none c).symm, ?_⟩
      · rw [List.map_append, inv.numbers, numbers, List.length_append, List.length_map, ← List.range'_append_1, Nat.add_comm 1]
      · rw [List.length_append, List.length_map]
        exact safe
    · rw [if_neg safe]
      exact inv.idle

/-- **One event** keeps the client at a front part of the log. -/
theorem Feed.Inv.step {s : Feed} (inv : Feed.Inv validateSummary runId s) (event : FeedEvent) :
    Feed.Inv validateSummary runId (s.step validateSummary dates runId event) := by
  cases event with
  | write repo now call =>
    have evolves := perform_evolves s.store (timed repo now, call)
    exact { inv with
      sound := perform_sound s.store _ inv.sound
      dated := inv.dated.perform repo now call
      holds := inv.holds.grows (log_grows evolves (jobName runId)) }
  | ask repo =>
    refine { inv with asked := fun c looked => ?_ }
    replace looked : (askedFor runId repo (natText s.cursor) s.store).toOption = some c := looked
    cases asked : askedFor runId repo (natText s.cursor) s.store with
    | error e =>
      rw [asked] at looked
      cases looked
    | ok c' =>
      rw [asked] at looked
      obtain rfl := Option.some.inj looked
      simp only [askedFor, Checked.bind_eq_ok, Checked.pure_eq_ok] at asked
      obtain ⟨c', header, -, -, rfl⟩ := asked
      rw [lastSequence_natText header, inv.cursor]
      rfl
  | lose => exact inv.idle
  | answer repo =>
    unfold Feed.step
    cases asked : s.asked with
    | none => exact inv
    | some c =>
      obtain rfl := inv.asked c asked
      exact inv.deliver repo

/-- The client and the database after some events. -/
def Feed.after (validateSummary : JsonObject → Option AgentEventSummary) (dates : DateParser) (runId : String)
    (events : List FeedEvent) : Feed :=
  Runs.run (Feed.step validateSummary dates runId) .start events

theorem Feed.after_inv (events : List FeedEvent) :
    Feed.Inv validateSummary runId (Feed.after validateSummary dates runId events) := by
  have reaches : Runs.Reaches (Feed.step validateSummary dates runId) .start (Feed.after validateSummary dates runId events) :=
    ⟨events, rfl⟩
  exact reaches.invariant .start fun _ event inv => inv.step event

/-- The client takes what a poll returns, and nothing else. -/
theorem Feed.step_received (s : Feed) (event : FeedEvent) : (s.step validateSummary dates runId event).received =
    s.received ++ (s.batch validateSummary dates runId event).toList.flatten := by
  cases event with
  | write | ask | lose => exact (List.append_nil _).symm
  | answer repo =>
    cases asked : s.asked with
    | none => simp [Feed.step, Feed.batch, asked]
    | some c =>
      cases answered : response validateSummary runId repo c s.store with
      | error e => simp [Feed.step, Feed.batch, asked, answered, Feed.deliver, Except.toOption]
      | ok body =>
        cases parsed : batchOf dates runId c body with
        | error status => simp [Feed.step, Feed.batch, asked, answered, Feed.deliver, parsed, Except.toOption]
        | ok batch => simp [Feed.step, Feed.batch, asked, answered, Feed.deliver, parsed, Except.toOption]

theorem Feed.run_received (s : Feed) (events : List FeedEvent) :
    (Runs.run (Feed.step validateSummary dates runId) s events).received =
      s.received ++ (s.batches validateSummary dates runId events).flatten := by
  induction events generalizing s with
  | nil => exact (List.append_nil _).symm
  | cons event events ih =>
    rw [Runs.run_cons, ih, Feed.step_received, Feed.batches, List.flatten_append, List.append_assoc]

theorem Feed.batches_append (s : Feed) (events more : List FeedEvent) :
    s.batches validateSummary dates runId (events ++ more) = s.batches validateSummary dates runId events ++
      (Runs.run (Feed.step validateSummary dates runId) s events).batches validateSummary dates runId more := by
  induction events generalizing s with
  | nil => rfl
  | cons event events ih =>
    rw [List.cons_append, Feed.batches, Feed.batches, ih, List.append_assoc, Runs.run_cons]

/-- **Resuming is exact.** However writers, requests and losses interleave, the events the polls returned are the first events
of the log, field by field, each once and in order. Every request carries the number of the last of them, every body it is
answered with is accepted while the log stays within the safe integers, and its batch is what follows in the log, up to a page:
a batch that is shorter ends the log. -/
theorem agent_feed (validateSummary : JsonObject → Option AgentEventSummary) (dates : DateParser) (runId : String)
    (events : List FeedEvent) :
    let s := Feed.after validateSummary dates runId events
    let returned := (Feed.batches validateSummary dates runId .start events).flatten
    Numbered.Holds (Shows validateSummary runId) (logOf runId s.store) returned ∧
    returned.map (·.sequence) = List.range' 1 returned.length ∧
    (∀ repo c, askedFor runId repo (natText returned.length) s.store = .ok c →
      (s.step validateSummary dates runId (.ask repo)).asked = some c) ∧
    ∀ repo c body, s.asked = some c → response validateSummary runId repo c s.store = .ok body →
      c = returned.length ∧ ((logOf runId s.store).length ≤ maxSafeInteger →
        ∃ batch, batchOf dates runId c body = .ok batch ∧
          Feed.batches validateSummary dates runId .start (events ++ [.answer repo]) =
            Feed.batches validateSummary dates runId .start events ++ [batch] ∧
          batch.length = min 100 ((logOf runId s.store).length - returned.length) ∧
          Numbered.Holds (Shows validateSummary runId) (logOf runId s.store) (returned ++ batch) ∧
          (batch.length < 100 → List.Forall₂ (Shows validateSummary runId) (logOf runId s.store) (returned ++ batch))) := by
  intro s returned
  have inv : Feed.Inv validateSummary runId s := Feed.after_inv events
  have taken : s.received = returned := Feed.run_received .start events
  rw [← taken]
  refine ⟨inv.holds, inv.numbers, fun repo c looked => ?_, fun repo c body asked answered => ?_⟩
  · rw [← inv.cursor] at looked
    show (askedFor runId repo (natText s.cursor) s.store).toOption = some c
    rw [looked]
    rfl
  obtain rfl := inv.asked c asked
  refine ⟨rfl, fun small => ?_⟩
  have here := answered
  simp only [response, Checked.bind_eq_ok, Checked.pure_eq_ok] at answered
  obtain ⟨views, read, rfl⟩ := answered
  obtain ⟨parsed, next, -⟩ := inv.page dates read
  have holds := inv.holds.page next
  have within := holds.length_le
  rw [List.length_append, List.length_map] at within
  rw [if_pos (within.trans small)] at parsed
  refine ⟨_, parsed, ?_, ?_, holds, fun short => ?_⟩
  · have last : s.batch validateSummary dates runId (.answer repo) = some (views.map StreamedEvent.held) := by
      simp only [Feed.batch, asked, here, parsed, Except.toOption, Option.bind_eq_bind, Option.bind_some]
    rw [Feed.batches_append, Feed.batches, Feed.batches, List.append_nil]
    exact congrArg (_ ++ Option.toList ·) last
  · rw [← next.length_eq, List.length_take, List.length_drop]
  · have whole := Numbered.ends_of_short inv.holds next short
    unfold Numbered.Holds at holds
    rw [List.length_append, whole, List.take_length] at holds
    exact holds

theorem epoch_inRange : 0 < maxMicros := by
  decide

/-- A run is admitted and the client asks for its events. -/
def sampleFeed : List FeedEvent :=
  [.write (sampleRepository "a") ⟨0, epoch_inRange⟩
      (.createJob { sampleRequest "first" with jobNamespace := .agent, jobType := agentJobType }),
    .ask (sampleRepository "b")]

theorem agent_feed_sample :
    let s := Feed.after (fun _ => none) .iso "agent_a0" sampleFeed
    ∃ repo body batch, response (fun _ => none) "agent_a0" repo 0 s.store = .ok body ∧
      batchOf .iso "agent_a0" 0 body = .ok batch ∧ batch.length = 1 ∧
      List.Forall₂ (Shows (fun _ => none) "agent_a0") (logOf "agent_a0" s.store) batch := by
  intro s
  have asked : s.asked = some 0 := by decide +kernel
  have one : (logOf "agent_a0" s.store).length = 1 := by decide +kernel
  have answers : (response (fun _ => none) "agent_a0" (sampleRepository "c") 0 s.store).isOk = true := by decide +kernel
  have nothing : (Feed.batches (fun _ => none) .iso "agent_a0" .start sampleFeed).flatten = [] := rfl
  obtain ⟨body, answered⟩ : ∃ body, response (fun _ => none) "agent_a0" (sampleRepository "c") 0 s.store = .ok body := by
    cases answered : response (fun _ => none) "agent_a0" (sampleRepository "c") 0 s.store with
    | ok body => exact ⟨body, rfl⟩
    | error e =>
      rw [answered] at answers
      cases answers
  obtain ⟨-, -, -, polled⟩ := agent_feed (fun _ => none) .iso "agent_a0" sampleFeed
  obtain ⟨-, exact_⟩ := polled (sampleRepository "c") 0 body asked answered
  obtain ⟨batch, parsed, -, length, -, whole⟩ := exact_ (by rw [one]; decide)
  rw [nothing, List.length_nil, Nat.sub_zero] at length
  have count : batch.length = 1 := by
    rw [length, one]
    rfl
  rw [nothing, List.nil_append] at whole
  exact ⟨sampleRepository "c", body, batch, answered, parsed, count, whole (by rw [count]; decide)⟩

end Feed

end Agent
