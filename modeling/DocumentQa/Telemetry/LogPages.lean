import DocumentQa.Python.Search
import DocumentQa.Telemetry.Logs

/-!
# Log pages

A reader follows `next_cursor` while the window keeps its rows. What a completed reading
yields is every record of the window once, newest first. Every page that is asked for is
served, but the cursor of a page may name a record that the service does not take back: a
reading completes exactly when every record that ends a page before the last can be named.
-/

namespace Telemetry

open Python JsonText Jobs

variable {forbidden : List String} {t : Tables} {request : LogRequest} {clock : Nat → Instant}

/-! ## Cursors -/

/-- The service takes back a cursor that names this record. -/
structure CursorFits (occurredAt recordId : String) : Prop where
  short : (encodeCursor occurredAt recordId).toList.length ≤ maxCursorChars
  timestamp : ∃ instant, parseUtc occurredAt "log cursor timestamp" = .ok instant
  identity : opaqueId.fullmatch recordId = true

theorem decodeText_encodeCursor (occurredAt recordId : String) :
    decodeText (encodeCursor occurredAt recordId) = some (.arr [.str occurredAt, .str recordId]) := by
  rw [decodeText, encodeCursor, String.toList_ofList, Base64.padded_unpadded, Base64.decode_encode]
  rw [Option.bind_eq_bind, Option.bind_some, Utf8.decode_encode, if_pos rfl, loads_asciiStrings]
  rfl

theorem encodeCursor_ne (occurredAt recordId : String) : encodeCursor occurredAt recordId ≠ "" := by
  intro empty
  have decoded := decodeText_encodeCursor occurredAt recordId
  have none_ : decodeText "" = none := by rfl
  rw [empty, none_] at decoded
  exact Option.some_ne_none _ decoded.symm

/-- A cursor reads back exactly when it fits. -/
theorem decodeCursor_encodeCursor {occurredAt recordId : String} (fits : CursorFits occurredAt recordId) :
    decodeCursor (encodeCursor occurredAt recordId) = .ok (occurredAt, recordId) := by
  obtain ⟨instant, timestamp⟩ := fits.timestamp
  rw [decodeCursor, decodeText_encodeCursor, Checked.require, if_pos ⟨encodeCursor_ne _ _, fits.short⟩]
  show (do let _ ← parseUtc occurredAt "log cursor timestamp"; _) = _
  rw [timestamp, Checked.require, if_pos fits.identity]
  rfl

theorem decodeCursor_refuses {occurredAt recordId : String} (unfit : ¬CursorFits occurredAt recordId) :
    ∃ e, decodeCursor (encodeCursor occurredAt recordId) = .error e := by
  cases decoded : decodeCursor (encodeCursor occurredAt recordId) with
  | error e => exact ⟨e, rfl⟩
  | ok pair =>
    exfalso
    apply unfit
    rw [decodeCursor, decodeText_encodeCursor, Checked.bind_eq_ok] at decoded
    obtain ⟨_, short, decoded⟩ := decoded
    rw [Checked.require_eq_ok] at short
    rw [Checked.bind_eq_ok] at decoded
    obtain ⟨instant, timestamp, decoded⟩ := decoded
    rw [Checked.bind_eq_ok] at decoded
    obtain ⟨_, identity, -⟩ := decoded
    exact ⟨short.2, ⟨instant, timestamp⟩, Checked.require_eq_ok.1 identity⟩

theorem behind_iff {c : String × String} {occurredAt recordId : String} :
    behind (some c) occurredAt recordId = true ↔ key occurredAt recordId < key c.1 c.2 := by
  rw [behind, Option.all_some, Bool.or_eq_true, Bool.and_eq_true, decide_eq_true_eq, decide_eq_true_eq, decide_eq_true_eq,
    key, key, Prod.Lex.toLex_lt_toLex]

/-! ## Rows and their records -/

/-- The log record of a row, its metadata read. -/
def TelemetryRow.logRecord (row : TelemetryRow) : OperationalLogRecord :=
  row.record ((decodeMetadata row.metadataJson).toOption.getD ⟨[], JsonObject.distinct_nil⟩)

/-- The row is one that `_record_from_row` reads. -/
def TelemetryRow.Readable (forbidden : List String) (row : TelemetryRow) : Prop :=
  ∃ r, recordFromRow forbidden row = .ok r

theorem recordFromRow_eq_ok {row : TelemetryRow} {r : OperationalLogRecord} :
    recordFromRow forbidden row = .ok r ↔ row.Readable forbidden ∧ row.logRecord = r := by
  have closed {r : OperationalLogRecord} (h : recordFromRow forbidden row = .ok r) : row.logRecord = r := by
    unfold recordFromRow at h
    rw [Checked.bind_eq_ok] at h
    obtain ⟨_, -, h⟩ := h
    rw [Checked.bind_eq_ok] at h
    obtain ⟨_, -, h⟩ := h
    split at h
    · cases h
    · rw [Checked.bind_eq_ok] at h
      obtain ⟨_, -, h⟩ := h
      rw [Checked.bind_eq_ok] at h
      obtain ⟨_, -, h⟩ := h
      rw [Checked.bind_eq_ok] at h
      obtain ⟨metadata, read, h⟩ := h
      cases h
      rw [TelemetryRow.logRecord, read]
      rfl
  constructor
  · exact fun h => ⟨⟨r, h⟩, closed h⟩
  · rintro ⟨⟨r', h⟩, rfl⟩
    rw [h, closed h]

/-- Readable rows have an identity that starts with `tel_`. -/
theorem TelemetryRow.Readable.identity {row : TelemetryRow} (h : row.Readable forbidden) :
    row.telemetryId.toList.take 4 = "tel_".toList := by
  obtain ⟨r, h⟩ := h
  unfold recordFromRow at h
  rw [Checked.bind_eq_ok] at h
  obtain ⟨_, -, h⟩ := h
  rw [Checked.bind_eq_ok] at h
  obtain ⟨_, -, h⟩ := h
  cases checked : checkIdentity forbidden row with
  | error e =>
    rw [checked] at h
    cases h
  | ok u =>
    unfold checkIdentity at checked
    rw [Checked.bind_eq_ok] at checked
    obtain ⟨_, identity, -⟩ := checked
    rw [Checked.require_eq_ok, isTelemetryId, Bool.and_eq_true, decide_eq_true_eq] at identity
    exact identity.1

theorem projectJob_eq_ok {row : JobRow} {r : OperationalLogRecord} :
    projectJob row = .ok r ↔
      (opaqueId.fullmatch row.jobId = true ∧ row.failureCode.all safeCode.fullmatch = true) ∧ jobRecord row = r := by
  unfold projectJob
  rw [Checked.bind_eq_ok]
  simp only [Checked.require_eq_ok, Checked.pure_eq_ok]
  constructor
  · rintro ⟨_, valid, made⟩
    exact ⟨valid, made⟩
  · rintro ⟨valid, made⟩
    exact ⟨(), valid, made⟩

/-- The identity of a job's record tells the job: the revision stands behind the last colon. -/
theorem jobRecordId_injective {row row' : JobRow} (h : jobRecordId row = jobRecordId row') : row.jobId = row'.jobId := by
  have parts : row.jobId.toList ++ ':' :: natText row.revision = row'.jobId.toList ++ ':' :: natText row'.revision := by
    have whole := String.ofList_injective h
    rw [List.append_assoc, List.append_assoc] at whole
    exact List.append_cancel_left whole
  have turned : (natText row.revision).reverse ++ ':' :: row.jobId.toList.reverse =
      (natText row'.revision).reverse ++ ':' :: row'.jobId.toList.reverse := by
    have reversed := congrArg List.reverse parts
    simpa only [List.reverse_append, List.reverse_cons, List.append_assoc, List.singleton_append] using reversed
  have unmarked (n : Nat) : ':' ∉ (natText n).reverse := by
    intro mem
    have digit := natText_isDigit (List.mem_reverse.1 mem)
    revert digit
    decide
  obtain ⟨-, same⟩ := separated_injective (unmarked _) (unmarked _) turned
  exact String.toList_injective (List.reverse_injective same)

/-! ## Matching records -/

/-- The records of the requests that the filters let through. -/
def requestRecords (t : Tables) (now : Instant) (request : LogRequest) : List OperationalLogRecord :=
  if request.category ≠ some .job then (t.events.filter (TelemetryRow.selected now request.level)).map TelemetryRow.logRecord
  else []

/-- The records of the jobs that the filters let through. -/
def jobRecords (t : Tables) (now : Instant) (request : LogRequest) : List OperationalLogRecord :=
  if request.category ≠ some .request then (t.jobs.filter (jobSelected now request.level)).map jobRecord else []

/-- What a reading has to yield, newest first. -/
def matching (t : Tables) (now : Instant) (request : LogRequest) : List OperationalLogRecord :=
  Ranking.descending (· ≤ ·) OperationalLogRecord.key (requestRecords t now request ++ jobRecords t now request)

/-- Tables as the two repositories keep them: the identities are primary keys, and the terminal rows
pass the checks of their readers. -/
structure Stored (forbidden : List String) (t : Tables) : Prop where
  events : (t.events.map TelemetryRow.telemetryId).Nodup
  jobs : (t.jobs.map JobRow.jobId).Nodup
  readable : ∀ row ∈ t.events, row.eventName = "request_terminal" → row.Readable forbidden
  projected : ∀ row ∈ t.jobs, row.state.terminal = true → row.jobNamespace ≠ .agent →
    opaqueId.fullmatch row.jobId = true ∧ row.failureCode.all safeCode.fullmatch = true

/-- The window of each reading has the rows that the first one's has. -/
structure Steady (t : Tables) (clock : Nat → Instant) (request : LogRequest) : Prop where
  events : ∀ k, ∀ row ∈ t.events, row.selected (clock k) request.level = row.selected (clock 0) request.level
  jobs : ∀ k, ∀ row ∈ t.jobs, jobSelected (clock k) request.level row = jobSelected (clock 0) request.level row

theorem Stored.readable_selected (stored : Stored forbidden t) {now : Instant} {level : Option TelemetrySeverity}
    {row : TelemetryRow} (mem : row ∈ t.events.filter (TelemetryRow.selected now level)) : row.Readable forbidden := by
  obtain ⟨here, selected⟩ := List.mem_filter.1 mem
  unfold TelemetryRow.selected at selected
  simp only [Bool.and_eq_true, decide_eq_true_eq] at selected
  exact stored.readable row here selected.1.1.1.1

theorem Stored.projected_selected (stored : Stored forbidden t) {now : Instant} {level : Option TelemetrySeverity} {row : JobRow}
    (mem : row ∈ t.jobs.filter (jobSelected now level)) :
    opaqueId.fullmatch row.jobId = true ∧ row.failureCode.all safeCode.fullmatch = true := by
  obtain ⟨here, selected⟩ := List.mem_filter.1 mem
  unfold jobSelected at selected
  simp only [Bool.and_eq_true, decide_eq_true_eq] at selected
  exact stored.projected row here selected.1.1.1.1.1 selected.1.1.1.1.2

/-- **Identities are apart** within the two sources and across them. -/
theorem Stored.distinct (stored : Stored forbidden t) (now : Instant) (request : LogRequest) :
    ((requestRecords t now request ++ jobRecords t now request).map OperationalLogRecord.key).Nodup := by
  apply List.Nodup.of_map fun k : Key => (ofLex k).2
  rw [List.map_map, List.map_append, List.nodup_append]
  refine ⟨?_, ?_, ?_⟩
  · unfold requestRecords
    split
    · rw [List.map_map]
      exact stored.events.sublist (List.filter_sublist.map _)
    · exact List.nodup_nil
  · unfold jobRecords
    split
    · rw [List.map_map]
      have ids : ((t.jobs.filter (jobSelected now request.level)).map JobRow.jobId).Nodup :=
        stored.jobs.sublist (List.filter_sublist.map _)
      exact List.pairwise_map.2 ((List.pairwise_map.1 ids).imp fun apart same => apart (jobRecordId_injective same))
    · exact List.nodup_nil
  · intro id hreq id' hjob same
    unfold requestRecords at hreq
    unfold jobRecords at hjob
    split at hreq
    · split at hjob
      · rw [List.map_map] at hreq hjob
        obtain ⟨row, mem, rfl⟩ := List.mem_map.1 hreq
        obtain ⟨row', -, rfl⟩ := List.mem_map.1 hjob
        have named := (stored.readable_selected mem).identity
        have there : row.telemetryId = jobRecordId row' := same
        rw [there, jobRecordId, String.toList_ofList] at named
        have first := congrArg List.head? named
        rw [List.append_assoc] at first
        revert first
        show some 'j' = some 't' → False
        decide
      · exact absurd hjob List.not_mem_nil
    · exact absurd hreq List.not_mem_nil

/-! ## Pages -/

/-- The record stands behind the cursor. -/
def OperationalLogRecord.behind (cursor : Option (String × String)) (r : OperationalLogRecord) : Bool :=
  Telemetry.behind cursor r.occurredAt r.recordId

/-- The page of what is left. -/
def pageFrom (rest : List OperationalLogRecord) (limit : Nat) : OperationalLogPage :=
  let hasMore : Bool := limit < rest.length
  ⟨rest.take limit,
    if hasMore then (rest.take limit).getLast?.map fun last => encodeCursor last.occurredAt last.recordId else none,
    hasMore, limit⟩

theorem pageOf_eq (combined : List OperationalLogRecord) (limit : Nat) :
    pageOf combined limit = pageFrom (Ranking.descending (· ≤ ·) OperationalLogRecord.key combined) limit :=
  rfl

/-- A page depends on one record more than it shows. -/
theorem pageFrom_congr {l l' : List OperationalLogRecord} {limit : Nat} (same : l.take (limit + 1) = l'.take (limit + 1)) :
    pageFrom l limit = pageFrom l' limit := by
  have items : l.take limit = l'.take limit := by
    have cut := congrArg (List.take limit) same
    rwa [List.take_take, List.take_take, Nat.min_eq_left (Nat.le_succ limit)] at cut
  have more : decide (limit < l.length) = decide (limit < l'.length) := by
    have lengths := congrArg List.length same
    rw [List.length_take, List.length_take] at lengths
    apply decide_eq_decide.2
    omega
  unfold pageFrom
  rw [items, more]

/-- The first candidates of one source are the first of its records behind the cursor. -/
theorem candidates_eq {ρ : Type} {f : ρ → Except TelemetryError OperationalLogRecord} {P : ρ → Prop}
    {g : ρ → OperationalLogRecord} (reads : ∀ a b, f a = .ok b ↔ P a ∧ g a = b) {rows : List ρ} (valid : ∀ a ∈ rows, P a)
    (cursor : Option (String × String)) (n : Nat) :
    Checked.collect f ((Ranking.descending (· ≤ ·) (fun a => (g a).key) (rows.filter fun a => (g a).behind cursor)).take n) =
      .ok ((Ranking.descending (· ≤ ·) OperationalLogRecord.key
        ((rows.map g).filter (OperationalLogRecord.behind cursor))).take n) := by
  apply (Checked.collect_partial reads).2
  constructor
  · intro a mem
    exact valid a (List.mem_of_mem_filter (Ranking.mem_descending.1 (List.mem_of_mem_take mem)))
  · have ranked : (Ranking.descending (· ≤ ·) (fun a => (g a).key) (rows.filter fun a => (g a).behind cursor)).map g =
        Ranking.descending (· ≤ ·) OperationalLogRecord.key ((rows.filter fun a => (g a).behind cursor).map g) :=
      Ranking.map_descending fun _ _ => rfl
    rw [List.map_take, ranked, List.filter_map]
    rfl

/-- Tables after readings: only events that no reading selects are gone. -/
structure Kept (t : Tables) (clock : Nat → Instant) (request : LogRequest) (t' : Tables) : Prop where
  jobs : t'.jobs = t.jobs
  events : t'.events.Sublist t.events
  selected : t'.events.filter (TelemetryRow.selected (clock 0) request.level) =
    t.events.filter (TelemetryRow.selected (clock 0) request.level)

theorem Kept.refl : Kept t clock request t :=
  ⟨rfl, List.Sublist.refl _, rfl⟩

theorem Kept.prune {t' : Tables} (kept : Kept t clock request t') (steady : Steady t clock request) (k : Nat) :
    Kept t clock request (t'.prune (clock k)) := by
  refine ⟨kept.jobs, List.filter_sublist.trans kept.events, ?_⟩
  rw [← kept.selected]
  show List.filter _ (List.filter _ t'.events) = _
  rw [List.filter_filter]
  apply List.filter_congr
  intro row mem
  by_cases chosen : row.selected (clock 0) request.level = true
  · have now : row.selected (clock k) request.level = true := by
      rw [steady.events k row (kept.events.subset mem)]
      exact chosen
    unfold TelemetryRow.selected at now
    simp only [Bool.and_eq_true, decide_eq_true_eq] at now
    rw [chosen, decide_eq_true now.1.2, Bool.and_true]
  · rw [Bool.not_eq_true] at chosen
    rw [chosen, Bool.false_and]

/-- The rows a reading selects are those of the first window. -/
theorem Kept.events_selected {t' : Tables} (kept : Kept t clock request t') (steady : Steady t clock request) (k : Nat) :
    t'.events.filter (TelemetryRow.selected (clock k) request.level) =
      t.events.filter (TelemetryRow.selected (clock 0) request.level) := by
  rw [← kept.selected]
  apply List.filter_congr
  intro row mem
  exact steady.events k row (kept.events.subset mem)

theorem Kept.jobs_selected {t' : Tables} (kept : Kept t clock request t') (steady : Steady t clock request) (k : Nat) :
    t'.jobs.filter (jobSelected (clock k) request.level) = t.jobs.filter (jobSelected (clock 0) request.level) := by
  rw [kept.jobs]
  apply List.filter_congr
  intro row mem
  exact steady.jobs k row mem

section Reading

variable (stored : Stored forbidden t) (steady : Steady t clock request)
include stored steady

theorem requestLogCandidates_eq {t' : Tables} (kept : Kept t clock request t') (k : Nat) (cursor : Option (String × String))
    (n : Nat) :
    t'.requestLogCandidates forbidden (clock k) request.level cursor n =
      .ok ((Ranking.descending (· ≤ ·) OperationalLogRecord.key
        (((t.events.filter (TelemetryRow.selected (clock 0) request.level)).map TelemetryRow.logRecord).filter
          (OperationalLogRecord.behind cursor))).take n) := by
  have rows : (t'.events.filter fun row => row.selected (clock k) request.level && behind cursor row.occurredAt row.telemetryId) =
      (t.events.filter (TelemetryRow.selected (clock 0) request.level)).filter fun row => row.logRecord.behind cursor := by
    rw [← kept.events_selected steady k, List.filter_filter]
    exact List.filter_congr fun row _ => Bool.and_comm _ _
  unfold Tables.requestLogCandidates
  rw [rows]
  exact candidates_eq (fun _ _ => recordFromRow_eq_ok) (fun _ mem => stored.readable_selected mem) cursor n

theorem jobLogCandidates_eq {t' : Tables} (kept : Kept t clock request t') (k : Nat) (cursor : Option (String × String))
    (n : Nat) :
    t'.jobLogCandidates (clock k) request.level cursor n =
      .ok ((Ranking.descending (· ≤ ·) OperationalLogRecord.key
        (((t.jobs.filter (jobSelected (clock 0) request.level)).map jobRecord).filter
          (OperationalLogRecord.behind cursor))).take n) := by
  have rows : (t'.jobs.filter fun row => jobSelected (clock k) request.level row &&
        behind cursor (finishedAt row) (jobRecordId row)) =
      (t.jobs.filter (jobSelected (clock 0) request.level)).filter fun row => (jobRecord row).behind cursor := by
    rw [← kept.jobs_selected steady k, List.filter_filter]
    exact List.filter_congr fun row _ => Bool.and_comm _ _
  unfold Tables.jobLogCandidates
  rw [rows]
  exact candidates_eq (fun _ _ => projectJob_eq_ok) (fun _ mem => stored.projected_selected mem) cursor n

/-- **One page** is cut from what stands behind its cursor in the ranking of both sources. -/
theorem combined_page {t' : Tables} (kept : Kept t clock request t') (k : Nat) (cursor : Option (String × String)) :
    (t'.combined forbidden (clock k) request cursor).map (fun combined => pageOf combined request.limit) =
      .ok (pageFrom ((matching t (clock 0) request).filter (OperationalLogRecord.behind cursor)) request.limit) := by
  have requests : (if request.category ≠ some .job then
        t'.requestLogCandidates forbidden (clock k) request.level cursor (request.limit + 1) else .ok []) =
      .ok ((Ranking.descending (· ≤ ·) OperationalLogRecord.key
        ((requestRecords t (clock 0) request).filter (OperationalLogRecord.behind cursor))).take (request.limit + 1)) := by
    unfold requestRecords
    split
    · exact requestLogCandidates_eq stored steady kept k cursor _
    · rfl
  have jobs : (if request.category ≠ some .request then
        t'.jobLogCandidates (clock k) request.level cursor (request.limit + 1) else .ok []) =
      .ok ((Ranking.descending (· ≤ ·) OperationalLogRecord.key
        ((jobRecords t (clock 0) request).filter (OperationalLogRecord.behind cursor))).take (request.limit + 1)) := by
    unfold jobRecords
    split
    · exact jobLogCandidates_eq stored steady kept k cursor _
    · rfl
  unfold Tables.combined
  dsimp only
  rw [requests, jobs]
  refine congrArg Except.ok ?_
  show pageOf (_ ++ _) request.limit = _
  have distinct := stored.distinct (clock 0) request
  rw [pageOf_eq, matching, ← Ranking.descending_filter distinct, List.filter_append]
  apply pageFrom_congr
  apply Ranking.take_descending_append
  rw [← List.filter_append]
  exact distinct.sublist (List.filter_sublist.map _)

theorem logs_page {t' : Tables} (kept : Kept t clock request t') (k : Nat) {cursor : Option String}
    {value : Option (String × String)} (read : checkRequest request cursor = .ok value) :
    ∃ t'', Kept t clock request t'' ∧ t'.logs forbidden (clock k) request cursor =
      (t'', .ok (pageFrom ((matching t (clock 0) request).filter (OperationalLogRecord.behind value)) request.limit)) := by
  have after : Kept t clock request (if request.category ≠ some .job then t'.prune (clock k) else t') := by
    split
    · exact kept.prune steady k
    · exact kept
  refine ⟨_, after, ?_⟩
  unfold Tables.logs
  rw [read]
  dsimp only
  rw [combined_page stored steady after k value]

end Reading

/-! ## Readings -/

/-- The pages a reader gets from one reading on, each cursor followed, to the last one. -/
inductive Reads (forbidden : List String) (clock : Nat → Instant) (request : LogRequest) :
    Nat → Tables → Option String → List OperationalLogPage → Prop
  | last {k : Nat} {t t' : Tables} {cursor : Option String} {page : OperationalLogPage}
      (served : t.logs forbidden (clock k) request cursor = (t', .ok page)) (done : page.hasMore = false) :
      Reads forbidden clock request k t cursor [page]
  | more {k : Nat} {t t' : Tables} {cursor : Option String} {next : String} {page : OperationalLogPage}
      {pages : List OperationalLogPage} (served : t.logs forbidden (clock k) request cursor = (t', .ok page))
      (more : page.hasMore = true) (named : page.nextCursor = some next)
      (rest : Reads forbidden clock request (k + 1) t' (some next) pages) :
      Reads forbidden clock request k t cursor (page :: pages)

/-- The cursor of a reader who has seen the first `i` records. -/
def cursorAt (records : List OperationalLogRecord) : Nat → Option String
  | 0 => none
  | i + 1 => records[i]?.map fun r => encodeCursor r.occurredAt r.recordId

/-- The service takes back the cursor behind the first `i` records. -/
def Named (records : List OperationalLogRecord) : Nat → Prop
  | 0 => True
  | i + 1 => ∀ r, records[i]? = some r → CursorFits r.occurredAt r.recordId

theorem key_lt_iff {r r' : OperationalLogRecord} :
    r.behind (some (r'.occurredAt, r'.recordId)) = true ↔ r.key < r'.key :=
  behind_iff

/-- Behind the cursor of a place stands what comes after it. -/
theorem filter_cursorAt {records : List OperationalLogRecord} (order : records.Pairwise fun a b => b.key < a.key) {i : Nat}
    {r : OperationalLogRecord} (here : records[i]? = some r) :
    records.filter (OperationalLogRecord.behind (some (r.occurredAt, r.recordId))) = records.drop (i + 1) := by
  have parts : records = records.take i ++ r :: records.drop (i + 1) := by
    obtain ⟨inside, same⟩ := List.getElem?_eq_some_iff.1 here
    rw [← same, ← List.drop_eq_getElem_cons inside, List.take_append_drop]
  have split : ((records.take i ++ r :: records.drop (i + 1)).filter fun a => a.key < r.key) = records.drop (i + 1) :=
    Ranking.filter_behind (parts ▸ order)
  rw [← parts] at split
  rw [← split]
  apply List.filter_congr
  intro r' _
  apply Bool.eq_iff_iff.2
  rw [key_lt_iff, decide_eq_true_eq]

section Positions

variable {records : List OperationalLogRecord} {i : Nat} (limits : 1 ≤ request.limit ∧ request.limit ≤ maxLogLimit)
include limits

/-- A cursor that can be named is read, and leaves what comes after it. -/
theorem checkRequest_named (order : records.Pairwise fun a b => b.key < a.key) (inside : i ≤ records.length)
    (named : Named records i) :
    ∃ value, checkRequest request (cursorAt records i) = .ok value ∧
      records.filter (OperationalLogRecord.behind value) = records.drop i := by
  unfold checkRequest
  rw [Checked.require, if_pos limits, Checked.ok_bind]
  cases i with
  | zero =>
    refine ⟨none, rfl, ?_⟩
    rw [List.drop_zero]
    exact List.filter_eq_self.2 fun _ _ => rfl
  | succ i =>
    have here : records[i]? = some records[i] := List.getElem?_eq_getElem inside
    refine ⟨_, ?_, filter_cursorAt order here⟩
    rw [cursorAt, here, Option.map_some]
    dsimp only
    rw [decodeCursor_encodeCursor (named _ here)]
    rfl

/-- A cursor that cannot be named is refused. -/
theorem checkRequest_unnamed (inside : i ≤ records.length) (unnamed : ¬Named records i) :
    ∃ e, checkRequest request (cursorAt records i) = .error e := by
  unfold checkRequest
  rw [Checked.require, if_pos limits, Checked.ok_bind]
  cases i with
  | zero => exact absurd trivial unnamed
  | succ i =>
    have here : records[i]? = some records[i] := List.getElem?_eq_getElem inside
    have unfit : ¬CursorFits records[i].occurredAt records[i].recordId := by
      intro fits
      apply unnamed
      intro r at_
      rw [here] at at_
      cases at_
      exact fits
    obtain ⟨e, refused⟩ := decodeCursor_refuses unfit
    refine ⟨e, ?_⟩
    rw [cursorAt, here, Option.map_some]
    dsimp only
    rw [refused]
    rfl

end Positions

/-- The cursor of a page that is not the last names its last record. -/
theorem pageFrom_more {records : List OperationalLogRecord} {i limit : Nat} (some_ : 1 ≤ limit)
    (more : limit < (records.drop i).length) :
    (pageFrom (records.drop i) limit).hasMore = true ∧
      (pageFrom (records.drop i) limit).nextCursor = cursorAt records (i + limit) := by
  refine ⟨decide_eq_true more, ?_⟩
  unfold pageFrom
  dsimp only
  rw [if_pos (decide_eq_true more)]
  obtain ⟨limit, rfl⟩ : ∃ k, limit = k + 1 := ⟨limit - 1, by omega⟩
  have last : ((records.drop i).take (limit + 1)).getLast? = records[i + limit]? := by
    rw [List.getLast?_eq_getElem?, List.length_take, Nat.min_eq_left (by omega), Nat.add_sub_cancel, List.getElem?_take,
      if_pos (Nat.lt_succ_self limit), List.getElem?_drop]
  rw [last]
  rfl

theorem pageFrom_last {records : List OperationalLogRecord} {limit : Nat} (done : ¬limit < records.length) :
    (pageFrom records limit).hasMore = false ∧ (pageFrom records limit).items = records :=
  ⟨decide_eq_false done, List.take_of_length_le (Nat.le_of_not_lt done)⟩

/-- The service takes back the cursor at this place and those of the pages that follow. -/
def Served (records : List OperationalLogRecord) (limit i : Nat) : Prop :=
  ∀ m, i + m * limit < records.length → Named records (i + m * limit)

theorem served_step {records : List OperationalLogRecord} {limit i : Nat} (start : i < records.length ∨ i = 0) :
    Served records limit i ↔ Named records i ∧ (i + limit < records.length → Served records limit (i + limit)) := by
  have place (m : Nat) : i + (m + 1) * limit = i + limit + m * limit := by
    rw [Nat.succ_mul]
    omega
  constructor
  · intro served
    constructor
    · rcases start with inside | rfl
      · have first := served 0
        rw [Nat.zero_mul, Nat.add_zero] at first
        exact first inside
      · trivial
    · intro _ m within
      have later := served (m + 1)
      rw [place] at later
      exact later within
  · rintro ⟨named, rest⟩ m within
    cases m with
    | zero =>
      rw [Nat.zero_mul, Nat.add_zero]
      exact named
    | succ m =>
      rw [place] at within ⊢
      exact rest (by omega) m within

theorem logs_refused {t' : Tables} {k : Nat} {cursor : Option String} {e : TelemetryError}
    (refused : checkRequest request cursor = .error e) : t'.logs forbidden (clock k) request cursor = (t', .error e) := by
  unfold Tables.logs
  rw [refused]

/-- Nothing is read behind a cursor that is refused. -/
theorem not_reads {k : Nat} {t' : Tables} {cursor : Option String} {pages : List OperationalLogPage} {e : TelemetryError}
    (refused : checkRequest request cursor = .error e) : ¬Reads forbidden clock request k t' cursor pages := by
  intro reads
  cases reads with
  | last served _ =>
    rw [logs_refused refused] at served
    cases served
  | more served _ _ _ =>
    rw [logs_refused refused] at served
    cases served

/-- **A reading from any place on** yields what comes after it, and completes exactly when the cursors on
its way are taken back. The induction is on what is left. -/
theorem reads_from (stored : Stored forbidden t) (steady : Steady t clock request)
    (limits : 1 ≤ request.limit ∧ request.limit ≤ maxLogLimit) (n : Nat) {i k : Nat} {t' : Tables}
    (left : (matching t (clock 0) request).length - i = n) (start : i < (matching t (clock 0) request).length ∨ i = 0)
    (kept : Kept t clock request t') :
    (∀ pages, Reads forbidden clock request k t' (cursorAt (matching t (clock 0) request) i) pages →
      pages.flatMap OperationalLogPage.items = (matching t (clock 0) request).drop i) ∧
    ((∃ pages, Reads forbidden clock request k t' (cursorAt (matching t (clock 0) request) i) pages) ↔
      Served (matching t (clock 0) request) request.limit i) := by
  have order : (matching t (clock 0) request).Pairwise fun a b => b.key < a.key :=
    Ranking.descending_strict (stored.distinct (clock 0) request)
  generalize listed : matching t (clock 0) request = records at left start order ⊢
  induction n using Nat.strong_induction_on generalizing i k t' with
  | h n ih =>
    have inside : i ≤ records.length := by omega
    rw [served_step start]
    by_cases named : Named records i
    · obtain ⟨value, read, behind⟩ := checkRequest_named limits order inside named
      obtain ⟨after, kept', served⟩ := logs_page stored steady kept k read
      rw [listed, behind] at served
      by_cases more : request.limit < (records.drop i).length
      · obtain ⟨hasMore, nextCursor⟩ := pageFrom_more limits.1 more
        rw [List.length_drop] at more
        obtain ⟨next, follows⟩ : ∃ next, cursorAt records (i + request.limit) = some next := by
          obtain ⟨limit, same⟩ : ∃ m, i + request.limit = m + 1 := ⟨i + request.limit - 1, by omega⟩
          rw [same, cursorAt, List.getElem?_eq_getElem (by omega), Option.map_some]
          exact ⟨_, rfl⟩
        rw [follows] at nextCursor
        obtain ⟨yields, completes⟩ := @ih (records.length - (i + request.limit)) (by omega) (i + request.limit) (k + 1) after
          kept' rfl (.inl (by omega))
        rw [follows] at yields completes
        constructor
        · intro pages reads
          cases reads with
          | last served' done =>
            rw [served] at served'
            cases served'
            rw [hasMore] at done
            cases done
          | more served' _ named' rest =>
            rw [served] at served'
            cases served'
            rw [nextCursor] at named'
            cases named'
            rw [List.flatMap_cons, yields _ rest, ← List.drop_drop]
            exact List.take_append_drop request.limit (records.drop i)
        · constructor
          · rintro ⟨pages, reads⟩
            refine ⟨named, fun _ => completes.1 ?_⟩
            cases reads with
            | last served' done =>
              rw [served] at served'
              cases served'
              rw [hasMore] at done
              cases done
            | more served' _ named' rest =>
              rw [served] at served'
              cases served'
              rw [nextCursor] at named'
              cases named'
              exact ⟨_, rest⟩
          · rintro ⟨-, later⟩
            obtain ⟨pages, rest⟩ := completes.2 (later (by omega))
            exact ⟨_, .more served hasMore nextCursor rest⟩
      · obtain ⟨done, items⟩ := pageFrom_last more
        rw [List.length_drop] at more
        constructor
        · intro pages reads
          cases reads with
          | last served' _ =>
            rw [served] at served'
            cases served'
            rw [List.flatMap_singleton, items]
          | more served' hasMore _ _ =>
            rw [served] at served'
            cases served'
            rw [done] at hasMore
            cases hasMore
        · constructor
          · intro _
            exact ⟨named, fun within => absurd within (by omega)⟩
          · intro _
            exact ⟨_, .last served done⟩
    · obtain ⟨e, refused⟩ := checkRequest_unnamed limits inside named
      constructor
      · intro pages reads
        exact absurd reads (not_reads refused)
      · constructor
        · rintro ⟨pages, reads⟩
          exact absurd reads (not_reads refused)
        · rintro ⟨named', -⟩
          exact absurd named' named

/-- The records a reading has to yield. -/
def Matching (forbidden : List String) (t : Tables) (now : Instant) (request : LogRequest) (r : OperationalLogRecord) : Prop :=
  (request.category ≠ some .job ∧ ∃ row ∈ t.events, row.selected now request.level = true ∧ recordFromRow forbidden row = .ok r) ∨
    (request.category ≠ some .request ∧ ∃ row ∈ t.jobs, jobSelected now request.level row = true ∧ projectJob row = .ok r)

/-- Every matching record once, newest first. -/
structure Exact (forbidden : List String) (t : Tables) (now : Instant) (request : LogRequest)
    (records : List OperationalLogRecord) : Prop where
  complete : ∀ r, r ∈ records ↔ Matching forbidden t now request r
  order : records.Pairwise fun a b => b.key < a.key

theorem matching_exact (stored : Stored forbidden t) (now : Instant) : Exact forbidden t now request (matching t now request) := by
  refine ⟨?_, Ranking.descending_strict (stored.distinct now request)⟩
  intro r
  rw [matching, Ranking.mem_descending, List.mem_append]
  apply or_congr
  · unfold requestRecords
    split
    · next admitted =>
      rw [List.mem_map]
      constructor
      · rintro ⟨row, mem, rfl⟩
        obtain ⟨here, selected⟩ := List.mem_filter.1 mem
        exact ⟨admitted, row, here, selected, recordFromRow_eq_ok.2 ⟨stored.readable_selected mem, rfl⟩⟩
      · rintro ⟨-, row, here, selected, read⟩
        exact ⟨row, List.mem_filter.2 ⟨here, selected⟩, (recordFromRow_eq_ok.1 read).2⟩
    · next refused => exact ⟨fun mem => absurd mem List.not_mem_nil, fun h => absurd h.1 refused⟩
  · unfold jobRecords
    split
    · next admitted =>
      rw [List.mem_map]
      constructor
      · rintro ⟨row, mem, rfl⟩
        obtain ⟨here, selected⟩ := List.mem_filter.1 mem
        exact ⟨admitted, row, here, selected, projectJob_eq_ok.2 ⟨stored.projected_selected mem, rfl⟩⟩
      · rintro ⟨-, row, here, selected, read⟩
        exact ⟨row, List.mem_filter.2 ⟨here, selected⟩, (projectJob_eq_ok.1 read).2⟩
    · next refused => exact ⟨fun mem => absurd mem List.not_mem_nil, fun h => absurd h.1 refused⟩

/-- **Exact pagination.** Whatever the pages, following the cursors yields every matching record once,
newest first, exactly when every record that ends a page before the last can be named by a cursor. -/
theorem logs_exact_iff (stored : Stored forbidden t) (steady : Steady t clock request)
    (limits : 1 ≤ request.limit ∧ request.limit ≤ maxLogLimit) :
    (∃ pages, Reads forbidden clock request 0 t none pages ∧
      Exact forbidden t (clock 0) request (pages.flatMap OperationalLogPage.items)) ↔
    ∀ m r, 0 < m → m * request.limit < (matching t (clock 0) request).length →
      (matching t (clock 0) request)[m * request.limit - 1]? = some r → CursorFits r.occurredAt r.recordId := by
  obtain ⟨yields, completes⟩ := reads_from stored steady limits _ rfl (.inr rfl) Kept.refl (k := 0)
  have exact_ {pages : List OperationalLogPage} (reads : Reads forbidden clock request 0 t none pages) :
      Exact forbidden t (clock 0) request (pages.flatMap OperationalLogPage.items) := by
    rw [yields pages reads, List.drop_zero]
    exact matching_exact stored (clock 0)
  constructor
  · rintro ⟨pages, reads, -⟩ m r positive inside here
    have named := completes.1 ⟨pages, reads⟩ m
    rw [Nat.zero_add] at named
    have length : 1 ≤ m * request.limit := Nat.mul_pos positive limits.1
    obtain ⟨place, same⟩ : ∃ place, m * request.limit = place + 1 := ⟨m * request.limit - 1, by omega⟩
    rw [same] at named inside here
    exact named inside r here
  · intro fits
    have served : Served (matching t (clock 0) request) request.limit 0 := by
      intro m inside
      rw [Nat.zero_add] at inside ⊢
      cases same : m * request.limit with
      | zero => trivial
      | succ place =>
        intro r here
        have positive : 0 < m := by
          apply Nat.pos_of_ne_zero
          rintro rfl
          omega
        apply fits m r positive inside
        rw [same]
        exact here
    obtain ⟨pages, reads⟩ := completes.2 served
    exact ⟨pages, reads, exact_ reads⟩

/-! ## Samples -/

/-- The first day of 2026. -/
def sampleNow : Instant :=
  ⟨1767225600000000, by decide, by decide⟩

/-- A job that succeeded an hour before. -/
def sampleJob (jobId : String) : JobRow where
  jobId := jobId
  jobNamespace := .pipeline
  jobType := "ingest"
  state := .succeeded
  configurationFingerprint := ""
  failureCode := none
  revision := 3
  createdAt := "2025-12-31T22:00:00.000000Z"
  updatedAt := "2025-12-31T23:00:00.000000Z"
  startedAt := none
  finishedAt := some "2025-12-31T23:00:00.000000Z"
  recordSchemaVersion := some 1
  idempotencyKeyHash := none
  payloadJson := none
  artifactReferencesJson := none
  progress := ⟨none, none, none⟩
  resultJson := none
  failureMessage := none
  cancellationRequestedAt := none

def sampleTables (a b : String) : Tables :=
  ⟨[], [sampleJob a, sampleJob b]⟩

def oneByOne : LogRequest :=
  ⟨none, none, 1⟩

theorem sampleJob_selected (jobId : String) : jobSelected sampleNow none (sampleJob jobId) = true := by
  have same : jobSelected sampleNow none (sampleJob jobId) = jobSelected sampleNow none (sampleJob "") := rfl
  rw [same]
  decide +kernel

theorem sample_matching (a b : String) {r : OperationalLogRecord} (mem : r ∈ matching (sampleTables a b) sampleNow oneByOne) :
    r = jobRecord (sampleJob a) ∨ r = jobRecord (sampleJob b) := by
  rw [matching, Ranking.mem_descending, List.mem_append] at mem
  rcases mem with request | job
  · exact absurd request List.not_mem_nil
  · obtain ⟨row, row_mem, rfl⟩ := List.mem_map.1 job
    rcases List.mem_cons.1 (List.mem_of_mem_filter row_mem) with rfl | other
    · exact .inl rfl
    · rw [List.mem_singleton.1 other]
      exact .inr rfl

theorem sample_length (a b : String) : (matching (sampleTables a b) sampleNow oneByOne).length = 2 := by
  rw [matching, Ranking.descending_perm.length_eq]
  show (((([sampleJob a, sampleJob b].filter (jobSelected sampleNow none))).map jobRecord)).length = 2
  rw [List.filter_cons_of_pos (sampleJob_selected a), List.filter_cons_of_pos (sampleJob_selected b)]
  rfl

theorem sample_stored {a b : String} (apart : a ≠ b) (ha : opaqueId.fullmatch a = true) (hb : opaqueId.fullmatch b = true) :
    Stored [] (sampleTables a b) := by
  refine ⟨List.nodup_nil, ?_, fun row mem => absurd mem List.not_mem_nil, ?_⟩
  · exact List.nodup_cons.2 ⟨fun mem => apart (List.mem_singleton.1 mem), List.nodup_singleton _⟩
  · intro row mem _ _
    rcases List.mem_cons.1 mem with rfl | other
    · exact ⟨ha, rfl⟩
    · rw [List.mem_singleton.1 other]
      exact ⟨hb, rfl⟩

theorem sample_steady (a b : String) : Steady (sampleTables a b) (fun _ => sampleNow) oneByOne :=
  ⟨fun _ _ _ => rfl, fun _ _ _ => rfl⟩

/-- A record that ends at the same time as another is not lost between two pages. -/
theorem tied_jobs_read : ∃ pages, Reads [] (fun _ => sampleNow) oneByOne 0 (sampleTables "a" "b") none pages ∧
    Exact [] (sampleTables "a" "b") sampleNow oneByOne (pages.flatMap OperationalLogPage.items) := by
  refine (logs_exact_iff (sample_stored (by decide) (by decide) (by decide)) (sample_steady "a" "b") (by decide)).2 ?_
  intro m r _ _ here
  rcases sample_matching "a" "b" (List.mem_of_getElem? here) with rfl | rfl
  · exact ⟨by decide +kernel, ⟨_, rfl⟩, by decide⟩
  · exact ⟨by decide +kernel, ⟨_, rfl⟩, by decide⟩

/-- The longest job identities, apart in their last letter. -/
def longId (c : Char) : String :=
  String.ofList (List.replicate 127 'a' ++ [c])

theorem fullmatch_length {value : String} (h : opaqueId.fullmatch value = true) : value.toList.length ≤ 128 := by
  unfold NamePattern.fullmatch at h
  split at h
  · cases h
  · next c cs parts =>
    simp only [Bool.and_eq_true, decide_eq_true_eq] at h
    have short : cs.length < 128 := h.2
    rw [parts, List.length_cons]
    omega

theorem longId_unfit (c : Char) : ¬CursorFits (jobRecord (sampleJob (longId c))).occurredAt (jobRecord (sampleJob (longId c))).recordId := by
  intro fits
  have short := fullmatch_length fits.identity
  have long : (jobRecord (sampleJob (longId c))).recordId.toList.length = 134 := by
    show (jobRecordId (sampleJob (longId c))).toList.length = 134
    rw [jobRecordId, String.toList_ofList]
    show ("job:".toList ++ (longId c).toList ++ ':' :: natText 3).length = 134
    have id_length : (longId c).toList.length = 128 := by
      unfold longId
      rw [String.toList_ofList, List.length_append, List.length_replicate]
      rfl
    rw [List.length_append, List.length_append, id_length]
    rfl
  omega

/-- **Long identities are lost**: the page behind a job whose identity has 128 characters is refused. -/
theorem long_identity_lost : ¬∃ pages, Reads [] (fun _ => sampleNow) oneByOne 0 (sampleTables (longId 'a') (longId 'b')) none pages ∧
    Exact [] (sampleTables (longId 'a') (longId 'b')) sampleNow oneByOne (pages.flatMap OperationalLogPage.items) := by
  have stored : Stored [] (sampleTables (longId 'a') (longId 'b')) :=
    sample_stored (by decide +kernel) (by decide +kernel) (by decide +kernel)
  rintro ⟨pages, reads, -⟩
  have served := (reads_from stored (sample_steady _ _) (by decide) _ rfl (.inr rfl) Kept.refl).2.1 ⟨pages, reads⟩ 1
  have inside : 0 + 1 * oneByOne.limit < (matching (sampleTables (longId 'a') (longId 'b')) sampleNow oneByOne).length := by
    rw [sample_length]
    decide
  have named := served inside
  have first : 0 < (matching (sampleTables (longId 'a') (longId 'b')) sampleNow oneByOne).length := by omega
  have fits := named _ (List.getElem?_eq_getElem first)
  rcases sample_matching _ _ (List.getElem_mem first) with same | same
  · rw [same] at fits
    exact longId_unfit 'a' fits
  · rw [same] at fits
    exact longId_unfit 'b' fits

end Telemetry
