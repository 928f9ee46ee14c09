import DocumentQa.Evaluation.RequestLedger

/-!
# What a ledger file says

A file of records that fit a line each reads back as these records (`Holds.readRecords`), and
`_read` accepts them when the slots count up and every outcome belongs to a reservation
(`Holds.read`).
-/

namespace Ledger

open Python JsonText

variable {campaign : Campaign}

/-! ## Records and lines -/

/-- The record can be written and its line is one line. -/
structure Entry.Fits (campaign : Campaign) (e : Entry) : Prop where
  finite : (e.record campaign).json.finite = true
  printable : Python.printable (e.record campaign).json = true
  line : fitsLine (e.record campaign).json = true

def Entry.line (campaign : Campaign) (e : Entry) : List Char :=
  spacedPrinter.text (e.record campaign).json

theorem recordLine_eq_ok {record : JsonObject} {line : List Char} :
    recordLine record = .ok line ↔
      record.json.finite = true ∧ printable record.json = true ∧ line = spacedPrinter.text record.json ++ ['\n'] := by
  simp only [recordLine, Checked.bind_eq_ok, Checked.require_eq_ok, Checked.pure_eq_ok]
  constructor
  · rintro ⟨_, finite, _, print, rfl⟩
    exact ⟨finite, print, rfl⟩
  · rintro ⟨finite, print, rfl⟩
    exact ⟨(), finite, (), print, rfl⟩

theorem parseRecord_line {record : JsonObject} (finite : record.json.finite = true) (print : printable record.json = true) :
    parseRecord (spacedPrinter.text record.json) = some record := by
  have back := loadsWith_spaced Hooks.strict_keeps record.distinct finite
  unfold parseRecord
  split
  · next fields h =>
    have same : Json.obj fields = record.json := Option.some.inj (h.symm.trans back)
    have print' : printable (.obj fields) = true := by
      rw [same]
      exact print
    rw [if_pos print']
    cases record
    cases same
    rfl
  · next h => exact absurd back (h _)

theorem stripBy_brace (cs : List Char) : (stripBy isSpace ('{' :: cs)).isEmpty = false := by
  have head : ('{' :: cs).dropWhile isSpace = '{' :: cs := List.dropWhile_cons_of_neg (by decide)
  rw [stripBy, head, List.isEmpty_reverse]
  have kept : ∃ a, a ∈ ('{' :: cs).reverse.dropWhile isSpace := by
    rw [List.reverse_cons, List.dropWhile_append]
    split
    · exact ⟨'{', by rw [List.dropWhile_cons_of_neg (by decide)]; simp⟩
    · exact ⟨'{', by simp⟩
  obtain ⟨a, ha⟩ := kept
  cases e : ('{' :: cs).reverse.dropWhile isSpace with
  | nil =>
    rw [e] at ha
    cases ha
  | cons => rfl

/-- The record can be written, and its line is one line. -/
structure Writable (record : JsonObject) : Prop where
  finite : record.json.finite = true
  printable : Python.printable record.json = true
  line : fitsLine record.json = true

theorem mapM_parse {rows : List JsonObject} (h : ∀ row ∈ rows, Writable row) :
    (rows.map fun row => spacedPrinter.text row.json).mapM parseRecord = some rows := by
  induction rows with
  | nil => rfl
  | cons row rows ih =>
    have head := h row (by simp)
    rw [List.map_cons, List.mapM_cons, parseRecord_line head.finite head.printable,
      ih fun a ha => h a (List.mem_cons_of_mem _ ha)]
    rfl

/-- **A file of records reads back.** -/
theorem readRecords_lines {rows : List JsonObject} (h : ∀ row ∈ rows, Writable row) :
    readRecords ((rows.map fun row => spacedPrinter.text row.json).flatMap (· ++ ['\n'])) = some rows := by
  have lines : splitlines ((rows.map fun row => spacedPrinter.text row.json).flatMap (· ++ ['\n'])) =
      rows.map fun row => spacedPrinter.text row.json := by
    refine splitlines_lines ?_
    intro line hl
    obtain ⟨row, hrow, rfl⟩ := List.mem_map.1 hl
    exact spacedPrinter_line (h row hrow).line
  have solid : ∀ line ∈ rows.map fun row => spacedPrinter.text row.json, (!(stripBy isSpace line).isEmpty) = true := by
    intro line hl
    obtain ⟨row, -, rfl⟩ := List.mem_map.1 hl
    rw [JsonObject.json, Printer.text, stripBy_brace]
    rfl
  rw [readRecords, lines, List.filter_eq_self.2 solid]
  exact mapM_parse h

/-- The file is these records, one a line. -/
structure Holds (campaign : Campaign) (text : List Char) (log : List Entry) : Prop where
  text_eq : text = (log.map (Entry.line campaign)).flatMap (· ++ ['\n'])
  fits : ∀ e ∈ log, e.Fits campaign

theorem Holds.empty : Holds campaign [] [] :=
  ⟨rfl, nofun⟩

theorem Holds.append {text : List Char} {log : List Entry} {e : Entry} (h : Holds campaign text log)
    (fits : e.Fits campaign) : Holds campaign (text ++ (e.line campaign ++ ['\n'])) (log ++ [e]) where
  text_eq := by
    rw [h.text_eq]
    simp
  fits a ha := by
    rcases List.mem_append.1 ha with ha | ha
    · exact h.fits a ha
    · obtain rfl := List.mem_singleton.1 ha
      exact fits

/-- The file reads back. -/
theorem Holds.readRecords {text : List Char} {log : List Entry} (h : Holds campaign text log) :
    readRecords text = some (log.map (Entry.record campaign)) := by
  have writable : ∀ row ∈ log.map (Entry.record campaign), Writable row := by
    intro row hrow
    obtain ⟨e, he, rfl⟩ := List.mem_map.1 hrow
    exact ⟨(h.fits e he).finite, (h.fits e he).printable, (h.fits e he).line⟩
  rw [h.text_eq, ← readRecords_lines writable, List.map_map]
  rfl

/-! ## What a record says -/

def Mark.isReserved : Mark → Bool
  | .reserved => true
  | _ => false

def Mark.isCompleted : Mark → Bool
  | .completed _ => true
  | _ => false

def Mark.isError : Mark → Bool
  | .error _ _ => true
  | _ => false

section Record

variable (campaign) (e : Entry)

@[simp] theorem record_campaign : (e.record campaign).get? "campaign_id" = some (.str campaign.id) :=
  rfl

@[simp] theorem record_limit : (e.record campaign).get? "limit" = some (.int campaign.limit) :=
  rfl

@[simp] theorem record_operation : (e.record campaign).get? "operation" = some (.str e.reservation.request.operation) :=
  rfl

@[simp] theorem record_runId : (e.record campaign).get? "run_id" = some (.str e.reservation.request.runId) :=
  rfl

@[simp] theorem record_requestSha256 :
    (e.record campaign).get? "request_sha256" = some (.str e.reservation.request.requestSha256) :=
  rfl

@[simp] theorem record_slot : (e.record campaign).get? "slot" = some (.int e.reservation.slot) :=
  rfl

@[simp] theorem record_attempt : (e.record campaign).get? "attempt" = some (.int e.reservation.attempt) :=
  rfl

@[simp] theorem isEvent_reserved : isEvent "reserved" (e.record campaign) = e.mark.isReserved := by
  obtain ⟨r, m⟩ := e
  cases m <;> rfl

@[simp] theorem isEvent_completed : isEvent "completed" (e.record campaign) = e.mark.isCompleted := by
  obtain ⟨r, m⟩ := e
  cases m <;> rfl

@[simp] theorem isEvent_error : isEvent "error" (e.record campaign) = e.mark.isError := by
  obtain ⟨r, m⟩ := e
  cases m <;> rfl

theorem record_event : requireHashable ((e.record campaign).value "event").json = .ok () ∧
    ∃ event ∈ ["reserved", "completed", "error"], isEvent event (e.record campaign) = true := by
  obtain ⟨r, m⟩ := e
  cases m with
  | reserved => exact ⟨rfl, "reserved", by simp, rfl⟩
  | completed response => exact ⟨rfl, "completed", by simp, rfl⟩
  | error error flag => exact ⟨rfl, "error", by simp, rfl⟩

end Record

/-! ## Ledgers `_read` accepts -/

/-- The reservations of a log, oldest first. -/
def reservations (log : List Entry) : List Reservation :=
  (log.filter fun e => e.mark.isReserved).map Entry.reservation

/-- The outcomes of a log. -/
def outcomes (log : List Entry) : List Entry :=
  log.filter fun e => !e.mark.isReserved

/-- Slots count up to the limit at most, and every slot has at most one outcome, its own. -/
structure Orderly (campaign : Campaign) (log : List Entry) : Prop where
  slots : (reservations log).map Reservation.slot = List.range' 1 (reservations log).length
  limit : (reservations log).length ≤ campaign.limit
  attempts : ∀ r ∈ reservations log, r.attempt = 1 ∨ r.attempt = 2
  outcomes : ∀ e ∈ outcomes log, e.reservation ∈ reservations log
  once : ((Ledger.outcomes log).map fun e => e.reservation.slot).Nodup

/-- A reservation stands at the place of its slot. -/
theorem Orderly.at_slot {log : List Entry} (h : Orderly campaign log) {r : Reservation} (hr : r ∈ reservations log) :
    1 ≤ r.slot ∧ (reservations log)[r.slot - 1]? = some r := by
  obtain ⟨k, hk, rfl⟩ := List.mem_iff_getElem.1 hr
  have slot : ((reservations log)[k]).slot = 1 + k := by
    have here : ((reservations log).map Reservation.slot)[k]? = some ((reservations log)[k]).slot := by
      rw [List.getElem?_map, List.getElem?_eq_getElem hk]
      rfl
    rw [h.slots, List.getElem?_range' hk] at here
    have := Option.some.inj here
    omega
  rw [slot]
  refine ⟨by omega, ?_⟩
  rw [show 1 + k - 1 = k by omega, List.getElem?_eq_getElem hk]

theorem filter_record (campaign : Campaign) (log : List Entry) :
    (log.map (Entry.record campaign)).filter (isEvent "reserved") =
      (reservations log).map fun r => Entry.record campaign ⟨r, .reserved⟩ := by
  induction log with
  | nil => rfl
  | cons e log ih =>
    obtain ⟨r, m⟩ := e
    rw [List.map_cons, List.filter_cons, isEvent_reserved, ih, reservations, reservations, List.filter_cons]
    cases m <;> rfl

theorem checkReserve_record {r : Reservation} (h : r.attempt = 1 ∨ r.attempt = 2) :
    checkReserve (Entry.record campaign ⟨r, .reserved⟩) = .ok () := by
  have attempt : ((Entry.record campaign ⟨r, .reserved⟩).value "attempt").json = .int r.attempt := rfl
  have known : inIntegers [1, 2] (.int r.attempt) = .ok true := by
    rcases h with h | h <;> rw [h] <;> rfl
  simp only [checkReserve, attempt, known, Checked.bind_eq_ok, Checked.require_eq_ok]
  exact ⟨(), rfl, (), rfl, (), rfl, true, rfl, rfl⟩

theorem sameIdentity_record {e : Entry} : sameIdentity (e.record campaign) (Entry.record campaign ⟨e.reservation, .reserved⟩) = true := by
  simp only [sameIdentity, List.all_cons, List.all_nil, JsonObject.holdsInt, record_operation, record_runId,
    record_requestSha256, record_attempt, decide_true, Bool.and_true]

theorem checkOutcomes_records {log : List Entry} (h : Orderly campaign log) (rest : List Entry) (seen : List Int)
    (members : ∀ e ∈ outcomes rest, e ∈ outcomes log)
    (fresh : ∀ e ∈ outcomes rest, (e.reservation.slot : Int) ∉ seen)
    (once : ((outcomes rest).map fun e => e.reservation.slot).Nodup) :
    checkOutcomes ((reservations log).map fun r => Entry.record campaign ⟨r, .reserved⟩) seen
      (rest.map (Entry.record campaign)) = .ok () := by
  induction rest generalizing seen with
  | nil => rfl
  | cons e rest ih =>
    obtain ⟨hashable, event⟩ := record_event campaign e
    rw [List.map_cons, checkOutcomes, Checked.bind_eq_ok]
    refine ⟨(), hashable, ?_⟩
    rw [Checked.bind_eq_ok]
    refine ⟨(), Checked.require_eq_ok.2 event, ?_⟩
    rw [isEvent_reserved]
    cases reserved : e.mark.isReserved with
    | true =>
      have same : outcomes (e :: rest) = outcomes rest := by
        rw [outcomes, List.filter_cons, reserved]
        rfl
      rw [same] at members fresh once
      exact ih seen members fresh once
    | false =>
      have same : outcomes (e :: rest) = e :: outcomes rest := by
        rw [outcomes, List.filter_cons, reserved]
        rfl
      rw [same] at members fresh once
      obtain ⟨positive, original⟩ := h.at_slot (h.outcomes e (members e (by simp)))
      have slot : outcomeSlot seen (e.record campaign) = .ok e.reservation.slot := by
        simp only [outcomeSlot, record_slot, Checked.bind_eq_ok, Checked.require_eq_ok, Checked.pure_eq_ok]
        exact ⟨(), ⟨by omega, fresh e (by simp)⟩, trivial⟩
      rw [if_neg Bool.false_ne_true, Checked.bind_eq_ok]
      refine ⟨_, slot, ?_⟩
      rw [Checked.bind_eq_ok]
      refine ⟨Entry.record campaign ⟨e.reservation, .reserved⟩, ?_, ?_⟩
      · rw [Checked.orRaise_eq_ok, List.getElem?_map, Int.toNat_natCast, original]
        rfl
      · rw [Checked.bind_eq_ok]
        refine ⟨(), Checked.require_eq_ok.2 sameIdentity_record, ?_⟩
        rw [List.map_cons, List.nodup_cons] at once
        refine ih _ (fun a ha => members a (List.mem_cons_of_mem _ ha)) ?_ once.2
        intro a ha
        simp only [List.mem_cons, not_or]
        refine ⟨?_, fresh a (List.mem_cons_of_mem _ ha)⟩
        intro same
        exact once.1 (List.mem_map.2 ⟨a, ha, Int.natCast_inj.1 same⟩)

/-- **`_read` accepts an orderly ledger** and returns its records. -/
theorem Holds.read {text : List Char} {log : List Entry} (h : Holds campaign text log) (orderly : Orderly campaign log) :
    read campaign text = .ok (log.map (Entry.record campaign)) := by
  simp only [Ledger.read, h.readRecords, Checked.bind_eq_ok, Checked.require_eq_ok, Checked.orRaise_eq_ok, Checked.pure_eq_ok,
    Checked.each_eq_ok]
  refine ⟨log.map (Entry.record campaign), rfl, ?_⟩
  rw [filter_record]
  refine ⟨(), ?_, (), ⟨?_, ?_⟩, (), ?_, (), ?_, rfl⟩
  · intro row hrow
    obtain ⟨e, -, rfl⟩ := List.mem_map.1 hrow
    exact ⟨record_campaign campaign e, by simp [JsonObject.holdsInt, equalsInt]⟩
  · rintro ⟨row, k⟩ hp
    obtain ⟨le, lt, row⟩ := List.mem_zipIdx hp
    rw [List.length_map] at lt
    dsimp only
    rw [row, List.getElem_map]
    have slot : ((reservations log)[k - 1]).slot = k := by
      have here : ((reservations log).map Reservation.slot)[k - 1]? = some ((reservations log)[k - 1]).slot := by
        rw [List.getElem?_map, List.getElem?_eq_getElem (by omega)]
        rfl
      rw [orderly.slots, List.getElem?_range' (by omega)] at here
      have := Option.some.inj here
      omega
    simp [JsonObject.holdsInt, equalsInt, slot]
  · rw [List.length_map]
    exact orderly.limit
  · intro row hrow
    obtain ⟨r, hr, rfl⟩ := List.mem_map.1 hrow
    exact checkReserve_record (orderly.attempts r hr)
  · exact checkOutcomes_records orderly log [] (fun _ he => he) (fun _ _ => by simp) orderly.once

end Ledger
