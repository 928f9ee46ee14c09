import DocumentQa.Lib.Runs
import DocumentQa.Python.Errors
import DocumentQa.Python.Lines

/-!
# The request ledger

`RequestLedger`: an append-only file of JSON lines that reserves a slot before every request
of a campaign and records its outcome behind it. Every call derives the state from the file
again. What a call cannot know is its input: what each request does, and whether the process
dies behind a record.
-/

namespace Ledger

open Python JsonText

def campaignIncomplete (message : String) : PyError :=
  ⟨.campaignIncomplete, message⟩

/-- The campaign of a ledger: its identifier and the number of slots. -/
structure Campaign where
  id : String
  limit : Nat
  within : 1 ≤ limit ∧ limit ≤ 60

/-- What a request is made for. -/
structure Request where
  operation : String
  runId : String
  requestSha256 : String
deriving DecidableEq

/-- A slot taken for one attempt of a request. -/
structure Reservation where
  request : Request
  slot : Nat
  attempt : Nat
deriving DecidableEq

/-! ## The file -/

/-- One line of `read_jsonl`. -/
def parseRecord (line : List Char) : Option JsonObject :=
  match h : loadsWith .strict line with
  | some (.obj fields) =>
    if printable (.obj fields) then some ⟨fields, loadsWith_distinctKeys Hooks.strict_distinct h⟩ else none
  | _ => none

/-- `read_records`, `none` where a line is no record. -/
def readRecords (text : List Char) : Option (List JsonObject) :=
  ((splitlines text).filter fun line => !(stripBy isSpace line).isEmpty).mapM parseRecord

/-- The line `append_record` writes. -/
def recordLine (record : JsonObject) : Except PyError (List Char) := do
  Checked.require (record.json.finite = true) ⟨.valueError, "Out of range float values are not JSON compliant"⟩
  Checked.require (printable record.json = true) ⟨.valueError, "Exceeds the limit for integer string conversion"⟩
  pure (spacedPrinter.text record.json ++ ['\n'])

/-- `row.get("event") == event`. -/
def isEvent (event : String) (row : JsonObject) : Bool :=
  row.get? "event" = some (.str event)

/-- Looking a value up in a set raises when it cannot be hashed. -/
def requireHashable : Json → Except PyError Unit
  | .arr _ | .obj _ => throw ⟨.typeError, "unhashable type"⟩
  | _ => pure ()

/-- `value in {...}` of a set of integers. -/
def inIntegers (numbers : List Int) (value : Json) : Except PyError Bool := do
  requireHashable value
  pure (numbers.any fun n => equalsInt n value)

/-- The identity checks of one reservation. -/
def checkReserve (row : JsonObject) : Except PyError Unit := do
  let invalid := campaignIncomplete "invalid request reservation identity"
  Checked.require (row.holdsText "operation" = true) invalid
  Checked.require (row.holdsText "run_id" = true) invalid
  Checked.require (row.holdsText "request_sha256" = true) invalid
  let known ← inIntegers [1, 2] (row.value "attempt").json
  Checked.require (known = true) invalid

/-- `row.get(key) == original.get(key)` of the texts and of the attempt of a reservation. -/
def sameIdentity (row original : JsonObject) : Bool :=
  (["operation", "run_id", "request_sha256"].all fun key => row.get? key = original.get? key) &&
    [1, 2].all fun n => row.holdsInt "attempt" n = original.holdsInt "attempt" n

/-- The slot of an outcome: an integer from 1 that has no outcome yet. -/
def outcomeSlot (completed : List Int) (row : JsonObject) : Except PyError Int :=
  match row.get? "slot" with
  | some (.int slot) => do
    Checked.require (1 ≤ slot ∧ slot ∉ completed) (campaignIncomplete "invalid ledger completion")
    pure slot
  | _ => throw (campaignIncomplete "invalid ledger completion")

/-- The loop over the rows; `completed` are the slots with an outcome so far. -/
def checkOutcomes (reserves : List JsonObject) : List Int → List JsonObject → Except PyError Unit
  | _, [] => pure ()
  | completed, row :: rows => do
    requireHashable (row.value "event").json
    Checked.require (∃ event ∈ ["reserved", "completed", "error"], isEvent event row = true)
      (campaignIncomplete "invalid ledger event")
    if isEvent "reserved" row then checkOutcomes reserves completed rows
    else do
      let slot ← outcomeSlot completed row
      let original ← Checked.orRaise reserves[slot.toNat - 1]? (campaignIncomplete "invalid ledger completion")
      Checked.require (sameIdentity row original = true) (campaignIncomplete "ledger completion identity mismatch")
      checkOutcomes reserves (slot :: completed) rows

/-- `_read`. -/
def read (campaign : Campaign) (text : List Char) : Except PyError (List JsonObject) := do
  let rows ← Checked.orRaise (readRecords text) (campaignIncomplete "invalid request ledger")
  Checked.require (∀ row ∈ rows, row.get? "campaign_id" = some (.str campaign.id) ∧ row.holdsInt "limit" campaign.limit = true)
    (campaignIncomplete "ledger belongs to another campaign or budget")
  let reserves := rows.filter (isEvent "reserved")
  Checked.require ((∀ p ∈ reserves.zipIdx 1, p.1.holdsInt "slot" p.2 = true) ∧ reserves.length ≤ campaign.limit)
    (campaignIncomplete "invalid ledger slot sequence")
  Checked.each checkReserve reserves
  checkOutcomes reserves [] rows
  pure rows

/-- `used`. -/
def used (campaign : Campaign) (text : List Char) : Except PyError Nat := do
  let rows ← read campaign text
  pure (rows.filter (isEvent "reserved")).length

/-! ## The records -/

/-- `identity`. -/
def identityFields (campaign : Campaign) (r : Reservation) : List (String × Json) :=
  [("campaign_id", .str campaign.id), ("limit", .int campaign.limit), ("operation", .str r.request.operation),
    ("run_id", .str r.request.runId), ("request_sha256", .str r.request.requestSha256), ("slot", .int r.slot),
    ("attempt", .int r.attempt)]

/-- What `call` reads of an exception of `send`; an attribute it does not have is `none`. -/
structure SendError where
  typeName : String
  message : String
  /-- `isinstance(error, (TimeoutError, ConnectionError))`. -/
  isTransport : Bool
  isProviderOperation : Bool
  statusCode : Option JsonValue
  retryable : Option JsonValue
  providerErrorType : Option JsonValue
  providerMetadata : Option JsonValue

def retryStatuses : List Int :=
  [408, 429, 500, 502, 503, 504]

def metadataKeys : List String :=
  ["key_alias", "pool_size", "transport_attempt", "status", "status_code", "retry_after", "provider_error_type"]

namespace SendError

/-- `getattr(error, "status_code", None)`. -/
def status (e : SendError) : JsonValue :=
  e.statusCode.getD ⟨.null, rfl⟩

/-- The flag the record gets: the attribute, or a guess from the status and the class. -/
def retryFlag (e : SendError) : Except PyError JsonValue := do
  let given := e.retryable.getD ⟨.null, rfl⟩
  if given.json = .null then
    let known ← inIntegers retryStatuses e.status.json
    pure ⟨.bool (known || e.isTransport || e.typeName ∈ ["APITimeoutError", "APIConnectionError"]), rfl⟩
  else pure given

/-- A value of the metadata that is recorded. -/
def isScalar : Json → Bool
  | .arr _ | .obj _ => false
  | _ => true

/-- `error_record["provider"]`. -/
def providerFields (e : SendError) : List (String × Json) :=
  match e.providerMetadata.bind JsonValue.object? with
  | some metadata =>
    [("provider", .obj (metadata.fields.filter fun f => decide (f.1 ∈ metadataKeys) && isScalar f.2))]
  | none => []

/-- The fields of an error record behind the identity. -/
def fields (e : SendError) (flag : JsonValue) : List (String × Json) :=
  [("event", .str "error"), ("error_type", (e.providerErrorType.getD ⟨.str e.typeName, rfl⟩).json),
    ("status_code", e.status.json), ("retryable", flag.json)] ++ e.providerFields

/-- What the call raises when it gives up. -/
def failure (e : SendError) : PyError :=
  campaignIncomplete (if e.isProviderOperation then e.message else "provider operation failed: " ++ e.typeName)

end SendError

/-- What a record says behind the identity. -/
inductive Mark where
  | reserved
  | completed (response : JsonObject)
  | error (e : SendError) (flag : JsonValue)

def Mark.fields : Mark → List (String × Json)
  | .reserved => [("event", .str "reserved")]
  | .completed response => [("event", .str "completed"), ("response", response.json)]
  | .error e flag => e.fields flag

/-- A record of the ledger. -/
structure Entry where
  reservation : Reservation
  mark : Mark

def Entry.fields (campaign : Campaign) (e : Entry) : List (String × Json) :=
  identityFields campaign e.reservation ++ e.mark.fields

theorem Mark.fields_distinct (m : Mark) :
    (∀ f ∈ m.fields, f.2.distinctKeys = true) ∧ ∃ rest, m.fields.map Prod.fst = "event" :: rest ∧
      (rest = [] ∨ rest = ["response"] ∨ rest = ["error_type", "status_code", "retryable"] ∨
        rest = ["error_type", "status_code", "retryable", "provider"]) := by
  cases m with
  | reserved =>
    refine ⟨?_, [], rfl, .inl rfl⟩
    simp only [fields, List.forall_mem_cons]
    exact ⟨rfl, by simp⟩
  | completed response =>
    refine ⟨?_, ["response"], rfl, .inr (.inl rfl)⟩
    simp only [fields, List.forall_mem_cons]
    exact ⟨rfl, response.distinct, by simp⟩
  | error e flag =>
    simp only [fields, SendError.fields, List.cons_append, List.nil_append, List.forall_mem_cons, List.map_cons]
    unfold SendError.providerFields
    split
    · next metadata _ =>
      refine ⟨⟨rfl, JsonValue.distinct _, JsonValue.distinct _, flag.distinct, ?_⟩, _, rfl, .inr (.inr (.inr rfl))⟩
      intro f hf
      obtain rfl := List.mem_singleton.1 hf
      have whole := (Json.distinctKeys_obj _).1 metadata.distinct
      refine (Json.distinctKeys_obj _).2 ⟨?_, fun f hf => whole.2 f (List.mem_of_mem_filter hf)⟩
      exact whole.1.sublist (List.filter_sublist.map Prod.fst)
    · exact ⟨⟨rfl, JsonValue.distinct _, JsonValue.distinct _, flag.distinct, by simp⟩, _, rfl, .inr (.inr (.inl rfl))⟩

/-- The record of an entry. -/
def Entry.record (campaign : Campaign) (e : Entry) : JsonObject where
  fields := e.fields campaign
  distinct := by
    obtain ⟨values, rest, keys, known⟩ := e.mark.fields_distinct
    rw [Json.distinctKeys_obj, Entry.fields]
    constructor
    · rw [List.map_append, keys]
      change (["campaign_id", "limit", "operation", "run_id", "request_sha256", "slot", "attempt", "event"] ++ rest).Nodup
      rcases known with rfl | rfl | rfl | rfl <;> decide
    · intro f hf
      rcases List.mem_append.1 hf with hf | hf
      · revert hf
        simp only [identityFields, List.mem_cons, List.not_mem_nil, or_false]
        rintro (rfl | rfl | rfl | rfl | rfl | rfl | rfl) <;> rfl
      · exact values f hf

/-! ## Calls -/

/-- What a request does to the process: it returns or raises; it ends the call without a
record, by an exception that is no `Exception` or with an outcome that is no JSON; or the
process dies while it is under way. -/
inductive SendOutcome where
  | returned (response : JsonObject)
  | failed (e : SendError)
  | unrecorded (e : PyError)
  | killed

/-- What one attempt meets: whether the process dies behind its reservation, what the request
does, whether the process dies behind the record of the outcome. -/
structure Attempt where
  diesReserved : Bool
  send : SendOutcome
  diesRecorded : Bool

/-- The file, the lock file beside it and, for the record, the requests sent so far. -/
structure World where
  text : List Char
  locked : Bool
  sends : List Reservation

def World.empty : World :=
  ⟨[], false, []⟩

/-- How a call ends. -/
inductive Ending where
  | returned (response : Json)
  | raised (e : PyError)
  | killed

/-- `append_record`, and the death of the process behind it. -/
def append (campaign : Campaign) (entry : Entry) (dies : Bool) (w : World) (next : World → World × Ending) :
    World × Ending :=
  match recordLine (entry.record campaign) with
  | .error e => (w, .raised e)
  | .ok line =>
    let w := { w with text := w.text ++ line }
    if dies then (w, .killed) else next w

def exhausted : PyError :=
  campaignIncomplete "operation exhausted its retry protocol"

/-- The `except` branch; `again` is the rest of the loop. -/
def recordError (campaign : Campaign) (r : Reservation) (e : SendError) (dies : Bool) (w : World)
    (again : World → World × Ending) : World × Ending :=
  match e.retryFlag with
  | .error raised => (w, .raised raised)
  | .ok flag => append campaign ⟨r, .error e flag⟩ dies w fun w =>
    if !truthy flag.json ∨ r.attempt = 2 then (w, .raised e.failure) else again w

/-- `send()` and the record of what it did. -/
def sendOnce (campaign : Campaign) (r : Reservation) (attempt : Attempt) (w : World) (again : World → World × Ending) :
    World × Ending :=
  let w := { w with sends := w.sends ++ [r] }
  match attempt.send with
  | .killed => (w, .killed)
  | .unrecorded e => (w, .raised e)
  | .failed e => recordError campaign r e attempt.diesRecorded w again
  | .returned response => append campaign ⟨r, .completed response⟩ attempt.diesRecorded w fun w => (w, .returned response.json)

/-- The loop over the attempts. -/
def attempts (campaign : Campaign) (request : Request) (env : Nat → Attempt) : List Nat → World → World × Ending
  | [], w => (w, .raised exhausted)
  | attempt :: rest, w =>
    match used campaign w.text with
    | .error e => (w, .raised e)
    | .ok n =>
      if campaign.limit ≤ n then (w, .raised (campaignIncomplete "campaign request budget exhausted"))
      else
        let r : Reservation := ⟨request, n + 1, attempt⟩
        append campaign ⟨r, .reserved⟩ (env attempt).diesReserved w fun w =>
          sendOnce campaign r (env attempt) w (attempts campaign request env rest)

/-- The response of the last completed row. -/
def recordedResponse (row : JsonObject) : Ending :=
  match row.get? "response" with
  | some response => .returned response
  | none => .raised ⟨.keyError, "'response'"⟩

/-- `_call_locked`. -/
def callLocked (campaign : Campaign) (request : Request) (env : Nat → Attempt) (w : World) : World × Ending :=
  match read campaign w.text with
  | .error e => (w, .raised e)
  | .ok rows =>
    let matching := rows.filter fun row => row.get? "operation" = some (.str request.operation)
    let reserves := matching.filter (isEvent "reserved")
    let errors := matching.filter (isEvent "error")
    if matching.any (fun row => row.get? "run_id" ≠ some (.str request.runId) ||
        row.get? "request_sha256" ≠ some (.str request.requestSha256)) then
      (w, .raised (campaignIncomplete "operation inputs changed; refusing resume"))
    else
      match (matching.filter (isEvent "completed")).getLast? with
      | some row => (w, recordedResponse row)
      | none =>
        if reserves.length ≠ errors.length then
          (w, .raised (campaignIncomplete "request outcome is unknown; reserved slot retained"))
        else
          match errors.getLast? with
          | some row =>
            if !truthy (row.value "retryable").json ∨ 2 ≤ errors.length then (w, .raised exhausted)
            else attempts campaign request env (List.range' (reserves.length + 1) (2 - reserves.length)) w
          | none => attempts campaign request env (List.range' (reserves.length + 1) (2 - reserves.length)) w

/-- `call`: the lock file stays behind when the process dies. -/
def call (campaign : Campaign) (request : Request) (env : Nat → Attempt) (w : World) : World × Ending :=
  if w.locked then (w, .raised (campaignIncomplete "ledger is locked; inspect the previous writer before resuming"))
  else
    let (w', ending) := callLocked campaign request env w
    match ending with
    | .killed => ({ w' with locked := true }, .killed)
    | _ => ({ w' with locked := false }, ending)

/-- What happens to a ledger: a call, or the removal of the lock file by hand. -/
inductive Move where
  | call (request : Request) (env : Nat → Attempt)
  | unlock

def step (campaign : Campaign) (w : World) : Move → World
  | .call request env => (call campaign request env w).1
  | .unlock => { w with locked := false }

end Ledger
