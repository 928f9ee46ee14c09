import DocumentQa.Evaluation.LedgerRecords

/-!
# The provider budget

`ProviderBudgetLedger`: an append-only file of JSON lines that counts every provider attempt
of all campaigns of a round. `reserve` and `finish` hold a lock file while they read and
append, so each is one step; a `call` is a reservation, a request and its terminal record, and
other campaigns may take steps between them. A process may die behind any record.
-/

namespace Budget

open Python JsonText Ledger

/-- The budget of a ledger: its round and the number of slots. -/
structure Round where
  id : String
  limit : Nat
  within : 1 ≤ limit ∧ limit ≤ 2000

/-- Whose attempt a slot is. -/
structure Owner where
  campaignId : String
  operation : String
  requestSha256 : String
deriving DecidableEq

def Owner.text (o : Owner) (key : String) : Option Json :=
  if key = "campaign_id" then some (.str o.campaignId)
  else if key = "operation" then some (.str o.operation)
  else some (.str o.requestSha256)

def identityKeys : List String :=
  ["campaign_id", "operation", "request_sha256"]

/-! ## The file -/

/-- `row.get("event")` of a terminal record. -/
def isTerminal (row : JsonObject) : Bool :=
  isEvent "completed" row || isEvent "error" row

/-- The slot of a terminal record: an integer from 1 that has no terminal record yet. -/
def terminalSlot (completed : List Int) (row : JsonObject) : Except PyError Int :=
  match row.get? "slot" with
  | some (.int slot) => do
    Checked.require (1 ≤ slot ∧ slot ∉ completed) (campaignIncomplete "invalid provider round completion")
    pure slot
  | _ => throw (campaignIncomplete "invalid provider round completion")

/-- The loop over the rows; `completed` are the slots with a terminal record so far. -/
def checkRows (reserves : List JsonObject) : List Int → List JsonObject → Except PyError Unit
  | _, [] => pure ()
  | completed, row :: rows => do
    requireHashable (row.value "event").json
    Checked.require (isEvent "reserved" row = true ∨ isTerminal row = true) (campaignIncomplete "invalid provider round event")
    if isEvent "reserved" row then do
      Checked.require (row.holdsText "campaign_id" = true ∧ row.holdsText "operation" = true)
        (campaignIncomplete "invalid provider round reservation")
      checkRows reserves completed rows
    else do
      let slot ← terminalSlot completed row
      let original ← Checked.orRaise reserves[slot.toNat - 1]? (campaignIncomplete "invalid provider round completion")
      Checked.require (∀ key ∈ identityKeys, row.get? key = original.get? key)
        (campaignIncomplete "provider round completion identity mismatch")
      checkRows reserves (slot :: completed) rows

/-- `_read`. -/
def read (round : Round) (text : List Char) : Except PyError (List JsonObject) := do
  let rows ← Checked.orRaise (readRecords text) (campaignIncomplete "invalid provider round ledger")
  let reserves := rows.filter (isEvent "reserved")
  Checked.require (∀ row ∈ rows, row.get? "round_id" = some (.str round.id) ∧ row.holdsInt "limit" round.limit = true)
    (campaignIncomplete "provider round ledger belongs to another budget")
  Checked.require (∀ p ∈ reserves.zipIdx 1, p.1.holdsInt "slot" p.2 = true)
    (campaignIncomplete "invalid provider round slot sequence")
  Checked.require (reserves.length ≤ round.limit) (campaignIncomplete "provider round budget exhausted")
  checkRows reserves [] rows
  pure rows

/-! ## The records -/

inductive EventKind where
  | reserved
  | completed
  | error
deriving DecidableEq

def EventKind.name : EventKind → String
  | .reserved => "reserved"
  | .completed => "completed"
  | .error => "error"

/-- A record of the ledger. -/
structure Entry where
  event : EventKind
  slot : Int
  owner : Owner
  errorType : Option String
deriving DecidableEq

/-- `error_type` is recorded when it is not empty. -/
def errorFields : Option String → List (String × Json)
  | some errorType => if errorType = "" then [] else [("error_type", .str errorType)]
  | none => []

def Entry.fields (round : Round) (e : Entry) : List (String × Json) :=
  [("event", .str e.event.name), ("round_id", .str round.id), ("limit", .int round.limit), ("slot", .int e.slot),
    ("campaign_id", .str e.owner.campaignId), ("operation", .str e.owner.operation),
    ("request_sha256", .str e.owner.requestSha256)] ++ errorFields e.errorType

theorem errorFields_cases (errorType : Option String) :
    errorFields errorType = [] ∨ ∃ text, errorType = some text ∧ errorFields errorType = [("error_type", .str text)] := by
  unfold errorFields
  split
  · next text =>
    split
    · exact .inl rfl
    · exact .inr ⟨text, rfl, rfl⟩
  · exact .inl rfl

def Entry.record (round : Round) (e : Entry) : JsonObject where
  fields := e.fields round
  distinct := by
    rw [Json.distinctKeys_obj, Entry.fields, List.map_append]
    rcases errorFields_cases e.errorType with none_ | ⟨text, -, some_⟩
    · rw [none_]
      refine ⟨?_, by simp [Json.distinctKeys, Json.all]⟩
      change ["event", "round_id", "limit", "slot", "campaign_id", "operation", "request_sha256"].Nodup
      decide
    · rw [some_]
      refine ⟨?_, by simp [Json.distinctKeys, Json.all]⟩
      change ["event", "round_id", "limit", "slot", "campaign_id", "operation", "request_sha256", "error_type"].Nodup
      decide

/-! ## Operations -/

/-- What a request does; a process that dies meanwhile takes no further step. -/
inductive SendOutcome where
  | returned
  /-- An `Exception`, by the name of its class. -/
  | failed (typeName : String)

/-- A call between its reservation and its terminal record. -/
structure InFlight where
  owner : Owner
  slot : Int
  outcome : Option SendOutcome

/-- The file, the lock file beside it, the calls under way and, for the record, the slots
whose requests were sent so far. -/
structure World where
  text : List Char
  locked : Bool
  calls : List InFlight
  sends : List Int

def World.empty : World :=
  ⟨[], false, [], []⟩

/-- How an operation ends. -/
inductive Ending (α : Type) where
  | returned (a : α)
  | raised (e : PyError)
  | killed

/-- `_lock`, the check of the file and `append_record`; the lock file stays behind when the
process dies behind the record. -/
def appendLocked {α : Type} (round : Round) (check : Except PyError (Entry × α)) (dies : Bool) (w : World) :
    World × Ending α :=
  if w.locked then
    (w, .raised (campaignIncomplete "provider round ledger is locked; inspect the previous writer before resuming"))
  else
    match check with
    | .error e => (w, .raised e)
    | .ok (entry, a) =>
      match recordLine (entry.record round) with
      | .error e => (w, .raised e)
      | .ok line =>
        let w := { w with text := w.text ++ line, locked := dies }
        if dies then (w, .killed) else (w, .returned a)

/-- The rows of an operation of a campaign. -/
def matching (o : Owner) (rows : List JsonObject) : List JsonObject :=
  rows.filter fun row =>
    row.get? "campaign_id" = some (.str o.campaignId) && row.get? "operation" = some (.str o.operation)

/-- The slot of a terminal row is the slot of this reservation. -/
def endsSlot (reserved terminal : JsonObject) : Bool :=
  match terminal.get? "slot" with
  | some (.int slot) => reserved.holdsInt "slot" slot
  | _ => false

/-- What `reserve` checks, and the record it appends. `_read` lets one terminal row through
for a slot, so `terminal_by_slot` holds them all. -/
def planReserve (round : Round) (o : Owner) (text : List Char) : Except PyError (Entry × Int) := do
  let rows ← read round text
  let own := matching o rows
  Checked.require (∀ row ∈ own, row.get? "request_sha256" = some (.str o.requestSha256))
    (campaignIncomplete "provider round operation inputs changed")
  Checked.require (∀ row ∈ own, isEvent "reserved" row = true → ∃ other ∈ own, isTerminal other = true ∧ endsSlot row other = true)
    (campaignIncomplete "provider round outcome is unknown; slot retained")
  Checked.require (∀ row ∈ own, isEvent "completed" row = false)
    (campaignIncomplete "provider round operation already completed")
  let used := (rows.filter (isEvent "reserved")).length
  Checked.require (used < round.limit) (campaignIncomplete "provider round budget exhausted")
  pure (⟨.reserved, used + 1, o, none⟩, used + 1)

def reserve (round : Round) (o : Owner) (dies : Bool) (w : World) : World × Ending Int :=
  appendLocked round (planReserve round o w.text) dies w

/-- `event`, when it is one of the two terminal ones. -/
def terminalEvent (event : String) : Except PyError EventKind :=
  if event = "completed" then .ok .completed
  else if event = "error" then .ok .error
  else .error ⟨.valueError, "provider round terminal event must be completed or error"⟩

/-- What `finish` checks, and the record it appends. -/
def planFinish (round : Round) (slot : Int) (o : Owner) (event : EventKind) (errorType : Option String) (text : List Char) :
    Except PyError (Entry × Unit) := do
  let rows ← read round text
  let reserved ← Checked.orRaise (rows.find? fun row => isEvent "reserved" row && row.holdsInt "slot" slot)
    (campaignIncomplete "provider round completion identity mismatch")
  Checked.require (∀ key ∈ identityKeys, reserved.get? key = o.text key)
    (campaignIncomplete "provider round completion identity mismatch")
  Checked.require (∀ row ∈ rows, row.holdsInt "slot" slot = true → isEvent "reserved" row = true)
    (campaignIncomplete "provider round slot already completed")
  pure (⟨event, slot, o, errorType⟩, ())

def finish (round : Round) (slot : Int) (o : Owner) (event : String) (errorType : Option String) (dies : Bool) (w : World) :
    World × Ending Unit :=
  match terminalEvent event with
  | .error e => (w, .raised e)
  | .ok event => appendLocked round (planFinish round slot o event errorType w.text) dies w

/-! ## Calls -/

/-- The reservation of a `call`. -/
def beginCall (round : Round) (o : Owner) (dies : Bool) (w : World) : World :=
  match reserve round o dies w with
  | (w, .returned slot) => { w with calls := w.calls ++ [⟨o, slot, none⟩] }
  | (w, _) => w

/-- The request of the `k`th call under way. -/
def sendCall (k : Nat) (outcome : SendOutcome) (w : World) : World :=
  match w.calls[k]? with
  | some ⟨o, slot, none⟩ => { w with calls := w.calls.set k ⟨o, slot, some outcome⟩, sends := w.sends ++ [slot] }
  | _ => w

/-- The terminal record of the `k`th call under way, behind its request. -/
def endCall (round : Round) (k : Nat) (dies : Bool) (w : World) : World :=
  match w.calls[k]? with
  | some ⟨o, slot, some outcome⟩ =>
    let w := { w with calls := w.calls.eraseIdx k }
    match outcome with
    | .returned => (finish round slot o "completed" none dies w).1
    | .failed typeName => (finish round slot o "error" (some typeName) dies w).1
  | _ => w

/-- What happens to a ledger: a step of an operation of some campaign, or the removal of the
lock file by hand. -/
inductive Move where
  | reserve (o : Owner) (dies : Bool)
  | finish (slot : Int) (o : Owner) (event : String) (errorType : Option String) (dies : Bool)
  | beginCall (o : Owner) (dies : Bool)
  | sendCall (k : Nat) (outcome : SendOutcome)
  | endCall (k : Nat) (dies : Bool)
  | unlock

def step (round : Round) (w : World) : Move → World
  | .reserve o dies => (reserve round o dies w).1
  | .finish slot o event errorType dies => (finish round slot o event errorType dies w).1
  | .beginCall o dies => beginCall round o dies w
  | .sendCall k outcome => sendCall k outcome w
  | .endCall k dies => endCall round k dies w
  | .unlock => { w with locked := false }

end Budget
