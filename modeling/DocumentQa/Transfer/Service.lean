import DocumentQa.Transfer.Backup
import DocumentQa.Workspace.Context
import DocumentQa.Workspace.Store

/-!
# `WorkspaceTransferService`

A plan is computed for a whole backup against the store as it is found; an import then
applies the plan action by action in one transaction and leaves a receipt.
-/

namespace Transfer

open Python JsonText Workspace SqlTable

/-- A field of a wrapper that is a text. -/
def textField (key value : String) : String × Json :=
  (key, .str value)

/-- The fields `_wrapped_payload` adds for the record's kind. -/
def roleFields (role : Role) (favorite : Bool) : List (String × Json) :=
  match role with
  | .conversation => []
  | .collection => [("favorite", .bool favorite)]
  | .evidenceItem parent =>
    [textField "parent_legacy_id" parent, textField "parent_workspace_id" (stableId .collection parent)]

/-- `_wrapped_payload`; the identifiers of a validated record are valid, so none raises. -/
def wrappedPayload (r : BackupRecord) (favorite : Bool) : List (String × Json) :=
  [("workspace_transfer_version", .int backupVersion), textField "source_kind" r.role.kind.text,
    textField "legacy_id" r.legacyId, ("source_schema_version", .int r.schemaVersion), ("data", r.payload.json)] ++
    roleFields r.role favorite

theorem wrappedPayload_distinct (r : BackupRecord) (favorite : Bool) :
    (Json.obj (wrappedPayload r favorite)).distinctKeys = true := by
  rw [Json.distinctKeys_obj]
  unfold wrappedPayload
  cases r.role with
  | conversation =>
    refine ⟨by simp [roleFields, textField], ?_⟩
    simp only [roleFields, List.append_nil, List.forall_mem_cons]
    exact ⟨rfl, rfl, rfl, rfl, r.payload.distinct, by simp⟩
  | collection =>
    refine ⟨by simp [roleFields, textField], ?_⟩
    simp only [roleFields, List.cons_append, List.nil_append, List.forall_mem_cons]
    exact ⟨rfl, rfl, rfl, rfl, r.payload.distinct, rfl, by simp⟩
  | evidenceItem parent =>
    refine ⟨by simp [roleFields, textField], ?_⟩
    simp only [roleFields, List.cons_append, List.nil_append, List.forall_mem_cons]
    exact ⟨rfl, rfl, rfl, rfl, r.payload.distinct, rfl, rfl, by simp⟩

/-- The favourite flag of a record of the backup. -/
def isFavorite (backup : ValidatedBackup) (r : BackupRecord) : Bool :=
  r.role = .collection && r.legacyId ∈ backup.favorites

/-- The text an import writes for a record. -/
def incomingText (backup : ValidatedBackup) (r : BackupRecord) : Except PyError String :=
  Checked.orRaise (canonicalJson (.obj (wrappedPayload r (isFavorite backup r))))
    ⟨.valueError, "Exceeds the limit"⟩

/-! ## Planning -/

inductive Action where
  | create
  | replaceOlder
  | duplicate
  | conflict
  | blockedByTombstone
deriving DecidableEq, Repr

inductive TombstoneAction where
  | create
  | replace
  | duplicate
  | conflict
deriving DecidableEq, Repr

def Action.text : Action → String
  | .create => "create"
  | .replaceOlder => "replace_older"
  | .duplicate => "duplicate"
  | .conflict => "conflict"
  | .blockedByTombstone => "blocked_by_tombstone"

def TombstoneAction.text : TombstoneAction → String
  | .create => "tombstone_create"
  | .replace => "tombstone_replace"
  | .duplicate => "tombstone_duplicate"
  | .conflict => "tombstone_conflict"

/-- The stored payload is a wrapper of the same kind and identifier. -/
def ownedBy (kind : RecordKind) (legacyId payloadJson : String) : Bool :=
  match loadsObject payloadJson with
  | some wrapper => wrapper.holdsInt "workspace_transfer_version" backupVersion &&
      wrapper.get? "source_kind" = some (.str kind.text) && wrapper.get? "legacy_id" = some (.str legacyId)
  | none => false

namespace BackupRecord

def workspaceId (r : BackupRecord) : String :=
  stableId r.role.kind r.legacyId

def entityType (r : BackupRecord) : String :=
  r.role.kind.entityType

end BackupRecord

namespace BackupTombstone

def workspaceId (t : BackupTombstone) : String :=
  stableId .conversation t.legacyId

def entityType (_ : BackupTombstone) : String :=
  RecordKind.conversation.entityType

end BackupTombstone

/-- The action `_plan` chooses for a record. -/
def planRecord (db : Store) (backup : ValidatedBackup) (r : BackupRecord) : Except PyError Action :=
  if (db.tombstone? r.entityType r.workspaceId).isSome then pure .blockedByTombstone
  else do
    let incoming ← incomingText backup r
    match db.record? r.entityType r.workspaceId with
    | none => pure .create
    | some existing =>
      if ownedBy r.role.kind r.legacyId existing.payloadJson = false then pure .conflict
      else if existing.revision = r.revision ∧ existing.payloadJson = incoming then pure .duplicate
      else if existing.revision < r.revision then pure .replaceOlder
      else pure .conflict

/-- A live record that a tombstone does not reach: it is another's, or newer. -/
def outlives (db : Store) (t : BackupTombstone) : Bool :=
  match db.record? t.entityType t.workspaceId with
  | some live => !ownedBy .conversation t.legacyId live.payloadJson || t.revision < live.revision
  | none => false

/-- The action `_plan` chooses for a tombstone. -/
def planTombstone (db : Store) (t : BackupTombstone) : TombstoneAction :=
  if outlives db t = true then .conflict
  else
    match db.tombstone? t.entityType t.workspaceId with
    | none => .create
    | some existing =>
      if existing.revision = t.revision then .duplicate
      else if existing.revision < t.revision then .replace
      else .conflict

/-- The actions of a plan, in the order they are applied. -/
structure Plan where
  records : List (BackupRecord × Action)
  tombstones : List (BackupTombstone × TombstoneAction)

/-- `_plan`. -/
def plan (db : Store) (backup : ValidatedBackup) : Except PyError Plan := do
  let records ← Checked.collect (fun r => do
    let action ← planRecord db backup r
    pure (r, action)) backup.records
  pure { records, tombstones := backup.tombstones.map fun t => (t, planTombstone db t) }

/-! ## Previews -/

structure Mapping where
  kind : RecordKind
  legacyId : String
deriving DecidableEq

def Mapping.json (m : Mapping) : Json :=
  .obj [("kind", .str m.kind.text), ("legacy_id", .str m.legacyId),
    ("workspace_id", .str (stableId m.kind m.legacyId))]

/-- The mappings of the records, then those of the tombstones that are new, sorted. -/
def mappings (backup : ValidatedBackup) : List Mapping :=
  let ofRecords := backup.records.map fun r => Mapping.mk r.role.kind r.legacyId
  let all := backup.tombstones.foldl (fun ms t =>
    if Mapping.mk .conversation t.legacyId ∈ ms then ms else ms ++ [Mapping.mk .conversation t.legacyId]) ofRecords
  all.insertionSort fun a b => Store.keyLe (a.kind.text, a.legacyId) (b.kind.text, b.legacyId)

/-- The counts of a preview that the actions decide. -/
structure Tally where
  duplicates : Nat
  conflicts : Nat
  creates : Nat
  updates : Nat
deriving DecidableEq, Repr

def Plan.tally (p : Plan) : Tally where
  duplicates := p.records.countP (fun a => a.2 = .duplicate) + p.tombstones.countP fun a => a.2 = .duplicate
  conflicts := p.records.countP (fun a => a.2 = .conflict || a.2 = .blockedByTombstone) +
    p.tombstones.countP fun a => a.2 = .conflict
  creates := p.records.countP fun a => a.2 = .create
  updates := p.records.countP fun a => a.2 = .replaceOlder

/-- The `preview` of a plan. -/
def previewFields (backup : ValidatedBackup) (p : Plan) : List (String × Json) :=
  let count := fun (n : Nat) => Json.int n
  let tally := p.tally
  [("format", .str backupFormat), ("version", .int backupVersion), ("digest", .str backup.digest),
    ("compatibility", .str (if backup.unsupported = [] then "compatible" else "partial")),
    ("supported", .obj [("conversations", count backup.conversations.length),
      ("collections", count backup.collections.length), ("evidence_items", count backup.evidenceItems.length),
      ("favorites", count backup.favorites.length)]),
    ("unsupported", count (unsupportedCount backup.unsupported)),
    ("unsupported_sources", .arr (backup.unsupported.map UnsupportedSource.json)),
    ("duplicates", count tally.duplicates), ("potential_conflicts", count tally.conflicts),
    ("tombstones", count backup.tombstones.length), ("records_to_create", count tally.creates),
    ("records_to_update", count tally.updates), ("records_to_skip", count (tally.duplicates + tally.conflicts)),
    ("mapping_required", count (mappings backup).length), ("mappings", .arr ((mappings backup).map Mapping.json))]

/-- `preview`. -/
def preview (settings : Settings) (raw : JsonValue) (db : Store) : Except PyError (ValidatedBackup × Plan) := do
  let backup ← validateWorkspaceBackup settings.portableSecrets raw
  let p ← plan db backup
  pure (backup, p)

/-! ## Importing -/

/-- `datetime.fromtimestamp(ms / 1000, timezone.utc).isoformat().replace("+00:00", "Z")`. -/
def isoFromTimestamp (ms : Nat) : Except PyError String := do
  let m ← fromtimestamp ms
  pure (isoText false m)

/-- The row an import writes for a record. -/
def incomingRow (backup : ValidatedBackup) (r : BackupRecord) : Except PyError RecordRow := do
  let payloadJson ← incomingText backup r
  let createdAt ← isoFromTimestamp r.createdAt
  let updatedAt ← isoFromTimestamp r.updatedAt
  bindInteger r.revision
  pure ⟨r.entityType, r.workspaceId, r.revision, payloadJson, createdAt, updatedAt⟩

/-- One action on a record. -/
def applyRecord (backup : ValidatedBackup) (db : Store) (r : BackupRecord) : Action → Except PyError Store
  | .create => do
    let row ← incomingRow backup r
    db.insertRecord row
  | .replaceOlder => do
    let row ← incomingRow backup r
    pure (db.putRecord row.entityType row.entityId row.revision row.payloadJson row.createdAt row.updatedAt)
  | _ => pure db

/-- One action on a tombstone. -/
def applyTombstone (db : Store) (t : BackupTombstone) : TombstoneAction → Except PyError Store
  | .create | .replace => do
    let deletedAt ← isoFromTimestamp t.deletedAt
    (db.deleteRecord t.entityType t.workspaceId).upsertTombstone ⟨t.entityType, t.workspaceId, t.revision, deletedAt⟩
  | _ => pure db

/-- An action that writes. -/
def Action.applies (action : Action) : Bool :=
  action = .create || action = .replaceOlder

def TombstoneAction.applies (action : TombstoneAction) : Bool :=
  action = .create || action = .replace

/-- The loop over the record actions; `inject` is called after every action that wrote. -/
def applyRecords (inject : String → Nat → Except PyError Unit) (backup : ValidatedBackup) (db : Store) (applied : Nat) :
    List (BackupRecord × Action) → Except PyError (Store × Nat)
  | [] => pure (db, applied)
  | (r, action) :: rest =>
    if action.applies = true then do
      let db ← applyRecord backup db r action
      inject action.text (applied + 1)
      applyRecords inject backup db (applied + 1) rest
    else applyRecords inject backup db applied rest

/-- The loop over the tombstone actions. -/
def applyTombstones (inject : String → Nat → Except PyError Unit) (db : Store) (applied : Nat) :
    List (BackupTombstone × TombstoneAction) → Except PyError Store
  | [] => pure db
  | (t, action) :: rest =>
    if action.applies = true then do
      let db ← applyTombstone db t action
      inject action.text (applied + 1)
      applyTombstones inject db (applied + 1) rest
    else applyTombstones inject db applied rest

def importId (digest : String) : String :=
  "import-" ++ String.ofList (digest.toList.take 40)

/-- The receipt of an import. -/
def receiptFields (backup : ValidatedBackup) (p : Plan) (completedAt : String) : List (String × Json) :=
  [("import_id", .str (importId backup.digest)), ("status", .str "committed"), ("digest", .str backup.digest),
    ("completed_at", .str completedAt)] ++ (previewFields backup p).filter fun f => f.1 ≠ "digest"

/-- The row of `workspace_imports` an import leaves. -/
def receiptRow (backup : ValidatedBackup) (p : Plan) (now : String) : Except PyError ImportRow := do
  let countsJson ← Checked.orRaise (canonicalJson (.obj (receiptFields backup p now))) ⟨.valueError, "Exceeds the limit"⟩
  pure ⟨importId backup.digest, backup.digest, countsJson, now, now⟩

/-- `INSERT INTO workspace_imports`. -/
def insertImport (db : Store) (row : ImportRow) : Except PyError Store := do
  let imports ← Checked.orRaise (db.imports.insert? row) Store.integrityError
  pure { db with imports }

/-- The transaction of `import_backup` when there is no receipt yet. -/
def importFresh (inject : String → Nat → Except PyError Unit) (now : String) (backup : ValidatedBackup) (db : Store) :
    Except PyError (Store × Json) := do
  let p ← plan db backup
  let (db, applied) ← applyRecords inject backup db 0 p.records
  let db ← applyTombstones inject db applied p.tombstones
  let row ← receiptRow backup p now
  let db ← insertImport db row
  pure (db, .obj (receiptFields backup p now))

/-- `import_backup`. -/
def importBackup (inject : String → Nat → Except PyError Unit) (ctx : Context) (raw : JsonValue) (previewDigest : String)
    (db : Store) : Except PyError (Store × Json) := do
  let backup ← validateWorkspaceBackup ctx.settings.portableSecrets raw
  Checked.require (previewDigest = backup.digest) (transferError "preview digest does not match the backup")
  match db.imports.find? fun row => row.sourceDigest = backup.digest with
  | some prior => do
    let receipt ← Checked.orRaise (loadsObject prior.countsJson) (transferError "stored import receipt is invalid")
    pure (db, receipt.json)
  | none => importFresh inject ctx.nowText backup db

/-! ## Exporting -/

/-- `_timestamp_ms`. -/
def timestampMsOf (value : String) : Except PyError Int := do
  let m ← Checked.orRaise (parseIso value) (transferError "workspace timestamp is invalid")
  pure (timestampMs m)

/-- `kind in _ENTITY_TYPE_BY_KIND`; a container has no hash. -/
def kindOf (kind : Json) : Except PyError (Option RecordKind) :=
  match kind with
  | .str s => pure (RecordKind.ofText? s)
  | .arr _ | .obj _ => throw ⟨.typeError, "unhashable type"⟩
  | _ => pure none

/-- One entry of the reverse mappings. -/
structure Reverse where
  workspaceId : String
  kind : RecordKind
  legacyId : String

/-- The entry a mapping of a receipt stands for. -/
def reverseOf (mapping : Json) : Except PyError (Option Reverse) :=
  match mapping with
  | .obj fields => do
    match ← kindOf ((Json.lookup "kind" fields).getD .null), Json.lookup "legacy_id" fields,
      Json.lookup "workspace_id" fields with
    | some kind, some (.str legacyId), some (.str workspaceId) => pure (some ⟨workspaceId, kind, legacyId⟩)
    | _, _, _ => pure none
  | _ => pure none

/-- `receipt.get("mappings", [])`, of a receipt that is an object. -/
def receiptMappings (receipt : Json) : Except PyError (List Json) :=
  match receipt with
  | .obj fields =>
    match Json.lookup "mappings" fields with
    | some (.arr items) => pure items
    | none | some (.str _) | some (.obj _) => pure []
    | _ => throw ⟨.typeError, "object is not iterable"⟩
  | _ => pure []

/-- The reverse mappings of the receipts in turn, and how many receipts cannot be read. -/
def reverseMappings : List ImportRow → Except PyError (List Reverse × Nat)
  | [] => pure ([], 0)
  | row :: rows =>
    match loads row.countsJson with
    | none => do
      let (rest, unread) ← reverseMappings rows
      pure (rest, unread + 1)
    | some receipt => do
      let items ← receiptMappings receipt
      let own ← Checked.collect reverseOf items
      let (rest, unread) ← reverseMappings rows
      pure (own.filterMap id ++ rest, unread)

/-- `reverse_mappings.get((entity_type, entity_id))`: the last entry wins. -/
def reverse? (entries : List Reverse) (entityType entityId : String) : Option Reverse :=
  entries.reverse.find? fun e => e.kind.entityType = entityType && e.workspaceId = entityId

/-- The parts of a row that can be exported. -/
structure ExportedRow where
  kind : RecordKind
  record : ExportedRecord
  favorite : Bool

/-- The row of `workspace_records` as it is exported, `none` when it is left out. -/
def exportRow (row : RecordRow) : Except PyError (Option ExportedRow) :=
  match loadsObject row.payloadJson with
  | none => pure none
  | some wrapper =>
    if wrapper.holdsInt "workspace_transfer_version" 1 = false then pure none
    else do
      match ← kindOf (wrapper.value "source_kind").json, (wrapper.value "data").object? with
      | some kind, some payload => do
        let createdAt ← timestampMsOf row.createdAt
        let updatedAt ← timestampMsOf row.updatedAt
        pure (some {
          kind
          record := {
            legacyId := wrapper.value "legacy_id"
            schemaVersion := wrapper.value "source_schema_version"
            revision := row.revision
            createdAt
            updatedAt
            payload
            parentLegacyId := if kind = .evidenceItem then some (wrapper.value "parent_legacy_id") else none }
          favorite := kind = .collection && wrapper.get? "favorite" = some (.bool true) })
      | _, _ => pure none

/-- A tombstone as it is exported, `none` when it is left out. -/
def exportTombstone (entries : List Reverse) (row : TombstoneRow) : Except PyError (Option ExportedTombstone) :=
  match reverse? entries row.entityType row.entityId with
  | some e =>
    if e.kind = .conversation then do
      let deletedAt ← timestampMsOf row.deletedAt
      pure (some ⟨e.legacyId, row.revision, deletedAt⟩)
    else pure none
  | none => pure none

/-- The records of a kind. -/
def recordsOfKind (rows : List ExportedRow) (kind : RecordKind) : List ExportedRecord :=
  (rows.filter fun r => r.kind = kind).map ExportedRow.record

/-- The source that stands for everything left out. -/
def leftOut (count : Nat) : List UnsupportedSource :=
  if count = 0 then []
  else [⟨"workspace_records", none, count, "record is not part of the portable DATA-002 transfer contract"⟩]

/-- What `export_backup` reads from the store. -/
def readStore (db : Store) : Except PyError Exported := do
  let (entries, unread) ← reverseMappings (db.imports.rows.insertionSort fun a b => a.importId ≤ b.importId)
  let rows ← Checked.collect exportRow
    (db.records.rows.insertionSort fun a b => Store.keyLe (a.entityType, a.entityId) (b.entityType, b.entityId))
  let tombstones ← Checked.collect (exportTombstone entries)
    (db.tombstones.rows.insertionSort fun a b => Store.keyLe (a.entityType, a.entityId) (b.entityType, b.entityId))
  let kept := rows.filterMap id
  pure {
    conversations := recordsOfKind kept .conversation
    collections := recordsOfKind kept .collection
    evidenceItems := recordsOfKind kept .evidenceItem
    favorites := (kept.filter ExportedRow.favorite).map fun r => r.record.legacyId
    tombstones := tombstones.filterMap id
    unsupported := leftOut (unread + rows.countP Option.isNone + tombstones.countP Option.isNone) }

/-- `export_backup`. -/
def exportBackup (ctx : Context) (db : Store) : Except PyError JsonObject := do
  let exported ← readStore db
  buildWorkspaceBackup ctx.settings.portableSecrets exported ctx.nowText

end Transfer
