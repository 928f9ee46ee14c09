import DocumentQa.Lib.Json.Walk
import DocumentQa.Lib.SqlTable
import DocumentQa.Python.Errors
import DocumentQa.Python.Json

/-!
# The workspace record store

The tables of versioned records, tombstones and import receipts, and the operations of
`SQLiteVersionedRecordRepository` on a caller's connection. An operation that raises says
nothing about the store: the transaction it runs in drops what it did.
-/

namespace Workspace

open Python JsonText SqlTable

structure RecordRow where
  entityType : String
  entityId : String
  revision : Nat
  payloadJson : String
  createdAt : String
  updatedAt : String
deriving DecidableEq

structure TombstoneRow where
  entityType : String
  entityId : String
  revision : Nat
  deletedAt : String
deriving DecidableEq

/-- A row of `workspace_imports`; the status is always `committed`. -/
structure ImportRow where
  importId : String
  sourceDigest : String
  countsJson : String
  createdAt : String
  completedAt : String
deriving DecidableEq

instance : Row RecordRow where
  Identity := String × String
  identity r := (r.entityType, r.entityId)
  clash a b := a = b
  clash_comm _ _ := by simp [eq_comm]

instance : Row TombstoneRow where
  Identity := String × String
  identity r := (r.entityType, r.entityId)
  clash a b := a = b
  clash_comm _ _ := by simp [eq_comm]

instance : Row ImportRow where
  Identity := String × String
  identity r := (r.importId, r.sourceDigest)
  clash a b := a.1 = b.1 || a.2 = b.2
  clash_comm _ _ := by simp [eq_comm]

structure Store where
  records : Table RecordRow
  tombstones : Table TombstoneRow
  imports : Table ImportRow

namespace Store

def empty : Store :=
  ⟨.empty, .empty, .empty⟩

/-! ## Statements -/

/-- `SELECT ... FROM workspace_records WHERE entity_type = ? AND entity_id = ?`. -/
def record? (db : Store) (entityType entityId : String) : Option RecordRow :=
  db.records.find? fun r => r.entityType = entityType && r.entityId = entityId

/-- `SELECT ... FROM tombstones WHERE entity_type = ? AND entity_id = ?`. -/
def tombstone? (db : Store) (entityType entityId : String) : Option TombstoneRow :=
  db.tombstones.find? fun r => r.entityType = entityType && r.entityId = entityId

/-- The order of `ORDER BY entity_type, entity_id`. -/
def keyLe (a b : String × String) : Bool :=
  a.1 < b.1 || (a.1 = b.1 && a.2 ≤ b.2)

/-- `SELECT ... FROM workspace_records WHERE entity_type = ? ORDER BY entity_id`. -/
def recordsOf (db : Store) (entityType : String) : List RecordRow :=
  (db.records.select fun r => r.entityType = entityType).insertionSort fun a b => a.entityId ≤ b.entityId

def integrityError : PyError :=
  ⟨.integrityError, "UNIQUE constraint failed"⟩

/-- `INSERT INTO workspace_records`. -/
def insertRecord (db : Store) (r : RecordRow) : Except PyError Store := do
  bindInteger r.revision
  let records ← Checked.orRaise (db.records.insert? r) integrityError
  pure { db with records }

/-- `UPDATE workspace_records SET ... WHERE entity_type = ? AND entity_id = ?` of the row read. -/
def putRecord (db : Store) (entityType entityId : String) (revision : Nat) (payloadJson createdAt updatedAt : String) :
    Store :=
  { db with
    records := db.records.update (fun r => r.entityType = entityType && r.entityId = entityId)
      (fun r => { r with revision, payloadJson, createdAt, updatedAt }) fun _ => rfl }

/-- `DELETE FROM workspace_records WHERE entity_type = ? AND entity_id = ?`. -/
def deleteRecord (db : Store) (entityType entityId : String) : Store :=
  { db with records := db.records.delete fun r => r.entityType = entityType && r.entityId = entityId }

/-- `INSERT INTO tombstones`. -/
def insertTombstone (db : Store) (r : TombstoneRow) : Except PyError Store := do
  bindInteger r.revision
  let tombstones ← Checked.orRaise (db.tombstones.insert? r) integrityError
  pure { db with tombstones }

/-- `INSERT INTO tombstones ... ON CONFLICT(entity_type, entity_id) DO UPDATE`. -/
def upsertTombstone (db : Store) (r : TombstoneRow) : Except PyError Store := do
  bindInteger r.revision
  pure { db with
    tombstones := db.tombstones.upsert r
      (fun old => { old with revision := r.revision, deletedAt := r.deletedAt }) fun _ => rfl }

end Store

/-! ## Checks -/

/-- `_OPAQUE_ID`. -/
def opaqueId : NamePattern :=
  ⟨isAlnum, fun c => isAlnum c || c = '_' || c = '-', 128⟩

/-- `_ENTITY_TYPES`. -/
def entityTypes : List String :=
  ["conversation", "collection", "collection_item", "note", "job", "job_step", "collection_activity"]

def valueError (message : String) : PyError :=
  ⟨.valueError, message⟩

/-- `_validate_entity`. -/
def validateEntity (entityType entityId : String) : Except PyError Unit := do
  Checked.require (entityType ∈ entityTypes) (valueError "unsupported workspace entity type")
  Checked.require (opaqueId.fullmatch entityId = true) (valueError "workspace entity IDs must be opaque identifiers")

/-- `_FORBIDDEN_KEYS`. -/
def forbiddenKeys : List (List Char) :=
  ["api_key", "apikey", "authorization", "bearer", "bearer_token", "groq_api_key", "local_workspace_token", "password",
    "provider_credential", "provider_key", "secret"].map String.toList

/-- A key that names a credential. -/
def isCredentialKey (key : String) : Bool :=
  let normalized := normalKey key
  let compact := withoutUnderscores normalized
  forbiddenKeys.contains normalized || (forbiddenKeys.map withoutUnderscores).contains compact ||
    ["_api_key", "_password", "_secret", "_token"].any fun s => endsWith normalized s.toList

/-- A text that carries one of the configured secrets. -/
def isCredentialValue (forbidden : List String) (value : String) : Bool :=
  forbidden.any fun secret => value = secret || (8 ≤ secret.length && isInfix secret.toList value.toList)

/-- `_reject_secret_fields`. -/
def rejectSecretFields (forbidden : List String) (j : Json) : Except PyError Unit :=
  Json.Scan.run
    ⟨fun key => Checked.require (isCredentialKey key = false)
        (valueError "workspace records cannot persist credential fields"),
      fun s => Checked.require (isCredentialValue forbidden s = false)
        (valueError "workspace records cannot persist credential values")⟩ j

/-- `_canonical_payload`. -/
def canonicalPayload (forbidden : List String) (payload : JsonObject) : Except PyError String := do
  rejectSecretFields forbidden payload.json
  Checked.orRaise (dumpsFinite payload.json) (valueError "workspace record payload must be finite JSON")

/-! ## `SQLiteVersionedRecordRepository` on a connection -/

structure VersionedRecord where
  entityType : String
  entityId : String
  revision : Nat
  payload : JsonObject
  createdAt : String
  updatedAt : String

def recordConflict (message : String) : PyError :=
  ⟨.recordConflict, message⟩

/-- `_record`. -/
def recordOf (r : RecordRow) : Except PyError VersionedRecord := do
  let payload ← Checked.orRaise (loadsObject r.payloadJson) (valueError "workspace record payload is malformed")
  pure ⟨r.entityType, r.entityId, r.revision, payload, r.createdAt, r.updatedAt⟩

/-- `_raise_missing_or_conflict`. -/
def missingOrConflict (db : Store) (entityType entityId : String) : PyError :=
  if (db.tombstone? entityType entityId).isSome then ⟨.recordDeleted, "workspace record has been deleted"⟩
  else if (db.record? entityType entityId).isSome then recordConflict "workspace record revision conflict"
  else ⟨.recordNotFound, "workspace record does not exist"⟩

/-- `create_in`. -/
def createIn (forbidden : List String) (db : Store) (entityType entityId : String) (payload : JsonObject)
    (timestamp : String) : Except PyError (Store × VersionedRecord) := do
  validateEntity entityType entityId
  let payloadJson ← canonicalPayload forbidden payload
  let row : RecordRow := ⟨entityType, entityId, 1, payloadJson, timestamp, timestamp⟩
  Checked.require (db.tombstone? entityType entityId = none) ⟨.recordDeleted, "workspace record has been deleted"⟩
  let db ← reraise [.integrityError] (recordConflict "workspace record already exists") (db.insertRecord row)
  let record ← recordOf row
  pure (db, record)

/-- `replace_in`. -/
def replaceIn (forbidden : List String) (db : Store) (entityType entityId : String) (payload : JsonObject)
    (expectedRevision : Int) (timestamp : String) : Except PyError (Store × VersionedRecord) := do
  validateEntity entityType entityId
  Checked.require (1 ≤ expectedRevision) (valueError "expected revision must be positive")
  let payloadJson ← canonicalPayload forbidden payload
  bindInteger expectedRevision
  match db.record? entityType entityId with
  | none => throw (missingOrConflict db entityType entityId)
  | some r =>
    Checked.require ((r.revision : Int) = expectedRevision) (missingOrConflict db entityType entityId)
    let db := db.putRecord entityType entityId (r.revision + 1) payloadJson r.createdAt timestamp
    let record ← recordOf { r with revision := r.revision + 1, payloadJson, updatedAt := timestamp }
    pure (db, record)

/-- `delete_in`. -/
def deleteIn (db : Store) (entityType entityId : String) (expectedRevision : Int) (timestamp : String) :
    Except PyError (Store × TombstoneRow) := do
  validateEntity entityType entityId
  Checked.require (1 ≤ expectedRevision) (valueError "expected revision must be positive")
  match db.record? entityType entityId with
  | none => throw (missingOrConflict db entityType entityId)
  | some r =>
    Checked.require ((r.revision : Int) = expectedRevision) (recordConflict "workspace record revision conflict")
    let tombstone : TombstoneRow := ⟨entityType, entityId, r.revision + 1, timestamp⟩
    let db ← (db.deleteRecord entityType entityId).insertTombstone tombstone
    pure (db, tombstone)

end Workspace
