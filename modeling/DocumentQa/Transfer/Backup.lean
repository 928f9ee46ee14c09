import DocumentQa.Python.Datetime
import DocumentQa.Transfer.Identity

/-!
# The backup envelope

`validate_workspace_backup` turns an untrusted JSON value into a `ValidatedBackup`; a value
it refuses raises. `build_workspace_backup` assembles an envelope from exported rows and
puts it through the same validation.
-/

namespace Transfer

open Python JsonText

def maxBackupBytes : Nat := 26214400
def maxConversations : Nat := 100
def maxCollections : Nat := 50
def maxEvidenceItems : Nat := 5000
def maxFavorites : Nat := 50
def maxTombstones : Nat := 1000
def maxUnsupportedDescriptors : Nat := 100

/-! ## Fields -/

/-- `_require_object`. -/
def requireObject (value : JsonValue) (message : String) : Except PyError JsonObject :=
  Checked.orRaise value.object? (transferError message)

/-- `_require_exact_keys`. -/
def requireExactKeys (o : JsonObject) (required : List String) : Except PyError Unit :=
  Checked.require ((∀ key ∈ required, key ∈ o.keys) ∧ ∀ key ∈ o.keys, key ∈ required)
    (transferError "backup schema contains missing or unknown fields")

/-- `_positive_int`. -/
def positiveInt (value : Json) (field : String) : Except PyError Nat :=
  match value with
  | .int i => do
    Checked.require (1 ≤ i) (transferError ("backup " ++ field ++ " must be a positive integer"))
    pure i.toNat
  | _ => throw (transferError ("backup " ++ field ++ " must be a positive integer"))

/-- `_timestamp`. -/
def timestamp (value : Json) (field : String) : Except PyError Nat :=
  match value with
  | .int i => do
    Checked.require (0 ≤ i) (transferError ("backup " ++ field ++ " must be a millisecond timestamp"))
    pure i.toNat
  | _ => throw (transferError ("backup " ++ field ++ " must be a millisecond timestamp"))

/-! ## Records -/

/-- What a record is, with the field only evidence items have. -/
inductive Role where
  | conversation
  | collection
  | evidenceItem (parentLegacyId : String)
deriving DecidableEq

def Role.kind : Role → RecordKind
  | .conversation => .conversation
  | .collection => .collection
  | .evidenceItem _ => .evidenceItem

/-- A validated record and its kind. -/
structure BackupRecord where
  role : Role
  legacyId : String
  schemaVersion : Nat
  revision : Nat
  createdAt : Nat
  updatedAt : Nat
  payload : JsonObject
deriving DecidableEq

/-- `isinstance(value, list)` and `len(value) <= limit`. -/
def boundedList (value : Json) (limit : Nat) : Bool :=
  match value with
  | .arr items => items.length ≤ limit
  | _ => false

/-- `[A-Za-z0-9_-]`. -/
def isRunChar (c : Char) : Bool :=
  isAlnum c || c = '_' || c = '-'

/-- `agent_[A-Za-z0-9_-]{1,122}`. -/
def isRunId (value : String) : Bool :=
  let rest := value.toList.drop 6
  "agent_".toList.isPrefixOf value.toList && 1 ≤ rest.length && rest.length ≤ 122 && rest.all isRunChar

/-- The checks of one message that refers to an execution. -/
def validateExecution (schemaVersion : Nat) (message : JsonObject) : Except PyError Unit := do
  let reference ← requireObject (message.value "assistantExecution") "assistant execution must be an object"
  if reference.get? "kind" = some (.str "quick_answer") then requireExactKeys reference ["kind"]
  else if schemaVersion = 5 ∧ reference.get? "kind" = some (.str "agent_research") then do
    requireExactKeys reference ["kind", "runId", "createdAt"]
    requireExactKeys message ["id", "sender", "text", "assistantExecution"]
    Checked.require (message.get? "sender" = some (.str "assistant") ∧ message.get? "text" = some (.str "") ∧
      message.holdsText "id" = true) (transferError "Agent conversation entry must contain only a reference")
    match reference.get? "runId" with
    | some (.str runId) => Checked.require (isRunId runId = true) (transferError "Agent run reference is malformed")
    | _ => throw (transferError "Agent run reference is malformed")
    let _ ← timestamp (reference.value "createdAt").json "Agent reference creation time"
    pure ()
  else throw (transferError "unsupported assistant execution kind")

def validateMessage (schemaVersion : Nat) (message : JsonValue) : Except PyError Unit :=
  match message.object? with
  | some message =>
    if "assistantExecution" ∈ message.keys then validateExecution schemaVersion message else pure ()
  | none => pure ()

/-- `payload.get("titleMode") not in {"auto", "custom"}`; a container has no hash. -/
def validateTitleMode (payload : JsonObject) : Except PyError Unit :=
  match payload.get? "titleMode" with
  | some (.arr _) | some (.obj _) => throw ⟨.typeError, "unhashable type"⟩
  | mode => Checked.require (mode = some (.str "auto") ∨ mode = some (.str "custom"))
      (transferError "conversation title mode is malformed")

/-- The conversation branch of `_validate_record`. -/
def validateConversation (schemaVersion revision createdAt updatedAt : Nat) (payload : JsonObject) :
    Except PyError Unit := do
  Checked.require ((schemaVersion = 4 ∨ schemaVersion = 5) ∧ payload.holdsInt "schemaVersion" schemaVersion = true)
    (transferError "unsupported conversation schema version")
  Checked.require (payload.holdsInt "revision" revision = true)
    (transferError "conversation revision does not match its payload")
  Checked.require (payload.holdsInt "createdAt" createdAt = true ∧ payload.holdsInt "updatedAt" updatedAt = true)
    (transferError "conversation timestamps do not match its payload")
  Checked.require (payload.holdsText "sessionId" = true ∧ payload.holdsText "title" = true)
    (transferError "conversation identity fields are malformed")
  validateTitleMode payload
  let messages ← Checked.orRaise (payload.value "messages").items?
    (transferError "conversation messages are malformed or exceed limits")
  Checked.require (messages.length ≤ 5000) (transferError "conversation messages are malformed or exceed limits")
  Checked.each (validateMessage schemaVersion) messages
  Checked.require (payload.holdsText "draft" = true ∧ ((payload.value "bookmarkedMessageIds").items?).isSome = true)
    (transferError "conversation state is malformed")
  Checked.require (boundedList ((payload.get? "notes").getD (.arr [])) 50 = true)
    (transferError "conversation notes are malformed or exceed limits")
  Checked.require (boundedList ((payload.get? "variants").getD (.arr [])) 100 = true)
    (transferError "conversation variants are malformed or exceed limits")

/-- `isinstance(payload.get("name"), str) and payload["name"].strip()`. -/
def hasName (payload : JsonObject) : Bool :=
  match payload.get? "name" with
  | some (.str name) => strip name ≠ ""
  | _ => false

/-- The collection branch of `_validate_record`. -/
def validateCollection (schemaVersion createdAt updatedAt : Nat) (payload : JsonObject) : Except PyError Unit := do
  Checked.require (schemaVersion = 1 ∨ schemaVersion = 2)
    (transferError "unsupported evidence collection schema version")
  Checked.require (schemaVersion = 1 → (payload.value "schemaVersion").json = .null)
    (transferError "legacy collection schema is inconsistent")
  Checked.require (schemaVersion = 2 → payload.holdsInt "schemaVersion" 2 = true)
    (transferError "evidence collection schema is inconsistent")
  Checked.require (hasName payload = true) (transferError "evidence collection name is malformed")
  Checked.require ("items" ∉ payload.keys) (transferError "collection items must use evidence_items records")
  Checked.require (payload.holdsInt "createdAt" createdAt = true ∧ payload.holdsInt "updatedAt" updatedAt = true)
    (transferError "collection timestamps do not match its payload")

/-- The evidence item branch of `_validate_record`: the parent. -/
def validateEvidenceItem (schemaVersion createdAt updatedAt : Nat) (payload : JsonObject) (parent : Json) :
    Except PyError String := do
  Checked.require (schemaVersion = 1 ∨ schemaVersion = 2) (transferError "unsupported evidence item schema version")
  let parentId ← validateLegacyId parent
  Checked.require (payload.holdsText "citation" = true ∧ payload.holdsText "excerpt" = true)
    (transferError "evidence item content is malformed")
  Checked.require (payload.holdsInt "savedAt" createdAt = true ∧ updatedAt = createdAt)
    (transferError "evidence item timestamps are inconsistent")
  pure parentId

/-- The branches of `_validate_record`: what the record is. -/
def validateRole (kind : RecordKind) (schemaVersion revision createdAt updatedAt : Nat) (payload : JsonObject)
    (parent : Json) : Except PyError Role :=
  match kind with
  | .conversation => do
    validateConversation schemaVersion revision createdAt updatedAt payload
    pure Role.conversation
  | .collection => do
    validateCollection schemaVersion createdAt updatedAt payload
    pure Role.collection
  | .evidenceItem => do
    let parent ← validateEvidenceItem schemaVersion createdAt updatedAt payload parent
    pure (Role.evidenceItem parent)

/-- The fields every record has. -/
def recordKeys : List String :=
  ["legacy_id", "schema_version", "revision", "created_at", "updated_at", "payload"]

/-- `_validate_record`. -/
def validateRecord (secrets : List String) (kind : RecordKind) (raw : JsonValue) : Except PyError BackupRecord := do
  let record ← requireObject raw "backup record must be an object"
  requireExactKeys record (if kind = .evidenceItem then recordKeys ++ ["parent_legacy_id"] else recordKeys)
  let legacyId ← validateLegacyId (record.value "legacy_id").json
  let schemaVersion ← positiveInt (record.value "schema_version").json "schema_version"
  let revision ← positiveInt (record.value "revision").json "revision"
  let createdAt ← timestamp (record.value "created_at").json "created_at"
  let updatedAt ← timestamp (record.value "updated_at").json "updated_at"
  Checked.require (createdAt ≤ updatedAt) (transferError "backup record timestamps are inconsistent")
  let payload ← requireObject (record.value "payload") "backup record payload must be an object"
  validateJsonTree secrets payload.json
  Checked.require (payload.get? "id" = some (.str legacyId))
    (transferError "backup record identity does not match its payload")
  let role ← validateRole kind schemaVersion revision createdAt updatedAt payload (record.value "parent_legacy_id").json
  pure { role, legacyId, schemaVersion, revision, createdAt, updatedAt, payload }

/-- A validated tombstone; its kind is `conversation` and its schema version 1. -/
structure BackupTombstone where
  legacyId : String
  revision : Nat
  deletedAt : Nat
deriving DecidableEq

/-- `_validate_tombstone`. -/
def validateTombstone (raw : JsonValue) : Except PyError BackupTombstone := do
  let tombstone ← requireObject raw "backup tombstone must be an object"
  requireExactKeys tombstone ["kind", "legacy_id", "schema_version", "revision", "deleted_at"]
  Checked.require (tombstone.get? "kind" = some (.str "conversation")) (transferError "unsupported tombstone kind")
  let schemaVersion ← positiveInt (tombstone.value "schema_version").json "tombstone schema_version"
  Checked.require (schemaVersion = 1) (transferError "unsupported tombstone schema version")
  let legacyId ← validateLegacyId (tombstone.value "legacy_id").json
  let revision ← positiveInt (tombstone.value "revision").json "tombstone revision"
  let deletedAt ← timestamp (tombstone.value "deleted_at").json "deleted_at"
  pure { legacyId, revision, deletedAt }

/-- A source whose records the envelope leaves out. -/
structure UnsupportedSource where
  source : String
  schemaVersion : Option Nat
  count : Nat
  reason : String
deriving DecidableEq

/-- A text that is not empty. -/
def requireNonempty (value : Json) (message : String) : Except PyError String :=
  match value with
  | .str s => do
    Checked.require (s ≠ "") (transferError message)
    pure s
  | _ => throw (transferError message)

/-- `schema_version` of a descriptor: `None` or a positive integer. -/
def optionalVersion : Json → Except PyError (Option Nat)
  | .null => pure none
  | .int i => do
    Checked.require (1 ≤ i) (transferError "unsupported source schema version is malformed")
    pure (some i.toNat)
  | _ => throw (transferError "unsupported source schema version is malformed")

/-- `_validate_unsupported`. -/
def validateUnsupported (secrets : List String) (raw : JsonValue) : Except PyError UnsupportedSource := do
  let descriptor ← requireObject raw "unsupported source descriptor must be an object"
  requireExactKeys descriptor ["source", "schema_version", "count", "reason"]
  let source ← requireNonempty (descriptor.value "source").json "unsupported source descriptor is malformed"
  let schemaVersion ← optionalVersion (descriptor.value "schema_version").json
  let count ← positiveInt (descriptor.value "count").json "unsupported count"
  let reason ← requireNonempty (descriptor.value "reason").json "unsupported source reason is malformed"
  Checked.require (reason.length ≤ 256 ∧ source.length ≤ 128)
    (transferError "unsupported source descriptor exceeds limits")
  validateJsonTree secrets descriptor.json
  pure { source, schemaVersion, count, reason }

/-! ## Envelopes -/

structure ValidatedBackup where
  digest : String
  conversations : List BackupRecord
  collections : List BackupRecord
  evidenceItems : List BackupRecord
  favorites : List String
  tombstones : List BackupTombstone
  unsupported : List UnsupportedSource

/-- `ValidatedBackup.records`. -/
def ValidatedBackup.records (backup : ValidatedBackup) : List BackupRecord :=
  backup.conversations ++ backup.collections ++ backup.evidenceItems

def envelopeKeys : List String :=
  ["format", "version", "exported_at", "source_schemas", "source_counts", "conversations", "collections",
    "evidence_items", "favorites", "tombstones", "unsupported", "digest"]

def schemaKeys : List String :=
  ["conversations", "evidence_collections", "favorites", "tombstones"]

def countKeys : List String :=
  ["conversations", "collections", "evidence_items", "favorites", "tombstones", "unsupported"]

/-- `sorted(set(values))`. -/
def sortedSet (versions : List Int) : List Int :=
  versions.dedup.insertionSort (· ≤ ·)

/-- A schema version, an integer that is positive and no `bool`. -/
def schemaVersion? : Json → Option Int
  | .int i => if 1 ≤ i then some i else none
  | _ => none

/-- A list of schema versions. -/
def versionList (value : Json) : Except PyError (List Int) :=
  let malformed := transferError "workspace source schemas are malformed"
  match value with
  | .arr items => Checked.collect (fun j => Checked.orRaise (schemaVersion? j) malformed) items
  | _ => throw malformed

/-- The check of one list of schema versions: the versions. -/
def schemaVersions (value : Json) : Except PyError (List Int) := do
  let versions ← versionList value
  Checked.require (versions = sortedSet versions)
    (transferError "workspace source schemas must be sorted and unique")
  pure versions

/-- `source_schemas` as an object from its four lists. -/
structure SourceSchemas where
  conversations : List Int
  evidenceCollections : List Int
  favorites : List Int
  tombstones : List Int
deriving DecidableEq

/-- The checks of `source_schemas`. -/
def validateSchemas (value : JsonValue) : Except PyError SourceSchemas := do
  let schemas ← requireObject value "workspace source schemas must be an object"
  requireExactKeys schemas schemaKeys
  Checked.each (fun f => do let _ ← schemaVersions f.2; pure ()) schemas.fields
  let conversations ← schemaVersions (schemas.value "conversations").json
  let evidenceCollections ← schemaVersions (schemas.value "evidence_collections").json
  let favorites ← schemaVersions (schemas.value "favorites").json
  let tombstones ← schemaVersions (schemas.value "tombstones").json
  Checked.require (conversations.all (· ≤ 5) = true) (transferError "unsupported future conversation schema version")
  Checked.require (evidenceCollections.all (· ≤ 2) = true)
    (transferError "unsupported future evidence collection schema version")
  Checked.require ((favorites ++ tombstones).all (· ≤ 1) = true)
    (transferError "unsupported future browser storage schema version")
  pure { conversations, evidenceCollections, favorites, tombstones }

/-- A list of the envelope within its limit. -/
def limitedList (envelope : JsonObject) (key label : String) (limit : Nat) : Except PyError (List JsonValue) := do
  let exceed := transferError ("workspace backup " ++ label ++ " exceed limits")
  let items ← Checked.orRaise (envelope.value key).items? exceed
  Checked.require (items.length ≤ limit) exceed
  pure items

/-- The schema versions the records ask for. -/
def expectedSchemas (backup : ValidatedBackup) : SourceSchemas where
  conversations := sortedSet (backup.conversations.map fun r => (r.schemaVersion : Int))
  evidenceCollections := sortedSet ((backup.collections ++ backup.evidenceItems).map fun r => (r.schemaVersion : Int))
  favorites := if backup.favorites = [] then [] else [1]
  tombstones := if backup.tombstones = [] then [] else [1]

/-- `sum(item["count"] for item in unsupported)`. -/
def unsupportedCount (unsupported : List UnsupportedSource) : Nat :=
  unsupported.foldl (fun n s => n + s.count) 0

/-- The counts the records ask for. -/
def expectedCounts (backup : ValidatedBackup) : List (String × Nat) :=
  [("conversations", backup.conversations.length), ("collections", backup.collections.length),
    ("evidence_items", backup.evidenceItems.length), ("favorites", backup.favorites.length),
    ("tombstones", backup.tombstones.length), ("unsupported", unsupportedCount backup.unsupported)]

/-- `item["parent_legacy_id"] in collection_ids`. -/
def hasParentIn (collectionIds : List String) (r : BackupRecord) : Bool :=
  match r.role with
  | .evidenceItem parent => parent ∈ collectionIds
  | _ => true

/-- The checks across the records of an envelope. -/
def validateReferences (backup : ValidatedBackup) : Except PyError Unit := do
  let ids := fun (records : List BackupRecord) => records.map BackupRecord.legacyId
  Checked.each (fun records => Checked.require (ids records).Nodup
      (transferError "workspace backup contains duplicate record identities"))
    [backup.conversations, backup.collections, backup.evidenceItems]
  Checked.require backup.favorites.Nodup (transferError "workspace backup contains duplicate favorites")
  Checked.require (backup.tombstones.map BackupTombstone.legacyId).Nodup
    (transferError "workspace backup contains duplicate tombstones")
  Checked.require (∀ t ∈ backup.tombstones, t.legacyId ∉ ids backup.conversations)
    (transferError "workspace backup contains live and deleted copies of one conversation")
  Checked.require (backup.evidenceItems.all (hasParentIn (ids backup.collections)) = true)
    (transferError "evidence item references a missing collection")
  Checked.require (∀ id ∈ backup.favorites, id ∈ ids backup.collections)
    (transferError "favorite references a missing collection")

/-- The checks of `source_counts`. -/
def validateCounts (value : JsonValue) (backup : ValidatedBackup) : Except PyError Unit := do
  let counts ← requireObject value "workspace source counts must be an object"
  requireExactKeys counts countKeys
  Checked.require (∀ c ∈ expectedCounts backup, counts.holdsInt c.1 c.2 = true)
    (transferError "workspace source counts do not match the payload")

/-- The export timestamp is a text `datetime.fromisoformat` reads. -/
def validateExportedAt : Json → Except PyError Unit
  | .str s => Checked.require (s.length ≤ 64 ∧ (parseIso s).isSome = true)
      (transferError "workspace backup export timestamp is malformed")
  | _ => throw (transferError "workspace backup export timestamp is malformed")

/-- The digest is a SHA-256 text. -/
def validateDigest : Json → Except PyError String
  | .str s => do
    Checked.require (isSha256Text s = true) (transferError "workspace backup digest is malformed")
    pure s
  | _ => throw (transferError "workspace backup digest is malformed")

/-- `len(json.dumps(envelope, ensure_ascii=False, allow_nan=False).encode("utf-8"))`. -/
def encodedLength (j : Json) : Nat :=
  utf8Length (String.ofList (spacedPrinter.text j))

/-- `validate_workspace_backup`. -/
def validateWorkspaceBackup (secrets : List String) (raw : JsonValue) : Except PyError ValidatedBackup := do
  let envelope ← requireObject raw "workspace backup must be a JSON object"
  requireExactKeys envelope envelopeKeys
  Checked.require (envelope.json.finite = true ∧ printable envelope.json = true)
    (transferError "workspace backup contains invalid JSON")
  Checked.require (encodedLength envelope.json ≤ maxBackupBytes)
    (transferError "workspace backup exceeds the 25 MiB limit")
  Checked.require (envelope.get? "format" = some (.str backupFormat))
    (transferError "workspace backup format is not supported")
  Checked.require (envelope.holdsInt "version" backupVersion = true)
    (transferError "workspace backup version is not supported")
  validateExportedAt (envelope.value "exported_at").json
  let digest ← validateDigest (envelope.value "digest").json
  let sourceSchemas ← validateSchemas (envelope.value "source_schemas")
  let rawConversations ← limitedList envelope "conversations" "conversations" maxConversations
  let rawCollections ← limitedList envelope "collections" "collections" maxCollections
  let rawItems ← limitedList envelope "evidence_items" "evidence items" maxEvidenceItems
  let rawFavorites ← limitedList envelope "favorites" "favorites" maxFavorites
  let rawTombstones ← limitedList envelope "tombstones" "tombstones" maxTombstones
  let rawUnsupported ← limitedList envelope "unsupported" "unsupported sources" maxUnsupportedDescriptors
  let conversations ← Checked.collect (validateRecord secrets .conversation) rawConversations
  let collections ← Checked.collect (validateRecord secrets .collection) rawCollections
  let evidenceItems ← Checked.collect (validateRecord secrets .evidenceItem) rawItems
  let favorites ← Checked.collect (fun id => validateLegacyId id.json) rawFavorites
  let tombstones ← Checked.collect validateTombstone rawTombstones
  let unsupported ← Checked.collect (validateUnsupported secrets) rawUnsupported
  let backup : ValidatedBackup :=
    { digest, conversations, collections, evidenceItems, favorites, tombstones, unsupported }
  Checked.require (sourceSchemas = expectedSchemas backup)
    (transferError "workspace source schemas do not match the payload")
  validateReferences backup
  validateCounts (envelope.value "source_counts") backup
  let calculated ← Checked.orRaise (computeBackupDigest envelope.fields) ⟨.valueError, "Exceeds the limit"⟩
  Checked.require (digest = calculated) (transferError "workspace backup digest does not match its contents")
  pure backup

/-- What `validate_workspace_backup` asks of an envelope. -/
structure Accepted (secrets : List String) (envelope : JsonObject) (backup : ValidatedBackup) : Prop where
  keys : requireExactKeys envelope envelopeKeys = .ok ()
  finite : envelope.json.finite = true
  printable : printable envelope.json = true
  size : encodedLength envelope.json ≤ maxBackupBytes
  format : envelope.get? "format" = some (.str backupFormat)
  version : envelope.holdsInt "version" backupVersion = true
  exportedAt : validateExportedAt (envelope.value "exported_at").json = .ok ()
  digest : validateDigest (envelope.value "digest").json = .ok backup.digest
  schemas : validateSchemas (envelope.value "source_schemas") = .ok (expectedSchemas backup)
  conversations : ∃ raws, limitedList envelope "conversations" "conversations" maxConversations = .ok raws ∧
    Checked.collect (validateRecord secrets .conversation) raws = .ok backup.conversations
  collections : ∃ raws, limitedList envelope "collections" "collections" maxCollections = .ok raws ∧
    Checked.collect (validateRecord secrets .collection) raws = .ok backup.collections
  evidenceItems : ∃ raws, limitedList envelope "evidence_items" "evidence items" maxEvidenceItems = .ok raws ∧
    Checked.collect (validateRecord secrets .evidenceItem) raws = .ok backup.evidenceItems
  favorites : ∃ raws, limitedList envelope "favorites" "favorites" maxFavorites = .ok raws ∧
    Checked.collect (fun id => validateLegacyId id.json) raws = .ok backup.favorites
  tombstones : ∃ raws, limitedList envelope "tombstones" "tombstones" maxTombstones = .ok raws ∧
    Checked.collect validateTombstone raws = .ok backup.tombstones
  unsupported : ∃ raws, limitedList envelope "unsupported" "unsupported sources" maxUnsupportedDescriptors = .ok raws ∧
    Checked.collect (validateUnsupported secrets) raws = .ok backup.unsupported
  references : validateReferences backup = .ok ()
  counts : validateCounts (envelope.value "source_counts") backup = .ok ()
  calculated : computeBackupDigest envelope.fields = some backup.digest

/-- **What the validation accepts**, and as what. -/
theorem validateWorkspaceBackup_eq_ok {secrets : List String} {raw : JsonValue} {backup : ValidatedBackup} :
    validateWorkspaceBackup secrets raw = .ok backup ↔
      ∃ envelope : JsonObject, raw.object? = some envelope ∧ Accepted secrets envelope backup := by
  simp only [validateWorkspaceBackup, requireObject, Checked.bind_eq_ok, Checked.require_eq_ok, Checked.orRaise_eq_ok,
    Checked.pure_eq_ok]
  constructor
  · rintro ⟨envelope, object, _, keys, _, ⟨finite, printable⟩, _, size, _, format, _, version, _, exportedAt, digest,
      digestOk, schemas, schemasOk, rawConversations, conversationList, rawCollections, collectionList, rawItems, itemList,
      rawFavorites, favoriteList, rawTombstones, tombstoneList, rawUnsupported, unsupportedList, conversations,
      conversationsOk, collections, collectionsOk, evidenceItems, itemsOk, favorites, favoritesOk, tombstones,
      tombstonesOk, unsupported, unsupportedOk, _, same, _, references, _, counts, calculated, calculatedOk, _, digests,
      rfl⟩
    subst same digests
    exact ⟨envelope, object, keys, finite, printable, size, format, version, exportedAt, digestOk, schemasOk,
      ⟨_, conversationList, conversationsOk⟩, ⟨_, collectionList, collectionsOk⟩, ⟨_, itemList, itemsOk⟩,
      ⟨_, favoriteList, favoritesOk⟩, ⟨_, tombstoneList, tombstonesOk⟩, ⟨_, unsupportedList, unsupportedOk⟩, references,
      counts, calculatedOk⟩
  · rintro ⟨envelope, object, keys, finite, printable, size, format, version, exportedAt, digestOk, schemasOk,
      ⟨_, conversationList, conversationsOk⟩, ⟨_, collectionList, collectionsOk⟩, ⟨_, itemList, itemsOk⟩,
      ⟨_, favoriteList, favoritesOk⟩, ⟨_, tombstoneList, tombstonesOk⟩, ⟨_, unsupportedList, unsupportedOk⟩, references,
      counts, calculatedOk⟩
    exact ⟨envelope, object, (), keys, (), ⟨finite, printable⟩, (), size, (), format, (), version, (), exportedAt,
      backup.digest, digestOk, _, schemasOk, _, conversationList, _, collectionList, _, itemList, _, favoriteList, _,
      tombstoneList, _, unsupportedList, _, conversationsOk, _, collectionsOk, _, itemsOk, _, favoritesOk, _, tombstonesOk,
      _, unsupportedOk, (), rfl, (), references, (), counts, _, calculatedOk, (), rfl, rfl⟩

/-! ## What an accepted record satisfies -/

theorem positiveInt_eq_ok {value : Json} {field : String} {n : Nat} :
    positiveInt value field = .ok n ↔ 0 < n ∧ value = .int n := by
  cases value with
  | int i =>
    simp only [positiveInt, Checked.bind_eq_ok, Checked.require_eq_ok, Checked.pure_eq_ok, Json.int.injEq]
    constructor
    · rintro ⟨_, positive, rfl⟩
      omega
    · rintro ⟨positive, rfl⟩
      exact ⟨(), by omega, by omega⟩
  | _ => simp [positiveInt]

theorem timestamp_eq_ok {value : Json} {field : String} {n : Nat} : timestamp value field = .ok n ↔ value = .int n := by
  cases value with
  | int i =>
    simp only [timestamp, Checked.bind_eq_ok, Checked.require_eq_ok, Checked.pure_eq_ok, Json.int.injEq]
    constructor
    · rintro ⟨_, positive, rfl⟩
      omega
    · rintro rfl
      exact ⟨(), by omega, by omega⟩
  | _ => simp [timestamp]

/-- What every accepted record satisfies. -/
structure RecordFacts (secrets : List String) (kind : RecordKind) (record : JsonObject) (r : BackupRecord) : Prop where
  keys : requireExactKeys record (if kind = .evidenceItem then recordKeys ++ ["parent_legacy_id"] else recordKeys) = .ok ()
  legacyId : (record.value "legacy_id").json = .str r.legacyId
  isLegacyId : isLegacyId r.legacyId = true
  schemaVersion : (record.value "schema_version").json = .int r.schemaVersion
  schemaPositive : 0 < r.schemaVersion
  revision : (record.value "revision").json = .int r.revision
  revisionPositive : 0 < r.revision
  createdAt : (record.value "created_at").json = .int r.createdAt
  updatedAt : (record.value "updated_at").json = .int r.updatedAt
  ordered : r.createdAt ≤ r.updatedAt
  payload : (record.value "payload").object? = some r.payload
  portable : validateJsonTree secrets r.payload.json = .ok ()
  id : r.payload.get? "id" = some (.str r.legacyId)
  role : validateRole kind r.schemaVersion r.revision r.createdAt r.updatedAt r.payload
    (record.value "parent_legacy_id").json = .ok r.role

theorem validateRecord_eq_ok {secrets : List String} {kind : RecordKind} {raw : JsonValue} {r : BackupRecord} :
    validateRecord secrets kind raw = .ok r ↔
      ∃ record : JsonObject, raw.object? = some record ∧ RecordFacts secrets kind record r := by
  simp only [validateRecord, requireObject, Checked.bind_eq_ok, Checked.require_eq_ok, Checked.orRaise_eq_ok,
    Checked.pure_eq_ok, validateLegacyId_eq_ok, positiveInt_eq_ok, timestamp_eq_ok]
  constructor
  · rintro ⟨record, object, _, keys, legacyId, ⟨legacy, valid⟩, schemaVersion, ⟨positive, schema⟩, revision, ⟨positive', rev⟩,
      createdAt, created, updatedAt, updated, _, ordered, payload, payloadOk, _, portable, _, id, role, roleOk, rfl⟩
    exact ⟨record, object, keys, legacy, valid, schema, positive, rev, positive', created, updated, ordered, payloadOk,
      portable, id, roleOk⟩
  · rintro ⟨record, object, keys, legacy, valid, schema, positive, rev, positive', created, updated, ordered, payloadOk,
      portable, id, roleOk⟩
    exact ⟨record, object, (), keys, r.legacyId, ⟨legacy, valid⟩, r.schemaVersion, ⟨positive, schema⟩, r.revision,
      ⟨positive', rev⟩, r.createdAt, created, r.updatedAt, updated, (), ordered, r.payload, payloadOk, (), portable, (), id,
      r.role, roleOk, rfl⟩

theorem validateRole_kind {kind : RecordKind} {schemaVersion revision createdAt updatedAt : Nat} {payload : JsonObject}
    {parent : Json} {role : Role}
    (h : validateRole kind schemaVersion revision createdAt updatedAt payload parent = .ok role) : role.kind = kind := by
  cases kind with
  | conversation =>
    simp only [validateRole, Checked.bind_eq_ok, Checked.pure_eq_ok] at h
    obtain ⟨_, -, rfl⟩ := h
    rfl
  | collection =>
    simp only [validateRole, Checked.bind_eq_ok, Checked.pure_eq_ok] at h
    obtain ⟨_, -, rfl⟩ := h
    rfl
  | evidenceItem =>
    simp only [validateRole, Checked.bind_eq_ok, Checked.pure_eq_ok] at h
    obtain ⟨_, -, rfl⟩ := h
    rfl

theorem validateTombstone_positive {raw : JsonValue} {t : BackupTombstone} (h : validateTombstone raw = .ok t) :
    0 < t.revision ∧ isLegacyId t.legacyId = true := by
  simp only [validateTombstone, Checked.bind_eq_ok, Checked.pure_eq_ok, positiveInt_eq_ok, validateLegacyId_eq_ok] at h
  obtain ⟨_, -, _, -, _, -, _, -, _, -, _, ⟨-, valid⟩, _, ⟨positive, -⟩, _, -, rfl⟩ := h
  exact ⟨positive, valid⟩

section AcceptedFacts

variable {secrets : List String} {envelope : JsonObject} {backup : ValidatedBackup} (accepted : Accepted secrets envelope backup)

include accepted

/-- Where a record of an accepted backup comes from. -/
theorem Accepted.record {r : BackupRecord} (h : r ∈ backup.records) :
    ∃ record, RecordFacts secrets r.role.kind record r := by
  have facts : ∀ {kind : RecordKind} {raws : List JsonValue} {records : List BackupRecord},
      Checked.collect (validateRecord secrets kind) raws = .ok records → r ∈ records →
        ∃ record, RecordFacts secrets r.role.kind record r := by
    intro kind raws records collected mem
    obtain ⟨raw, -, ok⟩ := Checked.collect_source collected mem
    obtain ⟨record, -, facts⟩ := validateRecord_eq_ok.1 ok
    rw [validateRole_kind facts.role]
    exact ⟨record, facts⟩
  simp only [ValidatedBackup.records, List.mem_append] at h
  rcases h with (h | h) | h
  · obtain ⟨_, -, collected⟩ := accepted.conversations
    exact facts collected h
  · obtain ⟨_, -, collected⟩ := accepted.collections
    exact facts collected h
  · obtain ⟨_, -, collected⟩ := accepted.evidenceItems
    exact facts collected h

theorem Accepted.tombstone {t : BackupTombstone} (h : t ∈ backup.tombstones) :
    0 < t.revision ∧ Transfer.isLegacyId t.legacyId = true := by
  obtain ⟨_, -, collected⟩ := accepted.tombstones
  obtain ⟨raw, -, ok⟩ := Checked.collect_source collected h
  exact validateTombstone_positive ok

end AcceptedFacts

/-! ## Building an envelope -/

/-- A record as the exporter reads it from a row. -/
structure ExportedRecord where
  legacyId : JsonValue
  schemaVersion : JsonValue
  revision : Nat
  createdAt : Int
  updatedAt : Int
  payload : JsonObject
  parentLegacyId : Option JsonValue

/-- The `dict` of an exported record. -/
def ExportedRecord.fields (r : ExportedRecord) : List (String × Json) :=
  [("legacy_id", r.legacyId.json), ("schema_version", r.schemaVersion.json), ("revision", .int r.revision),
    ("created_at", .int r.createdAt), ("updated_at", .int r.updatedAt), ("payload", r.payload.json)] ++
    match r.parentLegacyId with
    | some parent => [("parent_legacy_id", parent.json)]
    | none => []

def ExportedRecord.json (r : ExportedRecord) : Json :=
  .obj r.fields

structure ExportedTombstone where
  legacyId : String
  revision : Nat
  deletedAt : Int

def ExportedTombstone.fields (t : ExportedTombstone) : List (String × Json) :=
  [("kind", .str "conversation"), ("legacy_id", .str t.legacyId), ("schema_version", .int 1),
    ("revision", .int t.revision), ("deleted_at", .int t.deletedAt)]

def ExportedTombstone.json (t : ExportedTombstone) : Json :=
  .obj t.fields

def versionJson : Option Nat → Json
  | some version => .int version
  | none => .null

def UnsupportedSource.fields (s : UnsupportedSource) : List (String × Json) :=
  [("source", .str s.source), ("schema_version", versionJson s.schemaVersion), ("count", .int s.count),
    ("reason", .str s.reason)]

def UnsupportedSource.json (s : UnsupportedSource) : Json :=
  .obj s.fields

/-- A sort key that is a text. -/
def textOf : Json → String
  | .str s => s
  | _ => ""

def isText : Json → Bool
  | .str _ => true
  | _ => false

/-- `sorted(values, key=...)`. A key that is no text raises here, or is one the validation of the
envelope refuses. -/
def sortedByText {α : Type} (key : α → List Json) (values : List α) : Except PyError (List α) := do
  Checked.require (values.all (fun a => (key a).all isText) = true) ⟨.typeError, "'<' not supported"⟩
  pure (values.insertionSort fun a b => (key a).map textOf ≤ (key b).map textOf)

/-- `sorted({item["schema_version"] for item in records})`, of integers. -/
def exportedVersions (records : List ExportedRecord) : Except PyError (List Int) := do
  let versions ← Checked.collect (fun r => match r.schemaVersion.json with
    | .int i => .ok i
    | _ => .error ⟨.typeError, "'<' not supported"⟩) records
  pure (sortedSet versions)

def intsJson (versions : List Int) : Json :=
  .arr (versions.map .int)

/-- What `export_backup` collects. -/
structure Exported where
  conversations : List ExportedRecord
  collections : List ExportedRecord
  evidenceItems : List ExportedRecord
  favorites : List JsonValue
  tombstones : List ExportedTombstone
  unsupported : List UnsupportedSource

/-- The lists in the order of the envelope. At most one source is left out, so the list of
those has one order. -/
def Exported.ordered (exported : Exported) : Except PyError Exported := do
  let conversations ← sortedByText (fun r => [r.legacyId.json]) exported.conversations
  let collections ← sortedByText (fun r => [r.legacyId.json]) exported.collections
  let evidenceItems ← sortedByText (fun r => [(r.parentLegacyId.map JsonValue.json).getD .null, r.legacyId.json])
    exported.evidenceItems
  let favorites ← sortedByText (fun id => [id.json]) exported.favorites.dedup
  let tombstones ← sortedByText (fun t => [.str t.legacyId]) exported.tombstones
  pure { exported with conversations, collections, evidenceItems, favorites, tombstones }

/-- The fields of the envelope before its digest, of lists in order. -/
def envelopeFields (conversationVersions collectionVersions : List Int) (o : Exported) (exportedAt : String) :
    List (String × Json) :=
  let one := fun (empty : Bool) => intsJson (if empty then [] else [1])
  let count := fun (n : Nat) => Json.int n
  [("format", .str backupFormat), ("version", .int backupVersion), ("exported_at", .str exportedAt),
    ("source_schemas", .obj [("conversations", intsJson conversationVersions),
      ("evidence_collections", intsJson collectionVersions), ("favorites", one o.favorites.isEmpty),
      ("tombstones", one o.tombstones.isEmpty)]),
    ("source_counts", .obj [("conversations", count o.conversations.length),
      ("collections", count o.collections.length), ("evidence_items", count o.evidenceItems.length),
      ("favorites", count o.favorites.length), ("tombstones", count o.tombstones.length),
      ("unsupported", count (unsupportedCount o.unsupported))]),
    ("conversations", .arr (o.conversations.map ExportedRecord.json)),
    ("collections", .arr (o.collections.map ExportedRecord.json)),
    ("evidence_items", .arr (o.evidenceItems.map ExportedRecord.json)),
    ("favorites", .arr (o.favorites.map JsonValue.json)),
    ("tombstones", .arr (o.tombstones.map ExportedTombstone.json)),
    ("unsupported", .arr (o.unsupported.map UnsupportedSource.json))]

theorem ExportedRecord.json_distinct (r : ExportedRecord) : r.json.distinctKeys = true := by
  rw [json, Json.distinctKeys_obj, fields]
  cases r.parentLegacyId with
  | none =>
    refine ⟨by simp, ?_⟩
    simp only [List.append_nil, List.forall_mem_cons]
    exact ⟨r.legacyId.distinct, r.schemaVersion.distinct, rfl, rfl, rfl, r.payload.distinct, by simp⟩
  | some parent =>
    refine ⟨by simp, ?_⟩
    simp only [List.cons_append, List.nil_append, List.forall_mem_cons]
    exact ⟨r.legacyId.distinct, r.schemaVersion.distinct, rfl, rfl, rfl, r.payload.distinct, parent.distinct, by simp⟩

theorem ExportedTombstone.json_distinct (t : ExportedTombstone) : t.json.distinctKeys = true := by
  rw [json, Json.distinctKeys_obj, fields]
  refine ⟨by simp, ?_⟩
  simp only [List.forall_mem_cons]
  exact ⟨rfl, rfl, rfl, rfl, rfl, by simp⟩

theorem UnsupportedSource.json_distinct (s : UnsupportedSource) : s.json.distinctKeys = true := by
  rw [json, Json.distinctKeys_obj, fields]
  refine ⟨by simp, ?_⟩
  simp only [List.forall_mem_cons]
  refine ⟨rfl, ?_, rfl, rfl, by simp⟩
  cases s.schemaVersion <;> rfl

theorem intsJson_distinct (versions : List Int) : (intsJson versions).distinctKeys = true := by
  rw [intsJson, Json.distinctKeys_arr]
  intro j hj
  obtain ⟨i, -, rfl⟩ := List.mem_map.1 hj
  rfl

theorem list_distinct {α : Type} {f : α → Json} (h : ∀ a, (f a).distinctKeys = true) (as : List α) :
    (Json.arr (as.map f)).distinctKeys = true := by
  rw [Json.distinctKeys_arr]
  intro j hj
  obtain ⟨a, -, rfl⟩ := List.mem_map.1 hj
  exact h a

/-- The envelope with its digest is a `dict` of distinct keys. -/
theorem envelope_distinct (versions versions' : List Int) (o : Exported) (exportedAt digest : String) :
    (Json.obj (envelopeFields versions versions' o exportedAt ++ [("digest", .str digest)])).distinctKeys = true := by
  rw [Json.distinctKeys_obj]
  constructor
  · change (["format", "version", "exported_at", "source_schemas", "source_counts", "conversations", "collections",
      "evidence_items", "favorites", "tombstones", "unsupported", "digest"] : List String).Nodup
    decide
  · simp only [envelopeFields, List.cons_append, List.nil_append, List.forall_mem_cons]
    refine ⟨rfl, rfl, rfl, ?_, ?_, list_distinct ExportedRecord.json_distinct _, list_distinct ExportedRecord.json_distinct _,
      list_distinct ExportedRecord.json_distinct _, list_distinct JsonValue.distinct _,
      list_distinct ExportedTombstone.json_distinct _, list_distinct UnsupportedSource.json_distinct _, rfl, by simp⟩
    · rw [Json.distinctKeys_obj]
      refine ⟨by simp, ?_⟩
      simp only [List.forall_mem_cons]
      exact ⟨intsJson_distinct _, intsJson_distinct _, intsJson_distinct _, intsJson_distinct _, by simp⟩
    · rw [Json.distinctKeys_obj]
      refine ⟨by simp, ?_⟩
      simp only [List.forall_mem_cons]
      exact ⟨rfl, rfl, rfl, rfl, rfl, rfl, by simp⟩

/-- The envelope of lists in order. -/
def envelopeOf (versions versions' : List Int) (o : Exported) (exportedAt digest : String) : JsonObject :=
  ⟨envelopeFields versions versions' o exportedAt ++ [("digest", .str digest)],
    envelope_distinct versions versions' o exportedAt digest⟩

/-- `build_workspace_backup`. -/
def buildWorkspaceBackup (secrets : List String) (exported : Exported) (exportedAt : String) :
    Except PyError JsonObject := do
  let conversationVersions ← exportedVersions exported.conversations
  let collectionVersions ← exportedVersions (exported.collections ++ exported.evidenceItems)
  let o ← exported.ordered
  let fields := envelopeFields conversationVersions collectionVersions o exportedAt
  let digest ← Checked.orRaise (computeBackupDigest fields) ⟨.valueError, "Exceeds the limit"⟩
  let envelope := envelopeOf conversationVersions collectionVersions o exportedAt digest
  let _ ← validateWorkspaceBackup secrets ⟨envelope.json, envelope.distinct⟩
  pure envelope

end Transfer
