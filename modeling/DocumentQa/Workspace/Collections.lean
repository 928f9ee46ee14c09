import DocumentQa.Transfer.Identity
import DocumentQa.Workspace.Context
import DocumentQa.Workspace.Payloads

/-!
# `SQLiteCollectionRepository`

The writes of the collection repository. Each runs inside one write transaction: a body
that raises leaves the store as it was.
-/

namespace Workspace

open Python JsonText Transfer SqlTable

/-- `_iso_from_ms`. -/
def isoFromMs (ms : Nat) : Except PyError String := do
  let m ← fromtimestamp ms
  pure (isoText true m)

/-- `_ms_from_iso`, of a text the store holds. -/
def msFromIso (value : String) : Except PyError Int := do
  let m ← Checked.orRaise (parseIso value) (valueError "Invalid isoformat string")
  pure (timestampMs m)

/-- `collection_entity_id`. -/
def collectionEntityId (collectionId : String) : Except PyError String :=
  stableLegacyId .collection collectionId

/-- `item_entity_id`. -/
def itemEntityId (itemId : String) : Except PyError String :=
  stableLegacyId .evidenceItem itemId

def collectionEntityType : String := "collection"
def itemEntityType : String := "collection_item"
def noteEntityType : String := "note"
def activityEntityType : String := "collection_activity"

/-- The classes `except CollectionError` catches. -/
def collectionErrors : List ErrorKind :=
  [.collection, .collectionNotFound, .collectionConflict, .collectionDeleted, .collectionLimit]

/-- How the record repository's errors become the domain's. -/
def domainErrors : List (ErrorKind × ErrorKind) :=
  [(.recordConflict, .collectionConflict), (.recordDeleted, .collectionDeleted), (.recordNotFound, .collectionNotFound)]

/-! ## Record access -/

/-- `_create_in`. -/
def createRecord (ctx : Context) (db : Store) (entityType entityId : String) (payload : JsonObject) (timestampMs : Nat) :
    Except PyError (Store × VersionedRecord) :=
  translate domainErrors do
    let timestamp ← isoFromMs timestampMs
    createIn ctx.settings.forbidden db entityType entityId payload timestamp

/-- `_replace_in`. -/
def replaceRecord (ctx : Context) (db : Store) (entityType entityId : String) (payload : JsonObject)
    (expectedRevision : Int) (timestampMs : Nat) : Except PyError (Store × VersionedRecord) :=
  translate domainErrors do
    let timestamp ← isoFromMs timestampMs
    replaceIn ctx.settings.forbidden db entityType entityId payload expectedRevision timestamp

/-- `_delete_in`. -/
def deleteRecord (db : Store) (entityType entityId : String) (expectedRevision : Int) (timestampMs : Nat) :
    Except PyError (Store × TombstoneRow) :=
  translate domainErrors do
    let timestamp ← isoFromMs timestampMs
    deleteIn db entityType entityId expectedRevision timestamp

/-- `_scan_in`: the rows of a type whose payload is an object. -/
def scanIn (db : Store) (entityType : String) : List (RecordRow × JsonObject) :=
  (db.recordsOf entityType).filterMap fun r => (loadsObject r.payloadJson).map fun payload => (r, payload)

/-- `_one_in`. -/
def oneIn (db : Store) (entityType entityId label : String) : Except PyError (RecordRow × JsonObject) :=
  match db.record? entityType entityId with
  | some r => do
    let _ ← Checked.orRaise (loads r.payloadJson) (valueError "Expecting value")
    let payload ← Checked.orRaise (loadsObject r.payloadJson) ⟨.collectionNotFound, label ++ " payload is malformed"⟩
    pure (r, payload)
  | none =>
    if (db.tombstone? entityType entityId).isSome then throw ⟨.collectionDeleted, label ++ " has been deleted"⟩
    else throw ⟨.collectionNotFound, label ++ " does not exist"⟩

/-- `unwrap_payload`: the fields of the typed payload. -/
def unwrapPayload (payload : JsonObject) (label : String) : Except PyError (List (String × Json)) :=
  let foreign := collectionError (label ++ " is not a typed record this workspace understands")
  match payload.get? "data" with
  | some (.obj data) => do
    Checked.require (payload.holdsInt "workspace_transfer_version" 1 = true ∨ payload.holdsInt "workspace_collection_note" 1 = true)
      foreign
    pure data
  | _ => throw foreign

/-- `data.get("collectionId") == collection_id`. -/
def namesCollection (data : List (String × Json)) (collectionId : String) : Bool :=
  Json.lookup "collectionId" data = some (.str collectionId)

/-- The payload is typed and names the collection. -/
def isMember (collectionId : String) (payload : JsonObject) : Bool :=
  match unwrapPayload payload "member record" with
  | .ok data => namesCollection data collectionId
  | .error _ => false

/-- `_children_in`. -/
def childrenIn (db : Store) (entityType collectionId : String) : List RecordRow :=
  ((scanIn db entityType).filter fun c => isMember collectionId c.2).map Prod.fst

/-- `_member_count_in`. -/
def memberCountIn (db : Store) (collectionId : String) : Nat :=
  (childrenIn db itemEntityType collectionId).length + (childrenIn db noteEntityType collectionId).length

/-- `_note_count_in`. -/
def noteCountIn (db : Store) (collectionId : String) : Nat :=
  (childrenIn db noteEntityType collectionId).length

/-- `_live_count_in`. -/
def liveCountIn (db : Store) (entityType : String) : Nat :=
  (db.records.select fun r => r.entityType = entityType).length

/-- Delete rows one after the other at the revisions they were read with. -/
def deleteAll (db : Store) (timestampMs : Nat) : List RecordRow → Except PyError Store
  | [] => pure db
  | r :: rs => do
    let (db, _) ← deleteRecord db r.entityType r.entityId r.revision timestampMs
    deleteAll db timestampMs rs

/-! ## Activity -/

/-- `activity_data(payload).get("collectionId") == collection_id`. -/
def isActivityOf (collectionId : String) (payload : JsonObject) : Bool :=
  match payload.get? "data" with
  | some (.obj data) => payload.holdsInt "workspace_collection_activity" 1 && namesCollection data collectionId
  | _ => false

/-- `except CollectionError: continue`: such an error leaves the store as it was. -/
def passOver (db : Store) : Except PyError (Store × TombstoneRow) → Except PyError Store
  | .ok (db, _) => pure db
  | .error e => if e.kind ∈ collectionErrors then pure db else Except.error e

/-- The loop that deletes the oldest activity. -/
def pruneRows (db : Store) (timestampMs : Nat) : List RecordRow → Except PyError Store
  | [] => pure db
  | r :: rs => do
    let db ← passOver db (deleteRecord db r.entityType r.entityId r.revision timestampMs)
    pruneRows db timestampMs rs

/-- `_prune_activity_in`. -/
def pruneActivityIn (db : Store) (collectionId : Option String) (timestampMs : Nat) : Except PyError Store :=
  match collectionId with
  | none => pure db
  | some collectionId =>
    let rows := ((scanIn db activityEntityType).filter fun c => isActivityOf collectionId c.2).map Prod.fst
    if rows.length < maxActivityPerCollection then pure db
    else
      let oldest := rows.insertionSort fun a b => Store.keyLe (a.updatedAt, a.entityId) (b.updatedAt, b.entityId)
      pruneRows db timestampMs (oldest.take (rows.length - maxActivityPerCollection + 1))

/-- `_record_activity_in`; the row gets the `k`-th token of the call. -/
def recordActivityIn (ctx : Context) (k : Nat) (db : Store) (collectionId : Option String)
    (eventType entityType entityId : String) : Except PyError Store := do
  let activityId := ctx.generateId "act" k
  let timestampMs ← msFromIso ctx.clockText
  let db ← pruneActivityIn db collectionId timestampMs.toNat
  let (db, _) ← createRecord ctx db activityEntityType activityId
    (activityPayload activityId collectionId entityType entityId eventType ctx.clockText) timestampMs.toNat
  pure db

/-! ## Collections -/

/-- The identifier the caller gave, or a generated one when it gave none. -/
def chosenId (ctx : Context) (pre : String) (given : Option String) (label : String) : Except PyError String :=
  match given with
  | some value =>
    if value = "" then pure (ctx.generateId pre 0)
    else do
      validateIdentifier value label
      pure value
  | none => pure (ctx.generateId pre 0)

structure CollectionArguments where
  name : Json
  description : Json
  tags : Json
  favorite : Json
  isPrivate : Json

/-- `create_collection`. -/
def createCollection (ctx : Context) (args : CollectionArguments) (collectionId : Option String) (db : Store) :
    Except PyError (Store × VersionedRecord) := do
  let fields ← validateCollectionFields args.name args.description args.tags args.favorite args.isPrivate
  let collectionId ← chosenId ctx "col" collectionId "collection_id"
  let payload := collectionPayload collectionId fields ctx.nowMs ctx.nowMs
  let storageId ← collectionEntityId collectionId
  Checked.require (db.record? collectionEntityType storageId = none)
    ⟨.collectionConflict, "collection already exists"⟩
  Checked.require (liveCountIn db collectionEntityType < maxCollections)
    (limitError ("a workspace holds at most " ++ toString maxCollections ++ " collections"))
  let (db, record) ← createRecord ctx db collectionEntityType storageId payload ctx.nowMs
  let db ← recordActivityIn ctx 1 db (some collectionId) "collection_created" collectionEntityType collectionId
  pure (db, record)

/-- `(str(tag) for tag in (data.get("tags") or []))`. -/
def storedTags (ctx : Context) (tags : Option Json) : Except PyError (List Json) :=
  match orElse tags (.arr []) with
  | .arr items => pure (items.map fun tag => .str (str ctx.isPrintable tag))
  | .obj fields => pure (fields.map fun f => .str f.1)
  | .str s => pure (s.toList.map fun c => .str (String.singleton c))
  | _ => throw ⟨.typeError, "object is not iterable"⟩

/-- The fields of `_collection_of` that a write reads. -/
def storedFields (ctx : Context) (payload : JsonObject) : Except PyError CollectionArguments := do
  let data ← unwrapPayload payload "collection record"
  let tags ← storedTags ctx (Json.lookup "tags" data)
  let text := fun key => Json.str (str ctx.isPrintable (orElse (Json.lookup key data) (.str "")))
  pure {
    name := text "name"
    description := text "description"
    tags := .arr tags
    favorite := .bool (truthy ((Json.lookup "favorite" data).getD .null))
    isPrivate := .bool (truthy ((Json.lookup "private" data).getD (.bool true))) }

/-- `current if given is None else given`. -/
def given (value current : Json) : Json :=
  if value = .null then current else value

/-- `update_collection`. -/
def updateCollection (ctx : Context) (collectionId : String) (expectedRevision : Json) (args : CollectionArguments)
    (db : Store) : Except PyError (Store × VersionedRecord) := do
  validateIdentifier collectionId "collection_id"
  let expected ← validateRevision expectedRevision
  let storageId ← collectionEntityId collectionId
  let (row, payload) ← oneIn db collectionEntityType storageId "collection"
  Checked.require ((row.revision : Int) = expected) ⟨.collectionConflict, "workspace record revision conflict"⟩
  let current ← storedFields ctx payload
  let fields ← validateCollectionFields (given args.name current.name) (given args.description current.description)
    (given args.tags current.tags) (given args.favorite current.favorite) (given args.isPrivate current.isPrivate)
  let createdAtMs ← msFromIso row.createdAt
  let (db, record) ← replaceRecord ctx db collectionEntityType storageId
    (collectionPayload collectionId fields createdAtMs ctx.nowMs) expected ctx.nowMs
  let db ← recordActivityIn ctx 0 db (some collectionId) "collection_updated" collectionEntityType collectionId
  pure (db, record)

/-- `delete_collection`. -/
def deleteCollection (ctx : Context) (collectionId : String) (expectedRevision : Json) (db : Store) :
    Except PyError (Store × TombstoneRow) := do
  validateIdentifier collectionId "collection_id"
  let expected ← validateRevision expectedRevision
  let storageId ← collectionEntityId collectionId
  let (row, _) ← oneIn db collectionEntityType storageId "collection"
  Checked.require ((row.revision : Int) = expected) ⟨.collectionConflict, "workspace record revision conflict"⟩
  let db ← deleteAll db ctx.nowMs (childrenIn db itemEntityType collectionId)
  let db ← deleteAll db ctx.nowMs (childrenIn db noteEntityType collectionId)
  let (db, tombstone) ← deleteRecord db collectionEntityType storageId expected ctx.nowMs
  let db ← recordActivityIn ctx 0 db (some collectionId) "collection_deleted" collectionEntityType collectionId
  pure (db, tombstone)

/-! ## Notes -/

/-- The evidence a note refers to, checked when there is one. -/
def noteReference : Option JsonValue → Except PyError (Option JsonObject)
  | none => pure none
  | some value => some <$> validateEvidenceReference value "evidence reference"

/-- `add_note`. -/
def addNote (ctx : Context) (collectionId : String) (text : Json) (evidenceRef : Option JsonValue) (noteId : Option String)
    (db : Store) : Except PyError (Store × VersionedRecord) := do
  validateIdentifier collectionId "collection_id"
  let noteText ← requireText text "note text" maxNoteLength false
  let reference ← noteReference evidenceRef
  let noteId ← chosenId ctx "note" noteId "note_id"
  let payload := notePayload noteId collectionId noteText reference ctx.nowMs ctx.nowMs
  let storageId ← collectionEntityId collectionId
  let _ ← oneIn db collectionEntityType storageId "collection"
  Checked.require (noteCountIn db collectionId < maxNotesPerCollection)
    (limitError ("a collection holds at most " ++ toString maxNotesPerCollection ++ " notes"))
  Checked.require (memberCountIn db collectionId < maxItemsPerCollection)
    (limitError ("a collection holds at most " ++ toString maxItemsPerCollection ++ " items"))
  Checked.require (db.record? noteEntityType noteId = none) ⟨.collectionConflict, "note already exists"⟩
  let (db, record) ← createRecord ctx db noteEntityType noteId payload ctx.nowMs
  let db ← recordActivityIn ctx 1 db (some collectionId) "note_added" noteEntityType noteId
  pure (db, record)

/-- `dict(data["evidenceRef"])` when it is a mapping. -/
def storedReference (payload : JsonObject) (data : List (String × Json)) (h : payload.get? "data" = some (.obj data)) :
    Option JsonObject :=
  match hr : Json.lookup "evidenceRef" data with
  | some (.obj fields) => some ⟨fields, by
      have inside := ((Json.distinctKeys_obj _).1 payload.distinct).2 _ (Json.lookup_mem h)
      exact ((Json.distinctKeys_obj _).1 inside).2 _ (Json.lookup_mem hr)⟩
  | _ => none

/-- `update_note`. -/
def updateNote (ctx : Context) (collectionId noteId : String) (expectedRevision text : Json) (db : Store) :
    Except PyError (Store × VersionedRecord) := do
  validateIdentifier collectionId "collection_id"
  validateIdentifier noteId "note_id"
  let expected ← validateRevision expectedRevision
  let noteText ← requireText text "note text" maxNoteLength false
  let (row, payload) ← oneIn db noteEntityType noteId "note"
  let data ← unwrapPayload payload "note record"
  Checked.require (namesCollection data collectionId = true)
    ⟨.collectionNotFound, "note does not belong to this collection"⟩
  let reference := if h : payload.get? "data" = some (.obj data) then storedReference payload data h else none
  let createdAtMs ← msFromIso row.createdAt
  let (db, record) ← replaceRecord ctx db noteEntityType noteId
    (notePayload noteId collectionId noteText reference createdAtMs ctx.nowMs) expected ctx.nowMs
  let db ← recordActivityIn ctx 0 db (some collectionId) "note_updated" noteEntityType noteId
  pure (db, record)

/-! ## Items -/

structure ItemArguments where
  itemKind : Json
  citation : Json
  excerpt : Json
  reference : JsonValue
  snapshot : JsonValue

/-- `item_kind not in COLLECTION_ITEM_KINDS`. -/
def requireItemKind (itemKind : Json) : Except PyError String :=
  let unsupported := collectionError
    "unsupported collection item kind; expected one of document, evidence, answer, note"
  match itemKind with
  | .str kind => do
    Checked.require (kind ∈ collectionItemKinds) unsupported
    pure kind
  | _ => throw unsupported

/-- `add_item`. -/
def addItem (ctx : Context) (collectionId : String) (args : ItemArguments) (itemId : Option String) (db : Store) :
    Except PyError (Store × VersionedRecord) := do
  validateIdentifier collectionId "collection_id"
  let itemKind ← requireItemKind args.itemKind
  let reference ← validateItemReference itemKind args.reference
  let snapshot ← validateSnapshot args.snapshot
  let citation ← requireText args.citation "citation" maxCitationLength (decide (itemKind ∉ referenceItemKinds))
  let excerpt ← requireText args.excerpt "excerpt" maxExcerptLength false
  let itemId ← chosenId ctx "itm" itemId "item_id"
  if itemKind = "note" then
    addNote { ctx with token := fun k => ctx.token (k + 1) } collectionId (.str excerpt)
      (if reference.fields = [] then none else some ⟨reference.json, reference.distinct⟩) (some itemId) db
  else do
    let payload := itemPayload itemId collectionId ⟨itemKind, citation, excerpt, reference, snapshot⟩ ctx.nowMs
    let storageId ← collectionEntityId collectionId
    let _ ← oneIn db collectionEntityType storageId "collection"
    Checked.require (memberCountIn db collectionId < maxItemsPerCollection)
      (limitError ("a collection holds at most " ++ toString maxItemsPerCollection ++ " items"))
    let entityId ← itemEntityId itemId
    let (db, record) ← createRecord ctx db itemEntityType entityId payload ctx.nowMs
    let db ← recordActivityIn ctx 1 db (some collectionId) "item_added" itemEntityType itemId
    pure (db, record)

/-- One element of the sequence `dict(...)` is given. -/
def checkPair : Json → Except PyError Unit
  | .arr [key, _] =>
    match key with
    | .arr _ | .obj _ => .error ⟨.typeError, "unhashable type"⟩
    | _ => .ok ()
  | .arr _ => .error (valueError "dictionary update sequence element has the wrong length")
  | .str s => Checked.require (s.length = 2) (valueError "dictionary update sequence element has the wrong length")
  | .obj fields =>
    Checked.require (fields.length = 2) (valueError "dictionary update sequence element has the wrong length")
  | _ => .error ⟨.typeError, "cannot convert dictionary update sequence element to a sequence"⟩

/-- Whether `dict(value or {})` raises. -/
def checkDict (value : Option Json) : Except PyError Unit :=
  match orElse value (.obj []) with
  | .obj _ => .ok ()
  | .arr items => Checked.each checkPair items
  | .str s => Checked.each (fun c => checkPair (.str (String.singleton c))) s.toList
  | _ => .error ⟨.typeError, "object is not iterable"⟩

/-- The fields of `_item_of` that a write reads. -/
structure StoredItem where
  itemId : String
  collectionId : String
  isNote : Bool

/-- `_item_of`. -/
def itemOf (ctx : Context) (entityId : String) (payload : JsonObject) : Except PyError StoredItem := do
  let data ← unwrapPayload payload "item record"
  let isNote := payload.holdsInt "workspace_collection_note" 1
  checkDict (Json.lookup (if isNote then "evidenceRef" else "reference") data)
  let text := fun key => str ctx.isPrintable (orElse (Json.lookup key data) (.str ""))
  let itemKind := if isNote then "note" else text "itemKind"
  pure {
    itemId := str ctx.isPrintable (orElse (Json.lookup "id" data) (.str entityId))
    collectionId := text "collectionId"
    isNote := itemKind = "note" }

/-- The search of `_item_in` through the rows of one type; a domain error skips a row. -/
def findItem (ctx : Context) (itemId : String) : List (RecordRow × JsonObject) → Except PyError (Option StoredItem)
  | [] => pure none
  | (r, payload) :: rest =>
    match itemOf ctx r.entityId payload with
    | .ok item => if item.itemId = itemId then pure (some item) else findItem ctx itemId rest
    | .error e => if e.kind ∈ collectionErrors then findItem ctx itemId rest else .error e

/-- `_item_in`. -/
def itemIn (ctx : Context) (db : Store) (itemId : String) : Except PyError StoredItem := do
  match ← findItem ctx itemId (scanIn db itemEntityType) with
  | some item => pure item
  | none =>
    match ← findItem ctx itemId (scanIn db noteEntityType) with
    | some item => pure item
    | none =>
      let entityId ← itemEntityId itemId
      if (db.tombstone? itemEntityType entityId).isSome ∨ (db.tombstone? itemEntityType itemId).isSome ∨
          (db.tombstone? noteEntityType itemId).isSome then
        throw ⟨.collectionDeleted, "item has been deleted"⟩
      else throw ⟨.collectionNotFound, "item does not exist"⟩

/-- Where an item or a note is stored. -/
def memberStorageId (item : StoredItem) (itemId : String) : Except PyError String :=
  if item.isNote then pure itemId else itemEntityId itemId

/-- `delete_item`, and `delete_note`, which calls it. -/
def deleteItem (ctx : Context) (collectionId itemId : String) (expectedRevision : Json) (db : Store) :
    Except PyError (Store × TombstoneRow) := do
  validateIdentifier collectionId "collection_id"
  validateIdentifier itemId "item_id"
  let expected ← validateRevision expectedRevision
  let item ← itemIn ctx db itemId
  Checked.require (item.collectionId = collectionId)
    ⟨.collectionNotFound, "item does not belong to this collection"⟩
  let entityType := if item.isNote then noteEntityType else itemEntityType
  let storageId ← memberStorageId item itemId
  let (db, tombstone) ← deleteRecord db entityType storageId expected ctx.nowMs
  let db ← recordActivityIn ctx 0 db (some collectionId) (if item.isNote then "note_removed" else "item_removed")
    entityType itemId
  pure (db, tombstone)

/-- `ACTIVITY_EVENTS`, all of which match `_ACTIVITY_EVENT`. -/
def activityEvents : List String :=
  ["collection_created", "collection_updated", "collection_deleted", "item_added", "item_removed", "note_added",
    "note_updated", "note_removed"]

/-- `record_activity`. -/
def recordActivity (ctx : Context) (collectionId : Option String) (eventType entityType entityId : String) (db : Store) :
    Except PyError Store := do
  Checked.require (eventType ∈ activityEvents) (collectionError "unsupported activity event")
  validateIdentifier entityId "entity_id"
  recordActivityIn ctx 0 db collectionId eventType entityType entityId

end Workspace
