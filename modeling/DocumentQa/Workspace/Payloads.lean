import DocumentQa.Python.Datetime
import DocumentQa.Transfer.Canonical
import DocumentQa.Workspace.Store

/-!
# Typed collections: fields and payloads

The bounds of `collections.py` on the fields of a collection, an item and a note, and the
payloads its records carry: the transfer wrapper around the typed data for collections and
items, a marker of their own for notes and activity.
-/

namespace Workspace

open Python JsonText

def collectionError (message : String) : PyError :=
  ⟨.collection, message⟩

def limitError (message : String) : PyError :=
  ⟨.collectionLimit, message⟩

def maxCollections : Nat := 50
def maxItemsPerCollection : Nat := 100
def maxNotesPerCollection : Nat := 50
def maxActivityPerCollection : Nat := 500
def maxNameLength : Nat := 200
def maxDescriptionLength : Nat := 2000
def maxTags : Nat := 20
def maxTagLength : Nat := 64
def maxCitationLength : Nat := 500
def maxExcerptLength : Nat := 10000
def maxNoteLength : Nat := 10000
def maxReferenceDepth : Nat := 12
def maxReferenceNodes : Nat := 500

/-- `_SCHEMA_VERSION`. -/
def schemaVersion : Int := 2

/-- `COLLECTION_ITEM_KINDS`. -/
def collectionItemKinds : List String :=
  ["document", "evidence", "answer", "note"]

/-- `REFERENCE_ITEM_KINDS`. -/
def referenceItemKinds : List String :=
  ["document", "evidence", "answer"]

/-! ## Validation -/

/-- `_require_text`. -/
def requireText (value : Json) (label : String) (maximum : Nat) (allowEmpty : Bool) : Except PyError String :=
  match value with
  | .str s => do
    Checked.require (allowEmpty = true ∨ strip s ≠ "") (collectionError (label ++ " must not be empty"))
    Checked.require (s.length ≤ maximum) (limitError (label ++ " exceeds " ++ toString maximum ++ " characters"))
    pure s
  | _ => throw (collectionError (label ++ " must be a string"))

/-- `_ID`. -/
def identifier : NamePattern :=
  ⟨isAlnum, fun c => isAlnum c || c = '_' || c = '.' || c = ':' || c = '-', 128⟩

/-- `validate_identifier`. -/
def validateIdentifier (value label : String) : Except PyError Unit := do
  Checked.require (identifier.fullmatch value = true) (collectionError (label ++ " is malformed"))
  Checked.require (isInfix ['.', '.'] value.toList = false) (collectionError (label ++ " is malformed"))

/-- `list(tags)` of an iterable that is no string. -/
def listOf : Json → Except PyError (List Json)
  | .arr items => .ok items
  | .obj fields => .ok (fields.map fun f => .str f.1)
  | _ => .error (collectionError "tags must be a list of strings")

/-- The loop over the tags: each one checked, stripped and kept once. -/
def normalizeTags : List Json → List String → Except PyError (List String)
  | [], done => pure done
  | tag :: tags, done => do
    let text ← requireText tag "tag" maxTagLength false
    normalizeTags tags (if strip text ∈ done then done else done ++ [strip text])

/-- `_validate_tags`. -/
def validateTags : Json → Except PyError (List String)
  | .null => pure []
  | tags => do
    let values ← listOf tags
    Checked.require (values.length ≤ maxTags)
      (limitError ("a collection may carry at most " ++ toString maxTags ++ " tags"))
    let normalized ← normalizeTags values []
    pure (normalized.insertionSort (· ≤ ·))

def checkDepth (label : String) (depth : Nat) : Except PyError Unit :=
  Checked.require (depth ≤ maxReferenceDepth) (limitError (label ++ " is nested too deeply"))

def checkNodes (label : String) (nodes : Nat) : Except PyError Unit :=
  Checked.require (nodes ≤ maxReferenceNodes)
    (limitError (label ++ " exceeds " ++ toString maxReferenceNodes ++ " values"))

mutual

/-- The stack loop of `_validate_reference_tree`: the last child is popped first, and what
is inside it before the child in front of it. The result is the count of values. -/
def visitReference (label : String) (depth nodes : Nat) : Json → Except PyError Nat
  | .arr items => do
    checkDepth label depth
    checkNodes label (nodes + items.length)
    visitReferenceItems label (depth + 1) (nodes + items.length) items
  | .obj fields => do
    checkDepth label depth
    checkNodes label (nodes + fields.length)
    visitReferenceFields label (depth + 1) (nodes + fields.length) fields
  | _ => do
    checkDepth label depth
    checkNodes label (nodes + 1)
    pure (nodes + 1)

def visitReferenceItems (label : String) (depth nodes : Nat) : List Json → Except PyError Nat
  | [] => pure nodes
  | j :: js => do
    let nodes ← visitReferenceItems label depth nodes js
    visitReference label depth nodes j

def visitReferenceFields (label : String) (depth nodes : Nat) : List (String × Json) → Except PyError Nat
  | [] => pure nodes
  | (_, j) :: fs => do
    let nodes ← visitReferenceFields label depth nodes fs
    visitReference label depth nodes j

end

def emptyObject : JsonObject :=
  ⟨[], JsonObject.distinct_nil⟩

/-- `_validate_reference_tree`. -/
def validateReferenceTree (value : JsonValue) (label : String) : Except PyError JsonObject :=
  if value.json = .null then pure emptyObject
  else do
    let reference ← Checked.orRaise value.object? (collectionError (label ++ " must be an object"))
    let _ ← visitReference label 1 0 reference.json
    Checked.require (reference.json.finite = true ∧ printable reference.json = true)
      (collectionError (label ++ " is not JSON-serializable"))
    pure reference

/-- `isinstance(reference.get(key), str) and reference[key]`. -/
def carriesText (reference : JsonObject) (key : String) : Bool :=
  match reference.get? key with
  | some (.str s) => s ≠ ""
  | _ => false

def identityKeys : List String :=
  ["document_id", "chunk_id", "source_document_id", "conversation_id", "message_id"]

def provenanceKeys : List String :=
  ["document_revision", "source_set_revision", "chunk_text_hash", "representation", "location_status",
    "coverage_status"]

/-- `key in reference and reference[key] is not None and not isinstance(reference[key], str)`. -/
def isNoText (reference : JsonObject) (key : String) : Bool :=
  match reference.get? key with
  | none | some .null | some (.str _) => false
  | _ => true

/-- `validate_evidence_reference`. -/
def validateEvidenceReference (value : JsonValue) (label : String) : Except PyError JsonObject := do
  let reference ← validateReferenceTree value label
  Checked.require (identityKeys.any (carriesText reference) = true)
    (collectionError (label ++ " must carry at least one identity (document_id, chunk_id, source_document_id, " ++
      "conversation_id, message_id)"))
  Checked.each (fun key => Checked.require (isNoText reference key = false)
    (collectionError (label ++ " field " ++ key ++ " must be a string"))) (identityKeys ++ provenanceKeys)
  pure reference

/-- `validate_item_reference`, of a kind that is one of `COLLECTION_ITEM_KINDS`. -/
def validateItemReference (itemKind : String) (value : JsonValue) : Except PyError JsonObject :=
  if itemKind = "note" then do
    let reference ← validateReferenceTree value "note reference"
    if reference.fields = [] then pure reference
    else validateEvidenceReference ⟨reference.json, reference.distinct⟩ "note reference"
  else if itemKind = "document" then do
    let reference ← validateReferenceTree value "document reference"
    Checked.require (carriesText reference "document_id" = true)
      (collectionError "a document item must reference a document_id")
    pure reference
  else if itemKind = "answer" then do
    let reference ← validateReferenceTree value "answer reference"
    Checked.require ((["conversation_id", "message_id", "answer_id"].any (carriesText reference)) = true)
      (collectionError "an answer item must reference a conversation, message or answer identity")
    pure reference
  else validateEvidenceReference value "evidence reference"

structure CollectionFields where
  name : String
  description : String
  tags : List String
  favorite : Bool
  isPrivate : Bool

/-- `isinstance(value, bool)`. -/
def requireBool (value : Json) (label : String) : Except PyError Bool :=
  match value with
  | .bool b => pure b
  | _ => throw (collectionError (label ++ " must be a boolean"))

/-- `validate_collection_fields`. -/
def validateCollectionFields (name description tags favorite isPrivate : Json) : Except PyError CollectionFields := do
  let favorite ← requireBool favorite "favorite"
  let isPrivate ← requireBool isPrivate "private"
  let name ← requireText name "name" maxNameLength false
  let description ← requireText (if description = .null then .str "" else description) "description"
    maxDescriptionLength true
  let tags ← validateTags tags
  pure ⟨strip name, description, tags, favorite, isPrivate⟩

/-- `validate_snapshot`. -/
def validateSnapshot (value : JsonValue) : Except PyError (Option JsonObject) :=
  if value.json = .null then pure none
  else do
    let snapshot ← validateReferenceTree value "item snapshot"
    pure (some snapshot)

/-- `_validate_revision`. -/
def validateRevision : Json → Except PyError Int
  | .int i => do
    Checked.require (1 ≤ i) (collectionError "expected_revision must be a positive integer")
    pure i
  | _ => throw (collectionError "expected_revision must be a positive integer")

/-! ## Payloads -/

/-- A `dict` display: its keys are written out and its values are JSON values. -/
def object (fields : List (String × Json)) (keys : (fields.map Prod.fst).Nodup)
    (values : ∀ f ∈ fields, f.2.distinctKeys = true) : JsonObject :=
  ⟨fields, (Json.distinctKeys_obj fields).2 ⟨keys, values⟩⟩

/-- `_wrap`, with the extra field of the record's kind. -/
def wrap (sourceKind legacyId : String) (data : JsonObject) (extraKey : String) (extra : Json)
    (fresh : extraKey ∉ ["workspace_transfer_version", "source_kind", "legacy_id", "source_schema_version", "data"])
    (distinct : extra.distinctKeys = true) : JsonObject :=
  object [("workspace_transfer_version", .int 1), ("source_kind", .str sourceKind), ("legacy_id", .str legacyId),
    ("source_schema_version", .int schemaVersion), ("data", data.json), (extraKey, extra)]
    (by
      have keys : ["workspace_transfer_version", "source_kind", "legacy_id", "source_schema_version", "data"].Nodup := by
        decide
      change (["workspace_transfer_version", "source_kind", "legacy_id", "source_schema_version", "data"] ++
        [extraKey]).Nodup
      exact keys.append (List.nodup_singleton _) (by simpa using fresh))
    (by
      intro f hf
      simp only [List.mem_cons, List.not_mem_nil, or_false] at hf
      rcases hf with rfl | rfl | rfl | rfl | rfl | rfl
      all_goals first | rfl | exact data.distinct | exact distinct)

def collectionData (collectionId : String) (fields : CollectionFields) (createdAtMs updatedAtMs : Int) : JsonObject :=
  object [("id", .str collectionId), ("schemaVersion", .int schemaVersion), ("name", .str fields.name),
    ("description", .str fields.description), ("tags", .arr (fields.tags.map .str)), ("favorite", .bool fields.favorite),
    ("private", .bool fields.isPrivate), ("createdAt", .int createdAtMs), ("updatedAt", .int updatedAtMs)]
    (by simp) (by
      intro f hf
      simp only [List.mem_cons, List.not_mem_nil, or_false] at hf
      rcases hf with rfl | rfl | rfl | rfl | rfl | rfl | rfl | rfl | rfl
      all_goals first | rfl | skip
      rw [Json.distinctKeys_arr]
      intro j hj
      obtain ⟨tag, -, rfl⟩ := List.mem_map.1 hj
      rfl)

/-- `collection_payload`. -/
def collectionPayload (collectionId : String) (fields : CollectionFields) (createdAtMs updatedAtMs : Int) : JsonObject :=
  wrap "collection" collectionId (collectionData collectionId fields createdAtMs updatedAtMs)
    "favorite" (.bool fields.favorite) (by decide) rfl

structure ItemFields where
  itemKind : String
  citation : String
  excerpt : String
  reference : JsonObject
  snapshot : Option JsonObject

/-- The field of an optional object. -/
def optionalField (key : String) (value : Option JsonObject) : List (String × Json) :=
  match value with
  | some o => [(key, o.json)]
  | none => []

def itemData (itemId collectionId : String) (fields : ItemFields) (savedAtMs : Int) : JsonObject :=
  object ([("id", .str itemId), ("schemaVersion", .int schemaVersion), ("itemKind", .str fields.itemKind),
    ("citation", .str fields.citation), ("excerpt", .str fields.excerpt), ("savedAt", .int savedAtMs),
    ("collectionId", .str collectionId), ("reference", fields.reference.json), ("createdAt", .int savedAtMs),
    ("updatedAt", .int savedAtMs)] ++ optionalField "snapshot" fields.snapshot)
    (by cases fields.snapshot <;> simp [optionalField]) (by
      intro f hf
      cases hs : fields.snapshot with
      | none =>
        simp only [hs, optionalField, List.append_nil, List.mem_cons, List.not_mem_nil, or_false] at hf
        rcases hf with rfl | rfl | rfl | rfl | rfl | rfl | rfl | rfl | rfl | rfl
        all_goals first | rfl | exact fields.reference.distinct
      | some snapshot =>
        simp only [hs, optionalField, List.cons_append, List.nil_append, List.mem_cons, List.not_mem_nil, or_false] at hf
        rcases hf with rfl | rfl | rfl | rfl | rfl | rfl | rfl | rfl | rfl | rfl | rfl
        all_goals first | rfl | exact fields.reference.distinct | exact snapshot.distinct)

/-- `item_payload`. -/
def itemPayload (itemId collectionId : String) (fields : ItemFields) (savedAtMs : Int) : JsonObject :=
  wrap "evidence_item" itemId (itemData itemId collectionId fields savedAtMs)
    "parent_legacy_id" (.str collectionId) (by decide) rfl

/-- `note_payload`. -/
def notePayload (noteId collectionId text : String) (evidenceRef : Option JsonObject) (createdAtMs updatedAtMs : Int) :
    JsonObject :=
  object [("workspace_collection_note", .int 1), ("legacy_id", .str noteId),
    ("data", .obj ([("id", .str noteId), ("schemaVersion", .int schemaVersion), ("collectionId", .str collectionId),
      ("text", .str text), ("createdAt", .int createdAtMs), ("updatedAt", .int updatedAtMs)] ++
      optionalField "evidenceRef" evidenceRef))]
    (by simp) (by
      intro f hf
      simp only [List.mem_cons, List.not_mem_nil, or_false] at hf
      rcases hf with rfl | rfl | rfl
      · rfl
      · rfl
      · rw [Json.distinctKeys_obj]
        constructor
        · cases evidenceRef <;> simp [optionalField]
        · intro f hf
          cases evidenceRef with
          | none =>
            simp only [optionalField, List.append_nil, List.mem_cons, List.not_mem_nil, or_false] at hf
            rcases hf with rfl | rfl | rfl | rfl | rfl | rfl <;> rfl
          | some reference =>
            simp only [optionalField, List.cons_append, List.nil_append, List.mem_cons, List.not_mem_nil, or_false] at hf
            rcases hf with rfl | rfl | rfl | rfl | rfl | rfl | rfl
            all_goals first | rfl | exact reference.distinct)

def optionalText : Option String → Json
  | some s => .str s
  | none => .null

theorem optionalText_distinct (s : Option String) : (optionalText s).distinctKeys = true := by
  cases s <;> rfl

/-- `activity_payload`. -/
def activityPayload (activityId : String) (collectionId : Option String) (entityType entityId eventType occurredAt : String) :
    JsonObject :=
  object [("workspace_collection_activity", .int 1), ("legacy_id", .str activityId),
    ("data", .obj [("id", .str activityId), ("collectionId", optionalText collectionId), ("entityType", .str entityType),
      ("entityId", .str entityId), ("eventType", .str eventType), ("occurredAt", .str occurredAt)])]
    (by simp) (by
      intro f hf
      simp only [List.mem_cons, List.not_mem_nil, or_false] at hf
      rcases hf with rfl | rfl | rfl
      · rfl
      · rfl
      · rw [Json.distinctKeys_obj]
        constructor
        · simp
        · intro f hf
          simp only [List.mem_cons, List.not_mem_nil, or_false] at hf
          rcases hf with rfl | rfl | rfl | rfl | rfl | rfl
          all_goals first | rfl | exact optionalText_distinct collectionId)

end Workspace
