import DocumentQa.Transfer.Backup

/-!
# The envelopes that are built

`build_workspace_backup` validates what it assembles. `envelopeOf_accepted` says when an
assembled envelope is accepted: its records are valid one by one and fit together, and the
whole is within the size limit.
-/

namespace Transfer

open Python JsonText

/-! ## Records -/

def ExportedRecord.value (r : ExportedRecord) : JsonValue :=
  ⟨r.json, r.json_distinct⟩

def ExportedRecord.object (r : ExportedRecord) : JsonObject :=
  ⟨r.fields, r.json_distinct⟩

theorem ExportedRecord.value_object (r : ExportedRecord) : r.value.object? = some r.object :=
  rfl

def ExportedTombstone.value (t : ExportedTombstone) : JsonValue :=
  ⟨t.json, t.json_distinct⟩

def UnsupportedSource.value (s : UnsupportedSource) : JsonValue :=
  ⟨s.json, s.json_distinct⟩

def UnsupportedSource.object (s : UnsupportedSource) : JsonObject :=
  ⟨s.fields, s.json_distinct⟩

theorem UnsupportedSource.value_object (s : UnsupportedSource) : s.value.object? = some s.object :=
  rfl

/-- `d.get(key)`, of a `dict` that is written out. -/
theorem value_json (o : JsonObject) (key : String) : (o.value key).json = (Json.lookup key o.fields).getD .null :=
  rfl

theorem natCast_inj {m n : Nat} : (Json.int m = Json.int n) ↔ m = n := by
  rw [Json.int.injEq, Int.natCast_inj]

/-- What the fields of an exported record must be for it to be accepted as `b`. -/
structure Portable (secrets : List String) (kind : RecordKind) (r : ExportedRecord) (b : BackupRecord) : Prop where
  parent : r.parentLegacyId.isSome = decide (kind = .evidenceItem)
  legacyId : r.legacyId.json = .str b.legacyId
  isLegacyId : isLegacyId b.legacyId = true
  schemaVersion : r.schemaVersion.json = .int b.schemaVersion
  schemaPositive : 0 < b.schemaVersion
  revision : r.revision = b.revision
  revisionPositive : 0 < b.revision
  createdAt : r.createdAt = b.createdAt
  updatedAt : r.updatedAt = b.updatedAt
  ordered : b.createdAt ≤ b.updatedAt
  payload : r.payload = b.payload
  portable : validateJsonTree secrets b.payload.json = .ok ()
  id : b.payload.get? "id" = some (.str b.legacyId)
  role : validateRole kind b.schemaVersion b.revision b.createdAt b.updatedAt b.payload
    ((r.parentLegacyId.map JsonValue.json).getD .null) = .ok b.role

theorem requireExactKeys_eq_ok {o : JsonObject} {required : List String} :
    requireExactKeys o required = .ok () ↔ (∀ key ∈ required, key ∈ o.keys) ∧ ∀ key ∈ o.keys, key ∈ required := by
  rw [requireExactKeys, Checked.require_eq_ok]

/-- **An exported record is accepted** exactly when its fields are portable. -/
theorem validateRecord_exported {secrets : List String} {kind : RecordKind} {r : ExportedRecord} {b : BackupRecord} :
    validateRecord secrets kind r.value = .ok b ↔ Portable secrets kind r b := by
  have fields : r.object.fields = r.fields := rfl
  have payloadRead : (r.object.value "payload").object? = some b.payload ↔ r.payload = b.payload := by
    rw [JsonValue.object?_eq_some, value_json, fields]
    exact ⟨fun h => JsonObject.json_injective h, fun h => congrArg JsonObject.json h⟩
  have parentRead : (r.object.value "parent_legacy_id").json = (r.parentLegacyId.map JsonValue.json).getD .null := by
    rw [value_json, fields, ExportedRecord.fields]
    cases r.parentLegacyId <;> rfl
  have keys : requireExactKeys r.object (if kind = .evidenceItem then recordKeys ++ ["parent_legacy_id"] else recordKeys) =
      .ok () ↔ r.parentLegacyId.isSome = decide (kind = .evidenceItem) := by
    rw [requireExactKeys_eq_ok, JsonObject.keys, fields, ExportedRecord.fields]
    cases r.parentLegacyId <;> cases kind <;> simp [recordKeys]
  rw [validateRecord_eq_ok]
  constructor
  · rintro ⟨record, same, facts⟩
    obtain rfl : r.object = record := Option.some.inj (r.value_object.symm.trans same)
    exact {
      parent := keys.1 facts.keys
      legacyId := by simpa [value_json, fields, ExportedRecord.fields, Json.lookup] using facts.legacyId
      isLegacyId := facts.isLegacyId
      schemaVersion := by simpa [value_json, fields, ExportedRecord.fields, Json.lookup] using facts.schemaVersion
      schemaPositive := facts.schemaPositive
      revision := natCast_inj.1 (by simpa [value_json, fields, ExportedRecord.fields, Json.lookup] using facts.revision)
      revisionPositive := facts.revisionPositive
      createdAt := by simpa [value_json, fields, ExportedRecord.fields, Json.lookup] using facts.createdAt
      updatedAt := by simpa [value_json, fields, ExportedRecord.fields, Json.lookup] using facts.updatedAt
      ordered := facts.ordered
      payload := payloadRead.1 facts.payload
      portable := facts.portable
      id := facts.id
      role := parentRead ▸ facts.role }
  · intro h
    refine ⟨r.object, r.value_object, ?_⟩
    exact {
      keys := keys.2 h.parent
      legacyId := by simpa [value_json, fields, ExportedRecord.fields, Json.lookup] using h.legacyId
      isLegacyId := h.isLegacyId
      schemaVersion := by simpa [value_json, fields, ExportedRecord.fields, Json.lookup] using h.schemaVersion
      schemaPositive := h.schemaPositive
      revision := by simp [value_json, fields, ExportedRecord.fields, Json.lookup, h.revision]
      revisionPositive := h.revisionPositive
      createdAt := by simpa [value_json, fields, ExportedRecord.fields, Json.lookup] using h.createdAt
      updatedAt := by simpa [value_json, fields, ExportedRecord.fields, Json.lookup] using h.updatedAt
      ordered := h.ordered
      payload := payloadRead.2 h.payload
      portable := h.portable
      id := h.id
      role := parentRead ▸ h.role }

/-! ## Lists -/

/-- A list of the envelope that is written out from typed values. -/
theorem limitedList_map {α : Type} {f : α → JsonValue} {as : List α} {envelope : JsonObject} {key label : String}
    {limit : Nat} (h : (envelope.value key).json = .arr (as.map fun a => (f a).json)) (bound : as.length ≤ limit) :
    limitedList envelope key label limit = .ok (as.map f) := by
  have items : (envelope.value key).items? = some (as.map f) := by
    rw [JsonValue.items?_eq_some, h, List.map_map]
    rfl
  simp only [limitedList, items, Checked.orRaise_eq_ok, Checked.bind_eq_ok, Checked.require_eq_ok, Checked.pure_eq_ok]
  exact ⟨_, rfl, (), List.length_map f ▸ bound, rfl⟩

/-- A list of typed values whose elements are accepted one by one. -/
theorem collect_map {α β ε : Type} {f : JsonValue → Except ε β} {value : α → JsonValue} {as : List α} {bs : List β} :
    Checked.collect f (as.map value) = .ok bs ↔ List.Forall₂ (fun a b => f (value a) = .ok b) as bs := by
  rw [Checked.collect_eq_ok, List.forall₂_map_left_iff]

/-! ## Schema versions -/

theorem sortedSet_sortedSet (versions : List Int) : sortedSet (sortedSet versions) = sortedSet versions := by
  have distinct : (sortedSet versions).Nodup :=
    (List.perm_insertionSort _ _).nodup_iff.2 (List.nodup_dedup versions)
  have sorted : (sortedSet versions).Pairwise (· ≤ ·) := List.pairwise_insertionSort _ _
  change (sortedSet versions).dedup.insertionSort (· ≤ ·) = _
  rw [distinct.dedup, sorted.insertionSort_eq]

theorem mem_sortedSet {versions : List Int} {i : Int} : i ∈ sortedSet versions ↔ i ∈ versions := by
  rw [sortedSet, (List.perm_insertionSort _ _).mem_iff, List.mem_dedup]

theorem schemaVersions_ints {versions : List Int} (positive : ∀ i ∈ versions, 1 ≤ i)
    (canonical : versions = sortedSet versions) : schemaVersions (intsJson versions) = .ok versions := by
  have read : Checked.collect (fun j => Checked.orRaise (schemaVersion? j)
      (transferError "workspace source schemas are malformed")) (versions.map .int) = .ok versions := by
    rw [Checked.collect_eq_ok, List.forall₂_map_left_iff, List.forall₂_same]
    intro i hi
    simp [schemaVersion?, positive i hi]
  simp only [schemaVersions, intsJson, versionList, read, Checked.bind_eq_ok, Checked.require_eq_ok, Checked.pure_eq_ok]
  exact ⟨versions, rfl, (), canonical, rfl⟩

/-- The schema versions of a backup are within the supported ones. -/
structure SchemaBounds (backup : ValidatedBackup) : Prop where
  conversations : ∀ r ∈ backup.conversations, 1 ≤ r.schemaVersion ∧ r.schemaVersion ≤ 5
  collections : ∀ r ∈ backup.collections ++ backup.evidenceItems, 1 ≤ r.schemaVersion ∧ r.schemaVersion ≤ 2

theorem validateRole_schema {kind : RecordKind} {schemaVersion revision createdAt updatedAt : Nat} {payload : JsonObject}
    {parent : Json} {role : Role}
    (h : validateRole kind schemaVersion revision createdAt updatedAt payload parent = .ok role) :
    1 ≤ schemaVersion ∧ schemaVersion ≤ (if kind = .conversation then 5 else 2) := by
  cases kind with
  | conversation =>
    simp only [validateRole, validateConversation, Checked.bind_eq_ok, Checked.require_eq_ok] at h
    obtain ⟨_, ⟨_, ⟨known, -⟩, -⟩, -⟩ := h
    rcases known with rfl | rfl <;> simp
  | collection =>
    simp only [validateRole, validateCollection, Checked.bind_eq_ok, Checked.require_eq_ok] at h
    obtain ⟨_, ⟨_, known, -⟩, -⟩ := h
    rcases known with rfl | rfl <;> simp
  | evidenceItem =>
    simp only [validateRole, validateEvidenceItem, Checked.bind_eq_ok, Checked.require_eq_ok] at h
    obtain ⟨_, ⟨_, known, -⟩, -⟩ := h
    rcases known with rfl | rfl <;> simp

theorem validateSchemas_expected {backup : ValidatedBackup} (bounds : SchemaBounds backup) {value : JsonValue}
    (h : value.json = .obj [("conversations", intsJson (expectedSchemas backup).conversations),
      ("evidence_collections", intsJson (expectedSchemas backup).evidenceCollections),
      ("favorites", intsJson (expectedSchemas backup).favorites),
      ("tombstones", intsJson (expectedSchemas backup).tombstones)]) :
    validateSchemas value = .ok (expectedSchemas backup) := by
  have conversations : ∀ i ∈ (expectedSchemas backup).conversations, 1 ≤ i ∧ i ≤ 5 := by
    intro i hi
    obtain ⟨r, hr, rfl⟩ := List.mem_map.1 (mem_sortedSet.1 hi)
    have := bounds.conversations r hr
    omega
  have collections : ∀ i ∈ (expectedSchemas backup).evidenceCollections, 1 ≤ i ∧ i ≤ 2 := by
    intro i hi
    obtain ⟨r, hr, rfl⟩ := List.mem_map.1 (mem_sortedSet.1 hi)
    have := bounds.collections r hr
    omega
  have ones : ∀ c : Prop, ∀ [Decidable c], ∀ i ∈ (if c then [] else [1] : List Int), 1 ≤ i ∧ i ≤ 1 := by
    intro c _ i hi
    split at hi
    · cases hi
    · obtain rfl := List.mem_singleton.1 hi
      exact ⟨Int.le_refl _, Int.le_refl _⟩
  have canonical : ∀ c : Prop, ∀ [Decidable c], (if c then [] else [1] : List Int) = sortedSet (if c then [] else [1]) := by
    intro c _
    split <;> rfl
  have first := schemaVersions_ints (fun i hi => (conversations i hi).1) (sortedSet_sortedSet _).symm
  have second := schemaVersions_ints (fun i hi => (collections i hi).1) (sortedSet_sortedSet _).symm
  have third : schemaVersions (intsJson (expectedSchemas backup).favorites) = .ok (expectedSchemas backup).favorites :=
    schemaVersions_ints (fun i hi => (ones _ i hi).1) (canonical _)
  have fourth : schemaVersions (intsJson (expectedSchemas backup).tombstones) = .ok (expectedSchemas backup).tombstones :=
    schemaVersions_ints (fun i hi => (ones _ i hi).1) (canonical _)
  obtain ⟨json, distinct⟩ := value
  subst h
  have object : (JsonValue.mk _ distinct).object? = some ⟨_, distinct⟩ := rfl
  have keys : requireExactKeys ⟨_, distinct⟩ schemaKeys = .ok () := by
    rw [requireExactKeys_eq_ok]
    simp [JsonObject.keys, schemaKeys]
  simp only [validateSchemas, requireObject, object, Checked.orRaise_eq_ok, Checked.bind_eq_ok, Checked.each_eq_ok,
    Checked.require_eq_ok, Checked.pure_eq_ok]
  refine ⟨_, rfl, (), keys, (), ?_, _, first, _, second, _, third, _, fourth, (), ?_, (), ?_, (), ?_, rfl⟩
  · simp only [List.forall_mem_cons]
    exact ⟨⟨_, first, trivial⟩, ⟨_, second, trivial⟩, ⟨_, third, trivial⟩, ⟨_, fourth, trivial⟩, by simp⟩
  · rw [List.all_eq_true]
    exact fun i hi => decide_eq_true (conversations i hi).2
  · rw [List.all_eq_true]
    exact fun i hi => decide_eq_true (collections i hi).2
  · rw [List.all_eq_true]
    intro i hi
    rcases List.mem_append.1 hi with hi | hi
    · exact decide_eq_true (ones _ i hi).2
    · exact decide_eq_true (ones _ i hi).2

/-! ## Envelopes -/

/-- The lists of an envelope and the backup they are accepted as. -/
structure Matches (secrets : List String) (o : Exported) (backup : ValidatedBackup) : Prop where
  conversations : List.Forall₂ (Portable secrets .conversation) o.conversations backup.conversations
  collections : List.Forall₂ (Portable secrets .collection) o.collections backup.collections
  evidenceItems : List.Forall₂ (Portable secrets .evidenceItem) o.evidenceItems backup.evidenceItems
  favorites : List.Forall₂ (fun v id => validateLegacyId v.json = .ok id) o.favorites backup.favorites
  tombstones : List.Forall₂ (fun t b => validateTombstone t.value = .ok b) o.tombstones backup.tombstones
  unsupported : List.Forall₂ (fun s b => validateUnsupported secrets s.value = .ok b) o.unsupported backup.unsupported
  references : validateReferences backup = .ok ()

/-- The lists are within their limits. -/
structure Limited (o : Exported) : Prop where
  conversations : o.conversations.length ≤ maxConversations
  collections : o.collections.length ≤ maxCollections
  evidenceItems : o.evidenceItems.length ≤ maxEvidenceItems
  favorites : o.favorites.length ≤ maxFavorites
  tombstones : o.tombstones.length ≤ maxTombstones
  unsupported : o.unsupported.length ≤ maxUnsupportedDescriptors

section Envelope

variable {secrets : List String} {o : Exported} {backup : ValidatedBackup}

theorem Matches.schemas (h : Matches secrets o backup) : SchemaBounds backup where
  conversations := by
    intro r hr
    obtain ⟨_, -, portable⟩ := Checked.forall₂_source h.conversations hr
    exact validateRole_schema portable.role
  collections := by
    intro r hr
    rcases List.mem_append.1 hr with hr | hr
    · obtain ⟨_, -, portable⟩ := Checked.forall₂_source h.collections hr
      exact validateRole_schema portable.role
    · obtain ⟨_, -, portable⟩ := Checked.forall₂_source h.evidenceItems hr
      exact validateRole_schema portable.role

theorem Matches.counts (h : Matches secrets o backup) :
    o.conversations.length = backup.conversations.length ∧ o.collections.length = backup.collections.length ∧
      o.evidenceItems.length = backup.evidenceItems.length ∧ o.favorites.length = backup.favorites.length ∧
      o.tombstones.length = backup.tombstones.length :=
  ⟨h.conversations.length_eq, h.collections.length_eq, h.evidenceItems.length_eq, h.favorites.length_eq,
    h.tombstones.length_eq⟩

/-- The descriptor of a source is accepted as that source. -/
theorem validateUnsupported_exported {s b : UnsupportedSource} (h : validateUnsupported secrets s.value = .ok b) : b = s := by
  have source : (s.object.value "source").json = .str s.source := rfl
  have version : (s.object.value "schema_version").json = versionJson s.schemaVersion := rfl
  have count : (s.object.value "count").json = .int s.count := rfl
  have reason : (s.object.value "reason").json = .str s.reason := rfl
  simp only [validateUnsupported, requireObject, s.value_object, Checked.orRaise_eq_ok, Checked.bind_eq_ok,
    Checked.require_eq_ok, Checked.pure_eq_ok, source, version, count, reason, positiveInt_eq_ok, requireNonempty,
    Option.some.injEq, exists_eq_left', Json.int.injEq, Int.natCast_inj] at h
  obtain ⟨_, -, _, ⟨-, -, rfl⟩, v, versionOk, _, ⟨-, rfl⟩, _, ⟨-, -, rfl⟩, _, -, _, -, rfl⟩ := h
  have same : v = s.schemaVersion := by
    cases h : s.schemaVersion with
    | none =>
      rw [h, versionJson, optionalVersion, Checked.pure_eq_ok] at versionOk
      exact versionOk.symm
    | some n =>
      rw [h, versionJson, optionalVersion] at versionOk
      simp only [Checked.bind_eq_ok, Checked.require_eq_ok, Checked.pure_eq_ok] at versionOk
      obtain ⟨_, -, rfl⟩ := versionOk
      simp
  rw [same]

theorem Matches.unsupported_eq (h : Matches secrets o backup) : backup.unsupported = o.unsupported := by
  have same := h.unsupported.imp fun _ _ ok => validateUnsupported_exported ok
  exact List.forall₂_eq_eq_eq ▸ (same.flip : List.Forall₂ (fun b s => b = s) _ _)

/-- **When a built envelope is accepted.** -/
theorem envelopeOf_accepted {exportedAt : String} (h : Matches secrets o backup) (limited : Limited o)
    (time : validateExportedAt (.str exportedAt) = .ok ())
    (digest : computeBackupDigest (envelopeFields (expectedSchemas backup).conversations
      (expectedSchemas backup).evidenceCollections o exportedAt) = some backup.digest)
    (finite : (envelopeOf (expectedSchemas backup).conversations (expectedSchemas backup).evidenceCollections o exportedAt
      backup.digest).json.finite = true)
    (print : printable (envelopeOf (expectedSchemas backup).conversations (expectedSchemas backup).evidenceCollections o
      exportedAt backup.digest).json = true)
    (size : encodedLength (envelopeOf (expectedSchemas backup).conversations (expectedSchemas backup).evidenceCollections o
      exportedAt backup.digest).json ≤ maxBackupBytes) :
    Accepted secrets (envelopeOf (expectedSchemas backup).conversations (expectedSchemas backup).evidenceCollections o
      exportedAt backup.digest) backup := by
  obtain ⟨conversations, collections, evidenceItems, favorites, tombstones⟩ := h.counts
  have empty {α β : Type} {as : List α} {bs : List β} (len : as.length = bs.length) :
      as.isEmpty = decide (bs = []) := by
    cases as <;> cases bs <;> simp_all
  have hex : isSha256Text backup.digest = true := by
    rw [computeBackupDigest, Option.map_eq_some_iff] at digest
    obtain ⟨text, -, e⟩ := digest
    rw [← e]
    exact Sha256.isSha256Text_hexdigest text
  exact {
    keys := by
      rw [requireExactKeys_eq_ok]
      simp [JsonObject.keys, envelopeOf, envelopeFields, envelopeKeys]
    finite
    printable := print
    size
    format := rfl
    version := rfl
    exportedAt := time
    digest := by
      change validateDigest (.str backup.digest) = _
      simp [validateDigest, hex]
    schemas := by
      refine validateSchemas_expected h.schemas ?_
      change Json.obj _ = _
      rw [empty favorites, empty tombstones]
      simp [expectedSchemas]
    conversations := ⟨_, limitedList_map (f := ExportedRecord.value) rfl limited.conversations,
      collect_map.2 (h.conversations.imp fun _ _ => validateRecord_exported.2)⟩
    collections := ⟨_, limitedList_map (f := ExportedRecord.value) rfl limited.collections,
      collect_map.2 (h.collections.imp fun _ _ => validateRecord_exported.2)⟩
    evidenceItems := ⟨_, limitedList_map (f := ExportedRecord.value) rfl limited.evidenceItems,
      collect_map.2 (h.evidenceItems.imp fun _ _ => validateRecord_exported.2)⟩
    favorites := ⟨_, limitedList_map (f := id) rfl limited.favorites,
      collect_map.2 h.favorites⟩
    tombstones := ⟨_, limitedList_map (f := ExportedTombstone.value) rfl limited.tombstones,
      collect_map.2 h.tombstones⟩
    unsupported := ⟨_, limitedList_map (f := UnsupportedSource.value) rfl limited.unsupported,
      collect_map.2 h.unsupported⟩
    references := h.references
    counts := by
      have object : ((envelopeOf (expectedSchemas backup).conversations (expectedSchemas backup).evidenceCollections o
          exportedAt backup.digest).value "source_counts").object? = some ⟨[("conversations", .int o.conversations.length),
            ("collections", .int o.collections.length), ("evidence_items", .int o.evidenceItems.length),
            ("favorites", .int o.favorites.length), ("tombstones", .int o.tombstones.length),
            ("unsupported", .int (unsupportedCount o.unsupported))], by
              rw [Json.distinctKeys_obj]
              simp [Json.distinctKeys, Json.all]⟩ := rfl
      simp only [validateCounts, requireObject, object, Checked.orRaise_eq_ok, Checked.bind_eq_ok, Checked.require_eq_ok]
      refine ⟨_, rfl, (), ?_, ?_⟩
      · rw [requireExactKeys_eq_ok]
        simp [JsonObject.keys, countKeys]
      · simp [expectedCounts, JsonObject.holdsInt, JsonObject.get?, Json.lookup, equalsInt, conversations, collections,
          evidenceItems, favorites, tombstones, h.unsupported_eq]
    calculated := by
      rw [← digest]
      rfl }

end Envelope

end Transfer
