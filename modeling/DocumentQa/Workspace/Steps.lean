import DocumentQa.Workspace.Collections
import DocumentQa.Workspace.Tables

/-!
# What a collection call does

One lemma for each call of the collection repository: the checks it passed and the record
operations it ran, in order. Everything said about runs of the workspace is read off these.
-/

namespace Workspace

open Python JsonText Transfer SqlTable

variable {ctx : Context} {db db' : Store}

/-! ## Record operations -/

/-- A stable identifier is opaque. -/
theorem validateEntity_stableId {t : String} (h : t ∈ entityTypes) (kind : RecordKind) (legacyId : String) :
    validateEntity t (stableId kind legacyId) = .ok () := by
  obtain ⟨digits, text, count, hex⟩ := stableId_shape kind legacyId
  have plain : digits.all opaqueId.rest = true := by
    rw [List.all_eq_true] at hex ⊢
    intro c hc
    have digit := hex c hc
    simp only [Bool.or_eq_true, Bool.and_eq_true, decide_eq_true_eq] at digit
    simp only [opaqueId, isAlnum, Bool.or_eq_true, Bool.and_eq_true, decide_eq_true_eq]
    rcases digit with ⟨lo, hi⟩ | digit
    · exact .inl (.inl (.inl (.inr ⟨lo, hi.trans (by decide)⟩)))
    · exact .inl (.inl (.inr digit))
  have matched : opaqueId.fullmatch (stableId kind legacyId) = true := by
    obtain ⟨first, tail, leading, small, head, rest⟩ : ∃ first tail, kind.idPrefix.toList = first :: tail ∧
        tail.length + 41 < 128 ∧ opaqueId.first first = true ∧ tail.all opaqueId.rest = true := by
      cases kind <;> exact ⟨_, _, rfl, by decide, by decide, by decide⟩
    rw [NamePattern.fullmatch, text, leading]
    simp only [List.cons_append, List.all_append, List.length_append, head, rest, plain, count, Bool.and_self,
      Bool.true_and, decide_eq_true_eq]
    change tail.length + 40 < 128
    omega
  simp only [validateEntity, Checked.bind_eq_ok, Checked.require_eq_ok]
  exact ⟨(), h, matched⟩

theorem createRecord_eq_ok {t i : String} {payload : JsonObject} {ms : Nat} {record : VersionedRecord}
    (h : createRecord ctx db t i payload ms = .ok (db', record)) :
    ∃ timestamp payloadJson, isoFromMs ms = .ok timestamp ∧
      canonicalPayload ctx.settings.forbidden payload = .ok payloadJson ∧ t ∈ entityTypes ∧
      db.entry (t, i) = (none, none) ∧
      Store.Sets db db' (t, i) (some ⟨t, i, 1, payloadJson, timestamp, timestamp⟩, none) := by
  simp only [createRecord, translate_eq_ok, Checked.bind_eq_ok] at h
  obtain ⟨timestamp, iso, created⟩ := h
  obtain ⟨payloadJson, text, type, fresh, sets⟩ := createIn_eq_ok created
  exact ⟨timestamp, payloadJson, iso, text, type, fresh, sets⟩

theorem replaceRecord_eq_ok {t i : String} {payload : JsonObject} {expected : Int} {ms : Nat} {record : VersionedRecord}
    (h : replaceRecord ctx db t i payload expected ms = .ok (db', record)) :
    ∃ r timestamp payloadJson, isoFromMs ms = .ok timestamp ∧
      canonicalPayload ctx.settings.forbidden payload = .ok payloadJson ∧ db.record? t i = some r ∧
      (r.revision : Int) = expected ∧
      Store.Sets db db' (t, i) (some ⟨t, i, r.revision + 1, payloadJson, r.createdAt, timestamp⟩, db.tombstone? t i) := by
  simp only [replaceRecord, translate_eq_ok, Checked.bind_eq_ok] at h
  obtain ⟨timestamp, iso, replaced⟩ := h
  obtain ⟨r, payloadJson, text, found, same, sets⟩ := replaceIn_eq_ok replaced
  exact ⟨r, timestamp, payloadJson, iso, text, found, same, sets⟩

theorem deleteRecord_eq_ok {t i : String} {expected : Int} {ms : Nat} {tombstone : TombstoneRow}
    (h : deleteRecord db t i expected ms = .ok (db', tombstone)) :
    ∃ r timestamp, isoFromMs ms = .ok timestamp ∧ db.entry (t, i) = (some r, none) ∧ (r.revision : Int) = expected ∧
      tombstone = ⟨t, i, r.revision + 1, timestamp⟩ ∧ Store.Sets db db' (t, i) (none, some tombstone) := by
  simp only [deleteRecord, translate_eq_ok, Checked.bind_eq_ok] at h
  obtain ⟨timestamp, iso, deleted⟩ := h
  obtain ⟨r, found, same, rfl, sets⟩ := deleteIn_eq_ok deleted
  exact ⟨r, timestamp, iso, found, same, rfl, sets⟩

theorem oneIn_eq_ok {t i label : String} {r : RecordRow} {payload : JsonObject}
    (h : oneIn db t i label = .ok (r, payload)) :
    db.record? t i = some r ∧ loadsObject r.payloadJson = some payload := by
  unfold oneIn at h
  split at h
  · next found =>
    simp only [Checked.bind_eq_ok, Checked.orRaise_eq_ok, Checked.pure_eq_ok, Prod.mk.injEq] at h
    obtain ⟨_, -, payload', loaded, rfl, rfl⟩ := h
    exact ⟨found, loaded⟩
  · split at h <;> simp at h

/-! ## Activity -/

/-- What is written for one recorded activity: old rows pruned, one row created. -/
theorem recordActivityIn_eq_ok {k : Nat} {collectionId : Option String} {eventType entityType entityId : String}
    (h : recordActivityIn ctx k db collectionId eventType entityType entityId = .ok db') :
    ∃ ms db₁ record, msFromIso ctx.clockText = .ok ms ∧ pruneActivityIn db collectionId ms.toNat = .ok db₁ ∧
      createRecord ctx db₁ activityEntityType (ctx.generateId "act" k)
        (activityPayload (ctx.generateId "act" k) collectionId entityType entityId eventType ctx.clockText) ms.toNat =
        .ok (db', record) := by
  simp only [recordActivityIn, Checked.bind_eq_ok, Checked.pure_eq_ok, Prod.exists] at h
  obtain ⟨ms, time, db₁, pruned, db₂, record, created, rfl⟩ := h
  exact ⟨ms, db₁, record, time, pruned, created⟩

theorem recordActivity_eq_ok {collectionId : Option String} {eventType entityType entityId : String}
    (h : recordActivity ctx collectionId eventType entityType entityId db = .ok db') :
    recordActivityIn ctx 0 db collectionId eventType entityType entityId = .ok db' := by
  simp only [recordActivity, Checked.bind_eq_ok] at h
  obtain ⟨_, -, _, -, recorded⟩ := h
  exact recorded

/-! ## Collections -/

theorem collectionEntityId_eq_ok {collectionId storageId : String} :
    collectionEntityId collectionId = .ok storageId ↔
      isLegacyId collectionId = true ∧ storageId = stableId .collection collectionId :=
  stableLegacyId_eq_ok

theorem itemEntityId_eq_ok {itemId storageId : String} :
    itemEntityId itemId = .ok storageId ↔ isLegacyId itemId = true ∧ storageId = stableId .evidenceItem itemId :=
  stableLegacyId_eq_ok

theorem createCollection_eq_ok {args : CollectionArguments} {given : Option String} {record : VersionedRecord}
    (h : createCollection ctx args given db = .ok (db', record)) :
    ∃ fields id db₁,
      validateCollectionFields args.name args.description args.tags args.favorite args.isPrivate = .ok fields ∧
      chosenId ctx "col" given "collection_id" = .ok id ∧ isLegacyId id = true ∧
      liveCountIn db collectionEntityType < maxCollections ∧
      createRecord ctx db collectionEntityType (stableId .collection id)
        (collectionPayload id fields ctx.nowMs ctx.nowMs) ctx.nowMs = .ok (db₁, record) ∧
      recordActivityIn ctx 1 db₁ (some id) "collection_created" collectionEntityType id = .ok db' := by
  simp only [createCollection, Checked.bind_eq_ok, Checked.require_eq_ok, Checked.pure_eq_ok, Prod.exists,
    collectionEntityId_eq_ok, Prod.mk.injEq] at h
  obtain ⟨fields, valid, id, chosen, _, ⟨legacy, rfl⟩, _, -, _, room, db₁, _, created, _, recorded, rfl, rfl⟩ := h
  exact ⟨fields, id, db₁, valid, chosen, legacy, room, created, recorded⟩

theorem updateCollection_eq_ok {id : String} {expectedRevision : Json} {args : CollectionArguments}
    {record : VersionedRecord} (h : updateCollection ctx id expectedRevision args db = .ok (db', record)) :
    ∃ r payload fields createdAtMs db₁, isLegacyId id = true ∧
      db.record? collectionEntityType (stableId .collection id) = some r ∧
      loadsObject r.payloadJson = some payload ∧ msFromIso r.createdAt = .ok createdAtMs ∧
      replaceRecord ctx db collectionEntityType (stableId .collection id)
        (collectionPayload id fields createdAtMs ctx.nowMs) r.revision ctx.nowMs = .ok (db₁, record) ∧
      recordActivityIn ctx 0 db₁ (some id) "collection_updated" collectionEntityType id = .ok db' := by
  simp only [updateCollection, Checked.bind_eq_ok, Checked.require_eq_ok, Checked.pure_eq_ok, Prod.exists,
    collectionEntityId_eq_ok, Prod.mk.injEq] at h
  obtain ⟨_, -, expected, -, _, ⟨legacy, rfl⟩, r, payload, one, _, rfl, _, -, fields, -, createdAtMs, created, db₁, _,
    replaced, _, recorded, rfl, rfl⟩ := h
  obtain ⟨found, loaded⟩ := oneIn_eq_ok one
  exact ⟨r, payload, fields, createdAtMs, db₁, legacy, found, loaded, created, replaced, recorded⟩

theorem deleteCollection_eq_ok {id : String} {expectedRevision : Json} {tombstone : TombstoneRow}
    (h : deleteCollection ctx id expectedRevision db = .ok (db', tombstone)) :
    ∃ r db₁ db₂ db₃, isLegacyId id = true ∧ db.record? collectionEntityType (stableId .collection id) = some r ∧
      deleteAll db ctx.nowMs (childrenIn db itemEntityType id) = .ok db₁ ∧
      deleteAll db₁ ctx.nowMs (childrenIn db₁ noteEntityType id) = .ok db₂ ∧
      deleteRecord db₂ collectionEntityType (stableId .collection id) r.revision ctx.nowMs = .ok (db₃, tombstone) ∧
      recordActivityIn ctx 0 db₃ (some id) "collection_deleted" collectionEntityType id = .ok db' := by
  simp only [deleteCollection, Checked.bind_eq_ok, Checked.require_eq_ok, Checked.pure_eq_ok, Prod.exists,
    collectionEntityId_eq_ok, Prod.mk.injEq] at h
  obtain ⟨_, -, expected, -, _, ⟨legacy, rfl⟩, r, payload, one, _, rfl, db₁, items, db₂, notes, db₃, _, deleted, _,
    recorded, rfl, rfl⟩ := h
  exact ⟨r, db₁, db₂, db₃, legacy, (oneIn_eq_ok one).1, items, notes, deleted, recorded⟩

/-! ## Notes and items -/

theorem addNote_eq_ok {id : String} {text : Json} {evidenceRef : Option JsonValue} {given : Option String}
    {record : VersionedRecord} (h : addNote ctx id text evidenceRef given db = .ok (db', record)) :
    ∃ noteText reference noteId r db₁, isLegacyId id = true ∧
      chosenId ctx "note" given "note_id" = .ok noteId ∧
      db.record? collectionEntityType (stableId .collection id) = some r ∧
      noteCountIn db id < maxNotesPerCollection ∧ memberCountIn db id < maxItemsPerCollection ∧
      createRecord ctx db noteEntityType noteId (notePayload noteId id noteText reference ctx.nowMs ctx.nowMs)
        ctx.nowMs = .ok (db₁, record) ∧
      recordActivityIn ctx 1 db₁ (some id) "note_added" noteEntityType noteId = .ok db' := by
  simp only [addNote, Checked.bind_eq_ok, Checked.require_eq_ok, Checked.pure_eq_ok, Prod.exists,
    collectionEntityId_eq_ok, Prod.mk.injEq] at h
  obtain ⟨_, -, noteText, -, reference, -, noteId, chosen, _, ⟨legacy, rfl⟩, r, payload, one, _, notes, _, members, _, -,
    db₁, _, created, _, recorded, rfl, rfl⟩ := h
  exact ⟨noteText, reference, noteId, r, db₁, legacy, chosen, (oneIn_eq_ok one).1, notes, members, created, recorded⟩

theorem updateNote_eq_ok {id noteId : String} {expectedRevision text : Json} {record : VersionedRecord}
    (h : updateNote ctx id noteId expectedRevision text db = .ok (db', record)) :
    ∃ r payload data expected noteText reference createdAtMs db₁, db.record? noteEntityType noteId = some r ∧
      loadsObject r.payloadJson = some payload ∧ unwrapPayload payload "note record" = .ok data ∧
      namesCollection data id = true ∧
      replaceRecord ctx db noteEntityType noteId (notePayload noteId id noteText reference createdAtMs ctx.nowMs) expected
        ctx.nowMs = .ok (db₁, record) ∧
      recordActivityIn ctx 0 db₁ (some id) "note_updated" noteEntityType noteId = .ok db' := by
  simp only [updateNote, Checked.bind_eq_ok, Checked.require_eq_ok, Checked.pure_eq_ok, Prod.exists, Prod.mk.injEq] at h
  obtain ⟨_, -, _, -, expected, -, noteText, -, r, payload, one, data, unwrapped, _, names, createdAtMs, -, db₁, _,
    replaced, _, recorded, rfl, rfl⟩ := h
  obtain ⟨found, loaded⟩ := oneIn_eq_ok one
  exact ⟨r, payload, data, expected, noteText, _, createdAtMs, db₁, found, loaded, unwrapped, names, replaced, recorded⟩

/-- An added item is a note, or a record of its own in a live collection with room for it. -/
theorem addItem_eq_ok {id : String} {args : ItemArguments} {given : Option String} {record : VersionedRecord}
    (h : addItem ctx id args given db = .ok (db', record)) :
    (∃ excerpt reference itemId,
      addNote { ctx with token := fun k => ctx.token (k + 1) } id excerpt reference (some itemId) db = .ok (db', record)) ∨
    ∃ fields itemId r db₁, fields.itemKind ∈ referenceItemKinds ∧ isLegacyId id = true ∧ isLegacyId itemId = true ∧
      validateItemReference fields.itemKind args.reference = .ok fields.reference ∧
      validateSnapshot args.snapshot = .ok fields.snapshot ∧
      requireText args.citation "citation" maxCitationLength false = .ok fields.citation ∧
      requireText args.excerpt "excerpt" maxExcerptLength false = .ok fields.excerpt ∧
      chosenId ctx "itm" given "item_id" = .ok itemId ∧
      db.record? collectionEntityType (stableId .collection id) = some r ∧
      memberCountIn db id < maxItemsPerCollection ∧
      createRecord ctx db itemEntityType (stableId .evidenceItem itemId) (itemPayload itemId id fields ctx.nowMs)
        ctx.nowMs = .ok (db₁, record) ∧
      recordActivityIn ctx 1 db₁ (some id) "item_added" itemEntityType itemId = .ok db' := by
  simp only [addItem, Checked.bind_eq_ok] at h
  obtain ⟨_, -, kind, isKind, reference, referenceOk, snapshot, snapshotOk, citation, citationOk, excerpt, excerptOk,
    itemId, chosen, h⟩ := h
  have known : kind ∈ collectionItemKinds := by
    unfold requireItemKind at isKind
    split at isKind
    · simp only [Checked.bind_eq_ok, Checked.require_eq_ok, Checked.pure_eq_ok] at isKind
      obtain ⟨_, known, rfl⟩ := isKind
      exact known
    · simp at isKind
  split at h
  · exact .inl ⟨_, _, _, h⟩
  · next notNote =>
    have referenced : kind ∈ referenceItemKinds := by
      simp only [collectionItemKinds, referenceItemKinds, List.mem_cons, List.not_mem_nil, or_false] at known ⊢
      rcases known with rfl | rfl | rfl | rfl
      · exact .inl rfl
      · exact .inr (.inl rfl)
      · exact .inr (.inr rfl)
      · exact absurd rfl notNote
    simp only [Checked.bind_eq_ok, Checked.require_eq_ok, Checked.pure_eq_ok, Prod.exists, collectionEntityId_eq_ok,
      itemEntityId_eq_ok, Prod.mk.injEq] at h
    obtain ⟨_, ⟨legacy, rfl⟩, r, payload, one, _, members, _, ⟨itemLegacy, rfl⟩, db₁, _, created, _, recorded, rfl,
      rfl⟩ := h
    have citationOk' : requireText args.citation "citation" maxCitationLength false = .ok citation := by
      simpa [referenced] using citationOk
    exact .inr ⟨⟨kind, citation, excerpt, reference, snapshot⟩, itemId, r, db₁, referenced, legacy, itemLegacy,
      referenceOk, snapshotOk, citationOk', excerptOk, chosen, (oneIn_eq_ok one).1, members, created, recorded⟩

theorem deleteItem_eq_ok {id itemId : String} {expectedRevision : Json} {tombstone : TombstoneRow}
    (h : deleteItem ctx id itemId expectedRevision db = .ok (db', tombstone)) :
    ∃ t i expected event db₁, (t = noteEntityType ∨ t = itemEntityType) ∧
      deleteRecord db t i expected ctx.nowMs = .ok (db₁, tombstone) ∧
      recordActivityIn ctx 0 db₁ (some id) event t itemId = .ok db' := by
  simp only [deleteItem, Checked.bind_eq_ok, Checked.pure_eq_ok, Prod.exists, Prod.mk.injEq] at h
  obtain ⟨_, -, _, -, expected, -, item, -, _, -, i, -, db₁, _, deleted, _, recorded, rfl, rfl⟩ := h
  refine ⟨_, i, expected, _, db₁, ?_, deleted, recorded⟩
  split
  · exact .inl rfl
  · exact .inr rfl

end Workspace
