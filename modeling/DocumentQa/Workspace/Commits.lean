import DocumentQa.Workspace.Counting

/-!
# When the writes of the collections commit

The other direction of `Steps`: what a write needs of the store and of its arguments to
return, and what the store holds of the identities it wrote.
-/

namespace Workspace

open Python JsonText Transfer SqlTable

variable {ctx : Context} {db : Store}

/-! ## Record operations -/

/-- A fresh identity can be created. -/
theorem createRecord_commits {t i timestamp payloadJson : String} {payload : JsonObject} {ms : Nat}
    (iso : isoFromMs ms = .ok timestamp) (entity : validateEntity t i = .ok ())
    (text : canonicalPayload ctx.settings.forbidden payload = .ok payloadJson) (fresh : db.entry (t, i) = (none, none)) :
    ∃ db' record, createRecord ctx db t i payload ms = .ok (db', record) ∧
      Store.Sets db db' (t, i) (some ⟨t, i, 1, payloadJson, timestamp, timestamp⟩, none) := by
  obtain ⟨db', record, created, sets⟩ :
      ∃ db' record, createIn ctx.settings.forbidden db t i payload timestamp = .ok (db', record) ∧
        Store.Sets db db' (t, i) (some ⟨t, i, 1, payloadJson, timestamp, timestamp⟩, none) :=
    createIn_commits entity text fresh
  refine ⟨db', record, ?_, sets⟩
  rw [createRecord, translate_eq_ok, Checked.bind_eq_ok]
  exact ⟨timestamp, iso, created⟩

/-- A live identity can be deleted at its revision. -/
theorem deleteRecord_commits {t i timestamp : String} {r : RecordRow} {ms : Nat} (iso : isoFromMs ms = .ok timestamp)
    (entity : validateEntity t i = .ok ()) (live : db.entry (t, i) = (some r, none)) (positive : 1 ≤ r.revision)
    (bound : isSqliteInteger ((r.revision + 1 : Nat) : Int) = true) :
    ∃ db' tombstone, deleteRecord db t i r.revision ms = .ok (db', tombstone) ∧
      Store.Sets db db' (t, i) (none, some ⟨t, i, r.revision + 1, timestamp⟩) := by
  obtain ⟨found, unburied⟩ := Prod.mk.inj live
  have free : ∀ a ∈ (db.deleteRecord t i).tombstones.rows,
      clashes (⟨t, i, r.revision + 1, timestamp⟩ : TombstoneRow) a = false := by
    intro a mem
    by_contra clash
    rw [Bool.not_eq_false, Store.clashes_tombstone] at clash
    have here : db.tombstone? t i = some a := Store.tombstone?_eq_some (k := (t, i)).2 ⟨mem, clash⟩
    rw [unburied] at here
    cases here
  obtain ⟨tombstones, inserted⟩ : ∃ tombstones, (db.deleteRecord t i).tombstones.insert?
      (⟨t, i, r.revision + 1, timestamp⟩ : TombstoneRow) = some tombstones := by
    rw [Table.insert?, dif_neg]
    · exact ⟨_, rfl⟩
    · rw [List.any_eq_true]
      rintro ⟨a, mem, clash⟩
      rw [free a mem] at clash
      cases clash
  have done : deleteRecord db t i r.revision ms =
      .ok ({ db.deleteRecord t i with tombstones }, ⟨t, i, r.revision + 1, timestamp⟩) := by
    rw [deleteRecord, translate_eq_ok, Checked.bind_eq_ok]
    refine ⟨timestamp, iso, ?_⟩
    have whole : (1 : Int) ≤ r.revision := by omega
    simp only [deleteIn, Checked.bind_eq_ok, found, Checked.require_eq_ok, Checked.pure_eq_ok, Store.insertTombstone,
      bindInteger_eq_ok, Checked.orRaise_eq_ok]
    exact ⟨(), entity, (), whole, (), trivial, _, ⟨(), bound, tombstones, inserted, rfl⟩, rfl⟩
  obtain ⟨_, timestamp', iso', live', -, same, sets⟩ := deleteRecord_eq_ok done
  exact ⟨_, _, done, sets⟩

/-- A live identity can be replaced at its revision. -/
theorem replaceRecord_commits {t i timestamp payloadJson : String} {r : RecordRow} {payload : JsonObject} {ms : Nat}
    (iso : isoFromMs ms = .ok timestamp) (entity : validateEntity t i = .ok ())
    (text : canonicalPayload ctx.settings.forbidden payload = .ok payloadJson) (live : db.record? t i = some r)
    (positive : 1 ≤ r.revision) (bound : isSqliteInteger r.revision = true) :
    ∃ db' record, replaceRecord ctx db t i payload r.revision ms = .ok (db', record) ∧ record.payload = payload.sorted ∧
      Store.Sets db db' (t, i) (some ⟨t, i, r.revision + 1, payloadJson, r.createdAt, timestamp⟩, db.tombstone? t i) := by
  have read : loadsObject payloadJson = some payload.sorted := by
    have dumped := text
    simp only [canonicalPayload, Checked.bind_eq_ok, Checked.orRaise_eq_ok] at dumped
    obtain ⟨_, -, dumped⟩ := dumped
    exact loadsObject_dumps dumped
  have whole : (1 : Int) ≤ r.revision := by omega
  have done : ∃ db' record, replaceRecord ctx db t i payload r.revision ms = .ok (db', record) ∧
      record.payload = payload.sorted := by
    simp only [replaceRecord, translate_eq_ok, Checked.bind_eq_ok, replaceIn, bindInteger_eq_ok, live,
      Checked.require_eq_ok, recordOf, Checked.orRaise_eq_ok, Checked.pure_eq_ok]
    exact ⟨_, _, ⟨timestamp, iso, (), entity, (), whole, payloadJson, text, (), bound, (), trivial, _, ⟨_, read, rfl⟩, rfl⟩,
      rfl⟩
  obtain ⟨db', record, replaced, sorted⟩ := done
  obtain ⟨r', timestamp', payloadJson', iso', text', found, -, sets⟩ := replaceRecord_eq_ok replaced
  obtain rfl : timestamp = timestamp' := Except.ok.inj (iso.symm.trans iso')
  obtain rfl : payloadJson = payloadJson' := Except.ok.inj (text.symm.trans text')
  obtain rfl : r = r' := Option.some.inj (live.symm.trans found)
  exact ⟨db', record, replaced, sorted, sets⟩

/-- A live row whose payload reads back is found. -/
theorem oneIn_found {t i label : String} {r : RecordRow} {payload : JsonObject} (live : db.record? t i = some r)
    (read : loadsObject r.payloadJson = some payload) : oneIn db t i label = .ok (r, payload) := by
  simp only [oneIn, live, Checked.bind_eq_ok, Checked.orRaise_eq_ok, Checked.pure_eq_ok]
  exact ⟨payload.json, loadsObject_eq_some.1 read, payload, read, rfl⟩

/-! ## Activity -/

/-- What recording an activity needs. -/
structure CanRecord (ctx : Context) (k : Nat) (db : Store) (collectionId : Option String) (event t i : String) : Prop where
  clock : ∃ ms, msFromIso ctx.clockText = .ok ms ∧ (isoFromMs ms.toNat).isOk = true
  entity : validateEntity activityEntityType (ctx.generateId "act" k) = .ok ()
  text : (canonicalPayload ctx.settings.forbidden
    (activityPayload (ctx.generateId "act" k) collectionId t i event ctx.clockText)).isOk = true
  fresh : db.entry (activityEntityType, ctx.generateId "act" k) = (none, none)
  /-- The collection has room for one more. -/
  few : (db.recordsOf activityEntityType).length < maxActivityPerCollection

theorem CanRecord.same {k : Nat} {db' : Store} {collectionId : Option String} {event t i : String}
    (h : CanRecord ctx k db collectionId event t i) (same : Same activityEntityType db db') :
    CanRecord ctx k db' collectionId event t i where
  clock := h.clock
  entity := h.entity
  text := h.text
  fresh := (same _).trans h.fresh
  few := by
    rw [same.recordsOf]
    exact h.few

theorem recordActivityIn_commits {k : Nat} {collectionId : Option String} {event t i : String}
    (can : CanRecord ctx k db collectionId event t i) :
    ∃ db' r, recordActivityIn ctx k db collectionId event t i = .ok db' ∧ r.key = (activityEntityType, ctx.generateId "act" k) ∧
      Store.Sets db db' (activityEntityType, ctx.generateId "act" k) (some r, none) := by
  obtain ⟨ms, clock, timed⟩ := can.clock
  obtain ⟨timestamp, iso⟩ := Checked.exists_ok timed
  obtain ⟨payloadJson, text⟩ := Checked.exists_ok can.text
  have pruned : pruneActivityIn db collectionId ms.toNat = .ok db := by
    unfold pruneActivityIn
    split
    · rfl
    · next id =>
      have short : (((scanIn db activityEntityType).filter fun c => isActivityOf id c.2).map Prod.fst).length <
          maxActivityPerCollection := by
        rw [List.length_map]
        calc ((scanIn db activityEntityType).filter fun c => isActivityOf id c.2).length
            ≤ (scanIn db activityEntityType).length := List.length_filter_le _ _
          _ ≤ (db.recordsOf activityEntityType).length := List.length_filterMap_le _ _
          _ < maxActivityPerCollection := can.few
      dsimp only
      rw [if_pos short]
      rfl
  obtain ⟨db', record, created, sets⟩ := createRecord_commits iso can.entity text can.fresh
  refine ⟨db', _, ?_, rfl, sets⟩
  simp only [recordActivityIn, Checked.bind_eq_ok, Checked.pure_eq_ok, Prod.exists]
  exact ⟨ms, clock, db, pruned, db', record, created, rfl⟩

/-- What a call finds when its tokens are all one. -/
def callContext (token : String) : Context :=
  { sampleContext with token := fun _ => token }

/-- The activities of a store are those of calls that drew `tokens`. -/
structure Recorded (db : Store) (tokens : List String) : Prop where
  count : (db.recordsOf activityEntityType).length = tokens.length
  unused : ∀ token ∉ tokens, ∀ k, db.entry (activityEntityType, (callContext token).generateId "act" k) = (none, none)

theorem Recorded.empty : Recorded Store.empty [] where
  count := rfl
  unused := fun _ _ _ => rfl

theorem sampleClock : ∃ ms, msFromIso sampleContext.clockText = .ok ms ∧ (isoFromMs ms.toNat).isOk = true :=
  ⟨0, by decide +kernel⟩

/-- A new token records another activity. -/
theorem Recorded.canRecord {tokens : List String} {token : String} {k : Nat} {collectionId : Option String}
    {event t i : String} (h : Recorded db tokens) (new : token ∉ tokens) (few : tokens.length < maxActivityPerCollection)
    (entity : validateEntity activityEntityType ((callContext token).generateId "act" k) = .ok ())
    (text : (canonicalPayload [] (activityPayload ((callContext token).generateId "act" k) collectionId t i event
      sampleContext.clockText)).isOk = true) :
    CanRecord (callContext token) k db collectionId event t i where
  clock := sampleClock
  entity := entity
  text := text
  fresh := h.unused token new k
  few := by
    rw [h.count]
    exact few

/-! ## Calls -/

/-- A write of one identity and the activity it is recorded by. -/
structure Wrote (ctx : Context) (k : Nat) (db db' : Store) (key : Key) (v : Option RecordRow × Option TombstoneRow) : Prop where
  type : key.1 ≠ activityEntityType
  /-- The activity is the one row written besides. -/
  sets : ∃ db₁ r, Store.Sets db db₁ key v ∧ r.key = (activityEntityType, ctx.generateId "act" k) ∧
    Store.Sets db₁ db' (activityEntityType, ctx.generateId "act" k) (some r, none)

section Wrote

variable {k : Nat} {db' : Store} {key : Key} {v : Option RecordRow × Option TombstoneRow}

theorem Wrote.entry_same (h : Wrote ctx k db db' key v) : db'.entry key = v := by
  obtain ⟨db₁, r, first, -, second⟩ := h.sets
  have other : key ≠ (activityEntityType, ctx.generateId "act" k) := fun same => h.type (congrArg Prod.fst same)
  rw [second.entry_other other, first.entry_same]

theorem Wrote.entry_other (h : Wrote ctx k db db' key v) {key' : Key} (ne : key' ≠ key)
    (act : key' ≠ (activityEntityType, ctx.generateId "act" k)) : db'.entry key' = db.entry key' := by
  obtain ⟨db₁, r, first, -, second⟩ := h.sets
  rw [second.entry_other act, first.entry_other ne]

/-- The other types stay. -/
theorem Wrote.same (h : Wrote ctx k db db' key v) {t : String} (other : t ≠ key.1) (act : t ≠ activityEntityType) :
    Same t db db' := by
  obtain ⟨db₁, r, first, -, second⟩ := h.sets
  exact (first.same other).trans (second.same act)

/-- One activity more. -/
theorem Wrote.activities (h : Wrote ctx k db db' key v)
    (fresh : db.entry (activityEntityType, ctx.generateId "act" k) = (none, none)) :
    (db'.recordsOf activityEntityType).length = (db.recordsOf activityEntityType).length + 1 := by
  obtain ⟨db₁, r, first, keyed, second⟩ := h.sets
  have same : Same activityEntityType db db₁ := first.same (Ne.symm h.type)
  have absent : (db₁.entry (activityEntityType, ctx.generateId "act" k)).1 = none := by
    rw [same, fresh]
  have more := second.tally_insert (fun _ => true) keyed absent
  rw [same.tally] at more
  simpa [tally] using more

/-- A count moves by the row written. -/
theorem Wrote.tally_insert {t i : String} {r : RecordRow} (h : Wrote ctx k db db' (t, i) (some r, none))
    (key : r.key = (t, i)) (absent : (db.entry (t, i)).1 = none) (p : RecordRow → Bool) :
    tally db' t p = tally db t p + if p r = true then 1 else 0 := by
  obtain ⟨db₁, a, first, -, second⟩ := h.sets
  have same : Same t db₁ db' := second.same h.type
  rw [same.tally, first.tally_insert p key absent]

theorem Wrote.imports (h : Wrote ctx k db db' key v) : db'.imports = db.imports := by
  obtain ⟨db₁, r, first, -, second⟩ := h.sets
  rw [second.imports, first.imports]

/-- The token of a call is used by it. -/
theorem Wrote.recorded {tokens : List String} {token : String} (h : Wrote (callContext token) k db db' key v)
    (recorded : Recorded db tokens) (new : token ∉ tokens) : Recorded db' (token :: tokens) where
  count := by
    rw [h.activities (recorded.unused token new k), recorded.count, List.length_cons]
  unused := by
    intro other apart k'
    rw [List.mem_cons, not_or] at apart
    have ne : (callContext other).generateId "act" k' ≠ (callContext token).generateId "act" k := by
      intro same
      exact apart.1 (String.append_right_inj _ |>.1 same)
    rw [h.entry_other]
    · exact recorded.unused other apart.2 k'
    · intro same
      exact h.type (congrArg Prod.fst same).symm
    · intro same
      exact ne (congrArg Prod.snd same)

end Wrote

theorem collection_ne_activity : collectionEntityType ≠ activityEntityType := by decide

/-- A collection can be created under an identity that is neither live nor deleted. -/
theorem createCollection_commits {args : CollectionArguments} {fields : CollectionFields} {given : Option String}
    {id timestamp payloadJson : String}
    (valid : validateCollectionFields args.name args.description args.tags args.favorite args.isPrivate = .ok fields)
    (chosen : chosenId ctx "col" given "collection_id" = .ok id) (legacy : isLegacyId id = true)
    (iso : isoFromMs ctx.nowMs = .ok timestamp)
    (text : canonicalPayload ctx.settings.forbidden (collectionPayload id fields ctx.nowMs ctx.nowMs) = .ok payloadJson)
    (fresh : db.entry (collectionEntityType, stableId .collection id) = (none, none))
    (room : liveCountIn db collectionEntityType < maxCollections)
    (can : CanRecord ctx 1 db (some id) "collection_created" collectionEntityType id) :
    ∃ db' record, createCollection ctx args given db = .ok (db', record) ∧
      Wrote ctx 1 db db' (collectionEntityType, stableId .collection id)
        (some ⟨collectionEntityType, stableId .collection id, 1, payloadJson, timestamp, timestamp⟩, none) := by
  obtain ⟨db₁, record, created, sets⟩ :=
    createRecord_commits iso (validateEntity_stableId (by decide) .collection id) text fresh
  obtain ⟨db', r, recorded, keyed, sets'⟩ := recordActivityIn_commits (can.same (createRecord_same created (by decide)))
  have absent : db.record? collectionEntityType (stableId .collection id) = none := congrArg Prod.fst fresh
  refine ⟨db', record, ?_, ⟨collection_ne_activity, db₁, r, sets, keyed, sets'⟩⟩
  simp only [createCollection, Checked.bind_eq_ok, Checked.require_eq_ok, Checked.pure_eq_ok, Prod.exists,
    collectionEntityId_eq_ok]
  exact ⟨fields, valid, id, chosen, _, ⟨legacy, rfl⟩, (), absent, (), room, db₁, record, created, db', recorded, rfl⟩

/-- A live collection can be updated at its revision. -/
theorem updateCollection_commits {id : String} {args current : CollectionArguments} {r : RecordRow} {payload : JsonObject}
    {fields : CollectionFields} {createdAtMs : Int} {timestamp payloadJson : String}
    (named : validateIdentifier id "collection_id" = .ok ()) (legacy : isLegacyId id = true)
    (live : db.record? collectionEntityType (stableId .collection id) = some r)
    (read : loadsObject r.payloadJson = some payload) (positive : 1 ≤ r.revision)
    (bound : isSqliteInteger r.revision = true) (stored : storedFields ctx payload = .ok current)
    (valid : validateCollectionFields (given args.name current.name) (given args.description current.description)
      (given args.tags current.tags) (given args.favorite current.favorite) (given args.isPrivate current.isPrivate) =
      .ok fields)
    (created : msFromIso r.createdAt = .ok createdAtMs) (iso : isoFromMs ctx.nowMs = .ok timestamp)
    (text : canonicalPayload ctx.settings.forbidden (collectionPayload id fields createdAtMs ctx.nowMs) = .ok payloadJson)
    (can : CanRecord ctx 0 db (some id) "collection_updated" collectionEntityType id) :
    ∃ db' record, updateCollection ctx id (.int r.revision) args db = .ok (db', record) ∧
      record.payload = (collectionPayload id fields createdAtMs ctx.nowMs).sorted ∧
      Wrote ctx 0 db db' (collectionEntityType, stableId .collection id)
        (some ⟨collectionEntityType, stableId .collection id, r.revision + 1, payloadJson, r.createdAt, timestamp⟩,
          db.tombstone? collectionEntityType (stableId .collection id)) := by
  obtain ⟨db₁, record, replaced, sorted, sets⟩ :=
    replaceRecord_commits iso (validateEntity_stableId (by decide) .collection id) text live positive bound
  obtain ⟨db', a, recorded, keyed, sets'⟩ := recordActivityIn_commits (can.same (replaceRecord_same replaced (by decide)))
  refine ⟨db', record, ?_, sorted, ⟨collection_ne_activity, db₁, a, sets, keyed, sets'⟩⟩
  have whole : (1 : Int) ≤ r.revision := by omega
  simp only [updateCollection, validateRevision, Checked.bind_eq_ok, Checked.require_eq_ok, Checked.pure_eq_ok,
    Prod.exists, collectionEntityId_eq_ok]
  exact ⟨(), named, _, ⟨(), whole, rfl⟩, _, ⟨legacy, rfl⟩, r, payload, oneIn_found live read, (), rfl, current, stored,
    fields, valid, createdAtMs, created, db₁, record, replaced, db', recorded, rfl⟩

/-- A live collection without members can be deleted at its revision. -/
theorem deleteCollection_commits {id : String} {r : RecordRow} {payload : JsonObject} {timestamp : String}
    (named : validateIdentifier id "collection_id" = .ok ()) (legacy : isLegacyId id = true)
    (live : db.entry (collectionEntityType, stableId .collection id) = (some r, none))
    (read : loadsObject r.payloadJson = some payload) (positive : 1 ≤ r.revision)
    (bound : isSqliteInteger ((r.revision + 1 : Nat) : Int) = true) (iso : isoFromMs ctx.nowMs = .ok timestamp)
    (items : childrenIn db itemEntityType id = []) (notes : childrenIn db noteEntityType id = [])
    (can : CanRecord ctx 0 db (some id) "collection_deleted" collectionEntityType id) :
    ∃ db' tombstone, deleteCollection ctx id (.int r.revision) db = .ok (db', tombstone) ∧
      Wrote ctx 0 db db' (collectionEntityType, stableId .collection id)
        (none, some ⟨collectionEntityType, stableId .collection id, r.revision + 1, timestamp⟩) := by
  obtain ⟨db₁, tombstone, deleted, sets⟩ :=
    deleteRecord_commits iso (validateEntity_stableId (by decide) .collection id) live positive bound
  obtain ⟨db', a, recorded, keyed, sets'⟩ := recordActivityIn_commits (can.same (deleteRecord_same deleted (by decide)))
  refine ⟨db', tombstone, ?_, ⟨collection_ne_activity, db₁, a, sets, keyed, sets'⟩⟩
  have whole : (1 : Int) ≤ r.revision := by omega
  have found : db.record? collectionEntityType (stableId .collection id) = some r := congrArg Prod.fst live
  simp only [deleteCollection, validateRevision, Checked.bind_eq_ok, Checked.require_eq_ok, Checked.pure_eq_ok,
    Prod.exists, collectionEntityId_eq_ok]
  refine ⟨(), named, _, ⟨(), whole, rfl⟩, _, ⟨legacy, rfl⟩, r, payload, oneIn_found found read, (), rfl, db, ?_, db, ?_, db₁,
    tombstone, deleted, db', recorded, rfl⟩
  · rw [items]
    rfl
  · rw [notes]
    rfl

/-- A note can be added under a fresh identity to a live collection with room for it. -/
theorem addNote_commits {id noteText noteId timestamp payloadJson : String} {given : Option String} {text : Json}
    {evidenceRef : Option JsonValue} {reference : Option JsonObject} {r : RecordRow} {payload : JsonObject}
    (named : validateIdentifier id "collection_id" = .ok ()) (legacy : isLegacyId id = true)
    (worded : requireText text "note text" maxNoteLength false = .ok noteText)
    (referred : noteReference evidenceRef = .ok reference)
    (chosen : chosenId ctx "note" given "note_id" = .ok noteId) (entity : validateEntity noteEntityType noteId = .ok ())
    (live : db.record? collectionEntityType (stableId .collection id) = some r)
    (read : loadsObject r.payloadJson = some payload) (notes : noteCountIn db id < maxNotesPerCollection)
    (members : memberCountIn db id < maxItemsPerCollection) (fresh : db.entry (noteEntityType, noteId) = (none, none))
    (iso : isoFromMs ctx.nowMs = .ok timestamp)
    (dumped : canonicalPayload ctx.settings.forbidden (notePayload noteId id noteText reference ctx.nowMs ctx.nowMs) =
      .ok payloadJson)
    (can : CanRecord ctx 1 db (some id) "note_added" noteEntityType noteId) :
    ∃ db' record, addNote ctx id text evidenceRef given db = .ok (db', record) ∧
      Wrote ctx 1 db db' (noteEntityType, noteId)
        (some ⟨noteEntityType, noteId, 1, payloadJson, timestamp, timestamp⟩, none) := by
  obtain ⟨db₁, record, created, sets⟩ := createRecord_commits iso entity dumped fresh
  obtain ⟨db', a, recorded, keyed, sets'⟩ := recordActivityIn_commits (can.same (createRecord_same created (by decide)))
  have absent : db.record? noteEntityType noteId = none := congrArg Prod.fst fresh
  have type : noteEntityType ≠ activityEntityType := by decide
  refine ⟨db', record, ?_, ⟨type, db₁, a, sets, keyed, sets'⟩⟩
  simp only [addNote, Checked.bind_eq_ok, Checked.require_eq_ok, Checked.pure_eq_ok, Prod.exists, collectionEntityId_eq_ok]
  exact ⟨(), named, noteText, worded, reference, referred, noteId, chosen, _, ⟨legacy, rfl⟩, r, payload,
    oneIn_found live read, (), notes, (), members, (), absent, db₁, record, created, db', recorded, rfl⟩

/-- An item can be added under a fresh identity to a live collection with room for it. -/
theorem addItem_commits {id itemId timestamp payloadJson : String} {given : Option String} {args : ItemArguments}
    {fields : ItemFields} {r : RecordRow} {payload : JsonObject}
    (named : validateIdentifier id "collection_id" = .ok ()) (legacy : isLegacyId id = true)
    (kind : requireItemKind args.itemKind = .ok fields.itemKind) (item : fields.itemKind ≠ "note")
    (referred : validateItemReference fields.itemKind args.reference = .ok fields.reference)
    (shown : validateSnapshot args.snapshot = .ok fields.snapshot)
    (cited : requireText args.citation "citation" maxCitationLength (decide (fields.itemKind ∉ referenceItemKinds)) =
      .ok fields.citation)
    (quoted : requireText args.excerpt "excerpt" maxExcerptLength false = .ok fields.excerpt)
    (chosen : chosenId ctx "itm" given "item_id" = .ok itemId) (itemLegacy : isLegacyId itemId = true)
    (live : db.record? collectionEntityType (stableId .collection id) = some r)
    (read : loadsObject r.payloadJson = some payload) (members : memberCountIn db id < maxItemsPerCollection)
    (fresh : db.entry (itemEntityType, stableId .evidenceItem itemId) = (none, none))
    (iso : isoFromMs ctx.nowMs = .ok timestamp)
    (dumped : canonicalPayload ctx.settings.forbidden (itemPayload itemId id fields ctx.nowMs) = .ok payloadJson)
    (can : CanRecord ctx 1 db (some id) "item_added" itemEntityType itemId) :
    ∃ db' record, addItem ctx id args given db = .ok (db', record) ∧
      Wrote ctx 1 db db' (itemEntityType, stableId .evidenceItem itemId)
        (some ⟨itemEntityType, stableId .evidenceItem itemId, 1, payloadJson, timestamp, timestamp⟩, none) := by
  obtain ⟨db₁, record, created, sets⟩ :=
    createRecord_commits iso (validateEntity_stableId (by decide) .evidenceItem itemId) dumped fresh
  obtain ⟨db', a, recorded, keyed, sets'⟩ := recordActivityIn_commits (can.same (createRecord_same created (by decide)))
  have type : itemEntityType ≠ activityEntityType := by decide
  refine ⟨db', record, ?_, ⟨type, db₁, a, sets, keyed, sets'⟩⟩
  simp only [addItem, Checked.bind_eq_ok]
  refine ⟨(), named, _, kind, _, referred, _, shown, _, cited, _, quoted, itemId, chosen, ?_⟩
  rw [if_neg item]
  simp only [Checked.bind_eq_ok, Checked.require_eq_ok, Checked.pure_eq_ok, Prod.exists, collectionEntityId_eq_ok,
    itemEntityId_eq_ok]
  exact ⟨_, ⟨legacy, rfl⟩, r, payload, oneIn_found live read, (), members, _, ⟨itemLegacy, rfl⟩, db₁, record, created, db',
    recorded, rfl⟩

/-- No row of the type, no member of it. -/
theorem childrenIn_empty {t c : String} (none_ : db.recordsOf t = []) : childrenIn db t c = [] := by
  rw [childrenIn_eq, none_]
  rfl

/-! ## A first collection -/

def sampleArguments : CollectionArguments where
  name := .str "n"
  description := .null
  tags := .null
  favorite := .bool false
  isPrivate := .bool true

def sampleFields : CollectionFields :=
  ⟨"n", "", [], false, true⟩

/-- Create the collection `c`. -/
def sampleCreation : Context × WorkspaceCall :=
  (callContext "a", .createCollection sampleArguments (some "c"))

/-- Whether `c` can be named. -/
theorem sample_named : validateIdentifier "c" "collection_id" = .ok () := by decide

theorem sample_legacy : isLegacyId "c" = true := by decide

theorem sampleCreation_commits : ∃ db payloadJson timestamp, workspaceStep Store.empty sampleCreation = db ∧
    isoFromMs sampleContext.nowMs = .ok timestamp ∧
    canonicalPayload [] (collectionPayload "c" sampleFields 0 0) = .ok payloadJson ∧
    Wrote (callContext "a") 1 Store.empty db (collectionEntityType, stableId .collection "c")
      (some ⟨collectionEntityType, stableId .collection "c", 1, payloadJson, timestamp, timestamp⟩, none) := by
  obtain ⟨payloadJson, text⟩ : ∃ payloadJson, canonicalPayload [] (collectionPayload "c" sampleFields 0 0) = .ok payloadJson :=
    Checked.exists_ok (by decide +kernel)
  obtain ⟨timestamp, iso⟩ : ∃ timestamp, isoFromMs sampleContext.nowMs = .ok timestamp := Checked.exists_ok (by decide +kernel)
  have valid : validateCollectionFields sampleArguments.name sampleArguments.description sampleArguments.tags
      sampleArguments.favorite sampleArguments.isPrivate = .ok sampleFields := by rfl
  have chosen : chosenId (callContext "a") "col" (some "c") "collection_id" = .ok "c" := by decide
  have can : CanRecord (callContext "a") 1 Store.empty (some "c") "collection_created" collectionEntityType "c" :=
    Recorded.empty.canRecord List.not_mem_nil (by decide) (by decide) (by decide +kernel)
  have room : liveCountIn Store.empty collectionEntityType < maxCollections := by decide
  obtain ⟨db, record, created, wrote⟩ := createCollection_commits valid chosen sample_legacy iso text rfl room can
  have body : sampleCreation.2.body sampleCreation.1 Store.empty = .ok db := storeOf_eq_ok.2 ⟨record, created⟩
  refine ⟨db, payloadJson, timestamp, ?_, iso, text, wrote⟩
  rw [workspaceStep, body]
  rfl

end Workspace
