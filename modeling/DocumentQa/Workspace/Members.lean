import DocumentQa.Python.Search
import DocumentQa.Workspace.Views

/-!
# Items and notes under one identifier

Items and notes share the identifiers of the members of a collection, and are stored under
different keys. `_item_in` searches the items first and `get_item` looks a key of the items up
first, so an identifier that both use means the item: `deletes_named_member` says when a
deletion or a lookup still finds the member that was named.
-/

namespace Workspace

open Python JsonText Transfer SqlTable

/-! ## Readers -/

structure CollectionItem where
  itemId : String
  collectionId : String
  itemKind : String
  citation : String
  excerpt : String
  /-- What `dict(...)` copies. -/
  reference : Option Json
  /-- The snapshot, when it is a mapping. -/
  snapshot : Option (List (String × Json))
  revision : Nat
  createdAt : String
  updatedAt : String
deriving DecidableEq

/-- `item_kind` of `_item_of`. -/
def memberKind (ctx : Context) (isNote : Bool) (data : List (String × Json)) : String :=
  if isNote then "note" else str ctx.isPrintable (orElse (Json.lookup "itemKind" data) (.str ""))

/-- `_item_of` with all it returns. -/
def collectionItemOf (ctx : Context) (itemId : String) (revision : Nat) (payload : JsonObject)
    (createdAt updatedAt : String) : Except PyError CollectionItem := do
  let data ← unwrapPayload payload "item record"
  let isNote := payload.holdsInt "workspace_collection_note" 1
  let reference := Json.lookup (if isNote then "evidenceRef" else "reference") data
  checkDict reference
  let text := fun key => str ctx.isPrintable (orElse (Json.lookup key data) (.str ""))
  pure {
    itemId := str ctx.isPrintable (orElse (Json.lookup "id" data) (.str itemId))
    collectionId := text "collectionId"
    itemKind := memberKind ctx isNote data
    citation := text "citation"
    excerpt := if isNote then str ctx.isPrintable ((Json.lookup "text" data).getD .null) else text "excerpt"
    reference
    snapshot := match Json.lookup "snapshot" data with
      | some (.obj fields) => some fields
      | _ => none
    revision, createdAt, updatedAt }

/-- The loop of `get_item` over the places a member can be stored at. -/
def getMember (ctx : Context) (db : Store) (itemId : String) : List (String × String) → Except PyError CollectionItem
  | [] => throw ⟨.collectionNotFound, "item does not exist"⟩
  | (entityType, storageId) :: rest =>
    match oneIn db entityType storageId "item" with
    | .ok (row, payload) => collectionItemOf ctx itemId row.revision payload row.createdAt row.updatedAt
    | .error e => if e.kind = .collectionNotFound then getMember ctx db itemId rest else .error e

/-- `get_item`. -/
def getItem (ctx : Context) (itemId : String) (db : Store) : Except PyError CollectionItem := do
  validateIdentifier itemId "item_id"
  let storageId ← itemEntityId itemId
  getMember ctx db itemId [(itemEntityType, storageId), (noteEntityType, itemId)]

/-- `delete_note`. -/
def deleteNote (ctx : Context) (collectionId noteId : String) (expectedRevision : Json) (db : Store) :
    Except PyError (Store × TombstoneRow) :=
  deleteItem ctx collectionId noteId expectedRevision db

/-! ## What a row is read as -/

section Reading

variable {ctx : Context} {allowed : BackupRecord → Prop}

theorem orElse_text' (isPrintable : Char → Bool) (s : String) :
    str isPrintable (orElse (some (.str s)) (.str "")) = s := by
  rw [orElse]
  split
  · rfl
  · next empty =>
    have none_ : s = "" := by simpa [truthy] using empty
    rw [none_]
    rfl

/-- Reading a member for a write reads part of what showing it does. -/
theorem itemOf_eq_ok {entityId : String} {payload : JsonObject} {item : StoredItem} :
    itemOf ctx entityId payload = .ok item ↔ ∃ data, unwrapPayload payload "record" = .ok data ∧
      checkDict (Json.lookup (if payload.holdsInt "workspace_collection_note" 1 then "evidenceRef" else "reference") data) =
        .ok () ∧
      item = ⟨str ctx.isPrintable (orElse (Json.lookup "id" data) (.str entityId)),
        str ctx.isPrintable (orElse (Json.lookup "collectionId" data) (.str "")),
        memberKind ctx (payload.holdsInt "workspace_collection_note" 1) data = "note"⟩ := by
  simp only [itemOf, Checked.bind_eq_ok, Checked.pure_eq_ok]
  constructor
  · rintro ⟨data, unwrapped, _, readable, rfl⟩
    exact ⟨data, unwrapPayload_eq_ok.2 (unwrapPayload_eq_ok.1 unwrapped), readable, rfl⟩
  · rintro ⟨data, unwrapped, readable, rfl⟩
    exact ⟨data, unwrapPayload_eq_ok.2 (unwrapPayload_eq_ok.1 unwrapped), (), readable, rfl⟩

/-- What `dataOf` reads is what the readers unwrap. -/
theorem dataOf_unwrapped {r : RecordRow} {payload : JsonObject} {data : List (String × Json)}
    (loaded : loadsObject r.payloadJson = some payload) :
    dataOf r = some data ↔ unwrapPayload payload "record" = .ok data := by
  rw [dataOf_eq_some]
  constructor
  · rintro ⟨payload', loaded', unwrapped⟩
    rw [loaded] at loaded'
    cases loaded'
    exact unwrapped
  · exact fun unwrapped => ⟨payload, loaded, unwrapped⟩

/-- The item row calls itself a note. -/
def ReadsAsNote (ctx : Context) (r : RecordRow) : Prop :=
  ∃ data, dataOf r = some data ∧ memberKind ctx false data = "note"

/-- `dict(...)` takes the reference of the item row. -/
def Readable (r : RecordRow) : Prop :=
  ∃ data, dataOf r = some data ∧ checkDict (Json.lookup "reference" data) = .ok ()

/-- **An item row** is read as the item of its identifier, unless its reference is no mapping. -/
theorem Written.reads_item {r : RecordRow} {payload : JsonObject} (written : Written allowed r)
    (type : r.entityType = itemEntityType) (loaded : loadsObject r.payloadJson = some payload) :
    ∃ id data, identifierOf r = some id ∧ dataOf r = some data ∧ ∀ fallback,
      itemOf ctx fallback payload = (checkDict (Json.lookup "reference" data)).map fun _ =>
        ⟨id, str ctx.isPrintable (orElse (Json.lookup "collectionId" data) (.str "")), memberKind ctx false data = "note"⟩ := by
  obtain ⟨id, c, -, carries, legacy, -, -, unmarked, -⟩ := written.item_row type
  have plain : payload.holdsInt "workspace_collection_note" 1 = false := by
    rw [isNoteRow, loaded] at unmarked
    exact unmarked
  have both := carries
  rw [identifierOf, Option.bind_eq_some_iff] at both
  obtain ⟨data, read, named⟩ := both
  refine ⟨id, data, carries, read, fun fallback => ?_⟩
  have unwrapped := (dataOf_unwrapped loaded).1 read
  rw [textAt_eq_some] at named
  rw [unwrapPayload_eq_ok, ← @unwrapPayload_eq_ok _ "item record"] at unwrapped
  have shown : str ctx.isPrintable (orElse (Json.lookup "id" data) (.str fallback)) = id :=
    orElse_text named (isLegacyId_nonempty legacy)
  rw [itemOf, unwrapped]
  simp only [Except.bind, bind, plain, Bool.false_eq_true, if_false, shown, memberKind]
  cases checkDict (Json.lookup "reference" data) with
  | error e => rfl
  | ok u => rfl

/-- The object a note refers to is a mapping when it is read back. -/
theorem checkDict_reading {g : Json → Json} (reading : Reading g) (evidenceRef : Option JsonObject) :
    checkDict ((evidenceRef.map JsonObject.json).map g) = .ok () := by
  cases evidenceRef with
  | none => rfl
  | some o =>
    obtain ⟨fields, e, -⟩ := reading.obj o.fields
    have text : g o.json = .obj fields := e
    rw [Option.map_some, Option.map_some, text, checkDict, orElse]
    cases truthy (.obj fields) with
    | true => rfl
    | false => rfl

/-- **A note row** is read as the note of its key. -/
theorem Written.reads_note {r : RecordRow} {payload : JsonObject} (written : Written allowed r)
    (type : r.entityType = noteEntityType) (loaded : loadsObject r.payloadJson = some payload) :
    ∃ c data, collectionNamed r = some c ∧ unwrapPayload payload "record" = .ok data ∧
      payload.holdsInt "workspace_collection_note" 1 = true ∧ checkDict (Json.lookup "evidenceRef" data) = .ok () ∧
      ∀ fallback, itemOf ctx fallback payload = .ok ⟨r.entityId, c, true⟩ := by
  obtain ⟨carries, opaque_, marked, c, named⟩ := written.note_row type
  have marked' : payload.holdsInt "workspace_collection_note" 1 = true := by
    rw [isNoteRow, loaded] at marked
    exact marked
  obtain ⟨-, _, _, ref, _, _, holds⟩ := written.note_holds type
  obtain ⟨g, data, reading, read, under⟩ := holds.data (.inr rfl) rfl
  have field : Json.lookup "evidenceRef" data = (ref.map JsonObject.json).map g := by
    rw [under]
    cases ref with
    | none => rfl
    | some o => rfl
  have reference : checkDict (Json.lookup "evidenceRef" data) = .ok () := by
    rw [field]
    exact checkDict_reading reading ref
  have id := carries
  rw [identifierOf, read, Option.bind_some, textAt_eq_some] at id
  have own := named
  rw [collectionNamed, read, Option.bind_some, textAt_eq_some] at own
  have nonempty : r.entityId ≠ "" := by
    intro empty
    rw [empty] at opaque_
    revert opaque_
    decide
  refine ⟨c, data, named, (dataOf_unwrapped loaded).1 read, marked', reference, fun fallback => ?_⟩
  rw [itemOf_eq_ok]
  refine ⟨data, (dataOf_unwrapped loaded).1 read, ?_, ?_⟩
  · rw [marked', if_pos rfl]
    exact reference
  · rw [orElse_text id nonempty, own, orElse_text', marked']
    rfl

theorem checkPair_error {j : Json} {e : PyError} (h : checkPair j = .error e) : e.kind ∉ collectionErrors := by
  have either : e.kind = .typeError ∨ e.kind = .valueError := by
    unfold checkPair at h
    split at h
    · split at h
      all_goals first | cases h; exact .inl rfl | cases h
    · cases h
      exact .inr rfl
    · obtain ⟨-, rfl⟩ := Checked.require_eq_error.1 h
      exact .inr rfl
    · obtain ⟨-, rfl⟩ := Checked.require_eq_error.1 h
      exact .inr rfl
    · cases h
      exact .inl rfl
  rcases either with kind | kind <;> rw [kind] <;> decide

/-- The errors of a reference that is no mapping are none of the collections'. -/
theorem checkDict_error {value : Option Json} {e : PyError} (h : checkDict value = .error e) : e.kind ∉ collectionErrors := by
  unfold checkDict at h
  split at h
  · cases h
  · obtain ⟨_, -, raised⟩ := Checked.each_eq_error h
    exact checkPair_error raised
  · obtain ⟨_, -, raised⟩ := Checked.each_eq_error h
    exact checkPair_error raised
  · cases h
    show ErrorKind.typeError ∉ collectionErrors
    decide

/-! ## The search -/

/-- A row whose payload is an object is scanned. -/
theorem scanIn_mem {db : Store} {t : String} {r : RecordRow} {payload : JsonObject} (mem : r ∈ db.recordsOf t)
    (loaded : loadsObject r.payloadJson = some payload) : (r, payload) ∈ scanIn db t := by
  rw [scanIn, List.mem_filterMap]
  exact ⟨r, mem, by rw [loaded, Option.map_some]⟩

theorem findItem_some {id : String} {rows : List (RecordRow × JsonObject)} {item : StoredItem}
    (h : findItem ctx id rows = .ok (some item)) :
    item.itemId = id ∧ ∃ row ∈ rows, itemOf ctx row.1.entityId row.2 = .ok item := by
  induction rows with
  | nil =>
    rw [findItem, Checked.pure_eq_ok] at h
    cases h
  | cons row rows ih =>
    rw [findItem] at h
    split at h
    · next found read =>
      split at h
      · next same =>
        rw [Checked.pure_eq_ok, Option.some.injEq] at h
        subst h
        exact ⟨same, row, List.mem_cons_self, read⟩
      · obtain ⟨same, r, mem, read⟩ := ih h
        exact ⟨same, r, List.mem_cons_of_mem _ mem, read⟩
    · split at h
      · obtain ⟨same, r, mem, read⟩ := ih h
        exact ⟨same, r, List.mem_cons_of_mem _ mem, read⟩
      · cases h

theorem findItem_none {id : String} {rows : List (RecordRow × JsonObject)} (h : findItem ctx id rows = .ok none) :
    ∀ row ∈ rows, (∃ item, itemOf ctx row.1.entityId row.2 = .ok item ∧ item.itemId ≠ id) ∨
      ∃ e, itemOf ctx row.1.entityId row.2 = .error e ∧ e.kind ∈ collectionErrors := by
  induction rows with
  | nil => exact fun row mem => absurd mem List.not_mem_nil
  | cons row rows ih =>
    rw [findItem] at h
    intro row' mem
    split at h
    · next found read =>
      split at h
      · cases h
      · next other =>
        rcases List.mem_cons.1 mem with rfl | mem
        · exact .inl ⟨found, read, other⟩
        · exact ih h row' mem
    · next e raised =>
      split at h
      · next passed =>
        rcases List.mem_cons.1 mem with rfl | mem
        · exact .inr ⟨e, raised, passed⟩
        · exact ih h row' mem
      · cases h

end Reading

/-! ## Members of a store -/

/-- The item is live and carries the identifier. -/
def ItemRow (db : Store) (id : String) (r : RecordRow) : Prop :=
  r ∈ db.recordsOf itemEntityType ∧ identifierOf r = some id

/-- The note is live and names the collection. -/
def NoteOf (db : Store) (c id : String) : Prop :=
  ∃ r, (db.entry (noteEntityType, id)).1 = some r ∧ collectionNamed r = some c

section Members

variable {ctx : Context} {allowed : BackupRecord → Prop} {db db' : Store}

/-- An item is stored under its identifier. -/
theorem ItemRow.key (rows : Rows allowed db) {id : String} {r : RecordRow} (h : ItemRow db id r) :
    (db.entry (itemEntityType, stableId .evidenceItem id)).1 = some r := by
  obtain ⟨mem, type⟩ := Store.mem_recordsOf.1 h.1
  obtain ⟨id', c, key, carries, -⟩ := (rows r mem).item_row type
  rw [h.2, Option.some.injEq] at carries
  subst carries
  have at_ : r.key = (itemEntityType, stableId .evidenceItem id) := Prod.ext type key
  rw [← at_]
  exact mem_rows_iff.1 mem

theorem ItemRow.unique (rows : Rows allowed db) {id : String} {r r' : RecordRow} (h : ItemRow db id r)
    (h' : ItemRow db id r') : r = r' := by
  have found := h.key rows
  rw [h'.key rows] at found
  exact (Option.some.inj found).symm

/-- **`_item_in`** finds the item of the identifier, and without one the note of it. -/
theorem itemIn_eq_ok (rows : Rows allowed db) {id : String} {item : StoredItem} (h : itemIn ctx db id = .ok item) :
    (∃ r, ItemRow db id r ∧ (item.isNote = true ↔ ReadsAsNote ctx r)) ∨
      (∀ r, ¬ItemRow db id r) ∧ item.isNote = true ∧ NoteOf db item.collectionId id := by
  simp only [itemIn, Checked.bind_eq_ok] at h
  obtain ⟨found, search, h⟩ := h
  cases found with
  | some found =>
    rw [Checked.pure_eq_ok] at h
    subst h
    left
    obtain ⟨same, row, mem, read⟩ := findItem_some search
    obtain ⟨here, type, loaded⟩ := mem_scanIn mem
    obtain ⟨id', data, carries, readData, whole⟩ := (rows row.1 here).reads_item type loaded
    rw [whole] at read
    obtain ⟨_, -, made⟩ := Checked.map_eq_ok.1 read
    subst made
    refine ⟨row.1, ⟨Store.mem_recordsOf.2 ⟨here, type⟩, carries.trans (congrArg some same)⟩, ?_⟩
    rw [decide_eq_true_eq]
    constructor
    · exact fun kind => ⟨data, readData, kind⟩
    · rintro ⟨data', readData', kind⟩
      rw [readData] at readData'
      cases readData'
      exact kind
  | none =>
    have absent : ∀ r, ¬ItemRow db id r := by
      rintro r ⟨mem, carries⟩
      obtain ⟨here, type⟩ := Store.mem_recordsOf.1 mem
      have both := carries
      rw [identifierOf, Option.bind_eq_some_iff] at both
      obtain ⟨_, read, -⟩ := both
      obtain ⟨payload, loaded, -⟩ := dataOf_eq_some.1 read
      obtain ⟨id', data, carries', -, whole⟩ := (rows r here).reads_item type loaded
      rcases findItem_none search (r, payload) (scanIn_mem mem loaded) with ⟨item, read', other⟩ | ⟨e, raised, passed⟩
      · rw [whole] at read'
        obtain ⟨_, -, made⟩ := Checked.map_eq_ok.1 read'
        subst made
        rw [carries, Option.some.injEq] at carries'
        exact other carries'.symm
      · rw [whole] at raised
        cases checked : checkDict (Json.lookup "reference" data) with
        | ok u =>
          rw [checked] at raised
          cases raised
        | error e' =>
          rw [checked] at raised
          cases raised
          exact checkDict_error checked passed
    rw [Checked.bind_eq_ok] at h
    obtain ⟨found, notes, h⟩ := h
    cases found with
    | none =>
      simp only [Checked.bind_eq_ok] at h
      obtain ⟨_, -, h⟩ := h
      split at h <;> simp at h
    | some note =>
      rw [Checked.pure_eq_ok] at h
      subst h
      obtain ⟨same, row, mem, read⟩ := findItem_some notes
      obtain ⟨here, type, loaded⟩ := mem_scanIn mem
      obtain ⟨c, data, names, -, -, -, whole⟩ := (rows row.1 here).reads_note type loaded
      rw [whole] at read
      cases read
      refine .inr ⟨absent, rfl, row.1, ?_, names⟩
      have at_ : row.1.key = (noteEntityType, id) := Prod.ext type same
      rw [← at_]
      exact mem_rows_iff.1 here

/-- The identity is live, is buried, and nothing else of the workspace moves. -/
structure BuriesOnly (db db' : Store) (k : Key) : Prop where
  live : (db.entry k).1.isSome = true
  dead : (db'.entry k).1 = none ∧ (db'.entry k).2.isSome = true
  rest : ∀ k' ≠ k, k'.1 ≠ activityEntityType → db'.entry k' = db.entry k'

theorem item_ne_activity : itemEntityType ≠ activityEntityType := by decide

theorem note_ne_activity : noteEntityType ≠ activityEntityType := by decide

/-- One member is buried alone. -/
theorem BuriesOnly.unique {k k' : Key} (h : BuriesOnly db db' k) (h' : BuriesOnly db db' k')
    (type : k'.1 ≠ activityEntityType) : k' = k := by
  by_contra other
  have live := h'.live
  rw [← h.rest k' other type, h'.dead.1] at live
  cases live

/-- **`delete_item`** buries the member it finds, which is in the collection. -/
theorem deleteItem_buries {c id : String} {expectedRevision : Json} {tombstone : TombstoneRow}
    (h : deleteItem ctx c id expectedRevision db = .ok (db', tombstone)) :
    ∃ item, itemIn ctx db id = .ok item ∧ item.collectionId = c ∧
      BuriesOnly db db' (if item.isNote then (noteEntityType, id) else (itemEntityType, stableId .evidenceItem id)) := by
  simp only [deleteItem, Checked.bind_eq_ok, Checked.require_eq_ok, Checked.pure_eq_ok, Prod.exists, Prod.mk.injEq] at h
  obtain ⟨_, -, _, -, expected, -, item, found, _, belongs, storageId, stored, db₁, _, deleted, db₂, recorded, rfl, rfl⟩ := h
  refine ⟨item, found, belongs, ?_⟩
  have place : (if item.isNote then noteEntityType else itemEntityType, storageId) =
      if item.isNote then (noteEntityType, id) else (itemEntityType, stableId .evidenceItem id) := by
    unfold memberStorageId at stored
    split at stored
    · next note =>
      rw [Checked.pure_eq_ok] at stored
      rw [if_pos note, if_pos note, stored]
    · next other =>
      obtain ⟨-, e⟩ := itemEntityId_eq_ok.1 stored
      rw [if_neg other, if_neg other, e]
  obtain ⟨r, _, -, live, -, -, sets⟩ := deleteRecord_eq_ok deleted
  rw [place] at live sets
  have type : (if item.isNote then (noteEntityType, id) else (itemEntityType, stableId .evidenceItem id)).1 ≠
      activityEntityType := by
    split
    · exact note_ne_activity
    · exact item_ne_activity
  have after : ∀ k : Key, k.1 ≠ activityEntityType → db₂.entry k = db₁.entry k := by
    intro k other
    exact recordActivityIn_same recorded other k.2
  refine ⟨?_, ?_, ?_⟩
  · rw [live]
    rfl
  · rw [after _ type, sets.entry_same]
    exact ⟨rfl, rfl⟩
  · intro k other kept
    rw [after k kept, sets.entry_other other]

/-- An opaque identifier passes the other checks of identifiers. -/
theorem opaque_identifier {id : String} (label : String) (h : opaqueId.fullmatch id = true) :
    validateIdentifier id label = .ok () ∧ isLegacyId id = true := by
  obtain ⟨c, cs, chars, first, rest, few⟩ : ∃ c cs, id.toList = c :: cs ∧ isAlnum c = true ∧
      cs.all opaqueId.rest = true ∧ cs.length < 128 := by
    rw [NamePattern.fullmatch] at h
    split at h
    · cases h
    · next c cs chars =>
      rw [Bool.and_eq_true, Bool.and_eq_true] at h
      exact ⟨c, cs, chars, h.1.1, h.1.2, of_decide_eq_true h.2⟩
  have plain : ∀ d ∈ c :: cs, d ≠ '.' ∧ d ≠ ':' := by
    have alnum : ∀ d, isAlnum d = true → d ≠ '.' ∧ d ≠ ':' := by
      intro d digit
      constructor
      · rintro rfl
        exact absurd digit (by decide)
      · rintro rfl
        exact absurd digit (by decide)
    intro d mem
    rcases List.mem_cons.1 mem with rfl | mem
    · exact alnum _ first
    · have one := List.all_eq_true.1 rest d mem
      simp only [opaqueId, Bool.or_eq_true, decide_eq_true_eq] at one
      rcases one with (digit | rfl) | rfl
      · exact alnum d digit
      · decide
      · decide
  have rest' : cs.all identifier.rest = true := by
    rw [List.all_eq_true] at rest ⊢
    intro d mem
    have one := rest d mem
    simp only [opaqueId, identifier, Bool.or_eq_true, decide_eq_true_eq] at one ⊢
    tauto
  have dots : isInfix ['.', '.'] id.toList = false := by
    rw [Bool.eq_false_iff, Ne, isInfix_iff, chars]
    intro inside
    exact (plain '.' (inside.subset List.mem_cons_self)).1 rfl
  have drive : startsWithDrive id = false := by
    rw [startsWithDrive, chars]
    split
    · next d ds e =>
      rw [e] at plain
      exact absurd rfl (plain ':' (List.mem_cons_of_mem _ List.mem_cons_self)).2
    · rfl
  constructor
  · simp only [validateIdentifier, Checked.bind_eq_ok, Checked.require_eq_ok]
    refine ⟨(), ?_, dots⟩
    rw [NamePattern.fullmatch, chars]
    show (isAlnum c && cs.all identifier.rest && decide (cs.length < 128)) = true
    rw [first, rest', decide_eq_true few]
    rfl
  · rw [isLegacyId, dots, drive, NamePattern.fullmatch, chars]
    show ((isAlnum c && cs.all identifier.rest && decide (cs.length < 256)) && !false && !false) = true
    rw [first, rest', decide_eq_true (few.trans (by decide))]
    rfl

/-- The member is live and carries the identifier. -/
def MemberRow (db : Store) (id : String) (r : RecordRow) : Prop :=
  ItemRow db id r ∨ (db.entry (noteEntityType, id)).1 = some r

/-- The row is what is shown. -/
structure Shows (r : RecordRow) (item : CollectionItem) : Prop where
  identifier : identifierOf r = some item.itemId
  collection : ∀ c, collectionNamed r = some c → item.collectionId = c
  revision : item.revision = r.revision
  times : item.createdAt = r.createdAt ∧ item.updatedAt = r.updatedAt

/-- Showing a member reads it, and tells the row's revision and times. -/
theorem collectionItemOf_eq_ok {fallback : String} {revision : Nat} {payload : JsonObject} {createdAt updatedAt : String}
    {item : CollectionItem} (h : collectionItemOf ctx fallback revision payload createdAt updatedAt = .ok item) :
    itemOf ctx fallback payload = .ok ⟨item.itemId, item.collectionId, item.itemKind = "note"⟩ ∧
      item.revision = revision ∧ item.createdAt = createdAt ∧ item.updatedAt = updatedAt := by
  simp only [collectionItemOf, Checked.bind_eq_ok, Checked.pure_eq_ok] at h
  obtain ⟨data, unwrapped, _, readable, rfl⟩ := h
  rw [itemOf_eq_ok]
  exact ⟨⟨data, unwrapPayload_eq_ok.2 (unwrapPayload_eq_ok.1 unwrapped), readable, rfl⟩, rfl, rfl, rfl⟩

/-- What can be read can be shown. -/
theorem collectionItemOf_commits {fallback : String} {revision : Nat} {payload : JsonObject} {createdAt updatedAt : String}
    {stored : StoredItem} (h : itemOf ctx fallback payload = .ok stored) :
    ∃ item, collectionItemOf ctx fallback revision payload createdAt updatedAt = .ok item := by
  simp only [itemOf, Checked.bind_eq_ok, Checked.pure_eq_ok] at h
  obtain ⟨data, unwrapped, _, readable, -⟩ := h
  simp only [collectionItemOf, Checked.bind_eq_ok, Checked.pure_eq_ok]
  exact ⟨_, data, unwrapped, (), readable, rfl⟩

theorem oneIn_absent {t i label : String} (h : db.entry (t, i) = (none, none)) :
    oneIn db t i label = .error ⟨.collectionNotFound, label ++ " does not exist"⟩ := by
  obtain ⟨absent, unburied⟩ := Prod.mk.inj h
  rw [oneIn, absent]
  dsimp only
  rw [unburied]
  rfl

/-- Where `_one_in` finds nothing, there is nothing, or no mapping. -/
theorem oneIn_notFound {t i label : String} {e : PyError} (h : oneIn db t i label = .error e)
    (kind : e.kind = .collectionNotFound) :
    db.entry (t, i) = (none, none) ∨ ∃ r, db.record? t i = some r ∧ loadsObject r.payloadJson = none := by
  unfold oneIn at h
  split at h
  · next r found =>
    right
    refine ⟨r, found, ?_⟩
    cases loaded : loadsObject r.payloadJson with
    | none => rfl
    | some payload =>
      have text : loads r.payloadJson = some payload.json := loadsObject_eq_some.1 loaded
      rw [text, loaded] at h
      cases h
  · next absent =>
    left
    split at h
    · cases h
      cases kind
    · next unburied =>
      refine Prod.ext absent ?_
      rw [Bool.not_eq_true, Option.isSome_eq_false_iff, Option.isNone_iff_eq_none] at unburied
      exact unburied

/-- A row of an item reads back. -/
theorem Written.loads_item {r : RecordRow} (written : Written allowed r) (type : r.entityType = itemEntityType) :
    ∃ payload, loadsObject r.payloadJson = some payload := by
  obtain ⟨id, c, -, carries, -⟩ := written.item_row type
  rw [identifierOf, Option.bind_eq_some_iff] at carries
  obtain ⟨_, read, -⟩ := carries
  obtain ⟨payload, loaded, -⟩ := dataOf_eq_some.1 read
  exact ⟨payload, loaded⟩

theorem Written.loads_note {r : RecordRow} (written : Written allowed r) (type : r.entityType = noteEntityType) :
    ∃ payload, loadsObject r.payloadJson = some payload := by
  obtain ⟨-, _, _, _, _, _, holds⟩ := written.note_holds type
  obtain ⟨_, payload, -, loaded, -⟩ := holds
  exact ⟨payload, loaded⟩

/-- What a member row is shown as carries the row's identifier and collection. -/
theorem shows_of_stored {r : RecordRow} {stored : StoredItem} {item : CollectionItem} {fallback : String}
    {payload : JsonObject} (read : itemOf ctx fallback payload = .ok stored) (carries : identifierOf r = some stored.itemId)
    (names : ∀ c, collectionNamed r = some c → stored.collectionId = c)
    (h : collectionItemOf ctx fallback r.revision payload r.createdAt r.updatedAt = .ok item) : Shows r item := by
  obtain ⟨read', revision, created, updated⟩ := collectionItemOf_eq_ok h
  rw [read] at read'
  cases read'
  exact ⟨carries, names, revision, created, updated⟩

/-- **An item row is shown** exactly when its reference is a mapping. -/
theorem itemRow_shown (rows : Rows allowed db) {r : RecordRow} (mem : r ∈ db.recordsOf itemEntityType)
    {payload : JsonObject} (loaded : loadsObject r.payloadJson = some payload) (fallback : String) :
    (∀ item, collectionItemOf ctx fallback r.revision payload r.createdAt r.updatedAt = .ok item →
      Readable r ∧ Shows r item) ∧
    (Readable r → ∃ item, collectionItemOf ctx fallback r.revision payload r.createdAt r.updatedAt = .ok item) := by
  obtain ⟨here, type⟩ := Store.mem_recordsOf.1 mem
  obtain ⟨id, data, carries, read, whole⟩ := (rows r here).reads_item type loaded
  have names : ∀ c, collectionNamed r = some c →
      str ctx.isPrintable (orElse (Json.lookup "collectionId" data) (.str "")) = c := by
    intro c named
    rw [collectionNamed, read, Option.bind_some, textAt_eq_some] at named
    rw [named, orElse_text']
  constructor
  · intro item shown
    have stored := (collectionItemOf_eq_ok shown).1
    rw [whole] at stored
    obtain ⟨_, readable, -⟩ := Checked.map_eq_ok.1 stored
    refine ⟨⟨data, read, readable⟩, ?_⟩
    have done := whole fallback
    rw [readable] at done
    exact shows_of_stored done carries names shown
  · rintro ⟨data', read', readable⟩
    rw [read] at read'
    cases read'
    have done := whole fallback
    rw [readable] at done
    exact collectionItemOf_commits done

/-- **`get_item`** shows a live member of the identifier exactly when the identifier passes its check
and the member is an item that can be shown, or a note whose identifier was never an item's. -/
theorem getItem_iff (rows : Rows allowed db) {id : String} (live : ∃ r, MemberRow db id r) :
    (∃ item r, getItem ctx id db = .ok item ∧ MemberRow db id r ∧ Shows r item) ↔
      validateIdentifier id "item_id" = .ok () ∧
        ((∃ r, ItemRow db id r ∧ Readable r) ∨
          (∀ r, ¬ItemRow db id r) ∧ db.entry (itemEntityType, stableId .evidenceItem id) = (none, none)) := by
  have named : ∀ r, MemberRow db id r → identifierOf r = some id := by
    rintro r (item | note)
    · exact item.2
    · obtain ⟨here, type, key⟩ := Store.mem_of_record? note
      rw [((rows r here).note_row type).1, key]
  constructor
  · rintro ⟨item, r, got, member, shows_⟩
    simp only [getItem, Checked.bind_eq_ok, itemEntityId_eq_ok] at got
    obtain ⟨_, valid, _, ⟨-, rfl⟩, got⟩ := got
    refine ⟨valid, ?_⟩
    rw [getMember] at got
    split at got
    · next row payload one =>
      obtain ⟨found, loaded⟩ := oneIn_eq_ok one
      obtain ⟨here, type, -⟩ := Store.mem_of_record? found
      have mem : row ∈ db.recordsOf itemEntityType := Store.mem_recordsOf.2 ⟨here, type⟩
      obtain ⟨readable, shows'⟩ := (itemRow_shown rows mem loaded id).1 item got
      have same : item.itemId = id := Option.some.inj (shows_.identifier.symm.trans (named r member))
      exact .inl ⟨row, ⟨mem, shows'.identifier.trans (congrArg some same)⟩, readable⟩
    · next e raised =>
      split at got
      · next kind =>
        right
        rcases oneIn_notFound raised kind with absent | ⟨row, found, unread⟩
        · refine ⟨fun r' item' => ?_, absent⟩
          have found := item'.key rows
          rw [absent] at found
          cases found
        · obtain ⟨here, type, -⟩ := Store.mem_of_record? found
          obtain ⟨payload, loaded⟩ := (rows row here).loads_item type
          rw [unread] at loaded
          cases loaded
      · cases got
  · rintro ⟨valid, ⟨r, item', readable⟩ | ⟨none_, absent⟩⟩
    · obtain ⟨here, type⟩ := Store.mem_recordsOf.1 item'.1
      obtain ⟨payload, loaded⟩ := (rows r here).loads_item type
      obtain ⟨item, shown⟩ := (itemRow_shown rows item'.1 loaded id).2 readable
      obtain ⟨-, shows_⟩ := (itemRow_shown rows item'.1 loaded id).1 item shown
      obtain ⟨id', _, -, carries, legacy, -⟩ := (rows r here).item_row type
      rw [item'.2, Option.some.injEq] at carries
      subst carries
      refine ⟨item, r, ?_, .inl item', shows_⟩
      simp only [getItem, Checked.bind_eq_ok, itemEntityId_eq_ok]
      refine ⟨(), valid, _, ⟨legacy, rfl⟩, ?_⟩
      rw [getMember, oneIn_found (item'.key rows) loaded]
      exact shown
    · obtain ⟨r, item' | note⟩ := live
      · exact absurd item' (none_ r)
      · obtain ⟨here, type, key⟩ := Store.mem_of_record? note
        obtain ⟨payload, loaded⟩ := (rows r here).loads_note type
        obtain ⟨c, data, names, -, -, -, whole⟩ := (rows r here).reads_note type loaded
        have stored : itemOf ctx id payload = .ok ⟨r.entityId, c, true⟩ := whole id
        obtain ⟨item, shown⟩ := collectionItemOf_commits stored
        have carries := named r (.inr note)
        have shows_ : Shows r item := by
          have own : ∀ c', collectionNamed r = some c' → c = c' := by
            intro c' names'
            exact Option.some.inj (names.symm.trans names')
          exact shows_of_stored stored ((rows r here).note_row type).1 own shown
        have legacy : isLegacyId id = true := by
          have same : r.entityId = id := key
          rw [← same]
          exact (opaque_identifier "item_id" ((rows r here).note_row type).2.1).2
        refine ⟨item, r, ?_, .inr note, shows_⟩
        simp only [getItem, Checked.bind_eq_ok, itemEntityId_eq_ok]
        refine ⟨(), valid, _, ⟨legacy, rfl⟩, ?_⟩
        rw [getMember, oneIn_absent absent]
        show getMember ctx db id [(noteEntityType, id)] = .ok item
        rw [getMember, oneIn_found note loaded]
        exact shown

/-- **`delete_note`** buries the note of the collection alone exactly when every item of that identifier
calls itself a note, and the note is in the collection. -/
theorem deleteNote_iff (rows : Rows allowed db) {c id : String} {expectedRevision : Json} {tombstone : TombstoneRow}
    (h : deleteNote ctx c id expectedRevision db = .ok (db', tombstone)) :
    NoteOf db c id ∧ BuriesOnly db db' (noteEntityType, id) ↔ ∀ r, ItemRow db id r → ReadsAsNote ctx r ∧ NoteOf db c id := by
  obtain ⟨item, found, rfl, buries⟩ := deleteItem_buries h
  rcases itemIn_eq_ok rows found with ⟨r, item', kind⟩ | ⟨none_, note, own⟩
  · constructor
    · rintro ⟨own, alone⟩ r' item''
      obtain rfl := item'.unique rows item''
      refine ⟨kind.1 ?_, own⟩
      by_contra other
      rw [if_neg other] at buries
      have same : noteEntityType = itemEntityType := congrArg Prod.fst (buries.unique alone note_ne_activity)
      exact absurd same (by decide)
    · intro all
      obtain ⟨note, own⟩ := all r item'
      rw [if_pos (kind.2 note)] at buries
      exact ⟨own, buries⟩
  · rw [if_pos note] at buries
    exact ⟨fun _ r item' => absurd item' (none_ r), fun _ => ⟨own, buries⟩⟩

/-- **`delete_item`** of an item's identifier buries the item alone exactly when the item does not call itself a note. -/
theorem deleteItem_iff (rows : Rows allowed db) {c id : String} {expectedRevision : Json} {tombstone : TombstoneRow}
    (h : deleteItem ctx c id expectedRevision db = .ok (db', tombstone)) {r : RecordRow} (named : ItemRow db id r) :
    BuriesOnly db db' (itemEntityType, stableId .evidenceItem id) ↔ ¬ReadsAsNote ctx r := by
  obtain ⟨item, found, -, buries⟩ := deleteItem_buries h
  rcases itemIn_eq_ok rows found with ⟨r', item', kind⟩ | ⟨none_, -⟩
  · obtain rfl := named.unique rows item'
    constructor
    · intro alone note
      rw [if_pos (kind.2 note)] at buries
      have same : itemEntityType = noteEntityType := congrArg Prod.fst (buries.unique alone item_ne_activity)
      exact absurd same (by decide)
    · intro other
      rw [if_neg fun note => other (kind.1 note)] at buries
      exact buries
  · exact absurd named (none_ r)

end Members

/-- **Which member is meant.** In every state the workspace reaches: a successful `delete_note` buries the
note it names and nothing else exactly when every item of that identifier calls itself a note; a successful
`delete_item` of an item buries it and nothing else exactly when the item does not call itself a note; and
`get_item` shows a live member exactly when its identifier passes the check and it is an item that can be
shown or a note whose identifier was never an item's. -/
theorem deletes_named_member {db : Store} (reached : Runs.Reaches workspaceStep Store.empty db) (ctx : Context) :
    (∀ c id expectedRevision db' tombstone, deleteNote ctx c id expectedRevision db = .ok (db', tombstone) →
      (NoteOf db c id ∧ BuriesOnly db db' (noteEntityType, id) ↔ ∀ r, ItemRow db id r → ReadsAsNote ctx r ∧ NoteOf db c id)) ∧
    (∀ c id expectedRevision db' tombstone, deleteItem ctx c id expectedRevision db = .ok (db', tombstone) →
      ∀ r, ItemRow db id r → (BuriesOnly db db' (itemEntityType, stableId .evidenceItem id) ↔ ¬ReadsAsNote ctx r)) ∧
    ∀ id, (∃ r, MemberRow db id r) →
      ((∃ item r, getItem ctx id db = .ok item ∧ MemberRow db id r ∧ Shows r item) ↔
        validateIdentifier id "item_id" = .ok () ∧
          ((∃ r, ItemRow db id r ∧ Readable r) ∨
            (∀ r, ¬ItemRow db id r) ∧ db.entry (itemEntityType, stableId .evidenceItem id) = (none, none))) := by
  obtain ⟨inputs, ran⟩ := reached
  have rows : Rows (fun _ => True) db := ran ▸ run_rows fun _ _ _ _ _ _ _ _ _ _ => trivial
  refine ⟨?_, ?_, ?_⟩
  · intro c id expectedRevision db' tombstone deleted
    exact deleteNote_iff rows deleted
  · intro c id expectedRevision db' tombstone deleted r named
    exact deleteItem_iff rows deleted named
  · intro id live
    exact getItem_iff rows live

/-! ## An item and a note of one identifier -/

/-- A member that was found can be deleted at its revision. -/
theorem deleteItem_commits {ctx : Context} {db : Store} {c id timestamp : String} {item : StoredItem} {r : RecordRow}
    (collection : validateIdentifier c "collection_id" = .ok ()) (member : validateIdentifier id "item_id" = .ok ())
    (legacy : isLegacyId id = true) (found : itemIn ctx db id = .ok item) (belongs : item.collectionId = c)
    (own : item.isNote = false) (live : db.entry (itemEntityType, stableId .evidenceItem id) = (some r, none))
    (positive : 1 ≤ r.revision) (bound : isSqliteInteger ((r.revision + 1 : Nat) : Int) = true)
    (iso : isoFromMs ctx.nowMs = .ok timestamp) (can : CanRecord ctx 0 db (some c) "item_removed" itemEntityType id) :
    ∃ db' tombstone, deleteItem ctx c id (.int r.revision) db = .ok (db', tombstone) := by
  obtain ⟨db₁, tombstone, deleted, sets⟩ :=
    deleteRecord_commits iso (validateEntity_stableId (by decide) .evidenceItem id) live positive bound
  obtain ⟨db', a, recorded, -⟩ := recordActivityIn_commits (can.same (deleteRecord_same deleted (by decide)))
  have whole : (1 : Int) ≤ r.revision := by omega
  refine ⟨db', tombstone, ?_⟩
  simp only [deleteItem, validateRevision, Checked.bind_eq_ok, Checked.require_eq_ok, Checked.pure_eq_ok, Prod.exists]
  refine ⟨(), collection, (), member, _, ⟨(), whole, rfl⟩, item, found, (), belongs, stableId .evidenceItem id, ?_, db₁,
    tombstone, ?_, db', ?_, rfl⟩
  · rw [memberStorageId, own, if_neg Bool.false_ne_true]
    exact itemEntityId_eq_ok.2 ⟨legacy, rfl⟩
  · rw [own, if_neg Bool.false_ne_true]
    exact deleted
  · rw [own, if_neg Bool.false_ne_true, if_neg Bool.false_ne_true]
    exact recorded

/-- The item is the one row of its type. -/
theorem HoldsSample.rows {db : Store} {row : RecordRow} (h : HoldsSample db row) : db.recordsOf itemEntityType = [row] := by
  rw [← List.perm_singleton, List.perm_ext_iff_of_nodup (recordsOf_nodup db itemEntityType).of_map (List.nodup_singleton row)]
  intro r
  rw [List.mem_singleton, Store.mem_recordsOf, mem_rows_iff]
  constructor
  · rintro ⟨found, type⟩
    have at_ : r.key = (itemEntityType, r.entityId) := Prod.ext type rfl
    rw [at_] at found
    by_cases one : r.entityId = stableId .evidenceItem "i"
    · rw [one, h.live] at found
      exact (Option.some.inj found).symm
    · rw [h.alone r.entityId one] at found
      cases found
  · rintro rfl
    obtain ⟨here, type, -⟩ := Store.mem_of_record? (congrArg Prod.fst h.live)
    exact ⟨mem_rows_iff.1 here, type⟩

/-- Add the note `i` to the collection `c`. -/
def sampleShared : Context × WorkspaceCall :=
  (callContext "d", .addNote "c" (.str "q") none (some "i"))

/-- After the item `i`, a note `i` is added to the same collection. -/
theorem sampleShared_commits : ∃ db row, Runs.run workspaceStep Store.empty [sampleCreation, sampleAddition, sampleShared] = db ∧
    db.recordsOf itemEntityType = [row] ∧ db.entry (itemEntityType, stableId .evidenceItem "i") = (some row, none) ∧
    row.revision = 1 ∧ loadsObject row.payloadJson = some (itemPayload "i" "c" sampleItemFields 0).sorted ∧
    NoteOf db "c" "i" ∧ Recorded db ["d", "b", "a"] := by
  obtain ⟨db, row, ran, sample⟩ := sampleAddition_commits
  obtain ⟨r, payload, live, read⟩ := sample.collection
  obtain ⟨timestamp, iso⟩ := Checked.exists_ok sample.time
  have none_ : childrenIn db noteEntityType "c" = [] := childrenIn_empty sample.notes.recordsOf
  have few : noteCountIn db "c" < maxNotesPerCollection := by
    rw [noteCountIn, none_]
    decide
  have room : memberCountIn db "c" < maxItemsPerCollection := by
    have one : (childrenIn db itemEntityType "c").length ≤ 1 := by
      rw [childrenIn_eq, sample.rows]
      exact List.length_filter_le _ _
    have most : 1 < maxItemsPerCollection := by decide
    rw [memberCountIn, none_, List.length_nil]
    omega
  obtain ⟨noteJson, dumped⟩ : ∃ noteJson, canonicalPayload [] (notePayload "i" "c" "q" none 0 0) = .ok noteJson :=
    Checked.exists_ok (by decide +kernel)
  have can : CanRecord (callContext "d") 1 db (some "c") "note_added" noteEntityType "i" :=
    sample.drawn.canRecord (by decide) (by decide) (by decide) (by decide +kernel)
  have chosen : chosenId (callContext "d") "note" (some "i") "note_id" = .ok "i" := by decide
  have worded : requireText (.str "q") "note text" maxNoteLength false = .ok "q" := by decide
  have time : isoFromMs (callContext "d").nowMs = .ok timestamp := iso
  have alone : noteReference none = .ok none := by rfl
  obtain ⟨db', record, added, wrote⟩ := addNote_commits sample_named sample_legacy worded alone chosen (by decide) live read few
    room (sample.notes _) time dumped can
  have body : sampleShared.2.body sampleShared.1 db = .ok db' := storeOf_eq_ok.2 ⟨record, added⟩
  have items : Same itemEntityType db db' := wrote.same (by decide) (by decide)
  obtain ⟨note, stored, there⟩ : ∃ note : RecordRow, note.payloadJson = noteJson ∧
      db'.entry (noteEntityType, "i") = (some note, none) := ⟨_, rfl, wrote.entry_same⟩
  have holds : Holds note.payloadJson (notePayload "i" "c" "q" none 0 0) := stored ▸ holds_canonical dumped
  refine ⟨db', row, ?_, items.recordsOf.trans sample.rows, (items _).trans sample.live, sample.revision, sample.loaded,
    ⟨note, congrArg Prod.fst there, ?_⟩, wrote.recorded sample.drawn (by decide)⟩
  · rw [Runs.run_cons, Runs.run_cons, Runs.run_nil] at ran
    rw [Runs.run_cons, Runs.run_cons, Runs.run_cons, Runs.run_nil, ran, workspaceStep, body]
    rfl
  · rw [holds.collectionNamed (.inr rfl) rfl]
    rfl

/-- The item of the sample is read as a document. -/
theorem sample_read (token fallback : String) :
    itemOf (callContext token) fallback (itemPayload "i" "c" sampleItemFields 0).sorted = .ok ⟨"i", "c", false⟩ := by
  rfl

/-- **`delete_note` buries an item**: a note and an item have one identifier, and the item is found first. -/
theorem not_always_named_note : ¬ ∀ inputs ctx c id expectedRevision db' tombstone,
    NoteOf (Runs.run workspaceStep Store.empty inputs) c id →
    deleteNote ctx c id expectedRevision (Runs.run workspaceStep Store.empty inputs) = .ok (db', tombstone) →
      BuriesOnly (Runs.run workspaceStep Store.empty inputs) db' (noteEntityType, id) := by
  intro claim
  obtain ⟨db, row, ran, rows, live, first, loaded, own, drawn⟩ := sampleShared_commits
  have scanned : scanIn db itemEntityType = [(row, (itemPayload "i" "c" sampleItemFields 0).sorted)] := by
    rw [scanIn, rows, List.filterMap_cons, loaded]
    rfl
  have found : itemIn (callContext "e") db "i" = .ok ⟨"i", "c", false⟩ := by
    have search : findItem (callContext "e") "i" (scanIn db itemEntityType) = .ok (some ⟨"i", "c", false⟩) := by
      rw [scanned, findItem, sample_read]
      rfl
    rw [itemIn, search]
    rfl
  have bound : isSqliteInteger ((row.revision + 1 : Nat) : Int) = true := by
    rw [first]
    decide
  have can : CanRecord (callContext "e") 0 db (some "c") "item_removed" itemEntityType "i" :=
    drawn.canRecord (by decide) (by decide) (by decide) (by decide +kernel)
  obtain ⟨timestamp, iso⟩ : ∃ timestamp, isoFromMs (callContext "e").nowMs = .ok timestamp :=
    Checked.exists_ok (by decide +kernel)
  obtain ⟨db', tombstone, deleted⟩ := deleteItem_commits sample_named (by decide) (by decide) found rfl rfl live first.ge
    bound iso can
  rw [← ran] at own deleted
  have alone := claim _ _ _ _ _ db' tombstone own deleted
  obtain ⟨item, found', -, buries⟩ := deleteItem_buries deleted
  rw [ran] at found' alone buries
  rw [found] at found'
  cases found'
  have same : itemEntityType = noteEntityType := congrArg Prod.fst (alone.unique buries item_ne_activity)
  exact absurd same (by decide)

theorem deletes_named_member_sample : ∃ db item r, Runs.Reaches workspaceStep Store.empty db ∧
    getItem sampleContext "i" db = .ok item ∧ MemberRow db "i" r ∧ Shows r item := by
  obtain ⟨db, row, ran, rows, live, first, loaded, own, drawn⟩ := sampleShared_commits
  have reached : Runs.Reaches workspaceStep Store.empty db := ⟨_, ran⟩
  obtain ⟨data, read, named, readable⟩ : ∃ data, dataOf row = some data ∧ textAt "id" data = some "i" ∧
      checkDict (Json.lookup "reference" data) = .ok () := by
    rw [dataOf, loaded]
    exact ⟨_, rfl, rfl, rfl⟩
  have carries : identifierOf row = some "i" := by
    rw [identifierOf, read]
    exact named
  have item : ItemRow db "i" row := ⟨by rw [rows]; exact List.mem_singleton_self row, carries⟩
  obtain ⟨-, -, shows_⟩ := deletes_named_member reached sampleContext
  have valid : validateIdentifier "i" "item_id" = .ok () := by decide
  obtain ⟨found, r, got, member, shown⟩ := (shows_ "i" ⟨row, .inl item⟩).2 ⟨valid, .inl ⟨row, item, data, read, readable⟩⟩
  exact ⟨db, found, r, reached, got, member, shown⟩

end Workspace
