import DocumentQa.Workspace.Parents
import Mathlib.Data.Prod.Lex

/-!
# What the collections show

The readers of the collection repository and the reports of its writes. Four of them tell how
many items a collection has: `get_collection` and `list_collections` count the items that name
it, `create_collection` says none, and `update_collection` counts the notes as well
(`counts_agree`).
-/

namespace Workspace

open Python JsonText Transfer SqlTable

/-! ## Readers -/

structure Collection where
  collectionId : String
  name : String
  description : String
  tags : List String
  favorite : Bool
  isPrivate : Bool
  revision : Nat
  createdAt : String
  updatedAt : String
  itemCount : Nat
deriving DecidableEq

/-- `_collection_of`. -/
def collectionOf (ctx : Context) (collectionId : String) (revision : Nat) (payload : JsonObject)
    (createdAt updatedAt : String) (itemCount : Nat) : Except PyError Collection := do
  let data ← unwrapPayload payload "collection record"
  let tags ← storedTags ctx (Json.lookup "tags" data)
  let text := fun key => str ctx.isPrintable (orElse (Json.lookup key data) (.str ""))
  pure {
    collectionId := str ctx.isPrintable (orElse (Json.lookup "id" data) (.str collectionId))
    name := text "name"
    description := text "description"
    tags := tags.map textOf
    favorite := truthy ((Json.lookup "favorite" data).getD .null)
    isPrivate := truthy ((Json.lookup "private" data).getD (.bool true))
    revision, createdAt, updatedAt, itemCount }

/-- One row of the scan of `_item_counts`. -/
def countItem (counts : List (String × Nat)) (payload : JsonObject) : List (String × Nat) :=
  match unwrapPayload payload "item record" with
  | .ok data =>
    match Json.lookup "collectionId" data with
    | some (.str collectionId) => Ranking.put (fun old => old.getD 0 + 1) collectionId counts
    | _ => counts
  | .error _ => counts

/-- `_item_counts`. -/
def itemCounts (db : Store) : List (String × Nat) :=
  (scanIn db itemEntityType).foldl (fun counts row => countItem counts row.2) []

/-- `counts.get(collection_id, 0)`. -/
def countOf (counts : List (String × Nat)) (collectionId : String) : Nat :=
  (counts.lookup collectionId).getD 0

/-- `get_collection`. -/
def getCollection (ctx : Context) (collectionId : String) (db : Store) : Except PyError Collection := do
  validateIdentifier collectionId "collection_id"
  let storageId ← collectionEntityId collectionId
  let (row, payload) ← oneIn db collectionEntityType storageId "collection"
  collectionOf ctx storageId row.revision payload row.createdAt row.updatedAt (countOf (itemCounts db) collectionId)

/-- `COLLECTION_SORT_FIELDS`. -/
def collectionSortFields : List String :=
  ["name", "updated_at", "created_at", "item_count"]

def maxPageSize : Int := 100

/-- `_bounded_page`. -/
def boundedPage (page pageSize : Int) : Except PyError (Nat × Nat) := do
  Checked.require (1 ≤ page) (collectionError "page must be a positive integer")
  Checked.require (1 ≤ pageSize) (collectionError "page_size must be a positive integer")
  Checked.require (pageSize ≤ maxPageSize) (limitError ("page_size must not exceed " ++ toString maxPageSize))
  pure (page.toNat, pageSize.toNat)

structure ListRequest where
  search : Option String
  tags : List String
  favorite : Option Bool
  sort : String
  direction : String
  page : Int
  pageSize : Int

section Listing

variable (ctx : Context) (lower : String → String)

/-- The rows of the scan of `list_collections`; a row that is not typed is passed over. -/
def listedCollections (counts : List (String × Nat)) : List (RecordRow × JsonObject) → Except PyError (List Collection)
  | [] => pure []
  | (r, payload) :: rest =>
    match unwrapPayload payload "collection record" with
    | .ok data => do
      let logicalId := str ctx.isPrintable (orElse (Json.lookup "id" data) (.str r.entityId))
      let collection ← collectionOf ctx r.entityId r.revision payload r.createdAt r.updatedAt (countOf counts logicalId)
      let collections ← listedCollections counts rest
      pure (collection :: collections)
    | .error _ => listedCollections counts rest

/-- The filters of a request. -/
def Collection.matchesRequest (request : ListRequest) (c : Collection) : Bool :=
  let wanted := (request.tags.filter fun tag => strip tag ≠ "").map fun tag => lower (strip tag)
  let needle := lower (strip (request.search.getD ""))
  (request.favorite.all fun favorite => c.favorite = favorite) &&
    wanted.all (fun tag => (c.tags.map lower).contains tag) &&
    (needle = "" || isInfix needle.toList (lower c.name).toList || isInfix needle.toList (lower c.description).toList)

/-- The sort key: a text or a number, then the identifier. -/
def Collection.sortKey (sort : String) (c : Collection) : Lex (String × Lex (Nat × String)) :=
  let key := fun (text : String) (number : Nat) => toLex (text, toLex (number, c.collectionId))
  if sort = "name" then key (lower c.name) 0
  else if sort = "updated_at" then key c.updatedAt 0
  else if sort = "created_at" then key c.createdAt 0
  else key "" c.itemCount

/-- `list_collections`. -/
def listCollections (request : ListRequest) (db : Store) : Except PyError (List Collection × Nat) := do
  Checked.require (request.sort ∈ collectionSortFields)
    (collectionError "unsupported sort field; expected one of name, updated_at, created_at, item_count")
  Checked.require (request.direction = "asc" ∨ request.direction = "desc") (collectionError "direction must be asc or desc")
  let (page, pageSize) ← boundedPage request.page request.pageSize
  let all ← listedCollections ctx (itemCounts db) (scanIn db collectionEntityType)
  let collections := all.filter (Collection.matchesRequest lower request)
  let ranked :=
    if request.direction = "desc" then Ranking.descending (· ≤ ·) (Collection.sortKey lower request.sort) collections
    else collections.insertionSort fun a b => a.sortKey lower request.sort ≤ b.sortKey lower request.sort
  pure ((ranked.drop ((page - 1) * pageSize)).take pageSize, collections.length)

end Listing

/-! ## Reports -/

/-- `create_collection` with what it returns. -/
def createdCollection (ctx : Context) (args : CollectionArguments) (collectionId : Option String) (db : Store) :
    Except PyError (Store × Collection) := do
  let (db, record) ← createCollection ctx args collectionId db
  let identifier ← chosenId ctx "col" collectionId "collection_id"
  let collection ← collectionOf ctx identifier record.revision record.payload record.createdAt record.updatedAt 0
  pure (db, collection)

/-- `update_collection` with what it returns. -/
def updatedCollection (ctx : Context) (collectionId : String) (expectedRevision : Json) (args : CollectionArguments)
    (db : Store) : Except PyError (Store × Collection) := do
  let (db', record) ← updateCollection ctx collectionId expectedRevision args db
  let collection ← collectionOf ctx collectionId record.revision record.payload record.createdAt record.updatedAt
    (memberCountIn db collectionId)
  pure (db', collection)

/-! ## What is counted -/

theorem countOf_countItem (counts : List (String × Nat)) (payload : JsonObject) (c : String) :
    countOf (countItem counts payload) c = countOf counts c + if isMember c payload = true then 1 else 0 := by
  unfold countItem
  cases unwrapped : unwrapPayload payload "item record" with
  | error e =>
    have stranger : ¬isMember c payload = true := by
      rw [isMember_iff]
      rintro ⟨data, unwrapped', -⟩
      rw [unwrapPayload_eq_ok, ← @unwrapPayload_eq_ok _ "item record", unwrapped] at unwrapped'
      cases unwrapped'
    rw [if_neg stranger]
    rfl
  | ok data =>
    have member : isMember c payload = true ↔ Json.lookup "collectionId" data = some (.str c) := by
      rw [isMember_iff]
      constructor
      · rintro ⟨data', unwrapped', names⟩
        rw [unwrapPayload_eq_ok, ← @unwrapPayload_eq_ok _ "item record", unwrapped] at unwrapped'
        cases unwrapped'
        exact names
      · intro names
        exact ⟨data, unwrapPayload_eq_ok.2 (unwrapPayload_eq_ok.1 unwrapped), names⟩
    dsimp only
    split
    · next d found =>
      rw [countOf, countOf, Ranking.lookup_put]
      by_cases same : c = d
      · subst same
        rw [if_pos rfl, if_pos (member.2 found)]
        rfl
      · have stranger : ¬isMember c payload = true := by
          rw [member, found, Option.some.injEq, Json.str.injEq]
          exact fun e => same e.symm
        rw [if_neg same, if_neg stranger]
        rfl
    · next other =>
      have stranger : ¬isMember c payload = true := fun here => other c (member.1 here)
      rw [if_neg stranger]
      rfl

/-- **`_item_counts`** tells of each collection how many item rows name it. -/
theorem countOf_itemCounts (db : Store) (c : String) : countOf (itemCounts db) c = named db itemEntityType c := by
  have loop : ∀ (rows : List (RecordRow × JsonObject)) (counts : List (String × Nat)),
      countOf (rows.foldl (fun counts row => countItem counts row.2) counts) c =
        countOf counts c + rows.countP fun row => isMember c row.2 := by
    intro rows
    induction rows with
    | nil => exact fun counts => rfl
    | cons row rows ih =>
      intro counts
      rw [List.foldl_cons, ih, countOf_countItem, List.countP_cons]
      omega
  rw [itemCounts, loop, ← childrenIn_length, childrenIn, List.length_map, ← List.countP_eq_length_filter]
  exact Nat.zero_add _

/-- A collection is live: a row carries its identifier. -/
def Live (db : Store) (c : String) : Prop :=
  ∃ r ∈ db.recordsOf collectionEntityType, identifierOf r = some c

/-- The live items of a collection: the item rows whose parent it is. -/
def liveItems (db : Store) (c : String) : Nat :=
  tally db itemEntityType fun r => parentOf r = some c

/-- What `_collection_of` reads from the payload. -/
theorem collectionOf_eq_ok {ctx : Context} {id : String} {revision n : Nat} {payload : JsonObject}
    {createdAt updatedAt : String} {col : Collection}
    (h : collectionOf ctx id revision payload createdAt updatedAt n = .ok col) :
    col.itemCount = n ∧ ∃ data, unwrapPayload payload "record" = .ok data ∧
      col.collectionId = str ctx.isPrintable (orElse (Json.lookup "id" data) (.str id)) := by
  simp only [collectionOf, Checked.bind_eq_ok, Checked.pure_eq_ok] at h
  obtain ⟨data, unwrapped, _, -, rfl⟩ := h
  exact ⟨rfl, data, unwrapPayload_eq_ok.2 (unwrapPayload_eq_ok.1 unwrapped), rfl⟩

/-- A text that is not empty is chosen. -/
theorem orElse_text {isPrintable : Char → Bool} {value : Option Json} {s default : String} (h : value = some (.str s))
    (nonempty : s ≠ "") : str isPrintable (orElse value (.str default)) = s := by
  have true_ : truthy (.str s) = true := decide_eq_true nonempty
  rw [h, orElse, if_pos true_]
  rfl

theorem isLegacyId_nonempty {id : String} (h : isLegacyId id = true) : id ≠ "" := by
  rintro rfl
  revert h
  decide

/-- The collection a row is shown as carries the row's identifier. -/
theorem collectionOf_id {allowed : BackupRecord → Prop} {ctx : Context} {r : RecordRow} {fallback : String} {n : Nat}
    {payload : JsonObject} {createdAt updatedAt : String} {col : Collection} (written : Written allowed r)
    (type : r.entityType = collectionEntityType) (loaded : loadsObject r.payloadJson = some payload)
    (h : collectionOf ctx fallback r.revision payload createdAt updatedAt n = .ok col) :
    identifierOf r = some col.collectionId ∧ r.entityId = stableId .collection col.collectionId := by
  obtain ⟨c, key, id, legacy⟩ := written.collection_row type
  obtain ⟨-, data, unwrapped, shown⟩ := collectionOf_eq_ok h
  have carried := id
  rw [identifierOf, dataOf_eq_some.2 ⟨payload, loaded, unwrapped⟩, Option.bind_some, textAt_eq_some] at carried
  rw [orElse_text carried (isLegacyId_nonempty legacy)] at shown
  rw [shown]
  exact ⟨id, key⟩

/-- A listed collection is shown from a row, with the count of its identifier. -/
theorem mem_listedCollections {ctx : Context} {counts : List (String × Nat)} {rows : List (RecordRow × JsonObject)}
    {cols : List Collection} {col : Collection} (h : listedCollections ctx counts rows = .ok cols) (mem : col ∈ cols) :
    ∃ r payload n, (r, payload) ∈ rows ∧
      collectionOf ctx r.entityId r.revision payload r.createdAt r.updatedAt n = .ok col ∧
      col.itemCount = countOf counts col.collectionId := by
  induction rows generalizing cols with
  | nil =>
    rw [listedCollections, Checked.pure_eq_ok] at h
    subst h
    cases mem
  | cons row rows ih =>
    obtain ⟨r, payload⟩ := row
    rw [listedCollections] at h
    split at h
    · next data unwrapped =>
      simp only [Checked.bind_eq_ok, Checked.pure_eq_ok] at h
      obtain ⟨first, shown, others, rest, rfl⟩ := h
      rcases List.mem_cons.1 mem with rfl | later
      · refine ⟨r, payload, _, List.mem_cons_self, shown, ?_⟩
        obtain ⟨count, data', unwrapped', id⟩ := collectionOf_eq_ok shown
        rw [unwrapPayload_eq_ok, ← @unwrapPayload_eq_ok _ "record", unwrapped'] at unwrapped
        cases unwrapped
        rw [count, id]
      · obtain ⟨r', payload', n, here, rest'⟩ := ih rest later
        exact ⟨r', payload', n, List.mem_cons_of_mem _ here, rest'⟩
    · obtain ⟨r', payload', n, here, rest'⟩ := ih h mem
      exact ⟨r', payload', n, List.mem_cons_of_mem _ here, rest'⟩

section Counts

variable {allowed : BackupRecord → Prop} {ctx : Context} {db db' : Store}

/-- **`get_collection`** counts the items that name the collection. -/
theorem getCollection_count (rows : Rows allowed db) {c : String} {col : Collection} (live : Live db c)
    (h : getCollection ctx c db = .ok col) : col.collectionId = c ∧ col.itemCount = named db itemEntityType c := by
  simp only [getCollection, Checked.bind_eq_ok, collectionEntityId_eq_ok, Prod.exists] at h
  obtain ⟨_, -, _, ⟨-, rfl⟩, r, payload, one, shown⟩ := h
  obtain ⟨found, loaded⟩ := oneIn_eq_ok one
  obtain ⟨mem, type, key⟩ := Store.mem_of_record? found
  obtain ⟨own, here, carries⟩ := live
  obtain ⟨mem', type'⟩ := Store.mem_recordsOf.1 here
  obtain ⟨c', key', id', -⟩ := (rows own mem').collection_row type'
  obtain rfl : c = c' := Option.some.inj (carries.symm.trans id')
  -- the row read is the one that carries the identifier
  have same : own = r := by
    have at_ : db.record? own.entityType own.entityId = some own := Store.record?_of_mem mem'
    rw [type', key', found] at at_
    exact (Option.some.inj at_).symm
  subst same
  obtain ⟨id, -⟩ := collectionOf_id (rows own mem) type loaded shown
  refine ⟨Option.some.inj (id.symm.trans carries), ?_⟩
  rw [(collectionOf_eq_ok shown).1, countOf_itemCounts]

/-- **`list_collections`** counts the items that name each collection it shows. -/
theorem listCollections_count (rows : Rows allowed db) {lower : String → String} {request : ListRequest}
    {page : List Collection} {total : Nat} (h : listCollections ctx lower request db = .ok (page, total))
    {col : Collection} (mem : col ∈ page) :
    Live db col.collectionId ∧ col.itemCount = named db itemEntityType col.collectionId := by
  simp only [listCollections, Checked.bind_eq_ok, Checked.pure_eq_ok, Prod.mk.injEq, Prod.exists] at h
  obtain ⟨_, -, _, -, pageNumber, pageSize, -, all, listed, rfl, -⟩ := h
  have inside := List.mem_of_mem_drop (List.mem_of_mem_take mem)
  have among : col ∈ all := by
    split at inside
    · exact (List.mem_filter.1 (Ranking.mem_descending.1 inside)).1
    · rw [List.mem_insertionSort] at inside
      exact (List.mem_filter.1 inside).1
  obtain ⟨r, payload, n, scanned, shown, count⟩ := mem_listedCollections listed among
  obtain ⟨here, type, loaded⟩ := mem_scanIn scanned
  obtain ⟨id, -⟩ := collectionOf_id (rows r here) type loaded shown
  refine ⟨⟨r, Store.mem_recordsOf.2 ⟨here, type⟩, id⟩, ?_⟩
  rw [count, countOf_itemCounts]

/-- When every item names its parent, the items that name a collection are its own. -/
theorem named_eq_liveItems (rows : Rows Parented db) (c : String) : named db itemEntityType c = liveItems db c := by
  apply List.countP_congr
  intro r mem
  obtain ⟨here, type⟩ := Store.mem_recordsOf.1 mem
  obtain ⟨_, parent, -, -, -, belongs, -, -, names⟩ := (rows r here).item_row type
  rw [belongs, names fun _ allow => allow]

/-- The record a write returns is the row it left. -/
theorem createRecord_row {t i : String} {payload : JsonObject} {ms : Nat} {record : VersionedRecord}
    (h : createRecord ctx db t i payload ms = .ok (db', record)) :
    ∃ r : RecordRow, r.key = (t, i) ∧ Holds r.payloadJson payload ∧ loadsObject r.payloadJson = some record.payload := by
  simp only [createRecord, translate_eq_ok, Checked.bind_eq_ok, createIn, reraise_eq_ok, Checked.pure_eq_ok, recordOf,
    Checked.orRaise_eq_ok, Prod.mk.injEq] at h
  obtain ⟨timestamp, -, _, -, payloadJson, text, _, -, _, -, _, ⟨_, loaded, rfl⟩, -, rfl⟩ := h
  exact ⟨⟨t, i, 1, payloadJson, timestamp, timestamp⟩, rfl, holds_canonical text, loaded⟩

theorem replaceRecord_row {t i : String} {payload : JsonObject} {expected : Int} {ms : Nat} {record : VersionedRecord}
    (h : replaceRecord ctx db t i payload expected ms = .ok (db', record)) :
    ∃ r : RecordRow, r.key = (t, i) ∧ Holds r.payloadJson payload ∧ loadsObject r.payloadJson = some record.payload := by
  simp only [replaceRecord, translate_eq_ok, Checked.bind_eq_ok, replaceIn] at h
  obtain ⟨timestamp, -, _, -, _, -, payloadJson, text, _, -, h⟩ := h
  split at h
  · simp at h
  · next old found =>
    obtain ⟨-, rfl, rfl⟩ := Store.mem_of_record? found
    simp only [Checked.bind_eq_ok, Checked.pure_eq_ok, recordOf, Checked.orRaise_eq_ok, Prod.mk.injEq] at h
    obtain ⟨_, -, _, ⟨_, loaded, rfl⟩, -, rfl⟩ := h
    exact ⟨{ old with payloadJson }, rfl, holds_canonical text, loaded⟩

/-- A collection shown from what a write stored carries the identifier it was stored under. -/
theorem collectionOf_stored {r : RecordRow} {payload : JsonObject} {id fallback createdAt updatedAt : String}
    {fields : CollectionFields} {created updated : Int} {revision n : Nat} {col : Collection} (legacy : isLegacyId id = true)
    (holds : Holds r.payloadJson (collectionPayload id fields created updated))
    (loaded : loadsObject r.payloadJson = some payload)
    (h : collectionOf ctx fallback revision payload createdAt updatedAt n = .ok col) : col.collectionId = id := by
  obtain ⟨-, data, unwrapped, shown⟩ := collectionOf_eq_ok h
  have carried : identifierOf r = some id := by
    rw [holds.identifierOf (.inl rfl) rfl]
    rfl
  rw [identifierOf, dataOf_eq_some.2 ⟨payload, loaded, unwrapped⟩, Option.bind_some, textAt_eq_some] at carried
  rw [shown, orElse_text carried (isLegacyId_nonempty legacy)]

/-- **`create_collection`** says that a new collection has no items, which is so. -/
theorem createdCollection_count (rooted : Rooted db) {args : CollectionArguments} {given : Option String}
    {col : Collection} (h : createdCollection ctx args given db = .ok (db', col)) :
    col.itemCount = liveItems db' col.collectionId := by
  simp only [createdCollection, Checked.bind_eq_ok, Checked.pure_eq_ok, Prod.mk.injEq, Prod.exists] at h
  obtain ⟨db₂, record, made, id, -, _, shown, rfl, rfl⟩ := h
  obtain ⟨fields, id', db₁, -, -, legacy, -, created, recorded⟩ := createCollection_eq_ok made
  obtain ⟨r, -, holds, loaded⟩ := createRecord_row created
  have carried := collectionOf_stored legacy holds loaded shown
  obtain ⟨_, _, -, -, -, fresh, -⟩ := createRecord_eq_ok created
  have items : Same itemEntityType db db₂ :=
    (createRecord_same created (by decide)).trans (recordActivityIn_same recorded (by decide))
  rw [(collectionOf_eq_ok shown).1, carried, liveItems, items.tally, tally, eq_comm, List.countP_eq_zero]
  intro a mem belongs
  exact rooted a mem id' (of_decide_eq_true belongs) fresh

/-- **`update_collection`** counts the notes with the items. -/
theorem updatedCollection_count {c : String} {expectedRevision : Json} {args : CollectionArguments} {col : Collection}
    (h : updatedCollection ctx c expectedRevision args db = .ok (db', col)) :
    col.itemCount = named db' itemEntityType col.collectionId + noteCountIn db' col.collectionId := by
  simp only [updatedCollection, Checked.bind_eq_ok, Checked.pure_eq_ok, Prod.mk.injEq, Prod.exists] at h
  obtain ⟨db₂, record, made, _, shown, rfl, rfl⟩ := h
  obtain ⟨_, _, fields, _, db₁, legacy, -, -, -, replaced, recorded⟩ := updateCollection_eq_ok made
  obtain ⟨r, -, holds, loaded⟩ := replaceRecord_row replaced
  have items : Same itemEntityType db db₂ :=
    (replaceRecord_same replaced (by decide)).trans (recordActivityIn_same recorded (by decide))
  have notes : Same noteEntityType db db₂ :=
    (replaceRecord_same replaced (by decide)).trans (recordActivityIn_same recorded (by decide))
  rw [(collectionOf_eq_ok shown).1, collectionOf_stored legacy holds loaded shown, memberCountIn_eq, noteCountIn_eq, named,
    named, named, named, items.tally, notes.tally]

end Counts

/-- **The counts of a collection agree** in every run whose imported items name their parent as their
collection: `get_collection`, `list_collections` and `create_collection` tell the number of its
live items, and `update_collection` tells it exactly when the collection has no note. -/
theorem counts_agree {inputs : List (Context × WorkspaceCall)} (parented : ∀ input ∈ inputs, Admits Parented input)
    {db : Store} (run : Runs.run workspaceStep Store.empty inputs = db) (ctx : Context) :
    (∀ c col, Live db c → getCollection ctx c db = .ok col → col.collectionId = c ∧ col.itemCount = liveItems db c) ∧
    (∀ lower request page total, listCollections ctx lower request db = .ok (page, total) → ∀ col ∈ page,
      Live db col.collectionId ∧ col.itemCount = liveItems db col.collectionId) ∧
    (∀ args given db' col, createdCollection ctx args given db = .ok (db', col) →
      col.itemCount = liveItems db' col.collectionId) ∧
    ∀ c expectedRevision args db' col, updatedCollection ctx c expectedRevision args db = .ok (db', col) →
      (col.itemCount = liveItems db' col.collectionId ↔ noteCountIn db' col.collectionId = 0) := by
  have rows : Rows Parented db := run ▸ run_rows parented
  obtain ⟨-, rooted⟩ := reaches_rooted (⟨inputs, run⟩ : Runs.Reaches workspaceStep Store.empty db)
  refine ⟨?_, ?_, ?_, ?_⟩
  · intro c col live got
    obtain ⟨id, count⟩ := getCollection_count rows live got
    exact ⟨id, count.trans (named_eq_liveItems rows c)⟩
  · intro lower request page total listed col mem
    obtain ⟨live, count⟩ := listCollections_count rows listed mem
    exact ⟨live, count.trans (named_eq_liveItems rows _)⟩
  · intro args given db' col created
    exact createdCollection_count rooted created
  · intro c expectedRevision args db' col updated
    have count := updatedCollection_count updated
    have made : ∃ record, updateCollection ctx c expectedRevision args db = .ok (db', record) := by
      simp only [updatedCollection, Checked.bind_eq_ok, Checked.pure_eq_ok, Prod.mk.injEq, Prod.exists] at updated
      obtain ⟨_, record, made, _, -, rfl, -⟩ := updated
      exact ⟨record, made⟩
    obtain ⟨record, made⟩ := made
    have items : Same itemEntityType db db' := by
      obtain ⟨_, _, _, _, db₁, -, -, -, -, replaced, recorded⟩ := updateCollection_eq_ok made
      exact (replaceRecord_same replaced (by decide)).trans (recordActivityIn_same recorded (by decide))
    have own : named db' itemEntityType col.collectionId = liveItems db' col.collectionId := by
      rw [named, items.tally, liveItems, items.tally]
      exact named_eq_liveItems rows _
    rw [count, own]
    omega

/-! ## A collection with a note -/

/-- Add the note `m` to the collection `c`. -/
def sampleNote : Context × WorkspaceCall :=
  (callContext "b", .addNote "c" (.str "q") none (some "m"))

/-- Creating a collection and adding a note to it leaves one note, which names the collection. -/
theorem sampleNote_commits : ∃ db r payloadJson, Runs.run workspaceStep Store.empty [sampleCreation, sampleNote] = db ∧
    canonicalPayload [] (collectionPayload "c" sampleFields 0 0) = .ok payloadJson ∧
    db.record? collectionEntityType (stableId .collection "c") = some r ∧ r.revision = 1 ∧ r.payloadJson = payloadJson ∧
    isoFromMs sampleContext.nowMs = .ok r.createdAt ∧ Same itemEntityType Store.empty db ∧ noteCountIn db "c" = 1 ∧
    Recorded db ["b", "a"] := by
  obtain ⟨db₁, payloadJson, timestamp, stepped, iso, text, wrote⟩ := sampleCreation_commits
  have items : Same itemEntityType Store.empty db₁ := wrote.same (by decide) (by decide)
  have notes : Same noteEntityType Store.empty db₁ := wrote.same (by decide) (by decide)
  have drawn : Recorded db₁ ["a"] := wrote.recorded .empty List.not_mem_nil
  obtain ⟨payload, read⟩ : ∃ payload, loadsObject payloadJson = some payload := by
    obtain ⟨_, payload, -, read, -⟩ := holds_canonical text
    exact ⟨payload, read⟩
  have none_ : childrenIn db₁ noteEntityType "c" = [] := childrenIn_empty notes.recordsOf
  have few : noteCountIn db₁ "c" < maxNotesPerCollection := by
    rw [noteCountIn, none_]
    decide
  have room : memberCountIn db₁ "c" < maxItemsPerCollection := by
    rw [memberCountIn, childrenIn_empty items.recordsOf, none_]
    decide
  obtain ⟨noteJson, dumped⟩ : ∃ noteJson, canonicalPayload [] (notePayload "m" "c" "q" none 0 0) = .ok noteJson :=
    Checked.exists_ok (by decide +kernel)
  have can : CanRecord (callContext "b") 1 db₁ (some "c") "note_added" noteEntityType "m" :=
    drawn.canRecord (by decide) (by decide) (by decide) (by decide +kernel)
  have chosen : chosenId (callContext "b") "note" (some "m") "note_id" = .ok "m" := by decide
  have worded : requireText (.str "q") "note text" maxNoteLength false = .ok "q" := by decide
  have time : isoFromMs (callContext "b").nowMs = .ok timestamp := iso
  have alone : noteReference none = .ok none := by rfl
  obtain ⟨db₂, record, added, wrote'⟩ := addNote_commits sample_named sample_legacy worded alone chosen (by decide)
    (congrArg Prod.fst wrote.entry_same) read few room (notes _) time dumped can
  have body : sampleNote.2.body sampleNote.1 db₁ = .ok db₂ := storeOf_eq_ok.2 ⟨record, added⟩
  have kept : Same collectionEntityType db₁ db₂ := wrote'.same (by decide) (by decide)
  obtain ⟨r, live, stored, first, rfl⟩ : ∃ r : RecordRow, db₂.record? collectionEntityType (stableId .collection "c") =
      some r ∧ r.payloadJson = payloadJson ∧ r.revision = 1 ∧ r.createdAt = timestamp :=
    ⟨_, congrArg Prod.fst ((kept _).trans wrote.entry_same), rfl, rfl, rfl⟩
  refine ⟨db₂, r, payloadJson, ?_, text, live, first, stored, iso, items.trans (wrote'.same (by decide) (by decide)), ?_,
    wrote'.recorded drawn (by decide)⟩
  · rw [Runs.run_cons, stepped, Runs.run_cons, Runs.run_nil, workspaceStep, body]
    rfl
  · generalize made : RecordRow.mk noteEntityType "m" 1 noteJson r.createdAt r.createdAt = row at wrote'
    have stored : row.payloadJson = noteJson := by rw [← made]
    have key : row.key = (noteEntityType, "m") := by
      rw [← made]
      rfl
    have holds : Holds row.payloadJson (notePayload "m" "c" "q" none 0 0) := stored ▸ holds_canonical dumped
    have names : collectionNamed row = some "c" := by
      rw [holds.collectionNamed (.inr rfl) rfl]
      rfl
    rw [noteCountIn_eq, named, wrote'.tally_insert key (congrArg Prod.fst (notes "m")), ← named, ← childrenIn_length, none_,
      if_pos (decide_eq_true names)]
    rfl

/-- What is stored of the sample collection can be shown, whatever is counted. -/
theorem sample_shown (token fallback createdAt updatedAt : String) (revision n : Nat) :
    ∃ col, collectionOf (callContext token) fallback revision (collectionPayload "c" sampleFields 0 0).sorted createdAt updatedAt
      n = .ok col ∧ col.itemCount = n ∧ col.collectionId = "c" :=
  ⟨_, rfl, rfl, rfl⟩

/-- The stored fields pass the checks of an update. -/
theorem sample_stored (token : String) : ∃ current,
    storedFields (callContext token) (collectionPayload "c" sampleFields 0 0).sorted = .ok current ∧
    validateCollectionFields (given sampleArguments.name current.name)
      (given sampleArguments.description current.description) (given sampleArguments.tags current.tags)
      (given sampleArguments.favorite current.favorite) (given sampleArguments.isPrivate current.isPrivate) =
      .ok sampleFields :=
  ⟨_, rfl, rfl⟩

/-- **`update_collection` counts a note**: the collection has no item, and one is told. -/
theorem not_always_agree : ¬ ∀ inputs ctx c expectedRevision args db' col,
    updatedCollection ctx c expectedRevision args (Runs.run workspaceStep Store.empty inputs) = .ok (db', col) →
      col.itemCount = liveItems db' col.collectionId := by
  intro claim
  obtain ⟨db, r, payloadJson, ran, text, live, first, rfl, iso, items, notes, drawn⟩ := sampleNote_commits
  have loaded : loadsObject r.payloadJson = some (collectionPayload "c" sampleFields 0 0).sorted := by
    have dumped := text
    simp only [canonicalPayload, Checked.bind_eq_ok, Checked.orRaise_eq_ok] at dumped
    obtain ⟨_, -, dumped⟩ := dumped
    exact loadsObject_dumps dumped
  have bound : isSqliteInteger r.revision = true := by
    rw [first]
    decide
  have positive : 1 ≤ r.revision := first.ge
  obtain ⟨current, stored, valid⟩ := sample_stored "d"
  have created : msFromIso r.createdAt = .ok 0 := by
    have whole : isoFromMs sampleContext.nowMs = .ok sampleContext.clockText := by decide +kernel
    rw [← Except.ok.inj (whole.symm.trans iso)]
    decide +kernel
  have can : CanRecord (callContext "d") 0 db (some "c") "collection_updated" collectionEntityType "c" :=
    drawn.canRecord (by decide) (by decide) (by decide) (by decide +kernel)
  have zero : (callContext "d").nowMs = 0 := by decide
  have time : isoFromMs (callContext "d").nowMs = .ok r.createdAt := iso
  have same : canonicalPayload [] (collectionPayload "c" sampleFields 0 (callContext "d").nowMs) = .ok r.payloadJson := by
    rw [zero]
    exact text
  obtain ⟨db', record, updated, payload, wrote⟩ := updateCollection_commits sample_named sample_legacy live loaded positive
    bound stored valid created time same can
  rw [zero, Nat.cast_zero] at payload
  obtain ⟨col, shown, count, id⟩ := sample_shown "d" "c" record.createdAt record.updatedAt record.revision (memberCountIn db "c")
  have report : updatedCollection (callContext "d") "c" (.int r.revision) sampleArguments
      (Runs.run workspaceStep Store.empty [sampleCreation, sampleNote]) = .ok (db', col) := by
    simp only [updatedCollection, Checked.bind_eq_ok, Checked.pure_eq_ok, Prod.exists]
    rw [ran]
    refine ⟨db', record, updated, col, ?_, rfl⟩
    rw [payload]
    exact shown
  have told := claim _ _ _ _ _ _ _ report
  have kept : Same itemEntityType Store.empty db' := items.trans (wrote.same (by decide) (by decide))
  rw [count, id, memberCountIn, childrenIn_empty items.recordsOf, ← noteCountIn, notes, liveItems, kept.tally] at told
  cases told

theorem counts_agree_sample : ∃ db col, Runs.run workspaceStep Store.empty [sampleCreation, sampleNote] = db ∧
    noteCountIn db "c" = 1 ∧ getCollection (callContext "d") "c" db = .ok col ∧ col.itemCount = liveItems db "c" := by
  obtain ⟨db, r, payloadJson, ran, text, live, first, rfl, iso, items, notes, drawn⟩ := sampleNote_commits
  have holds := holds_canonical text
  have loaded : loadsObject r.payloadJson = some (collectionPayload "c" sampleFields 0 0).sorted := by
    have dumped := text
    simp only [canonicalPayload, Checked.bind_eq_ok, Checked.orRaise_eq_ok] at dumped
    obtain ⟨_, -, dumped⟩ := dumped
    exact loadsObject_dumps dumped
  obtain ⟨col, shown, -⟩ := sample_shown "d" (stableId .collection "c") r.createdAt r.updatedAt r.revision
    (countOf (itemCounts db) "c")
  have got : getCollection (callContext "d") "c" db = .ok col := by
    simp only [getCollection, Checked.bind_eq_ok, collectionEntityId_eq_ok, Prod.exists]
    exact ⟨(), sample_named, _, ⟨sample_legacy, rfl⟩, r, _, oneIn_found live loaded, shown⟩
  have carried : identifierOf r = some "c" := by
    rw [holds.identifierOf (.inl rfl) rfl]
    rfl
  obtain ⟨here, type, -⟩ := Store.mem_of_record? live
  have member : r ∈ db.recordsOf collectionEntityType := Store.mem_recordsOf.2 ⟨here, type⟩
  have parented : ∀ input ∈ [sampleCreation, sampleNote], Admits Parented input := by
    intro input mem inject raw digest backup imports
    rcases List.mem_cons.1 mem with rfl | mem
    · cases imports
    · rw [List.mem_singleton.1 mem] at imports
      cases imports
  exact ⟨db, col, ran, notes, got, ((counts_agree parented ran (callContext "d")).1 "c" col ⟨r, member, carried⟩ got).2⟩

end Workspace
