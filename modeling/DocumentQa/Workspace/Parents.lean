import DocumentQa.Workspace.Commits

/-!
# Items and their collections

An item names its collection twice: its wrapper's `parent_legacy_id` and its data's
`collectionId`. `delete_collection` removes the items that name it by the second, an import
accepts an item by the first, and neither looks at a tombstone the other left. `harbored_along`
says when a run still leaves every live item in live collections.
-/

namespace Workspace

open Python JsonText Transfer SqlTable

variable {ctx : Context} {db db' : Store}

/-- The identity of a collection. -/
def collectionKey (c : String) : Key :=
  (collectionEntityType, stableId .collection c)

/-- The collection is live. -/
def Store.holdsCollection (db : Store) (c : String) : Bool :=
  (db.entry (collectionKey c)).1.isSome

/-- The item row names the collection: as its parent, or in its data. -/
def Names (r : RecordRow) (c : String) : Prop :=
  parentOf r = some c ∨ collectionNamed r = some c

/-- Every collection that a live item names is live. -/
def Harbored (db : Store) : Prop :=
  ∀ r ∈ db.recordsOf itemEntityType, ∀ c, Names r c → db.holdsCollection c = true

/-! ## Collections stay -/

/-- A collection is no conversation. -/
theorem collectionKey_type (c : String) : (collectionKey c).1 ≠ "conversation" := by
  show collectionEntityType ≠ "conversation"
  decide

/-- What is live of the collections stays live. -/
def KeepsCollections (db db' : Store) : Prop :=
  ∀ c, db.holdsCollection c = true → db'.holdsCollection c = true

theorem Same.keepsCollections (h : Same collectionEntityType db db') : KeepsCollections db db' := by
  intro c live
  rw [Store.holdsCollection, collectionKey, h]
  exact live

theorem KeepsCollections.trans {db'' : Store} (h : KeepsCollections db db') (h' : KeepsCollections db' db'') :
    KeepsCollections db db'' :=
  fun c live => h' c (h c live)

theorem Store.Sets.keepsCollections {k : Key} {r : RecordRow} {t : Option TombstoneRow}
    (h : Store.Sets db db' k (some r, t)) : KeepsCollections db db' := by
  intro c live
  rw [Store.holdsCollection]
  by_cases same : collectionKey c = k
  · rw [same, h.entry_same]
    rfl
  · rw [h.entry_other same]
    exact live

/-- The items stay, and so do the collections: the items stay harbored. -/
theorem Harbored.keep (h : Harbored db) (items : Same itemEntityType db db') (collections : KeepsCollections db db') :
    Harbored db' := by
  intro r mem c names
  rw [items.recordsOf] at mem
  exact collections c (h r mem c names)

/-! ## Rows after deletions -/

theorem deleteRecord_mem {t i : String} {expected : Int} {ms : Nat} {tombstone : TombstoneRow}
    (h : deleteRecord db t i expected ms = .ok (db', tombstone)) (r : RecordRow) :
    r ∈ db'.records.rows ↔ r ∈ db.records.rows ∧ r.key ≠ (t, i) := by
  obtain ⟨_, _, -, -, -, -, sets⟩ := deleteRecord_eq_ok h
  rw [sets.mem_rows]
  split
  · next same => simp [same]
  · next other => simp [other]

theorem deleteAll_mem {ms : Nat} {rows : List RecordRow} (h : deleteAll db ms rows = .ok db') (r : RecordRow) :
    r ∈ db'.records.rows ↔ r ∈ db.records.rows ∧ ∀ a ∈ rows, r.key ≠ a.key := by
  induction rows generalizing db with
  | nil =>
    rw [deleteAll, Checked.pure_eq_ok] at h
    subst h
    simp
  | cons a rows ih =>
    simp only [deleteAll, Checked.bind_eq_ok, Prod.exists] at h
    obtain ⟨db₁, _, deleted, rest⟩ := h
    rw [ih rest, deleteRecord_mem deleted, List.forall_mem_cons, and_assoc]
    rfl

/-- What deleting the members of a collection leaves of their type. -/
theorem deleteChildren_mem {ms : Nat} {t c : String} (h : deleteAll db ms (childrenIn db t c) = .ok db') (r : RecordRow)
    (type : r.entityType = t) : r ∈ db'.records.rows ↔ r ∈ db.records.rows ∧ collectionNamed r ≠ some c := by
  rw [deleteAll_mem h]
  apply and_congr_right
  intro here
  constructor
  · intro apart names
    exact apart r (mem_childrenIn.2 ⟨here, type, names⟩) rfl
  · intro stranger a mem same
    obtain ⟨here', -, names⟩ := mem_childrenIn.1 mem
    have one : a = r := by
      have found := mem_rows_iff.1 here'
      rw [← same, mem_rows_iff.1 here] at found
      exact (Option.some.inj found).symm
    rw [one] at names
    exact stranger names

/-! ## One call -/

/-- **`delete_collection`**: the items that name the collection go, and it goes itself. -/
theorem deleteCollection_leaves {c : String} {expectedRevision : Json} {tombstone : TombstoneRow}
    (h : deleteCollection ctx c expectedRevision db = .ok (db', tombstone)) :
    (∀ r, r ∈ db'.recordsOf itemEntityType ↔ r ∈ db.recordsOf itemEntityType ∧ collectionNamed r ≠ some c) ∧
    ∀ d, db'.holdsCollection d = true ↔ db.holdsCollection d = true ∧ collectionKey d ≠ collectionKey c := by
  obtain ⟨own, db₁, db₂, db₃, -, -, items, notes, deleted, recorded⟩ := deleteCollection_eq_ok h
  have itemsKept : Same itemEntityType db₁ db' := by
    apply Same.trans (deleteAll_same notes _) (Same.trans (deleteRecord_same deleted (by decide))
      (recordActivityIn_same recorded (by decide)))
    intro r mem
    rw [(mem_childrenIn.1 mem).2.1]
    decide
  have collectionsKept : Same collectionEntityType db db₂ := by
    apply Same.trans (deleteAll_same items _) (deleteAll_same notes _)
    · intro r mem
      rw [(mem_childrenIn.1 mem).2.1]
      decide
    · intro r mem
      rw [(mem_childrenIn.1 mem).2.1]
      decide
  have activity : Same collectionEntityType db₃ db' := recordActivityIn_same recorded (by decide)
  constructor
  · intro r
    rw [itemsKept.recordsOf, Store.mem_recordsOf, Store.mem_recordsOf]
    constructor
    · rintro ⟨mem, type⟩
      obtain ⟨here, stranger⟩ := (deleteChildren_mem items r type).1 mem
      exact ⟨⟨here, type⟩, stranger⟩
    · rintro ⟨⟨here, type⟩, stranger⟩
      exact ⟨(deleteChildren_mem items r type).2 ⟨here, stranger⟩, type⟩
  · intro d
    obtain ⟨_, _, -, -, -, -, sets⟩ := deleteRecord_eq_ok deleted
    have before : db₂.entry (collectionKey d) = db.entry (collectionKey d) := collectionsKept _
    have after : db'.entry (collectionKey d) = db₃.entry (collectionKey d) := activity _
    have gone : db₃.entry (collectionKey c) = (none, some tombstone) := sets.entry_same
    rw [Store.holdsCollection, Store.holdsCollection, after, ← before]
    by_cases same : collectionKey d = collectionKey c
    · rw [same, gone]
      simp
    · rw [sets.entry_other same]
      exact (and_iff_left same).symm

/-- **Deleting a collection leaves every item harbored** exactly when it reaches every item that names what it deletes. -/
theorem deleteCollection_harbored {c : String} {expectedRevision : Json} {tombstone : TombstoneRow}
    (h : deleteCollection ctx c expectedRevision db = .ok (db', tombstone)) (harbored : Harbored db) :
    Harbored db' ↔ ∀ r ∈ db.recordsOf itemEntityType, ∀ d, Names r d → collectionKey d = collectionKey c →
      collectionNamed r = some c := by
  obtain ⟨items, collections⟩ := deleteCollection_leaves h
  constructor
  · intro after r mem d names same
    by_contra stranger
    have live := after r ((items r).2 ⟨mem, stranger⟩) d names
    exact ((collections d).1 live).2 same
  · intro reaches r mem d names
    obtain ⟨here, stranger⟩ := (items r).1 mem
    rw [collections]
    exact ⟨harbored r here d names, fun same => stranger (reaches r here d names same)⟩

theorem addNote_keeps {id : String} {text : Json} {evidenceRef : Option JsonValue} {given : Option String}
    {record : VersionedRecord} (h : addNote ctx id text evidenceRef given db = .ok (db', record)) :
    Same itemEntityType db db' ∧ KeepsCollections db db' := by
  obtain ⟨_, _, _, _, db₁, -, -, -, -, -, created, recorded⟩ := addNote_eq_ok h
  constructor
  · exact (createRecord_same created (by decide)).trans (recordActivityIn_same recorded (by decide))
  · apply Same.keepsCollections
    exact (createRecord_same created (by decide)).trans (recordActivityIn_same recorded (by decide))

/-- An added item names the collection it was added to, which is live. -/
theorem addItem_harbored {id : String} {args : ItemArguments} {given : Option String} {record : VersionedRecord}
    (h : addItem ctx id args given db = .ok (db', record)) (harbored : Harbored db) : Harbored db' := by
  rcases addItem_eq_ok h with ⟨_, _, _, note⟩ |
    ⟨fields, itemId, own, db₁, kind, -, legacy, -, -, -, -, -, found, -, created, recorded⟩
  · obtain ⟨items, collections⟩ := addNote_keeps note
    exact harbored.keep items collections
  · have collections : KeepsCollections db db₁ := (createRecord_same created (by decide)).keepsCollections
    have added : Harbored db₁ := by
      intro r mem c names
      obtain ⟨here, type⟩ := Store.mem_recordsOf.1 mem
      rcases createRecord_grows created (fun r _ _ holds => holds) r here with old | holds
      · exact collections c (harbored r (Store.mem_recordsOf.2 ⟨old, type⟩) c names)
      · have one : c = id := by
          rcases names with belongs | names
          · rw [holds.parentOf] at belongs
            exact (Option.some.inj (textAt_eq_some.1 belongs) |> Json.str.inj).symm
          · rw [holds.collectionNamed (.inl rfl) rfl] at names
            exact (Option.some.inj (textAt_eq_some.1 names) |> Json.str.inj).symm
        subst one
        apply collections c
        rw [Store.holdsCollection, collectionKey, Store.entry, found]
        rfl
    exact added.keep (recordActivityIn_same recorded (by decide)) (recordActivityIn_same recorded (by decide)).keepsCollections

theorem deleteItem_harbored {id itemId : String} {expectedRevision : Json} {tombstone : TombstoneRow}
    (h : deleteItem ctx id itemId expectedRevision db = .ok (db', tombstone)) (harbored : Harbored db) : Harbored db' := by
  obtain ⟨t, i, _, _, db₁, type, deleted, recorded⟩ := deleteItem_eq_ok h
  have other : collectionEntityType ≠ t := by
    rcases type with rfl | rfl <;> decide
  have fewer : Harbored db₁ := by
    intro r mem c names
    obtain ⟨here, type⟩ := Store.mem_recordsOf.1 mem
    apply (deleteRecord_same deleted other).keepsCollections
    exact harbored r (Store.mem_recordsOf.2 ⟨((deleteRecord_mem deleted r).1 here).1, type⟩) c names
  exact fewer.keep (recordActivityIn_same recorded (by decide)) (recordActivityIn_same recorded (by decide)).keepsCollections

/-! ## Imports -/

/-- The import writes the record. -/
def Writes (db : Store) (backup : ValidatedBackup) (r : BackupRecord) : Prop :=
  ∃ action, planRecord db backup r = .ok action ∧ action.applies = true

/-- The collection is live, or the backup brings it and no tombstone bars it. -/
def Harbors (db : Store) (backup : ValidatedBackup) (c : String) : Prop :=
  db.holdsCollection c = true ∨ (∃ p ∈ backup.records, p.key = collectionKey c) ∧ (db.entry (collectionKey c)).2 = none

/-- A record that is not written was there, or is deleted. -/
theorem planRecord_idle {backup : ValidatedBackup} {r : BackupRecord} {action : Action}
    (h : planRecord db backup r = .ok action) (idle : ¬action.applies = true) :
    (db.entry r.key).1.isSome = true ∨ (db.entry r.key).2.isSome = true := by
  by_contra absent
  rw [not_or, Option.not_isSome_iff_eq_none, Option.not_isSome_iff_eq_none] at absent
  obtain ⟨noRecord, noTombstone⟩ := absent
  have free : db.record? r.entityType r.workspaceId = none := noRecord
  have unburied : db.tombstone? r.entityType r.workspaceId = none := noTombstone
  rw [planRecord, unburied, if_neg (by simp)] at h
  simp only [Checked.bind_eq_ok, free, Checked.pure_eq_ok] at h
  obtain ⟨_, -, rfl⟩ := h
  exact idle rfl

section Imports

variable {secrets : List String} {envelope : JsonObject} {backup : ValidatedBackup}

/-- A backup buries conversations only. -/
theorem tombstone_key {t : BackupTombstone} {k : Key} (h : t.key = k) : k.1 = "conversation" :=
  (congrArg Prod.fst h).symm

theorem imported_keeps (imported : Imported backup db db') : KeepsCollections db db' := by
  intro c live
  rw [Store.holdsCollection]
  rcases imported.entry (collectionKey c) with ⟨t, -, -, key, -⟩ | ⟨-, ⟨_, -, -, -, row, -, entry⟩ | ⟨-, entry⟩⟩
  · exact absurd (tombstone_key key) (collectionKey_type c)
  · rw [entry]
    rfl
  · rw [entry]
    exact live

/-- What an import harbors is live after it. -/
theorem imported_harbors (imported : Imported backup db db') {c : String} (h : Harbors db backup c) :
    db'.holdsCollection c = true := by
  rcases h with live | ⟨⟨p, mem, key⟩, unburied⟩
  · exact imported_keeps imported c live
  · obtain ⟨sources, actions, -⟩ := plan_eq_ok imported.planned
    rw [← sources] at mem
    obtain ⟨a, planned, rfl⟩ := List.mem_map.1 mem
    rcases imported.entry (collectionKey c) with ⟨t, -, -, key', -⟩ | ⟨-, ⟨_, -, -, -, row, -, entry⟩ | ⟨untouched, entry⟩⟩
    · exact absurd (tombstone_key key') (collectionKey_type c)
    · rw [Store.holdsCollection, entry]
      rfl
    · have idle : ¬a.2.applies = true := fun applies => untouched a planned applies key
      rcases planRecord_idle (actions a planned) idle with live | dead
      · rw [key] at live
        rw [Store.holdsCollection, entry]
        exact live
      · rw [key, unburied] at dead
        cases dead

/-- An import creates the record of an identity it finds absent, when it brings one record of it. -/
theorem imported_creates (imported : Imported backup db db') {p : BackupRecord} (mem : p ∈ backup.records)
    (other : p.entityType ≠ "conversation") (absent : db.entry p.key = (none, none))
    (once : ∀ q ∈ backup.records, q.key = p.key → q = p) :
    ∃ row, incomingRow backup p = .ok row ∧ db'.entry p.key = (some row, none) := by
  obtain ⟨sources, actions, -⟩ := plan_eq_ok imported.planned
  rcases imported.entry p.key with ⟨t, -, -, key, -⟩ | ⟨-, ⟨a, planned, -, key, row, incoming, entry⟩ | ⟨untouched, -⟩⟩
  · exact absurd (tombstone_key key) other
  · have member : a.1 ∈ backup.records := sources ▸ List.mem_map_of_mem planned
    rw [once a.1 member key] at incoming
    exact ⟨row, incoming, entry⟩
  · rw [← sources] at mem
    obtain ⟨a, planned, rfl⟩ := List.mem_map.1 mem
    have idle : ¬a.2.applies = true := fun applies => untouched a planned applies rfl
    rcases planRecord_idle (actions a planned) idle with live | dead
    · rw [absent] at live
      cases live
    · rw [absent] at dead
      cases dead

/-- The row of an imported record reads back as its wrapper. -/
theorem incoming_holds (accepted : Accepted secrets envelope backup) {r : BackupRecord} {row : RecordRow}
    (mem : r ∈ backup.records) (incoming : incomingRow backup r = .ok row) :
    Holds row.payloadJson ⟨wrappedPayload r (isFavorite backup r), wrappedPayload_distinct r (isFavorite backup r)⟩ := by
  obtain ⟨payloadJson, _, _, text, -, -, -, made⟩ := incomingRow_eq_ok incoming
  rw [incomingText, Checked.orRaise_eq_ok] at text
  have stored : row.payloadJson = payloadJson := by rw [made]
  rw [← stored] at text
  exact holds_canonicalJson (wrapper_prints accepted mem) text

theorem incoming_parent (accepted : Accepted secrets envelope backup) {r : BackupRecord} {row : RecordRow} {c : String}
    (mem : r ∈ backup.records) (incoming : incomingRow backup r = .ok row) (belongs : parentOf row = some c) :
    r.role = .evidenceItem c := by
  rw [(incoming_holds accepted mem incoming).parentOf] at belongs
  have under : Json.lookup "parent_legacy_id" (wrappedPayload r (isFavorite backup r)) = some (.str c) :=
    textAt_eq_some.1 belongs
  rw [wrappedPayload] at under
  cases role : r.role with
  | evidenceItem parent =>
    rw [role] at under
    obtain rfl : parent = c := Json.str.inj (Option.some.inj under)
    rfl
  | conversation =>
    rw [role] at under
    cases under
  | collection =>
    rw [role] at under
    cases under

/-- What the row of an imported item names. -/
theorem incoming_names (accepted : Accepted secrets envelope backup) {r : BackupRecord} {row : RecordRow} {c : String}
    (mem : r ∈ backup.records) (incoming : incomingRow backup r = .ok row) (names : Names row c) :
    r.role = .evidenceItem c ∨ r.payload.get? "collectionId" = some (.str c) := by
  rcases names with belongs | names
  · exact .inl (incoming_parent accepted mem incoming belongs)
  · right
    rw [(incoming_holds accepted mem incoming).collectionNamed (.inl rfl) rfl] at names
    exact textAt_eq_some.1 names

/-- The parent of an accepted item is among the records. -/
theorem accepted_parent (accepted : Accepted secrets envelope backup) {r : BackupRecord} {c : String}
    (mem : r ∈ backup.records) (role : r.role = .evidenceItem c) : ∃ p ∈ backup.records, p.key = collectionKey c := by
  have kinds : ∀ {kind : RecordKind} {raws : List JsonValue} {records : List BackupRecord},
      Checked.collect (validateRecord secrets kind) raws = .ok records → ∀ a ∈ records, a.role.kind = kind := by
    intro kind raws records collected a mem
    obtain ⟨raw, -, ok⟩ := Checked.collect_source collected mem
    obtain ⟨record, -, facts⟩ := validateRecord_eq_ok.1 ok
    exact validateRole_kind facts.role
  have item : r.role.kind = .evidenceItem := by
    rw [role]
    rfl
  have among : r ∈ backup.evidenceItems := by
    simp only [ValidatedBackup.records, List.mem_append] at mem
    rcases mem with (mem | mem) | mem
    · obtain ⟨_, -, collected⟩ := accepted.conversations
      rw [kinds collected r mem] at item
      cases item
    · obtain ⟨_, -, collected⟩ := accepted.collections
      rw [kinds collected r mem] at item
      cases item
    · exact mem
  have references := accepted.references
  simp only [validateReferences, Checked.bind_eq_ok, Checked.require_eq_ok, List.all_eq_true] at references
  obtain ⟨_, -, _, -, _, -, _, -, _, parents, -⟩ := references
  have inside := parents r among
  rw [hasParentIn, role] at inside
  obtain ⟨p, collection, rfl⟩ := List.mem_map.1 (of_decide_eq_true inside)
  obtain ⟨_, -, collected⟩ := accepted.collections
  refine ⟨p, List.mem_append_left _ (List.mem_append_right _ collection), ?_⟩
  rw [BackupRecord.key, BackupRecord.entityType, BackupRecord.workspaceId, kinds collected p collection]
  rfl

/-- An import that harbors what its items name leaves every item harbored. -/
theorem imported_harbored (accepted : Accepted secrets envelope backup) (imported : Imported backup db db')
    (harbored : Harbored db)
    (safe : ∀ r ∈ backup.records, r.entityType = itemEntityType → Writes db backup r → ∀ c,
      r.role = .evidenceItem c ∨ r.payload.get? "collectionId" = some (.str c) → Harbors db backup c) :
    Harbored db' := by
  intro r mem c names
  obtain ⟨here, type⟩ := Store.mem_recordsOf.1 mem
  have found := mem_rows_iff.1 here
  rcases imported.entry r.key with ⟨t, -, -, key, -⟩ | ⟨-, ⟨a, planned, applies, key, row, incoming, entry⟩ | ⟨-, entry⟩⟩
  · have conversation := tombstone_key key
    change r.entityType = "conversation" at conversation
    rw [type] at conversation
    exact absurd conversation (by decide)
  · rw [entry] at found
    cases found
    obtain ⟨sources, actions, -⟩ := plan_eq_ok imported.planned
    have member : a.1 ∈ backup.records := sources ▸ List.mem_map_of_mem planned
    have item : a.1.entityType = itemEntityType := (congrArg Prod.fst key).trans type
    apply imported_harbors imported
    exact safe a.1 member item ⟨a.2, actions a planned, applies⟩ c (incoming_names accepted member incoming names)
  · rw [entry] at found
    apply imported_keeps imported
    exact harbored r (Store.mem_recordsOf.2 ⟨mem_rows_iff.2 found, type⟩) c names

end Imports

/-! ## Collections are not forgotten -/

/-- The collection is live or deleted. -/
def Store.knowsCollection (db : Store) (c : String) : Prop :=
  db.entry (collectionKey c) ≠ (none, none)

/-- The parent of every live item is live or deleted. -/
def Rooted (db : Store) : Prop :=
  ∀ r ∈ db.recordsOf itemEntityType, ∀ c, parentOf r = some c → db.knowsCollection c

theorem knowsCollection_iff {c : String} : db.knowsCollection c ↔ db.slot (collectionKey c) ≠ .absent := by
  rw [Store.knowsCollection, Store.slot]
  rcases db.entry (collectionKey c) with ⟨_ | r, _ | d⟩ <;> simp [slotOf]

theorem follows_present {s t : Lifecycle.Slot Content String} (h : s.Follows t) (present : s ≠ .absent) : t ≠ .absent := by
  rcases h with rfl | ⟨less, -⟩
  · exact present
  · rintro rfl
    exact absurd less (Nat.not_lt_zero _)

/-- A call forgets no collection. -/
theorem workspaceStep_knows {input : Context × WorkspaceCall} (disjoint : db.Disjoint) {c : String}
    (knows : db.knowsCollection c) : (workspaceStep db input).knowsCollection c := by
  rw [knowsCollection_iff] at knows ⊢
  rcases (step_evolves (input.1, .workspace input.2) disjoint).2 (collectionKey c) with follows |
    ⟨_, _, _, _, -, -, t, -, key, -⟩
  · exact follows_present follows knows
  · exact absurd (tombstone_key key) (collectionKey_type c)

theorem imported_parent {secrets : List String} {envelope : JsonObject} {backup : ValidatedBackup}
    (accepted : Accepted secrets envelope backup) (imported : Imported backup db db') {r : BackupRecord} {c : String}
    (mem : r ∈ backup.records) (role : r.role = .evidenceItem c) : db'.knowsCollection c := by
  obtain ⟨p, member, key⟩ := accepted_parent accepted mem role
  obtain ⟨sources, actions, -⟩ := plan_eq_ok imported.planned
  rw [← sources] at member
  obtain ⟨a, planned, rfl⟩ := List.mem_map.1 member
  rw [Store.knowsCollection]
  rcases imported.entry (collectionKey c) with ⟨t, -, -, key', -⟩ | ⟨-, ⟨_, -, -, -, row, -, entry⟩ | ⟨untouched, entry⟩⟩
  · exact absurd (tombstone_key key') (collectionKey_type c)
  · rw [entry]
    exact nofun
  · rw [entry]
    intro none_
    have idle : ¬a.2.applies = true := fun applies => untouched a planned applies key
    rcases planRecord_idle (actions a planned) idle with live | dead
    · rw [key, none_] at live
      cases live
    · rw [key, none_] at dead
      cases dead

/-- An item that a call brings has a parent the store knows. -/
theorem WorkspaceCall.body_items {call : WorkspaceCall} (h : call.body ctx db = .ok db') :
    ∀ r ∈ db'.recordsOf itemEntityType, r ∈ db.recordsOf itemEntityType ∨
      ∀ c, parentOf r = some c → db'.knowsCollection c := by
  have kept : Same itemEntityType db db' → ∀ r ∈ db'.recordsOf itemEntityType, r ∈ db.recordsOf itemEntityType ∨
      ∀ c, parentOf r = some c → db'.knowsCollection c := by
    intro same r mem
    rw [same.recordsOf] at mem
    exact .inl mem
  cases call with
  | createCollection args id =>
    obtain ⟨_, created⟩ := storeOf_eq_ok.1 h
    obtain ⟨_, _, db₁, -, -, -, -, created, recorded⟩ := createCollection_eq_ok created
    exact kept ((createRecord_same created (by decide)).trans (recordActivityIn_same recorded (by decide)))
  | updateCollection id expected args =>
    obtain ⟨_, updated⟩ := storeOf_eq_ok.1 h
    obtain ⟨_, _, _, _, db₁, -, -, -, -, replaced, recorded⟩ := updateCollection_eq_ok updated
    exact kept ((replaceRecord_same replaced (by decide)).trans (recordActivityIn_same recorded (by decide)))
  | deleteCollection id expected =>
    obtain ⟨_, deleted⟩ := storeOf_eq_ok.1 h
    intro r mem
    exact .inl (((deleteCollection_leaves deleted).1 r).1 mem).1
  | addItem id args item =>
    obtain ⟨_, added⟩ := storeOf_eq_ok.1 h
    rcases addItem_eq_ok added with ⟨_, _, _, note⟩ |
      ⟨_, _, _, db₁, -, -, -, -, -, -, -, -, found, -, created, recorded⟩
    · exact kept (addNote_keeps note).1
    · intro r mem
      have items : Same itemEntityType db₁ db' := recordActivityIn_same recorded (by decide)
      have collections : Same collectionEntityType db db' :=
        (createRecord_same created (by decide)).trans (recordActivityIn_same recorded (by decide))
      rw [items.recordsOf] at mem
      obtain ⟨here, type⟩ := Store.mem_recordsOf.1 mem
      rcases createRecord_grows created (fun r _ _ holds => holds) r here with old | holds
      · exact .inl (Store.mem_recordsOf.2 ⟨old, type⟩)
      · right
        intro c belongs
        rw [holds.parentOf] at belongs
        obtain rfl : id = c := Json.str.inj (Option.some.inj (textAt_eq_some.1 belongs))
        rw [Store.knowsCollection, collectionKey, collections, Store.entry, found]
        intro absent
        cases absent
  | deleteItem id item expected =>
    obtain ⟨_, deleted⟩ := storeOf_eq_ok.1 h
    obtain ⟨_, _, _, _, db₁, -, deleted, recorded⟩ := deleteItem_eq_ok deleted
    intro r mem
    have items : Same itemEntityType db₁ db' := recordActivityIn_same recorded (by decide)
    rw [items.recordsOf] at mem
    obtain ⟨here, type⟩ := Store.mem_recordsOf.1 mem
    exact .inl (Store.mem_recordsOf.2 ⟨((deleteRecord_mem deleted r).1 here).1, type⟩)
  | addNote id text reference note =>
    obtain ⟨_, added⟩ := storeOf_eq_ok.1 h
    exact kept (addNote_keeps added).1
  | updateNote id note expected text =>
    obtain ⟨_, updated⟩ := storeOf_eq_ok.1 h
    obtain ⟨_, _, _, _, _, _, _, db₁, -, -, -, -, replaced, recorded⟩ := updateNote_eq_ok updated
    exact kept ((replaceRecord_same replaced (by decide)).trans (recordActivityIn_same recorded (by decide)))
  | recordActivity id event t i => exact kept (recordActivityIn_same (recordActivity_eq_ok h) (by decide))
  | importBackup inject raw digest =>
    obtain ⟨receipt, done⟩ := storeOf_eq_ok.1 h
    obtain ⟨backup, valid, -, rfl | ⟨-, fresh⟩⟩ := importBackup_eq_ok done
    · exact kept (.refl _ _)
    · obtain ⟨imported, -⟩ := importFresh_eq_ok fresh
      obtain ⟨envelope, -, accepted⟩ := validateWorkspaceBackup_eq_ok.1 valid
      intro r mem
      obtain ⟨here, type⟩ := Store.mem_recordsOf.1 mem
      have found := mem_rows_iff.1 here
      rcases imported.entry r.key with ⟨t, -, -, -, _, -, -, entry⟩ | ⟨-, ⟨a, planned, -, -, row, incoming, entry⟩ | ⟨-, entry⟩⟩
      · rw [entry] at found
        cases found
      · rw [entry] at found
        cases found
        obtain ⟨sources, -, -⟩ := plan_eq_ok imported.planned
        have member : a.1 ∈ backup.records := sources ▸ List.mem_map_of_mem planned
        right
        intro c belongs
        exact imported_parent accepted imported member (incoming_parent accepted member incoming belongs)
      · rw [entry] at found
        exact .inl (Store.mem_recordsOf.2 ⟨mem_rows_iff.2 found, type⟩)

theorem workspaceStep_rooted {input : Context × WorkspaceCall} (disjoint : db.Disjoint) (rooted : Rooted db) :
    (workspaceStep db input).Disjoint ∧ Rooted (workspaceStep db input) := by
  refine ⟨(step_evolves (input.1, .workspace input.2) disjoint).1, ?_⟩
  intro r mem c belongs
  rcases settle_cases (input.2.body input.1 db) db with ok | same
  · rcases WorkspaceCall.body_items ok r mem with old | new
    · exact workspaceStep_knows disjoint (rooted r old c belongs)
    · exact new c belongs
  · rw [workspaceStep, same] at mem
    exact workspaceStep_knows disjoint (rooted r mem c belongs)

/-- **Runs** forget no parent of a live item. -/
theorem reaches_rooted (reach : Runs.Reaches workspaceStep Store.empty db) : db.Disjoint ∧ Rooted db := by
  have start : Rooted Store.empty := by
    intro r mem
    exact absurd (Store.mem_recordsOf.1 mem).1 List.not_mem_nil
  exact reach.invariant (I := fun db => db.Disjoint ∧ Rooted db) ⟨empty_disjoint, start⟩
    fun _ _ h => workspaceStep_rooted h.1 h.2

/-! ## Runs -/

/-- The call is not refused. -/
def Succeeds (db : Store) (input : Context × WorkspaceCall) : Prop :=
  (input.2.body input.1 db).isOk = true

/-- The call deletes no collection without the items that name it, and imports no item without its collections. -/
structure Safe (db : Store) (input : Context × WorkspaceCall) : Prop where
  /-- Every live item that names the deleted collection names it in its data. -/
  deletes : ∀ c expectedRevision, input.2 = .deleteCollection c expectedRevision → Succeeds db input →
    ∀ r ∈ db.recordsOf itemEntityType, ∀ d, Names r d → collectionKey d = collectionKey c → collectionNamed r = some c
  /-- Every item that a fresh import writes names collections that are live, or that the import brings and no tombstone bars. -/
  imports : ∀ inject raw digest backup, input.2 = .importBackup inject raw digest → Succeeds db input →
    validateWorkspaceBackup input.1.settings.portableSecrets raw = .ok backup →
    db.imports.find? (fun row => row.sourceDigest = backup.digest) = none →
    ∀ r ∈ backup.records, r.entityType = itemEntityType → Writes db backup r → ∀ c,
      r.role = .evidenceItem c ∨ r.payload.get? "collectionId" = some (.str c) → Harbors db backup c

/-- **One call** keeps every item harbored when it is safe. -/
theorem workspaceStep_harbored {input : Context × WorkspaceCall} (harbored : Harbored db) (safe : Safe db input) :
    Harbored (workspaceStep db input) := by
  obtain ⟨ctx, call⟩ := input
  rcases settle_cases (call.body ctx db) db with ok | same
  · have whole : workspaceStep db (ctx, call) = settle (call.body ctx db) db := rfl
    have succeeds : Succeeds db (ctx, call) := by
      rw [Succeeds, ok]
      rfl
    rw [whole]
    generalize settle (call.body ctx db) db = db' at ok
    cases call with
    | createCollection args id =>
      obtain ⟨_, created⟩ := storeOf_eq_ok.1 ok
      obtain ⟨_, _, db₁, -, -, -, -, created, recorded⟩ := createCollection_eq_ok created
      obtain ⟨_, _, -, -, -, -, sets⟩ := createRecord_eq_ok created
      apply harbored.keep ((createRecord_same created (by decide)).trans (recordActivityIn_same recorded (by decide)))
      exact sets.keepsCollections.trans (recordActivityIn_same recorded (by decide)).keepsCollections
    | updateCollection id expected args =>
      obtain ⟨_, updated⟩ := storeOf_eq_ok.1 ok
      obtain ⟨_, _, _, _, db₁, -, -, -, -, replaced, recorded⟩ := updateCollection_eq_ok updated
      obtain ⟨_, _, _, -, -, -, -, sets⟩ := replaceRecord_eq_ok replaced
      apply harbored.keep ((replaceRecord_same replaced (by decide)).trans (recordActivityIn_same recorded (by decide)))
      exact sets.keepsCollections.trans (recordActivityIn_same recorded (by decide)).keepsCollections
    | deleteCollection id expected =>
      obtain ⟨_, deleted⟩ := storeOf_eq_ok.1 ok
      exact (deleteCollection_harbored deleted harbored).2 (safe.deletes id expected rfl succeeds)
    | addItem id args item =>
      obtain ⟨_, added⟩ := storeOf_eq_ok.1 ok
      exact addItem_harbored added harbored
    | deleteItem id item expected =>
      obtain ⟨_, deleted⟩ := storeOf_eq_ok.1 ok
      exact deleteItem_harbored deleted harbored
    | addNote id text reference note =>
      obtain ⟨_, added⟩ := storeOf_eq_ok.1 ok
      obtain ⟨items, collections⟩ := addNote_keeps added
      exact harbored.keep items collections
    | updateNote id note expected text =>
      obtain ⟨_, updated⟩ := storeOf_eq_ok.1 ok
      obtain ⟨_, _, _, _, _, _, _, db₁, -, -, -, -, replaced, recorded⟩ := updateNote_eq_ok updated
      apply harbored.keep ((replaceRecord_same replaced (by decide)).trans (recordActivityIn_same recorded (by decide)))
      exact ((replaceRecord_same replaced (by decide)).trans (recordActivityIn_same recorded (by decide))).keepsCollections
    | recordActivity id event t i =>
      have recorded := recordActivity_eq_ok ok
      exact harbored.keep (recordActivityIn_same recorded (by decide)) (recordActivityIn_same recorded (by decide)).keepsCollections
    | importBackup inject raw digest =>
      obtain ⟨receipt, done⟩ := storeOf_eq_ok.1 ok
      obtain ⟨backup, valid, -, rfl | ⟨unseen, fresh⟩⟩ := importBackup_eq_ok done
      · exact harbored
      · obtain ⟨imported, -⟩ := importFresh_eq_ok fresh
        obtain ⟨envelope, -, accepted⟩ := validateWorkspaceBackup_eq_ok.1 valid
        exact imported_harbored accepted imported harbored (safe.imports inject raw digest backup rfl succeeds valid unseen)
  · rw [workspaceStep, same]
    exact harbored

/-- **Referential integrity over runs.** In every run whose calls are safe, every collection that
a live item names is live, in every state. -/
theorem harbored_along {inputs : List (Context × WorkspaceCall)} (safe : Runs.Along workspaceStep Safe Store.empty inputs) :
    Runs.Throughout workspaceStep Harbored Store.empty inputs := by
  apply Runs.Along.throughout (fun _ _ => workspaceStep_harbored) _ safe
  intro r mem
  exact absurd (Store.mem_recordsOf.1 mem).1 List.not_mem_nil

/-! ## A safe run -/

def sampleItem : ItemArguments where
  itemKind := .str "document"
  citation := .str "p"
  excerpt := .str "q"
  reference := ⟨.obj [("document_id", .str "d")], by decide⟩
  snapshot := ⟨.null, by decide⟩

def sampleItemFields : ItemFields :=
  ⟨"document", "p", "q", ⟨[("document_id", .str "d")], by decide⟩, none⟩

/-- Add the item `i` to the collection `c`. -/
def sampleAddition : Context × WorkspaceCall :=
  (callContext "b", .addItem "c" sampleItem (some "i"))

/-- Delete the collection `c`. -/
def sampleDeletion : Context × WorkspaceCall :=
  (callContext "b", .deleteCollection "c" (.int 1))

/-- The collection `c` and one item of it, the row `row`. -/
structure HoldsSample (db : Store) (row : RecordRow) : Prop where
  live : db.entry (itemEntityType, stableId .evidenceItem "i") = (some row, none)
  alone : ∀ i ≠ stableId .evidenceItem "i", db.entry (itemEntityType, i) = (none, none)
  names : collectionNamed row = some "c"
  revision : row.revision = 1
  loaded : loadsObject row.payloadJson = some (itemPayload "i" "c" sampleItemFields 0).sorted
  notes : Same noteEntityType Store.empty db
  drawn : Recorded db ["b", "a"]
  collection : ∃ r payload, db.record? collectionEntityType (stableId .collection "c") = some r ∧
    loadsObject r.payloadJson = some payload
  time : (isoFromMs sampleContext.nowMs).isOk = true

/-- Creating a collection and adding an item to it leaves the item alone in the collection. -/
theorem sampleAddition_commits : ∃ db row, Runs.run workspaceStep Store.empty [sampleCreation, sampleAddition] = db ∧
    HoldsSample db row := by
  obtain ⟨db₁, payloadJson, timestamp, stepped, iso, text, wrote⟩ := sampleCreation_commits
  have items : Same itemEntityType Store.empty db₁ := wrote.same (by decide) (by decide)
  have notes : Same noteEntityType Store.empty db₁ := wrote.same (by decide) (by decide)
  obtain ⟨payload, read⟩ : ∃ payload, loadsObject payloadJson = some payload := by
    obtain ⟨_, payload, -, read, -⟩ := holds_canonical text
    exact ⟨payload, read⟩
  have few : memberCountIn db₁ "c" < maxItemsPerCollection := by
    rw [memberCountIn, childrenIn_empty items.recordsOf, childrenIn_empty notes.recordsOf]
    decide
  have referred : validateItemReference "document" sampleItem.reference = .ok sampleItemFields.reference := by rfl
  have shown : validateSnapshot sampleItem.snapshot = .ok sampleItemFields.snapshot := by rfl
  obtain ⟨itemJson, dumped⟩ : ∃ itemJson, canonicalPayload [] (itemPayload "i" "c" sampleItemFields 0) = .ok itemJson :=
    Checked.exists_ok (by decide +kernel)
  have can : CanRecord (callContext "b") 1 db₁ (some "c") "item_added" itemEntityType "i" :=
    (wrote.recorded .empty List.not_mem_nil).canRecord (by decide) (by decide) (by decide) (by decide +kernel)
  have chosen : chosenId (callContext "b") "itm" (some "i") "item_id" = .ok "i" := by decide
  have time : isoFromMs (callContext "b").nowMs = .ok timestamp := iso
  obtain ⟨db₂, record, added, wrote'⟩ := addItem_commits sample_named sample_legacy rfl (by decide) referred shown rfl rfl
    chosen (by decide) (congrArg Prod.fst wrote.entry_same) read few (items _) time dumped can
  have body : sampleAddition.2.body sampleAddition.1 db₁ = .ok db₂ := storeOf_eq_ok.2 ⟨record, added⟩
  obtain ⟨row, stored, first, live⟩ : ∃ row : RecordRow, row.payloadJson = itemJson ∧ row.revision = 1 ∧
      db₂.entry (itemEntityType, stableId .evidenceItem "i") = (some row, none) := ⟨_, rfl, rfl, wrote'.entry_same⟩
  have collections : Same collectionEntityType db₁ db₂ := wrote'.same (by decide) (by decide)
  have holds : Holds row.payloadJson (itemPayload "i" "c" sampleItemFields 0) := stored ▸ holds_canonical dumped
  refine ⟨db₂, row, ?_, ?_⟩
  · rw [Runs.run_cons, stepped, Runs.run_cons, Runs.run_nil, workspaceStep, body]
    rfl
  constructor
  case live => exact live
  case revision => exact first
  case notes => exact notes.trans (wrote'.same (by decide) (by decide))
  case drawn => exact wrote'.recorded (wrote.recorded .empty List.not_mem_nil) (by decide)
  case collection => exact ⟨_, payload, congrArg Prod.fst ((collections _).trans wrote.entry_same), read⟩
  case time =>
    rw [iso]
    rfl
  case alone =>
    intro i other
    have type : itemEntityType ≠ activityEntityType := by decide
    rw [wrote'.entry_other]
    · exact items i
    · exact fun same => other (congrArg Prod.snd same)
    · exact fun same => type (congrArg Prod.fst same)
  case names =>
    rw [holds.collectionNamed (.inl rfl) rfl]
    rfl
  case loaded =>
    simp only [canonicalPayload, Checked.bind_eq_ok, Checked.orRaise_eq_ok] at dumped
    obtain ⟨_, -, dumped⟩ := dumped
    rw [stored]
    exact loadsObject_dumps dumped

theorem harbored_along_sample : ∃ db row, Runs.run workspaceStep Store.empty [sampleCreation, sampleAddition] = db ∧
    row ∈ db.recordsOf itemEntityType ∧
    Runs.Throughout workspaceStep Harbored Store.empty [sampleCreation, sampleAddition, sampleDeletion] := by
  obtain ⟨db, row, ran, sample⟩ := sampleAddition_commits
  have live := sample.live
  obtain ⟨here, key⟩ := Store.record?_eq_some.1
    (congrArg Prod.fst live : db.record? itemEntityType (stableId .evidenceItem "i") = some row)
  have mem : row ∈ db.recordsOf itemEntityType := Store.mem_recordsOf.2 ⟨here, congrArg Prod.fst key⟩
  refine ⟨db, row, ran, mem, harbored_along ⟨⟨nofun, nofun⟩, ⟨nofun, nofun⟩, ⟨?_, nofun⟩, trivial⟩⟩
  intro c expected deletes _ r member d named same
  obtain ⟨rfl, -⟩ := WorkspaceCall.deleteCollection.inj deletes
  rw [Runs.run_cons, Runs.run_cons, Runs.run_nil] at ran
  rw [ran] at member
  obtain ⟨inside, type⟩ := Store.mem_recordsOf.1 member
  have found := mem_rows_iff.1 inside
  by_cases one : r.entityId = stableId .evidenceItem "i"
  · have at_ : r.key = (itemEntityType, stableId .evidenceItem "i") := Prod.ext type one
    rw [at_, live] at found
    cases found
    exact sample.names
  · have at_ : r.key = (itemEntityType, r.entityId) := Prod.ext type rfl
    rw [at_, sample.alone r.entityId one] at found
    cases found

/-! ## A run that is not safe -/

/-- The collection `c` and one item of it. -/
def sampleReturn : ValidatedBackup where
  digest := ""
  conversations := []
  collections := [⟨.collection, "c", 2, 1, 0, 0, ⟨[("id", .str "c"), ("schemaVersion", .int 2), ("name", .str "n"),
    ("createdAt", .int 0), ("updatedAt", .int 0)], by decide⟩⟩]
  evidenceItems := [⟨.evidenceItem "c", "i", 2, 1, 0, 0, ⟨[("id", .str "i"), ("collectionId", .str "c"),
    ("citation", .str "p"), ("excerpt", .str "q"), ("savedAt", .int 0)], by decide⟩⟩]
  favorites := []
  tombstones := []
  unsupported := []

def sampleReturnExport : Exported where
  conversations := []
  collections := [⟨⟨.str "c", by decide⟩, ⟨.int 2, by decide⟩, 1, 0, 0, ⟨[("id", .str "c"), ("schemaVersion", .int 2),
    ("name", .str "n"), ("createdAt", .int 0), ("updatedAt", .int 0)], by decide⟩, none⟩]
  evidenceItems := [⟨⟨.str "i", by decide⟩, ⟨.int 2, by decide⟩, 1, 0, 0, ⟨[("id", .str "i"), ("collectionId", .str "c"),
    ("citation", .str "p"), ("excerpt", .str "q"), ("savedAt", .int 0)], by decide⟩, some ⟨.str "c", by decide⟩⟩]
  favorites := []
  tombstones := []
  unsupported := []

theorem sampleReturn_validates : ∃ raw digest,
    validateWorkspaceBackup sampleContext.settings.portableSecrets raw = .ok { sampleReturn with digest } := by
  have matched : Matches [] sampleReturnExport sampleReturn :=
    ⟨.nil, .cons (validateRecord_exported.1 (by decide +kernel)) .nil, .cons (validateRecord_exported.1 (by decide +kernel)) .nil,
      .nil, .nil, .nil, by decide⟩
  have limited : Limited sampleReturnExport := ⟨by decide, by decide, by decide, by decide, by decide, by decide⟩
  have time : validateExportedAt (.str "2024-01-01") = .ok () := by decide
  exact exported_validates matched limited time (by decide +kernel) (by decide +kernel)

/-- Creating the collection and deleting it buries it. -/
theorem sampleDeletion_commits : ∃ db tombstone, Runs.run workspaceStep Store.empty [sampleCreation, sampleDeletion] = db ∧
    db.entry (collectionKey "c") = (none, some tombstone) ∧ Same itemEntityType Store.empty db ∧ db.imports.rows = [] := by
  obtain ⟨db₁, payloadJson, timestamp, stepped, iso, text, wrote⟩ := sampleCreation_commits
  have items : Same itemEntityType Store.empty db₁ := wrote.same (by decide) (by decide)
  have notes : Same noteEntityType Store.empty db₁ := wrote.same (by decide) (by decide)
  have live := wrote.entry_same
  have bound : isSqliteInteger ((1 + 1 : Nat) : Int) = true := by decide
  obtain ⟨payload, read⟩ : ∃ payload, loadsObject payloadJson = some payload := by
    obtain ⟨_, payload, -, read, -⟩ := holds_canonical text
    exact ⟨payload, read⟩
  have can : CanRecord (callContext "b") 0 db₁ (some "c") "collection_deleted" collectionEntityType "c" :=
    (wrote.recorded .empty List.not_mem_nil).canRecord (by decide) (by decide) (by decide) (by decide +kernel)
  have time : isoFromMs (callContext "b").nowMs = .ok timestamp := iso
  obtain ⟨db₂, tombstone, deleted, wrote'⟩ := deleteCollection_commits sample_named sample_legacy
    live read (Nat.le_refl 1) bound time (childrenIn_empty items.recordsOf) (childrenIn_empty notes.recordsOf) can
  have body : sampleDeletion.2.body sampleDeletion.1 db₁ = .ok db₂ := storeOf_eq_ok.2 ⟨tombstone, deleted⟩
  refine ⟨db₂, _, ?_, wrote'.entry_same, items.trans (wrote'.same (by decide) (by decide)), ?_⟩
  · rw [Runs.run_cons, stepped, Runs.run_cons, Runs.run_nil, workspaceStep, body]
    rfl
  · rw [wrote'.imports, wrote.imports]
    rfl

/-- **An import leaves an item in a deleted collection**: the collection it brings is barred by
the tombstone, the item it brings is not. -/
theorem not_always_harbored : ¬ ∀ inputs, Runs.Throughout workspaceStep Harbored Store.empty inputs := by
  intro claim
  obtain ⟨db, tombstone, ran, dead, items, first⟩ := sampleDeletion_commits
  obtain ⟨raw, digest, valid⟩ := sampleReturn_validates
  have stored : ∀ r ∈ sampleReturn.records, storable r = true := List.all_eq_true.1 (by decide +kernel)
  have once : (sampleReturn.records.map BackupRecord.key).Nodup := by decide +kernel
  obtain ⟨db', receipt, done, ⟨imported⟩⟩ := first_import valid first stored once nofun
  let call : Context × WorkspaceCall := (sampleContext, .importBackup (fun _ _ => .ok ()) raw digest)
  have last : Runs.run workspaceStep Store.empty ([sampleCreation, sampleDeletion] ++ [call]) = db' := by
    have body : call.2.body call.1 db = .ok db' := storeOf_eq_ok.2 ⟨receipt, done⟩
    rw [Runs.run_append, ran, Runs.run_cons, Runs.run_nil, workspaceStep, body]
    rfl
  have harbored : Harbored db' := last ▸ (claim ([sampleCreation, sampleDeletion] ++ [call])).last
  obtain ⟨envelope, -, accepted⟩ := validateWorkspaceBackup_eq_ok.1 valid
  obtain ⟨sources, actions, -⟩ := plan_eq_ok imported.planned
  -- the collection stays deleted
  have barred : db'.entry (collectionKey "c") = (none, some tombstone) := by
    rcases imported.entry (collectionKey "c") with ⟨t, mem, -⟩ | ⟨-, ⟨a, planned, applies, key, -⟩ | ⟨-, entry⟩⟩
    · cases mem
    · have unburied := planRecord_applies (actions a planned) applies
      rw [key, dead] at unburied
      cases unburied
    · rw [entry, dead]
  -- the item is created
  let item : BackupRecord := ⟨.evidenceItem "c", "i", 2, 1, 0, 0, ⟨[("id", .str "i"), ("collectionId", .str "c"),
    ("citation", .str "p"), ("excerpt", .str "q"), ("savedAt", .int 0)], by decide⟩⟩
  have among : item ∈ sampleReturn.records := List.mem_cons_of_mem _ (List.mem_singleton_self item)
  have alone : ∀ q ∈ sampleReturn.records, q.key = item.key → q = item := by
    intro q mem key
    rcases List.mem_cons.1 mem with rfl | mem
    · exact absurd (congrArg Prod.fst key) (by decide)
    · exact List.mem_singleton.1 mem
  obtain ⟨row, incoming, live⟩ := imported_creates imported among (by decide) (items item.workspaceId) alone
  have belongs : parentOf row = some "c" := by
    rw [(incoming_holds accepted among incoming).parentOf]
    rfl
  obtain ⟨here, key⟩ := Store.record?_eq_some.1 (congrArg Prod.fst live : db'.record? item.key.1 item.key.2 = some row)
  have kept := harbored row (Store.mem_recordsOf.2 ⟨here, congrArg Prod.fst key⟩) "c" (.inl belongs)
  rw [Store.holdsCollection, barred] at kept
  cases kept

end Workspace
