import DocumentQa.Workspace.Views

/-!
# How many

The collection calls check their bounds inside the transaction that writes, and the activity of
a collection is pruned before it is added to. An import writes the same tables without a check.
`bounded_along` says that a run stays within the bounds when its imports leave room.
-/

namespace Workspace

open Python JsonText Transfer SqlTable

/-- The activity rows of a collection, as `_prune_activity_in` counts them. -/
def activityCountIn (db : Store) (collectionId : String) : Nat :=
  ((scanIn db activityEntityType).filter fun c => isActivityOf collectionId c.2).length

/-- The bounds of `collections.py`. -/
structure Bounded (db : Store) : Prop where
  collections : liveCountIn db collectionEntityType ≤ maxCollections
  members : ∀ c, memberCountIn db c ≤ maxItemsPerCollection
  notes : ∀ c, noteCountIn db c ≤ maxNotesPerCollection
  activity : ∀ c, activityCountIn db c ≤ maxActivityPerCollection

/-! ## Counts over rows -/

/-- The row is an activity of the collection. -/
def isActivityRow (c : String) (r : RecordRow) : Bool :=
  match loadsObject r.payloadJson with
  | some payload => isActivityOf c payload
  | none => false

section Counts

variable {ctx : Context} {db db' : Store}

theorem liveCountIn_eq (db : Store) (t : String) : liveCountIn db t = tally db t fun _ => true := by
  rw [tally, List.countP_true, Store.recordsOf, List.length_insertionSort]
  rfl

/-- The activity rows a scan finds are those of the collection. -/
theorem activityRows_eq (db : Store) (c : String) :
    ((scanIn db activityEntityType).filter fun a => isActivityOf c a.2).map Prod.fst =
      (db.recordsOf activityEntityType).filter (isActivityRow c) := by
  rw [scanIn]
  induction db.recordsOf activityEntityType with
  | nil => rfl
  | cons r rows ih =>
    rw [List.filterMap_cons, List.filter_cons, ← ih]
    cases loaded : loadsObject r.payloadJson with
    | none =>
      rw [isActivityRow, loaded]
      rfl
    | some payload =>
      rw [isActivityRow, loaded, Option.map_some]
      dsimp only
      rw [List.filter_cons]
      dsimp only
      split
      · rfl
      · rfl

theorem activityCountIn_eq (db : Store) (c : String) : activityCountIn db c = tally db activityEntityType (isActivityRow c) := by
  rw [activityCountIn, ← List.length_map Prod.fst, activityRows_eq, tally, List.countP_eq_length_filter]

/-- No count of a type grows. -/
def Shrinks (db db' : Store) : Prop :=
  ∀ t p, tally db' t p ≤ tally db t p

theorem Shrinks.refl (db : Store) : Shrinks db db :=
  fun _ _ => Nat.le_refl _

theorem Shrinks.trans {db'' : Store} (h : Shrinks db db') (h' : Shrinks db' db'') : Shrinks db db'' :=
  fun t p => (h' t p).trans (h t p)

theorem deleteRecord_shrinks {t i : String} {expected : Int} {ms : Nat} {tombstone : TombstoneRow}
    (h : deleteRecord db t i expected ms = .ok (db', tombstone)) : Shrinks db db' := by
  obtain ⟨r, _, -, live, -, -, sets⟩ := deleteRecord_eq_ok h
  intro t' p
  by_cases same : t' = t
  · subst same
    have moved := sets.tally_delete p (congrArg Prod.fst live)
    omega
  · rw [(deleteRecord_same h same).tally]

theorem deleteAll_shrinks {ms : Nat} {rows : List RecordRow} (h : deleteAll db ms rows = .ok db') : Shrinks db db' := by
  induction rows generalizing db with
  | nil =>
    rw [deleteAll, Checked.pure_eq_ok] at h
    subst h
    exact .refl db
  | cons r rows ih =>
    simp only [deleteAll, Checked.bind_eq_ok, Prod.exists] at h
    obtain ⟨db₁, _, deleted, rest⟩ := h
    exact (deleteRecord_shrinks deleted).trans (ih rest)

theorem Shrinks.bounded_activity (h : Shrinks db db') (bounded : ∀ c, activityCountIn db c ≤ maxActivityPerCollection)
    (c : String) : activityCountIn db' c ≤ maxActivityPerCollection := by
  have before := bounded c
  rw [activityCountIn_eq] at before ⊢
  exact (h _ _).trans before

theorem Shrinks.bounded (h : Shrinks db db') (bounded : Bounded db) : Bounded db' where
  collections := by
    rw [liveCountIn_eq]
    exact (h _ _).trans (liveCountIn_eq db _ ▸ bounded.collections)
  members := by
    intro c
    have items := h itemEntityType fun r => collectionNamed r = some c
    have notes := h noteEntityType fun r => collectionNamed r = some c
    have before := bounded.members c
    rw [memberCountIn_eq, named, named] at before ⊢
    omega
  notes := by
    intro c
    have before := bounded.notes c
    rw [noteCountIn_eq, named] at before ⊢
    exact (h _ _).trans before
  activity := h.bounded_activity bounded.activity

/-! ## Activity -/

/-- Deleting a live row at its revision raises no error of the collections. -/
theorem deleteRecord_error {t i : String} {r : RecordRow} {ms : Nat} {e : PyError} (live : db.record? t i = some r)
    (h : deleteRecord db t i r.revision ms = .error e) : e.kind ∉ collectionErrors := by
  have kinds : ∀ {raised : PyError} , (do let timestamp ← isoFromMs ms; deleteIn db t i r.revision timestamp) =
      (Except.error raised : Except PyError (Store × TombstoneRow)) →
      raised.kind = .valueError ∨ raised.kind = .overflowError ∨ raised.kind = .integrityError := by
    intro raised h
    rw [Checked.bind_eq_error] at h
    rcases h with time | ⟨timestamp, -, h⟩
    · simp only [isoFromMs, fromtimestamp, Checked.bind_eq_error, Checked.require_eq_error] at time
      rcases time with (⟨-, rfl⟩ | ⟨_, -, ⟨-, rfl⟩ | ⟨_, -, never⟩⟩) | ⟨_, -, never⟩
      · exact .inr (.inl rfl)
      · exact .inl rfl
      · cases never
      · cases never
    · simp only [deleteIn, validateEntity, Checked.bind_eq_error, Checked.require_eq_error, live, Store.insertTombstone,
        bindInteger, Checked.orRaise_eq_error] at h
      rcases h with (⟨-, rfl⟩ | ⟨_, -, -, rfl⟩) | ⟨_, -, ⟨-, rfl⟩ | ⟨_, -, ⟨other, -⟩ | ⟨_, -, h⟩⟩⟩
      · exact .inl rfl
      · exact .inl rfl
      · exact .inl rfl
      · exact absurd trivial other
      · rcases h with (⟨-, rfl⟩ | ⟨_, -, ⟨-, rfl⟩ | ⟨_, -, never⟩⟩) | ⟨_, -, never⟩
        · exact .inr (.inl rfl)
        · exact .inr (.inr rfl)
        · cases never
        · cases never
  rw [deleteRecord] at h
  cases body : (do let timestamp ← isoFromMs ms; deleteIn db t i r.revision timestamp : Except PyError (Store × TombstoneRow)) with
  | ok done =>
    rw [body] at h
    cases h
  | error raised =>
    rw [body] at h
    have same : raised = e := by
      have none_ : domainErrors.find? (fun c => c.1 = raised.kind) = none := by
        rcases kinds body with kind | kind | kind <;> rw [kind] <;> decide
      rw [Python.translate, none_] at h
      exact Except.error.inj h
    rw [← same]
    rcases kinds body with kind | kind | kind <;> rw [kind] <;> decide

/-- **Pruning deletes.** No deletion of a live row is passed over. -/
theorem pruneRows_deletes {ms : Nat} {rows : List RecordRow} (keys : (rows.map RecordRow.key).Nodup)
    (live : ∀ r ∈ rows, r ∈ db.records.rows) (h : pruneRows db ms rows = .ok db') : deleteAll db ms rows = .ok db' := by
  induction rows generalizing db with
  | nil => exact h
  | cons r rows ih =>
    rw [pruneRows, Checked.bind_eq_ok] at h
    obtain ⟨db₁, passed, rest⟩ := h
    have found : db.record? r.entityType r.entityId = some r := mem_rows_iff.1 (live r List.mem_cons_self)
    cases deleted : deleteRecord db r.entityType r.entityId r.revision ms with
    | error e =>
      rw [deleted, passOver, if_neg (deleteRecord_error found deleted)] at passed
      cases passed
    | ok done =>
      obtain ⟨db₂, tombstone⟩ := done
      rw [deleted, passOver, Checked.pure_eq_ok] at passed
      subst passed
      rw [List.map_cons, List.nodup_cons] at keys
      have still : ∀ a ∈ rows, a ∈ db₂.records.rows := by
        intro a mem
        rw [deleteRecord_mem deleted]
        refine ⟨live a (List.mem_cons_of_mem _ mem), fun same => keys.1 ?_⟩
        exact List.mem_map.2 ⟨a, mem, same⟩
      simp only [deleteAll, Checked.bind_eq_ok, Prod.exists]
      exact ⟨db₂, tombstone, deleted, ih keys.2 still rest⟩

/-- Deleting rows of one type takes away their number. -/
theorem deleteAll_tally {ms : Nat} {t : String} {rows : List RecordRow} (type : ∀ r ∈ rows, r.entityType = t)
    (live : ∀ r ∈ rows, r ∈ db.records.rows) (keys : (rows.map RecordRow.key).Nodup)
    (h : deleteAll db ms rows = .ok db') (p : RecordRow → Bool) : tally db' t p + rows.countP p = tally db t p := by
  induction rows generalizing db with
  | nil =>
    rw [deleteAll, Checked.pure_eq_ok] at h
    subst h
    rfl
  | cons r rows ih =>
    simp only [deleteAll, Checked.bind_eq_ok, Prod.exists] at h
    obtain ⟨db₁, _, deleted, rest⟩ := h
    rw [List.map_cons, List.nodup_cons] at keys
    have still : ∀ a ∈ rows, a ∈ db₁.records.rows := by
      intro a mem
      rw [deleteRecord_mem deleted]
      refine ⟨live a (List.mem_cons_of_mem _ mem), fun same => keys.1 ?_⟩
      exact List.mem_map.2 ⟨a, mem, same⟩
    have later := ih (fun a mem => type a (List.mem_cons_of_mem _ mem)) still keys.2 rest
    obtain ⟨r', _, -, found, -, -, sets⟩ := deleteRecord_eq_ok deleted
    have own : r' = r := by
      have here := mem_rows_iff.1 (live r List.mem_cons_self)
      exact Option.some.inj ((congrArg Prod.fst found).symm.trans here)
    subst own
    rw [type r' List.mem_cons_self] at sets found
    have first := sets.tally_delete p (congrArg Prod.fst found)
    rw [List.countP_cons]
    omega

/-- An activity that is written names its collection and no other. -/
theorem isActivityRow_holds {r : RecordRow} {id t i event at_ : String} {collectionId : Option String}
    (holds : Holds r.payloadJson (activityPayload id collectionId t i event at_)) (c : String) :
    isActivityRow c r = decide (collectionId = some c) := by
  obtain ⟨g, payload, reading, loaded, under⟩ := holds
  obtain ⟨data, e, within⟩ := reading.obj [("id", .str id), ("collectionId", optionalText collectionId), ("entityType", .str t),
    ("entityId", .str i), ("eventType", .str event), ("occurredAt", .str at_)]
  have distinct := ((Json.distinctKeys_obj _).1 (activityPayload id collectionId t i event at_).distinct).2
  have inside : payload.get? "data" = some (.obj data) := by
    rw [under, ← e]
    rfl
  have mark : payload.holdsInt "workspace_collection_activity" 1 = true := by
    have one : payload.get? "workspace_collection_activity" = some (.int 1) := by
      rw [under, ← reading.int 1]
      rfl
    rw [JsonObject.holdsInt, one]
    rfl
  have own : Json.lookup "collectionId" data = some (g (optionalText collectionId)) := by
    rw [within (distinct ("data", _) (by simp [activityPayload, object]))]
    rfl
  rw [isActivityRow, loaded]
  dsimp only
  rw [isActivityOf, inside]
  dsimp only
  rw [mark, Bool.true_and, namesCollection, own]
  cases collectionId with
  | none =>
    rw [optionalText, reading.null]
    rfl
  | some d =>
    rw [optionalText, reading.str]
    simp only [Option.some.injEq, Json.str.injEq]

/-- **Recording an activity** leaves every collection within its bound. -/
theorem recordActivityIn_activity {k : Nat} {collectionId : Option String} {event t i : String}
    (h : recordActivityIn ctx k db collectionId event t i = .ok db')
    (bounded : ∀ c, activityCountIn db c ≤ maxActivityPerCollection) (c : String) :
    activityCountIn db' c ≤ maxActivityPerCollection := by
  obtain ⟨ms, db₁, record, -, pruned, created⟩ := recordActivityIn_eq_ok h
  -- the new row counts for its own collection, which has room after the pruning
  have room : activityCountIn db₁ c ≤ maxActivityPerCollection ∧
      (collectionId = some c → activityCountIn db₁ c < maxActivityPerCollection) := by
    unfold pruneActivityIn at pruned
    split at pruned
    · rw [Checked.pure_eq_ok] at pruned
      subst pruned
      refine ⟨bounded c, fun same => ?_⟩
      cases same
    · next d =>
      dsimp only at pruned
      split at pruned
      · next few =>
        rw [Checked.pure_eq_ok] at pruned
        subst pruned
        rw [List.length_map] at few
        refine ⟨bounded c, fun same => ?_⟩
        rw [← Option.some.inj same]
        exact few
      · next many =>
        rw [activityRows_eq] at pruned many
        generalize own : (db.recordsOf activityEntityType).filter (isActivityRow d) = rows at pruned many
        generalize sorted : rows.insertionSort (fun a b => Store.keyLe (a.updatedAt, a.entityId) (b.updatedAt, b.entityId)) =
          oldest at pruned
        have perm : oldest.Perm rows := sorted ▸ List.perm_insertionSort _ rows
        have facts : ∀ r ∈ oldest.take (rows.length - maxActivityPerCollection + 1),
            r ∈ db.records.rows ∧ r.entityType = activityEntityType ∧ isActivityRow d r = true := by
          intro r mem
          have inside := perm.mem_iff.1 (List.mem_of_mem_take mem)
          rw [← own, List.mem_filter, Store.mem_recordsOf] at inside
          exact ⟨inside.1.1, inside.1.2, inside.2⟩
        have keys : ((oldest.take (rows.length - maxActivityPerCollection + 1)).map RecordRow.key).Nodup := by
          have all : (rows.map RecordRow.key).Nodup := by
            rw [← own]
            have every : ((db.recordsOf activityEntityType).map RecordRow.key).Nodup := by
              rw [((recordsOf_perm db activityEntityType).map _).nodup_iff]
              exact (keys_nodup db).sublist (List.filter_sublist.map _)
            exact every.sublist (List.filter_sublist.map _)
          exact ((perm.map _).nodup_iff.2 all).sublist ((List.take_sublist _ _).map _)
        have deleted := pruneRows_deletes keys (fun r mem => (facts r mem).1) pruned
        constructor
        · exact (deleteAll_shrinks deleted).bounded_activity bounded c
        · intro same
          have counted := deleteAll_tally (fun r mem => (facts r mem).2.1) (fun r mem => (facts r mem).1) keys deleted
            (isActivityRow d)
          have every : (oldest.take (rows.length - maxActivityPerCollection + 1)).countP (isActivityRow d) =
              min (rows.length - maxActivityPerCollection + 1) rows.length := by
            rw [List.countP_eq_length.2 fun r mem => (facts r mem).2.2, List.length_take, perm.length_eq]
          have before : tally db activityEntityType (isActivityRow d) = rows.length := by
            rw [tally, List.countP_eq_length_filter, own]
          have positive : 0 < maxActivityPerCollection := by decide
          rw [every, before] at counted
          rw [← Option.some.inj same, activityCountIn_eq]
          omega
  obtain ⟨timestamp, payloadJson, -, text, -, fresh, sets⟩ := createRecord_eq_ok created
  generalize made : RecordRow.mk activityEntityType (ctx.generateId "act" k) 1 payloadJson timestamp timestamp = row at sets
  have stored : row.payloadJson = payloadJson := by rw [← made]
  have key : row.key = (activityEntityType, ctx.generateId "act" k) := by
    rw [← made]
    rfl
  have holds := holds_canonical text
  rw [← stored] at holds
  rw [activityCountIn_eq] at room ⊢
  rw [sets.tally_insert _ key (congrArg Prod.fst fresh), isActivityRow_holds holds c]
  obtain ⟨most, less⟩ := room
  by_cases own : collectionId = some c
  · have few := less own
    rw [if_pos (decide_eq_true own)]
    omega
  · rw [if_neg (by simpa using own)]
    omega

theorem liveCountIn_same {t : String} (h : Same t db db') : liveCountIn db' t = liveCountIn db t := by
  rw [liveCountIn_eq, h.tally, liveCountIn_eq]

theorem named_same {t c : String} (h : Same t db db') : named db' t c = named db t c := by
  rw [named, h.tally, named]

theorem recordActivityIn_bounded {k : Nat} {collectionId : Option String} {event t i : String}
    (h : recordActivityIn ctx k db collectionId event t i = .ok db') (bounded : Bounded db) : Bounded db' where
  collections := by
    rw [liveCountIn_same (recordActivityIn_same h (by decide))]
    exact bounded.collections
  members := by
    intro c
    rw [memberCountIn_eq, named_same (recordActivityIn_same h (by decide)), named_same (recordActivityIn_same h (by decide)),
      ← memberCountIn_eq]
    exact bounded.members c
  notes := by
    intro c
    rw [noteCountIn_eq, named_same (recordActivityIn_same h (by decide)), ← noteCountIn_eq]
    exact bounded.notes c
  activity := recordActivityIn_activity h bounded.activity

/-! ## Calls of the collections -/

/-- A created member counts for the collection it names. -/
theorem createRecord_named {t i id : String} {payload : JsonObject} {ms : Nat} {record : VersionedRecord}
    (h : createRecord ctx db t i payload ms = .ok (db', record))
    (names : ∀ r : RecordRow, Holds r.payloadJson payload → collectionNamed r = some id) (c : String) :
    named db' t c = named db t c + if id = c then 1 else 0 := by
  obtain ⟨timestamp, payloadJson, -, text, -, fresh, sets⟩ := createRecord_eq_ok h
  generalize made : RecordRow.mk t i 1 payloadJson timestamp timestamp = row at sets
  have stored : row.payloadJson = payloadJson := by rw [← made]
  have key : row.key = (t, i) := by
    rw [← made]
    rfl
  have holds := holds_canonical text
  rw [← stored] at holds
  rw [named, sets.tally_insert _ key (congrArg Prod.fst fresh), names row holds, named]
  simp only [Option.some.injEq, decide_eq_true_eq]

theorem addNote_bounded {id : String} {text : Json} {evidenceRef : Option JsonValue} {given : Option String}
    {record : VersionedRecord} (h : addNote ctx id text evidenceRef given db = .ok (db', record)) (bounded : Bounded db) :
    Bounded db' := by
  obtain ⟨noteText, reference, noteId, r, db₁, -, -, -, notes, members, created, recorded⟩ := addNote_eq_ok h
  apply recordActivityIn_bounded recorded
  have count := createRecord_named created fun r holds => by
    rw [holds.collectionNamed (.inr rfl) rfl]
    rfl
  have items : Same itemEntityType db db₁ := createRecord_same created (by decide)
  refine ⟨?_, ?_, ?_, ?_⟩
  · rw [liveCountIn_same (createRecord_same created (by decide))]
    exact bounded.collections
  · intro c
    have before := bounded.members c
    rw [memberCountIn_eq] at before members ⊢
    rw [named_same items, count c]
    split
    · next same =>
      rw [← same] at before ⊢
      omega
    · omega
  · intro c
    have before := bounded.notes c
    rw [noteCountIn_eq] at before notes ⊢
    rw [count c]
    split
    · next same =>
      rw [← same] at before ⊢
      omega
    · omega
  · intro c
    rw [activityCountIn_eq, (createRecord_same created (by decide)).tally, ← activityCountIn_eq]
    exact bounded.activity c

theorem addItem_bounded {id : String} {args : ItemArguments} {given : Option String} {record : VersionedRecord}
    (h : addItem ctx id args given db = .ok (db', record)) (bounded : Bounded db) : Bounded db' := by
  rcases addItem_eq_ok h with ⟨_, _, _, note⟩ |
    ⟨fields, itemId, r, db₁, -, -, -, -, -, -, -, -, -, members, created, recorded⟩
  · exact addNote_bounded note bounded
  · apply recordActivityIn_bounded recorded
    have count := createRecord_named created fun r holds => by
      rw [holds.collectionNamed (.inl rfl) rfl]
      rfl
    have notes : Same noteEntityType db db₁ := createRecord_same created (by decide)
    refine ⟨?_, ?_, ?_, ?_⟩
    · rw [liveCountIn_same (createRecord_same created (by decide))]
      exact bounded.collections
    · intro c
      have before := bounded.members c
      rw [memberCountIn_eq] at before members ⊢
      rw [named_same notes, count c]
      split
      · next same =>
        rw [← same] at before ⊢
        omega
      · omega
    · intro c
      rw [noteCountIn_eq, named_same notes, ← noteCountIn_eq]
      exact bounded.notes c
    · intro c
      rw [activityCountIn_eq, (createRecord_same created (by decide)).tally, ← activityCountIn_eq]
      exact bounded.activity c

theorem createCollection_bounded {args : CollectionArguments} {given : Option String} {record : VersionedRecord}
    (h : createCollection ctx args given db = .ok (db', record)) (bounded : Bounded db) : Bounded db' := by
  obtain ⟨fields, id, db₁, -, -, -, room, created, recorded⟩ := createCollection_eq_ok h
  apply recordActivityIn_bounded recorded
  obtain ⟨timestamp, payloadJson, -, -, -, fresh, sets⟩ := createRecord_eq_ok created
  refine ⟨?_, ?_, ?_, ?_⟩
  · have one := sets.tally_insert (fun _ => true) rfl (congrArg Prod.fst fresh)
    rw [liveCountIn_eq] at room ⊢
    rw [one, if_pos rfl]
    exact room
  · intro c
    rw [memberCountIn_eq, named_same (createRecord_same created (by decide)),
      named_same (createRecord_same created (by decide)), ← memberCountIn_eq]
    exact bounded.members c
  · intro c
    rw [noteCountIn_eq, named_same (createRecord_same created (by decide)), ← noteCountIn_eq]
    exact bounded.notes c
  · intro c
    rw [activityCountIn_eq, (createRecord_same created (by decide)).tally, ← activityCountIn_eq]
    exact bounded.activity c

/-- A replaced row that counts as the old one did moves no count. -/
theorem replaceRecord_shrinks {t i : String} {payload : JsonObject} {expected : Int} {ms : Nat} {record : VersionedRecord}
    (h : replaceRecord ctx db t i payload expected ms = .ok (db', record)) {p : RecordRow → Bool}
    (same : ∀ r r' : RecordRow, db.record? t i = some r → Holds r'.payloadJson payload → p r' = p r) :
    tally db' t p = tally db t p := by
  obtain ⟨r, timestamp, payloadJson, -, text, found, -, sets⟩ := replaceRecord_eq_ok h
  generalize made : RecordRow.mk t i (r.revision + 1) payloadJson r.createdAt timestamp = row at sets
  have stored : row.payloadJson = payloadJson := by rw [← made]
  have key : row.key = (t, i) := by
    rw [← made]
    rfl
  have holds := holds_canonical text
  rw [← stored] at holds
  have moved := sets.tally_replace p key found
  rw [same r row found holds] at moved
  omega

theorem updateCollection_bounded {id : String} {expectedRevision : Json} {args : CollectionArguments}
    {record : VersionedRecord} (h : updateCollection ctx id expectedRevision args db = .ok (db', record))
    (bounded : Bounded db) : Bounded db' := by
  obtain ⟨_, _, _, _, db₁, -, -, -, -, replaced, recorded⟩ := updateCollection_eq_ok h
  apply recordActivityIn_bounded recorded
  refine ⟨?_, ?_, ?_, ?_⟩
  · rw [liveCountIn_eq, replaceRecord_shrinks replaced fun _ _ _ _ => rfl, ← liveCountIn_eq]
    exact bounded.collections
  · intro c
    rw [memberCountIn_eq, named_same (replaceRecord_same replaced (by decide)),
      named_same (replaceRecord_same replaced (by decide)), ← memberCountIn_eq]
    exact bounded.members c
  · intro c
    rw [noteCountIn_eq, named_same (replaceRecord_same replaced (by decide)), ← noteCountIn_eq]
    exact bounded.notes c
  · intro c
    rw [activityCountIn_eq, (replaceRecord_same replaced (by decide)).tally, ← activityCountIn_eq]
    exact bounded.activity c

/-- A note is updated in the collection it names. -/
theorem updateNote_bounded {id noteId : String} {expectedRevision text : Json} {record : VersionedRecord}
    (h : updateNote ctx id noteId expectedRevision text db = .ok (db', record)) (bounded : Bounded db) : Bounded db' := by
  obtain ⟨r, payload, data, _, _, _, _, db₁, found, loaded, unwrapped, names, replaced, recorded⟩ := updateNote_eq_ok h
  apply recordActivityIn_bounded recorded
  have own : collectionNamed r = some id := by
    have read : dataOf r = some data :=
      dataOf_eq_some.2 ⟨payload, loaded, unwrapPayload_eq_ok.2 (unwrapPayload_eq_ok.1 unwrapped)⟩
    rw [collectionNamed, read, Option.bind_some, textAt_eq_some]
    exact of_decide_eq_true names
  have notes : ∀ c, named db₁ noteEntityType c = named db noteEntityType c := by
    intro c
    apply replaceRecord_shrinks replaced
    intro old new there holds
    rw [found, Option.some.injEq] at there
    subst there
    have still : collectionNamed new = some id := by
      rw [holds.collectionNamed (.inr rfl) rfl]
      rfl
    rw [own, still]
  refine ⟨?_, ?_, ?_, ?_⟩
  · rw [liveCountIn_same (replaceRecord_same replaced (by decide))]
    exact bounded.collections
  · intro c
    rw [memberCountIn_eq, named_same (replaceRecord_same replaced (by decide)), notes, ← memberCountIn_eq]
    exact bounded.members c
  · intro c
    rw [noteCountIn_eq, notes, ← noteCountIn_eq]
    exact bounded.notes c
  · intro c
    rw [activityCountIn_eq, (replaceRecord_same replaced (by decide)).tally, ← activityCountIn_eq]
    exact bounded.activity c

theorem deleteCollection_bounded {id : String} {expectedRevision : Json} {tombstone : TombstoneRow}
    (h : deleteCollection ctx id expectedRevision db = .ok (db', tombstone)) (bounded : Bounded db) : Bounded db' := by
  obtain ⟨_, db₁, db₂, db₃, -, -, items, notes, deleted, recorded⟩ := deleteCollection_eq_ok h
  apply recordActivityIn_bounded recorded
  have fewer : Shrinks db db₃ :=
    (deleteAll_shrinks items).trans ((deleteAll_shrinks notes).trans (deleteRecord_shrinks deleted))
  exact fewer.bounded bounded

theorem deleteItem_bounded {id itemId : String} {expectedRevision : Json} {tombstone : TombstoneRow}
    (h : deleteItem ctx id itemId expectedRevision db = .ok (db', tombstone)) (bounded : Bounded db) : Bounded db' := by
  obtain ⟨_, _, _, _, db₁, -, deleted, recorded⟩ := deleteItem_eq_ok h
  exact recordActivityIn_bounded recorded ((deleteRecord_shrinks deleted).bounded bounded)

/-! ## Imports -/

/-- The import writes the record. -/
def writesRecord (db : Store) (backup : ValidatedBackup) (r : BackupRecord) : Bool :=
  match planRecord db backup r with
  | .ok action => action.applies
  | .error _ => false

/-- The import writes over the row. -/
def overwrites (db : Store) (backup : ValidatedBackup) (r : RecordRow) : Bool :=
  backup.records.any fun w => writesRecord db backup w && decide (w.key = r.key)

/-- The rows of a type that satisfy `p` and stay, and the records of it that satisfy `q` and are written. -/
def countAfter (db : Store) (backup : ValidatedBackup) (t : String) (p : RecordRow → Bool) (q : BackupRecord → Bool) : Nat :=
  tally db t (fun r => p r && !overwrites db backup r) +
    backup.records.countP fun w => decide (w.entityType = t) && writesRecord db backup w && q w

/-- The import leaves every count within its bound. -/
structure Fits (db : Store) (backup : ValidatedBackup) : Prop where
  collections : countAfter db backup collectionEntityType (fun _ => true) (fun _ => true) ≤ maxCollections
  members : ∀ c, countAfter db backup itemEntityType (fun r => collectionNamed r = some c)
    (fun w => w.payload.get? "collectionId" = some (.str c)) + noteCountIn db c ≤ maxItemsPerCollection

section Imports

variable {secrets : List String} {envelope : JsonObject} {backup : ValidatedBackup}

/-- An import writes conversations, collections and items. -/
theorem imported_same (imported : Imported backup db db') {t : String}
    (other : ∀ kind : RecordKind, kind.entityType ≠ t) : Same t db db' := by
  intro i
  rcases imported.entry (t, i) with ⟨b, -, -, key, -⟩ | ⟨-, ⟨a, -, -, key, -⟩ | ⟨-, entry⟩⟩
  · exact absurd (congrArg Prod.fst key) (other .conversation)
  · exact absurd (congrArg Prod.fst key) (other a.1.role.kind)
  · exact entry

/-- **What an import leaves of a type** is what it did not write over and what it wrote. -/
theorem imported_tally (imported : Imported backup db db') {t : String} (other : t ≠ "conversation") {p : RecordRow → Bool}
    {q : BackupRecord → Bool}
    (carried : ∀ w ∈ backup.records, ∀ row, incomingRow backup w = .ok row → p row = true → q w = true) :
    tally db' t p ≤ countAfter db backup t p q := by
  obtain ⟨sources, actions, -⟩ := plan_eq_ok imported.planned
  have applied : ∀ a ∈ imported.plan.records, writesRecord db backup a.1 = a.2.applies := by
    intro a mem
    rw [writesRecord, actions a mem]
  let kept := (db.recordsOf t).filter fun r => p r && !overwrites db backup r
  let written := (backup.records.filter fun w => decide (w.entityType = t) && writesRecord db backup w && q w).filterMap
    fun w => (incomingRow backup w).toOption
  have covered : (db'.recordsOf t).filter p ⊆ kept ++ written := by
    intro r mem
    obtain ⟨mem, holds⟩ := List.mem_filter.1 mem
    obtain ⟨here, type⟩ := Store.mem_recordsOf.1 mem
    have found := mem_rows_iff.1 here
    rw [List.mem_append]
    rcases imported.entry r.key with ⟨b, -, -, key, -⟩ | ⟨-, ⟨a, planned, applies, key, row, incoming, entry⟩ | ⟨untouched, entry⟩⟩
    · have conversation : r.entityType = "conversation" := tombstone_key key
      exact absurd (type.symm.trans conversation) other
    · right
      rw [entry] at found
      cases found
      have member : a.1 ∈ backup.records := sources ▸ List.mem_map_of_mem planned
      rw [List.mem_filterMap]
      refine ⟨a.1, List.mem_filter.2 ⟨member, ?_⟩, by rw [incoming]; rfl⟩
      have own : a.1.entityType = t := (congrArg Prod.fst key).trans type
      rw [decide_eq_true own, applied a planned, applies, carried a.1 member r incoming holds]
      rfl
    · left
      rw [entry] at found
      refine List.mem_filter.2 ⟨Store.mem_recordsOf.2 ⟨mem_rows_iff.2 found, type⟩, ?_⟩
      have alone : overwrites db backup r = false := by
        rw [overwrites, List.any_eq_false]
        intro w member hit
        rw [Bool.and_eq_true, decide_eq_true_eq] at hit
        rw [← sources] at member
        obtain ⟨a, planned, rfl⟩ := List.mem_map.1 member
        rw [applied a planned] at hit
        exact untouched a planned hit.1 hit.2
      rw [holds, alone]
      rfl
  have nodup : ((db'.recordsOf t).filter p).Nodup := (recordsOf_nodup db' t).of_map.filter _
  calc tally db' t p = ((db'.recordsOf t).filter p).length := List.countP_eq_length_filter
    _ ≤ (kept ++ written).length := (List.subperm_of_subset nodup covered).length_le
    _ = kept.length + written.length := List.length_append
    _ ≤ countAfter db backup t p q := by
      rw [countAfter, tally, List.countP_eq_length_filter, List.countP_eq_length_filter]
      exact Nat.add_le_add_left (List.length_filterMap_le _ _) _

theorem imported_bounded (accepted : Accepted secrets envelope backup) (imported : Imported backup db db') (fits : Fits db backup)
    (bounded : Bounded db) : Bounded db' := by
  have notes : Same noteEntityType db db' := by
    apply imported_same imported
    intro kind
    cases kind <;> decide
  have activity : Same activityEntityType db db' := by
    apply imported_same imported
    intro kind
    cases kind <;> decide
  refine ⟨?_, ?_, ?_, ?_⟩
  · rw [liveCountIn_eq]
    exact (imported_tally imported (by decide) fun _ _ _ _ _ => rfl).trans fits.collections
  · intro c
    have items : named db' itemEntityType c ≤ countAfter db backup itemEntityType (fun r => collectionNamed r = some c)
        (fun w => w.payload.get? "collectionId" = some (.str c)) := by
      apply imported_tally imported (by decide)
      intro w mem row incoming names
      rw [decide_eq_true_eq, (incoming_holds accepted mem incoming).collectionNamed (.inl rfl) rfl] at names
      exact decide_eq_true (textAt_eq_some.1 names)
    have room := fits.members c
    rw [memberCountIn_eq, named_same notes, ← noteCountIn_eq]
    omega
  · intro c
    rw [noteCountIn_eq, named_same notes, ← noteCountIn_eq]
    exact bounded.notes c
  · intro c
    rw [activityCountIn_eq, activity.tally, ← activityCountIn_eq]
    exact bounded.activity c

end Imports

/-! ## Runs -/

/-- A fresh import fits. -/
def Roomy (db : Store) (input : Context × WorkspaceCall) : Prop :=
  ∀ inject raw digest backup, input.2 = .importBackup inject raw digest →
    validateWorkspaceBackup input.1.settings.portableSecrets raw = .ok backup →
    db.imports.find? (fun row => row.sourceDigest = backup.digest) = none → Fits db backup

/-- **One call** keeps within the bounds, when an import fits. -/
theorem workspaceStep_bounded {input : Context × WorkspaceCall} (bounded : Bounded db) (roomy : Roomy db input) :
    Bounded (workspaceStep db input) := by
  obtain ⟨ctx, call⟩ := input
  rcases settle_cases (call.body ctx db) db with ok | same
  · have whole : workspaceStep db (ctx, call) = settle (call.body ctx db) db := rfl
    rw [whole]
    generalize settle (call.body ctx db) db = db' at ok
    cases call with
    | createCollection args id =>
      obtain ⟨_, created⟩ := storeOf_eq_ok.1 ok
      exact createCollection_bounded created bounded
    | updateCollection id expected args =>
      obtain ⟨_, updated⟩ := storeOf_eq_ok.1 ok
      exact updateCollection_bounded updated bounded
    | deleteCollection id expected =>
      obtain ⟨_, deleted⟩ := storeOf_eq_ok.1 ok
      exact deleteCollection_bounded deleted bounded
    | addItem id args item =>
      obtain ⟨_, added⟩ := storeOf_eq_ok.1 ok
      exact addItem_bounded added bounded
    | deleteItem id item expected =>
      obtain ⟨_, deleted⟩ := storeOf_eq_ok.1 ok
      exact deleteItem_bounded deleted bounded
    | addNote id text reference note =>
      obtain ⟨_, added⟩ := storeOf_eq_ok.1 ok
      exact addNote_bounded added bounded
    | updateNote id note expected text =>
      obtain ⟨_, updated⟩ := storeOf_eq_ok.1 ok
      exact updateNote_bounded updated bounded
    | recordActivity id event t i => exact recordActivityIn_bounded (recordActivity_eq_ok ok) bounded
    | importBackup inject raw digest =>
      obtain ⟨receipt, done⟩ := storeOf_eq_ok.1 ok
      obtain ⟨backup, valid, -, rfl | ⟨unseen, fresh⟩⟩ := importBackup_eq_ok done
      · exact bounded
      · obtain ⟨imported, -⟩ := importFresh_eq_ok fresh
        obtain ⟨envelope, -, accepted⟩ := validateWorkspaceBackup_eq_ok.1 valid
        exact imported_bounded accepted imported (roomy inject raw digest backup rfl valid unseen) bounded
  · rw [workspaceStep, same]
    exact bounded

theorem bounded_throughout {inputs : List (Context × WorkspaceCall)} (roomy : Runs.Along workspaceStep Roomy Store.empty inputs) :
    Runs.Throughout workspaceStep Bounded Store.empty inputs := by
  apply Runs.Along.throughout (fun _ _ => workspaceStep_bounded) _ roomy
  refine ⟨by decide, fun c => ?_, fun c => ?_, fun c => ?_⟩
  · exact Nat.zero_le _
  · exact Nat.zero_le _
  · exact Nat.zero_le _

end Counts

end Workspace
