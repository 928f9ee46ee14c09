import DocumentQa.Lib.Ranking
import DocumentQa.Workspace.Rows

/-!
# The rows of one type

A write of one identity adds a row, replaces one or takes one away, and says nothing about
the other types. So a reader that scans one type sees the same rows after every write of
another, and a count over a type moves by what was written.
-/

namespace Workspace

open Python JsonText Transfer SqlTable

variable {db db' db'' : Store}

/-! ## Rows and identities -/

theorem mem_rows_iff {r : RecordRow} : r ∈ db.records.rows ↔ (db.entry r.key).1 = some r := by
  constructor
  · exact fun mem => Store.record?_eq_some.2 ⟨mem, rfl⟩
  · exact fun found => (Store.record?_eq_some.1 found).1

theorem keys_nodup (db : Store) : (db.records.rows.map RecordRow.key).Nodup := by
  apply List.pairwise_map.2 (db.records.lawful.imp _)
  intro a b apart same
  have clash : clashes a b = true := by
    simpa [clashes, Row.clash, Row.identity, RecordRow.key] using same
  rw [apart] at clash
  cases clash

theorem rows_nodup (db : Store) : db.records.rows.Nodup :=
  (keys_nodup db).of_map _

section Sets

variable {k : Key} {t : Option TombstoneRow} {r r' : RecordRow}

theorem Store.Sets.mem_rows {v : Option RecordRow × Option TombstoneRow} (h : Store.Sets db db' k v) (a : RecordRow) :
    a ∈ db'.records.rows ↔ if a.key = k then v.1 = some a else a ∈ db.records.rows := by
  rw [mem_rows_iff]
  split
  · next same => rw [same, h.entry_same]
  · next other => rw [h.entry_other other, mem_rows_iff]

/-- A row comes in. -/
theorem Store.Sets.rows_insert (h : Store.Sets db db' k (some r, t)) (key : r.key = k) (absent : (db.entry k).1 = none) :
    db'.records.rows.Perm (r :: db.records.rows) := by
  have fresh : r ∉ db.records.rows := by
    rw [mem_rows_iff, key, absent]
    exact nofun
  rw [List.perm_ext_iff_of_nodup (rows_nodup db') (List.nodup_cons.2 ⟨fresh, rows_nodup db⟩)]
  intro a
  rw [h.mem_rows, List.mem_cons]
  split
  · next same =>
    have gone : a ∉ db.records.rows := by
      rw [mem_rows_iff, same, absent]
      exact nofun
    rw [Option.some.injEq, or_iff_left gone, eq_comm]
  · next other =>
    have ne : a ≠ r := by
      rintro rfl
      exact other key
    rw [or_iff_right ne]

/-- A row takes the place of another. -/
theorem Store.Sets.rows_replace (h : Store.Sets db db' k (some r', t)) (key : r'.key = k)
    (found : (db.entry k).1 = some r) : (r :: db'.records.rows).Perm (r' :: db.records.rows) := by
  have old : r.key = k := (Store.record?_eq_some.1 found).2
  have mem : r ∈ db.records.rows := (Store.record?_eq_some.1 found).1
  by_cases same : r' = r
  · subst same
    apply List.Perm.cons
    rw [List.perm_ext_iff_of_nodup (rows_nodup db') (rows_nodup db)]
    intro a
    rw [h.mem_rows]
    split
    · next here => rw [mem_rows_iff, here, found]
    · exact Iff.rfl
  · have gone : r ∉ db'.records.rows := by
      rw [h.mem_rows, if_pos old, Option.some.injEq]
      exact same
    have fresh : r' ∉ db.records.rows := by
      rw [mem_rows_iff, key, found, Option.some.injEq]
      exact fun e => same e.symm
    rw [List.perm_ext_iff_of_nodup (List.nodup_cons.2 ⟨gone, rows_nodup db'⟩)
      (List.nodup_cons.2 ⟨fresh, rows_nodup db⟩)]
    intro a
    rw [List.mem_cons, List.mem_cons, h.mem_rows]
    split
    · next here =>
      rw [mem_rows_iff, here, found, Option.some.injEq, Option.some.injEq, or_comm, eq_comm, @eq_comm _ a r]
    · next other =>
      have ne : a ≠ r := by
        rintro rfl
        exact other old
      have ne' : a ≠ r' := by
        rintro rfl
        exact other key
      rw [or_iff_right ne, or_iff_right ne']

/-- A row goes. -/
theorem Store.Sets.rows_delete (h : Store.Sets db db' k (none, t)) (found : (db.entry k).1 = some r) :
    (r :: db'.records.rows).Perm db.records.rows := by
  have old : r.key = k := (Store.record?_eq_some.1 found).2
  have mem : r ∈ db.records.rows := (Store.record?_eq_some.1 found).1
  have gone : r ∉ db'.records.rows := by
    rw [h.mem_rows, if_pos old]
    exact nofun
  rw [List.perm_ext_iff_of_nodup (List.nodup_cons.2 ⟨gone, rows_nodup db'⟩) (rows_nodup db)]
  intro a
  rw [List.mem_cons, h.mem_rows]
  split
  · next here =>
    rw [mem_rows_iff, here, found, Option.some.injEq, eq_comm]
    simp
  · next other =>
    have ne : a ≠ r := by
      rintro rfl
      exact other old
    rw [or_iff_right ne]

end Sets

/-! ## Types -/

/-- The identities of a type stay as they are. -/
def Same (t : String) (db db' : Store) : Prop :=
  ∀ i, db'.entry (t, i) = db.entry (t, i)

theorem Same.refl (t : String) (db : Store) : Same t db db :=
  fun _ => rfl

theorem Same.trans {t : String} (h : Same t db db') (h' : Same t db' db'') : Same t db db'' :=
  fun i => (h' i).trans (h i)

theorem Store.Sets.same {k : Key} {v : Option RecordRow × Option TombstoneRow} (h : Store.Sets db db' k v) {t : String}
    (other : t ≠ k.1) : Same t db db' := by
  intro i
  apply h.entry_other
  rintro rfl
  exact other rfl

theorem recordsOf_perm (db : Store) (t : String) :
    (db.recordsOf t).Perm (db.records.rows.filter fun r => r.entityType = t) :=
  List.perm_insertionSort _ _

theorem recordsOf_nodup (db : Store) (t : String) : ((db.recordsOf t).map RecordRow.entityId).Nodup := by
  rw [((recordsOf_perm db t).map _).nodup_iff]
  have keys := ((keys_nodup db).sublist ((List.filter_sublist (p := fun r : RecordRow => r.entityType = t)).map _))
  rw [List.Nodup, List.pairwise_map] at keys ⊢
  apply keys.imp_of_mem
  intro a b memA memB apart same
  apply apart
  have typeA := of_decide_eq_true (List.mem_filter.1 memA).2
  have typeB := of_decide_eq_true (List.mem_filter.1 memB).2
  exact Prod.ext (typeA.trans typeB.symm) same

/-- Stores that agree on a type show the same rows of it. -/
theorem Same.recordsOf {t : String} (h : Same t db db') : db'.recordsOf t = db.recordsOf t := by
  have perm : (db'.records.rows.filter fun r => r.entityType = t).Perm (db.records.rows.filter fun r => r.entityType = t) := by
    rw [List.perm_ext_iff_of_nodup ((rows_nodup db').filter _) ((rows_nodup db).filter _)]
    intro r
    rw [List.mem_filter, List.mem_filter, decide_eq_true_eq]
    apply and_congr_left
    rintro rfl
    rw [mem_rows_iff, mem_rows_iff]
    exact iff_of_eq (congrArg (fun e : Option RecordRow × Option TombstoneRow => e.1 = some r) (h r.entityId))
  have distinct : ((db'.records.rows.filter fun r => r.entityType = t).map RecordRow.entityId).Nodup :=
    ((recordsOf_perm db' t).map _).nodup_iff.1 (recordsOf_nodup db' t)
  exact Ranking.ascending_perm distinct perm

/-- How many rows of a type satisfy `p`. -/
def tally (db : Store) (t : String) (p : RecordRow → Bool) : Nat :=
  (db.recordsOf t).countP p

theorem tally_eq (db : Store) (t : String) (p : RecordRow → Bool) :
    tally db t p = db.records.rows.countP fun r => p r && decide (r.entityType = t) := by
  rw [tally, (recordsOf_perm db t).countP_eq, List.countP_filter]

theorem Same.tally {t : String} (h : Same t db db') (p : RecordRow → Bool) : tally db' t p = tally db t p := by
  rw [Workspace.tally, h.recordsOf, Workspace.tally]

section Tally

variable {t i : String} {v : Option TombstoneRow} {r r' : RecordRow} (p : RecordRow → Bool)

theorem Store.Sets.tally_insert (h : Store.Sets db db' (t, i) (some r, v)) (key : r.key = (t, i))
    (absent : (db.entry (t, i)).1 = none) : tally db' t p = tally db t p + if p r = true then 1 else 0 := by
  rw [tally_eq, tally_eq, (h.rows_insert key absent).countP_eq, List.countP_cons, (entityType_eq key).1]
  simp

theorem Store.Sets.tally_replace (h : Store.Sets db db' (t, i) (some r', v)) (key : r'.key = (t, i))
    (found : (db.entry (t, i)).1 = some r) :
    (tally db' t p + if p r = true then 1 else 0) = tally db t p + if p r' = true then 1 else 0 := by
  have type : r.entityType = t := congrArg Prod.fst (Store.record?_eq_some.1 found).2
  have same := (h.rows_replace key found).countP_eq fun a => p a && decide (a.entityType = t)
  rw [List.countP_cons, List.countP_cons, (entityType_eq key).1, type] at same
  rw [tally_eq, tally_eq]
  simpa using same

theorem Store.Sets.tally_delete (h : Store.Sets db db' (t, i) (none, v)) (found : (db.entry (t, i)).1 = some r) :
    (tally db' t p + if p r = true then 1 else 0) = tally db t p := by
  have type : r.entityType = t := congrArg Prod.fst (Store.record?_eq_some.1 found).2
  have same := (h.rows_delete found).countP_eq fun a => p a && decide (a.entityType = t)
  rw [List.countP_cons, type] at same
  rw [tally_eq, tally_eq]
  simpa using same

end Tally

/-! ## Scans -/

theorem isMember_iff {c : String} {payload : JsonObject} : isMember c payload = true ↔
    ∃ data, unwrapPayload payload "record" = .ok data ∧ Json.lookup "collectionId" data = some (.str c) := by
  unfold isMember
  split
  · next data unwrapped =>
    rw [unwrapPayload_eq_ok, ← @unwrapPayload_eq_ok _ "record"] at unwrapped
    rw [namesCollection, decide_eq_true_eq]
    constructor
    · exact fun names => ⟨data, unwrapped, names⟩
    · rintro ⟨data', unwrapped', names⟩
      rw [unwrapped] at unwrapped'
      cases unwrapped'
      exact names
  · next e raised =>
    simp only [Bool.false_eq_true, false_iff]
    rintro ⟨data, unwrapped, -⟩
    rw [unwrapPayload_eq_ok, ← @unwrapPayload_eq_ok _ "member record", raised] at unwrapped
    cases unwrapped

/-- The members a scan finds are the rows that name the collection. -/
theorem childrenIn_eq (db : Store) (t c : String) :
    childrenIn db t c = (db.recordsOf t).filter fun r => collectionNamed r = some c := by
  rw [childrenIn, scanIn]
  induction db.recordsOf t with
  | nil => rfl
  | cons r rows ih =>
    rw [List.filterMap_cons, List.filter_cons]
    cases loaded : loadsObject r.payloadJson with
    | none =>
      have other : collectionNamed r = none := by rw [collectionNamed, dataOf, loaded, Option.bind_none, Option.bind_none]
      rw [Option.map_none, if_neg (by simp [other])]
      exact ih
    | some payload =>
      have named : isMember c payload = true ↔ collectionNamed r = some c := by
        rw [isMember_iff, collectionNamed, Option.bind_eq_some_iff]
        refine exists_congr fun data => ?_
        rw [textAt_eq_some, dataOf_eq_some, loaded]
        simp
      simp only [Option.map_some, List.filter_cons]
      by_cases here : isMember c payload = true
      · rw [if_pos here, if_pos (decide_eq_true (named.1 here)), List.map_cons, ih]
      · rw [if_neg here, if_neg (by simpa using fun h => here (named.2 h)), ih]

/-- The rows of a type that name a collection. -/
def named (db : Store) (t c : String) : Nat :=
  tally db t fun r => collectionNamed r = some c

theorem childrenIn_length (db : Store) (t c : String) : (childrenIn db t c).length = named db t c := by
  rw [childrenIn_eq, named, tally, List.countP_eq_length_filter]

theorem memberCountIn_eq (db : Store) (c : String) : memberCountIn db c = named db itemEntityType c + named db noteEntityType c := by
  rw [memberCountIn, childrenIn_length, childrenIn_length]

theorem noteCountIn_eq (db : Store) (c : String) : noteCountIn db c = named db noteEntityType c :=
  childrenIn_length db noteEntityType c

theorem mem_childrenIn {t c : String} {r : RecordRow} :
    r ∈ childrenIn db t c ↔ r ∈ db.records.rows ∧ r.entityType = t ∧ collectionNamed r = some c := by
  rw [childrenIn_eq, List.mem_filter, Store.mem_recordsOf, decide_eq_true_eq, and_assoc]

/-! ## What a record operation leaves alone -/

section Frames

variable {ctx : Context} {t : String}

theorem createRecord_same {t' i : String} {payload : JsonObject} {ms : Nat} {record : VersionedRecord}
    (h : createRecord ctx db t' i payload ms = .ok (db', record)) (other : t ≠ t') : Same t db db' := by
  obtain ⟨_, _, -, -, -, -, sets⟩ := createRecord_eq_ok h
  exact sets.same other

theorem replaceRecord_same {t' i : String} {payload : JsonObject} {expected : Int} {ms : Nat} {record : VersionedRecord}
    (h : replaceRecord ctx db t' i payload expected ms = .ok (db', record)) (other : t ≠ t') : Same t db db' := by
  obtain ⟨_, _, _, -, -, -, -, sets⟩ := replaceRecord_eq_ok h
  exact sets.same other

theorem deleteRecord_same {t' i : String} {expected : Int} {ms : Nat} {tombstone : TombstoneRow}
    (h : deleteRecord db t' i expected ms = .ok (db', tombstone)) (other : t ≠ t') : Same t db db' := by
  obtain ⟨_, _, -, -, -, -, sets⟩ := deleteRecord_eq_ok h
  exact sets.same other

theorem deleteAll_same {ms : Nat} {rows : List RecordRow} (h : deleteAll db ms rows = .ok db')
    (other : ∀ r ∈ rows, t ≠ r.entityType) : Same t db db' := by
  induction rows generalizing db with
  | nil =>
    rw [deleteAll, Checked.pure_eq_ok] at h
    subst h
    exact .refl t db
  | cons r rs ih =>
    simp only [deleteAll, Checked.bind_eq_ok, Prod.exists] at h
    obtain ⟨db₁, _, deleted, rest⟩ := h
    exact (deleteRecord_same deleted (other r List.mem_cons_self)).trans
      (ih rest fun a mem => other a (List.mem_cons_of_mem _ mem))

theorem pruneRows_same {ms : Nat} {rows : List RecordRow} (h : pruneRows db ms rows = .ok db')
    (other : ∀ r ∈ rows, t ≠ r.entityType) : Same t db db' := by
  induction rows generalizing db with
  | nil =>
    rw [pruneRows, Checked.pure_eq_ok] at h
    subst h
    exact .refl t db
  | cons r rs ih =>
    rw [pruneRows, Checked.bind_eq_ok] at h
    obtain ⟨db₁, pruned, rest⟩ := h
    have tail : Same t db₁ db' := ih rest fun a mem => other a (List.mem_cons_of_mem _ mem)
    rcases passOver_eq_ok pruned with rfl | ⟨_, deleted⟩
    · exact tail
    · exact (deleteRecord_same deleted (other r List.mem_cons_self)).trans tail

/-- The rows a scan shows are of its type. -/
theorem mem_scanIn {c : RecordRow × JsonObject} (h : c ∈ scanIn db t) :
    c.1 ∈ db.records.rows ∧ c.1.entityType = t ∧ loadsObject c.1.payloadJson = some c.2 := by
  rw [scanIn, List.mem_filterMap] at h
  obtain ⟨r, mem, e⟩ := h
  rw [Option.map_eq_some_iff] at e
  obtain ⟨payload, loaded, rfl⟩ := e
  obtain ⟨here, type⟩ := Store.mem_recordsOf.1 mem
  exact ⟨here, type, loaded⟩

/-- Recording an activity touches nothing but activities. -/
theorem recordActivityIn_same {k : Nat} {collectionId : Option String} {event t' i : String}
    (h : recordActivityIn ctx k db collectionId event t' i = .ok db') (other : t ≠ activityEntityType) : Same t db db' := by
  obtain ⟨ms, db₁, record, -, pruned, created⟩ := recordActivityIn_eq_ok h
  refine Same.trans ?_ (createRecord_same created other)
  unfold pruneActivityIn at pruned
  split at pruned
  · rw [Checked.pure_eq_ok] at pruned
    subst pruned
    exact .refl t db
  · dsimp only at pruned
    split at pruned
    · rw [Checked.pure_eq_ok] at pruned
      subst pruned
      exact .refl t db
    · apply pruneRows_same pruned
      intro r mem
      have sorted := List.mem_of_mem_take mem
      rw [List.mem_insertionSort] at sorted
      obtain ⟨c, here, rfl⟩ := List.mem_map.1 sorted
      rw [(mem_scanIn (List.mem_filter.1 here).1).2.1]
      exact other

end Frames

end Workspace
