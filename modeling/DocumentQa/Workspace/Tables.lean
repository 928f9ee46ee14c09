import Mathlib.Logic.Function.Basic
import DocumentQa.Workspace.Store

/-!
# The store as a map

What the tables say of one identity is its live row and its tombstone, `Store.entry`. Every
statement that writes updates that map at one identity, so what a write does to any other
identity is a fact about `Function.update`.
-/

namespace Workspace

open Python JsonText SqlTable

/-- `(entity_type, entity_id)`. -/
abbrev Key := String × String

def RecordRow.key (r : RecordRow) : Key :=
  (r.entityType, r.entityId)

def TombstoneRow.key (r : TombstoneRow) : Key :=
  (r.entityType, r.entityId)

namespace Store

variable {db db' : Store}

/-! ## Lookups -/

theorem record?_eq_some {k : Key} {r : RecordRow} :
    db.record? k.1 k.2 = some r ↔ r ∈ db.records.rows ∧ r.key = k := by
  constructor
  · intro h
    have holds := Table.find?_holds h
    simp only [Bool.and_eq_true, decide_eq_true_eq] at holds
    exact ⟨Table.find?_mem h, Prod.ext holds.1 holds.2⟩
  · rintro ⟨mem, rfl⟩
    refine Table.find?_eq_some_of_mem mem (by simp [RecordRow.key]) ?_
    intro a b ha hb
    simp only [Bool.and_eq_true, decide_eq_true_eq] at ha hb
    simp [clashes, Row.clash, Row.identity, ha, hb]

theorem tombstone?_eq_some {k : Key} {r : TombstoneRow} :
    db.tombstone? k.1 k.2 = some r ↔ r ∈ db.tombstones.rows ∧ r.key = k := by
  constructor
  · intro h
    have holds := Table.find?_holds h
    simp only [Bool.and_eq_true, decide_eq_true_eq] at holds
    exact ⟨Table.find?_mem h, Prod.ext holds.1 holds.2⟩
  · rintro ⟨mem, rfl⟩
    refine Table.find?_eq_some_of_mem mem (by simp [TombstoneRow.key]) ?_
    intro a b ha hb
    simp only [Bool.and_eq_true, decide_eq_true_eq] at ha hb
    simp [clashes, Row.clash, Row.identity, ha, hb]

theorem record?_of_mem {r : RecordRow} (h : r ∈ db.records.rows) : db.record? r.entityType r.entityId = some r :=
  record?_eq_some (k := r.key).2 ⟨h, rfl⟩

theorem mem_of_record? {t i : String} {r : RecordRow} (h : db.record? t i = some r) :
    r ∈ db.records.rows ∧ r.entityType = t ∧ r.entityId = i := by
  obtain ⟨mem, key⟩ := record?_eq_some (k := (t, i)).1 h
  exact ⟨mem, congrArg Prod.fst key, congrArg Prod.snd key⟩

theorem mem_of_tombstone? {t i : String} {r : TombstoneRow} (h : db.tombstone? t i = some r) :
    r ∈ db.tombstones.rows ∧ r.entityType = t ∧ r.entityId = i := by
  obtain ⟨mem, key⟩ := tombstone?_eq_some (k := (t, i)).1 h
  exact ⟨mem, congrArg Prod.fst key, congrArg Prod.snd key⟩

theorem mem_recordsOf {t : String} {r : RecordRow} :
    r ∈ db.recordsOf t ↔ r ∈ db.records.rows ∧ r.entityType = t := by
  simp [recordsOf, Table.select, (List.perm_insertionSort _ _).mem_iff]

/-- Two lookups agree when they find the same rows. -/
theorem option_eq {α : Type} {x y : Option α} (h : ∀ a, x = some a ↔ y = some a) : x = y :=
  Option.ext h

/-! ## What the store says of an identity -/

/-- The live row and the tombstone of an identity. -/
def entry (db : Store) (k : Key) : Option RecordRow × Option TombstoneRow :=
  (db.record? k.1 k.2, db.tombstone? k.1 k.2)

/-- `db'` is `db` with the identity `k` set to `v`, its receipts unchanged. -/
structure Sets (db db' : Store) (k : Key) (v : Option RecordRow × Option TombstoneRow) : Prop where
  entry_eq : db'.entry = Function.update db.entry k v
  imports : db'.imports = db.imports

theorem Sets.entry_same {k : Key} {v} (h : Sets db db' k v) : db'.entry k = v := by
  rw [h.entry_eq, Function.update_self]

theorem Sets.entry_other {k k' : Key} {v} (h : Sets db db' k v) (ne : k' ≠ k) : db'.entry k' = db.entry k' := by
  rw [h.entry_eq, Function.update_of_ne ne]

theorem Sets.record_other {k k' : Key} {v} (h : Sets db db' k v) (ne : k' ≠ k) :
    db'.record? k'.1 k'.2 = db.record? k'.1 k'.2 :=
  congrArg Prod.fst (h.entry_other ne)

theorem Sets.trans {db'' : Store} {k : Key} {v w} (h : Sets db db' k v) (h' : Sets db' db'' k w) :
    Sets db db'' k w where
  entry_eq := by rw [h'.entry_eq, h.entry_eq, Function.update_idem]
  imports := h'.imports.trans h.imports

/-! ## Statements that write -/

theorem insertRecord_eq_ok {r : RecordRow} (h : db.insertRecord r = .ok db') :
    isSqliteInteger r.revision = true ∧ db.record? r.entityType r.entityId = none ∧
      Sets db db' r.key (some r, db.tombstone? r.entityType r.entityId) := by
  simp only [insertRecord, bindInteger, Checked.bind_eq_ok, Checked.require_eq_ok, Checked.orRaise_eq_ok,
    Checked.pure_eq_ok] at h
  obtain ⟨_, bound, records, inserted, rfl⟩ := h
  obtain ⟨free, rows⟩ := Table.insert?_eq_some.1 inserted
  have absent : db.record? r.entityType r.entityId = none := by
    cases found : db.record? r.entityType r.entityId with
    | none => rfl
    | some a =>
      obtain ⟨mem, type, id⟩ := mem_of_record? found
      have clash := free a mem
      simp [clashes, Row.clash, Row.identity, type, id] at clash
  refine ⟨bound, absent, ?_, rfl⟩
  funext k
  by_cases hk : k = r.key
  · subst hk
    rw [Function.update_self]
    refine Prod.ext ?_ rfl
    apply record?_eq_some.2
    simp [rows]
  · rw [Function.update_of_ne hk]
    refine Prod.ext (option_eq fun a => ?_) rfl
    change record? _ _ _ = _ ↔ record? _ _ _ = _
    rw [record?_eq_some, record?_eq_some, rows]
    simp only [List.mem_append, List.mem_singleton]
    constructor
    · rintro ⟨mem | rfl, rfl⟩
      · exact ⟨mem, rfl⟩
      · exact absurd rfl hk
    · rintro ⟨mem, rfl⟩
      exact ⟨.inl mem, rfl⟩

theorem putRecord_sets {r : RecordRow} (revision : Nat) (payloadJson createdAt updatedAt : String)
    (h : r ∈ db.records.rows) :
    Sets db (db.putRecord r.entityType r.entityId revision payloadJson createdAt updatedAt) r.key
      (some ⟨r.entityType, r.entityId, revision, payloadJson, createdAt, updatedAt⟩,
        db.tombstone? r.entityType r.entityId) where
  imports := rfl
  entry_eq := by
    funext k
    by_cases hk : k = r.key
    · subst hk
      rw [Function.update_self]
      refine Prod.ext ?_ rfl
      apply record?_eq_some.2
      rw [putRecord, Table.mem_update]
      exact ⟨⟨r, h, by simp⟩, rfl⟩
    · rw [Function.update_of_ne hk]
      refine Prod.ext (option_eq fun a => ?_) rfl
      change record? _ _ _ = _ ↔ record? _ _ _ = _
      rw [record?_eq_some, record?_eq_some, putRecord, Table.mem_update]
      constructor
      · rintro ⟨⟨b, mem, rfl⟩, rfl⟩
        split at hk
        · next same =>
          simp only [Bool.and_eq_true, decide_eq_true_eq] at same
          exact absurd (Prod.ext same.1 same.2) hk
        · next other => simpa [other] using mem
      · rintro ⟨mem, rfl⟩
        refine ⟨⟨a, mem, ?_⟩, rfl⟩
        rw [if_neg]
        intro same
        simp only [Bool.and_eq_true, decide_eq_true_eq] at same
        exact hk (Prod.ext same.1 same.2)

theorem deleteRecord_sets (db : Store) (k : Key) :
    Sets db (db.deleteRecord k.1 k.2) k (none, db.tombstone? k.1 k.2) where
  imports := rfl
  entry_eq := by
    have found (k' : Key) (a : RecordRow) : (db.deleteRecord k.1 k.2).record? k'.1 k'.2 = some a ↔
        k' ≠ k ∧ db.record? k'.1 k'.2 = some a := by
      rw [record?_eq_some, record?_eq_some, deleteRecord, Table.mem_delete, Bool.and_eq_false_iff]
      simp only [decide_eq_false_iff_not]
      constructor
      · rintro ⟨⟨mem, ne⟩, rfl⟩
        refine ⟨?_, mem, rfl⟩
        rintro rfl
        rcases ne with ne | ne <;> exact ne rfl
      · rintro ⟨ne, mem, rfl⟩
        refine ⟨⟨mem, ?_⟩, rfl⟩
        by_contra both
        rw [not_or, not_not, not_not] at both
        exact ne (Prod.ext both.1 both.2)
    funext k'
    by_cases hk : k' = k
    · subst hk
      rw [Function.update_self]
      refine Prod.ext (option_eq fun a => ?_) rfl
      change record? _ _ _ = _ ↔ _
      rw [found]
      simp
    · rw [Function.update_of_ne hk]
      refine Prod.ext (option_eq fun a => ?_) rfl
      change record? _ _ _ = _ ↔ record? _ _ _ = _
      rw [found]
      simp [hk]

theorem insertTombstone_eq_ok {r : TombstoneRow} (h : db.insertTombstone r = .ok db') :
    isSqliteInteger r.revision = true ∧ db.tombstone? r.entityType r.entityId = none ∧
      Sets db db' r.key (db.record? r.entityType r.entityId, some r) := by
  simp only [insertTombstone, bindInteger, Checked.bind_eq_ok, Checked.require_eq_ok, Checked.orRaise_eq_ok,
    Checked.pure_eq_ok] at h
  obtain ⟨_, bound, tombstones, inserted, rfl⟩ := h
  obtain ⟨free, rows⟩ := Table.insert?_eq_some.1 inserted
  have absent : db.tombstone? r.entityType r.entityId = none := by
    cases found : db.tombstone? r.entityType r.entityId with
    | none => rfl
    | some a =>
      obtain ⟨mem, type, id⟩ := mem_of_tombstone? found
      have clash := free a mem
      simp [clashes, Row.clash, Row.identity, type, id] at clash
  refine ⟨bound, absent, ?_, rfl⟩
  funext k
  by_cases hk : k = r.key
  · subst hk
    rw [Function.update_self]
    refine Prod.ext rfl ?_
    apply tombstone?_eq_some.2
    simp [rows]
  · rw [Function.update_of_ne hk]
    refine Prod.ext rfl (option_eq fun a => ?_)
    change tombstone? _ _ _ = _ ↔ tombstone? _ _ _ = _
    rw [tombstone?_eq_some, tombstone?_eq_some, rows]
    simp only [List.mem_append, List.mem_singleton]
    constructor
    · rintro ⟨mem | rfl, rfl⟩
      · exact ⟨mem, rfl⟩
      · exact absurd rfl hk
    · rintro ⟨mem, rfl⟩
      exact ⟨.inl mem, rfl⟩

theorem clashes_tombstone {r a : TombstoneRow} : clashes r a = true ↔ a.key = r.key := by
  simp only [clashes, Row.clash, Row.identity, TombstoneRow.key, decide_eq_true_eq]
  exact eq_comm

theorem upsertTombstone_eq_ok {r : TombstoneRow} (h : db.upsertTombstone r = .ok db') :
    isSqliteInteger r.revision = true ∧ Sets db db' r.key (db.record? r.entityType r.entityId, some r) := by
  simp only [upsertTombstone, bindInteger, Checked.bind_eq_ok, Checked.require_eq_ok, Checked.pure_eq_ok] at h
  obtain ⟨_, bound, rfl⟩ := h
  refine ⟨bound, ?_, rfl⟩
  have rewritten {a : TombstoneRow} (ha : a.key = r.key) :
      ({ a with revision := r.revision, deletedAt := r.deletedAt } : TombstoneRow) = r := by
    obtain ⟨type, id, revision, deletedAt⟩ := a
    obtain ⟨rfl, rfl⟩ := Prod.mk.inj ha
    rfl
  funext k
  by_cases hk : k = r.key
  · subst hk
    rw [Function.update_self]
    refine Prod.ext rfl ?_
    apply tombstone?_eq_some.2
    refine ⟨Table.mem_upsert.2 ?_, rfl⟩
    by_cases taken : ∃ a ∈ db.tombstones.rows, clashes r a = true
    · obtain ⟨a, mem, clash⟩ := taken
      exact .inr (.inr ⟨a, mem, clash, (rewritten (clashes_tombstone.1 clash)).symm⟩)
    · refine .inr (.inl ⟨?_, rfl⟩)
      intro a mem
      by_contra clash
      exact taken ⟨a, mem, by simpa using clash⟩
  · rw [Function.update_of_ne hk]
    refine Prod.ext rfl (option_eq fun a => ?_)
    change tombstone? _ _ _ = _ ↔ tombstone? _ _ _ = _
    rw [tombstone?_eq_some, tombstone?_eq_some]
    constructor
    · rintro ⟨mem, rfl⟩
      rcases Table.mem_upsert.1 mem with ⟨mem, -⟩ | ⟨-, rfl⟩ | ⟨b, -, clash, rfl⟩
      · exact ⟨mem, rfl⟩
      · exact absurd rfl hk
      · rw [rewritten (clashes_tombstone.1 clash)] at hk
        exact absurd rfl hk
    · rintro ⟨mem, rfl⟩
      refine ⟨Table.mem_upsert.2 (.inl ⟨mem, ?_⟩), rfl⟩
      by_contra clash
      exact hk (clashes_tombstone.1 (by simpa using clash))

theorem insertRecord_commits {row : RecordRow} (bound : isSqliteInteger row.revision = true)
    (absent : db.record? row.entityType row.entityId = none) : ∃ db', db.insertRecord row = .ok db' := by
  have free : ∃ records, db.records.insert? row = some records := by
    cases h : db.records.insert? row with
    | some records => exact ⟨records, rfl⟩
    | none =>
      rw [Table.insert?] at h
      split at h
      · next taken =>
        obtain ⟨a, mem, clash⟩ := List.any_eq_true.1 taken
        have same : a.key = row.key := by
          simp only [clashes, Row.clash, Row.identity, decide_eq_true_eq] at clash
          exact clash.symm
        have found : db.record? row.key.1 row.key.2 = some a := record?_eq_some.2 ⟨mem, same⟩
        rw [show db.record? row.key.1 row.key.2 = none from absent] at found
        cases found
      · cases h
  obtain ⟨records, inserted⟩ := free
  refine ⟨{ db with records }, ?_⟩
  simp only [insertRecord, bindInteger_eq_ok, Checked.bind_eq_ok, Checked.orRaise_eq_ok, Checked.pure_eq_ok]
  exact ⟨(), bound, records, inserted, rfl⟩

end Store

/-! ## The operations of the record repository -/

section Repository

variable {forbidden : List String} {db db' : Store} {entityType entityId timestamp : String} {payload : JsonObject}

/-- **What `create_in` does**: a fresh identity becomes live at revision 1. -/
theorem createIn_eq_ok {record : VersionedRecord}
    (h : createIn forbidden db entityType entityId payload timestamp = .ok (db', record)) :
    ∃ payloadJson, canonicalPayload forbidden payload = .ok payloadJson ∧ entityType ∈ entityTypes ∧
      db.entry (entityType, entityId) = (none, none) ∧
      Store.Sets db db' (entityType, entityId) (some ⟨entityType, entityId, 1, payloadJson, timestamp, timestamp⟩, none) := by
  simp only [createIn, validateEntity, Checked.bind_eq_ok, Checked.require_eq_ok, reraise_eq_ok, Checked.pure_eq_ok,
    Prod.mk.injEq] at h
  obtain ⟨_, ⟨_, type, -⟩, payloadJson, text, _, fresh, db₁, inserted, _, -, rfl, -⟩ := h
  obtain ⟨-, absent, sets⟩ := Store.insertRecord_eq_ok inserted
  refine ⟨payloadJson, text, type, Prod.ext absent fresh, ?_⟩
  rw [← fresh]
  exact sets

/-- A fresh identity can be created. -/
theorem createIn_commits {payloadJson : String} (entity : validateEntity entityType entityId = .ok ())
    (text : canonicalPayload forbidden payload = .ok payloadJson)
    (fresh : db.entry (entityType, entityId) = (none, none)) :
    ∃ db' record, createIn forbidden db entityType entityId payload timestamp = .ok (db', record) ∧
      Store.Sets db db' (entityType, entityId) (some ⟨entityType, entityId, 1, payloadJson, timestamp, timestamp⟩, none) := by
  obtain ⟨absent, unburied⟩ := Prod.mk.inj fresh
  have one : isSqliteInteger ((1 : Nat) : Int) = true := by decide
  obtain ⟨db₁, inserted⟩ : ∃ db₁, db.insertRecord ⟨entityType, entityId, 1, payloadJson, timestamp, timestamp⟩ = .ok db₁ :=
    Store.insertRecord_commits one absent
  have read : loadsObject payloadJson = some payload.sorted := by
    simp only [canonicalPayload, Checked.bind_eq_ok, Checked.orRaise_eq_ok] at text
    obtain ⟨_, -, dumped⟩ := text
    exact loadsObject_dumps dumped
  have done : createIn forbidden db entityType entityId payload timestamp =
      .ok (db₁, ⟨entityType, entityId, 1, payload.sorted, timestamp, timestamp⟩) := by
    simp only [createIn, Checked.bind_eq_ok, Checked.require_eq_ok, reraise_eq_ok, Checked.pure_eq_ok, recordOf,
      Checked.orRaise_eq_ok]
    exact ⟨(), entity, payloadJson, text, (), unburied, db₁, inserted, _, ⟨_, read, rfl⟩, rfl⟩
  obtain ⟨payloadJson', text', -, -, sets⟩ := createIn_eq_ok done
  obtain rfl : payloadJson = payloadJson' := Except.ok.inj (text.symm.trans text')
  exact ⟨db₁, _, done, sets⟩

/-- **What `replace_in` does**: a live identity gets a new payload at the next revision. -/
theorem replaceIn_eq_ok {expectedRevision : Int} {record : VersionedRecord}
    (h : replaceIn forbidden db entityType entityId payload expectedRevision timestamp = .ok (db', record)) :
    ∃ r payloadJson, canonicalPayload forbidden payload = .ok payloadJson ∧ db.record? entityType entityId = some r ∧
      (r.revision : Int) = expectedRevision ∧
      Store.Sets db db' (entityType, entityId)
        (some ⟨entityType, entityId, r.revision + 1, payloadJson, r.createdAt, timestamp⟩,
          db.tombstone? entityType entityId) := by
  simp only [replaceIn, Checked.bind_eq_ok] at h
  obtain ⟨_, -, _, -, payloadJson, text, _, -, h⟩ := h
  split at h
  · simp at h
  · next r found =>
    simp only [Checked.bind_eq_ok, Checked.require_eq_ok, Checked.pure_eq_ok, Prod.mk.injEq] at h
    obtain ⟨_, same, _, -, rfl, -⟩ := h
    obtain ⟨mem, rfl, rfl⟩ := Store.mem_of_record? found
    exact ⟨r, payloadJson, text, found, same, Store.putRecord_sets _ _ _ _ mem⟩

/-- **What `delete_in` does**: a live identity is buried at the next revision. -/
theorem deleteIn_eq_ok {expectedRevision : Int} {tombstone : TombstoneRow}
    (h : deleteIn db entityType entityId expectedRevision timestamp = .ok (db', tombstone)) :
    ∃ r, db.entry (entityType, entityId) = (some r, none) ∧ (r.revision : Int) = expectedRevision ∧
      tombstone = ⟨entityType, entityId, r.revision + 1, timestamp⟩ ∧
      Store.Sets db db' (entityType, entityId) (none, some tombstone) := by
  simp only [deleteIn, Checked.bind_eq_ok] at h
  obtain ⟨_, -, _, -, h⟩ := h
  split at h
  · simp at h
  · next r found =>
    simp only [Checked.bind_eq_ok, Checked.require_eq_ok, Checked.pure_eq_ok, Prod.mk.injEq] at h
    obtain ⟨_, same, db₁, inserted, rfl, rfl⟩ := h
    have removed := Store.deleteRecord_sets db (entityType, entityId)
    obtain ⟨-, fresh, sets⟩ := Store.insertTombstone_eq_ok inserted
    have fresh' : db.tombstone? entityType entityId = none := fresh
    have gone : (db.deleteRecord entityType entityId).record? entityType entityId = none :=
      congrArg Prod.fst removed.entry_same
    refine ⟨r, Prod.ext found fresh', same, rfl, ?_⟩
    have whole := removed.trans sets
    rw [gone] at whole
    exact whole

end Repository

end Workspace
