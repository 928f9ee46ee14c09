import DocumentQa.Transfer.Service
import DocumentQa.Workspace.Tables

/-!
# What an import does

The plan is computed against the store as it is found; the loops then write each planned
record and tombstone. `applyRecords_entry` and `applyTombstones_entry` say what the store
holds of an identity afterwards: what the last action on it wrote, or what it held before.
-/

namespace Transfer

open Python JsonText Workspace SqlTable

variable {inject : String → Nat → Except PyError Unit} {backup : ValidatedBackup} {db db' : Store}

def BackupRecord.key (r : BackupRecord) : Key :=
  (r.entityType, r.workspaceId)

def BackupTombstone.key (t : BackupTombstone) : Key :=
  (t.entityType, t.workspaceId)

/-! ## Planning -/

theorem plan_eq_ok {p : Plan} (h : plan db backup = .ok p) :
    p.records.map Prod.fst = backup.records ∧ (∀ a ∈ p.records, planRecord db backup a.1 = .ok a.2) ∧
      p.tombstones = backup.tombstones.map fun t => (t, planTombstone db t) := by
  simp only [plan, Checked.bind_eq_ok, Checked.pure_eq_ok] at h
  obtain ⟨records, collected, rfl⟩ := h
  refine ⟨?_, ?_, rfl⟩
  · have firsts : ∀ {rs : List BackupRecord} {actions : List (BackupRecord × Action)},
        List.Forall₂ (fun r a => (do let action ← planRecord db backup r; pure (r, action)) = Except.ok a) rs actions →
          actions.map Prod.fst = rs := by
      intro rs actions pairs
      induction pairs with
      | nil => rfl
      | cons head _ ih =>
        simp only [Checked.bind_eq_ok, Checked.pure_eq_ok] at head
        obtain ⟨action, -, rfl⟩ := head
        rw [List.map_cons, ih]
    exact firsts (Checked.collect_eq_ok.1 collected)
  · intro a mem
    obtain ⟨r, -, planned⟩ := Checked.collect_source collected mem
    simp only [Checked.bind_eq_ok, Checked.pure_eq_ok] at planned
    obtain ⟨action, planned, rfl⟩ := planned
    exact planned

/-- When a record is created: its identity is neither live nor deleted. -/
theorem planRecord_create {r : BackupRecord} (h : planRecord db backup r = .ok .create) :
    db.entry r.key = (none, none) := by
  unfold planRecord at h
  split at h
  · simp [Checked.pure_eq_ok] at h
  · next free =>
    simp only [Checked.bind_eq_ok] at h
    obtain ⟨incoming, -, h⟩ := h
    split at h
    · next absent => exact Prod.ext absent (Option.not_isSome_iff_eq_none.1 free)
    · split at h <;> try split at h <;> try split at h
      all_goals simp [Checked.pure_eq_ok] at h

/-- When a record is replaced: its identity is live, the backup's own, at a lower revision. -/
theorem planRecord_replace {r : BackupRecord} (h : planRecord db backup r = .ok .replaceOlder) :
    ∃ existing, db.entry r.key = (some existing, none) ∧
      ownedBy r.role.kind r.legacyId existing.payloadJson = true ∧ existing.revision < r.revision := by
  unfold planRecord at h
  split at h
  · simp [Checked.pure_eq_ok] at h
  · next free =>
    simp only [Checked.bind_eq_ok] at h
    obtain ⟨incoming, -, h⟩ := h
    split at h
    · simp [Checked.pure_eq_ok] at h
    · next existing found =>
      split at h
      · simp [Checked.pure_eq_ok] at h
      · next owned =>
        split at h
        · simp [Checked.pure_eq_ok] at h
        · split at h
          · next older => exact ⟨existing, Prod.ext found (Option.not_isSome_iff_eq_none.1 free), by simpa using owned, older⟩
          · simp [Checked.pure_eq_ok] at h

/-- When a tombstone writes: nothing of its identity is newer. -/
theorem planTombstone_applies {t : BackupTombstone} (h : (planTombstone db t).applies = true) :
    (∀ live, db.record? t.entityType t.workspaceId = some live →
      ownedBy .conversation t.legacyId live.payloadJson = true ∧ live.revision ≤ t.revision) ∧
    ∀ old, db.tombstone? t.entityType t.workspaceId = some old → old.revision < t.revision := by
  have reaches : outlives db t = false := by
    by_contra outlives_
    rw [Bool.not_eq_false] at outlives_
    rw [planTombstone, if_pos outlives_] at h
    cases h
  rw [planTombstone, if_neg (by rw [reaches]; nofun)] at h
  constructor
  · intro live found
    rw [outlives, found] at reaches
    simp only [Bool.or_eq_false_iff, Bool.not_eq_false', decide_eq_false_iff_not] at reaches
    exact ⟨reaches.1, by omega⟩
  · intro old found
    rw [found] at h
    dsimp only at h
    split at h
    · cases h
    · split at h
      · next older => exact older
      · cases h

/-! ## Applying -/

theorem incomingRow_eq_ok {r : BackupRecord} {row : RecordRow} (h : incomingRow backup r = .ok row) :
    ∃ payloadJson createdAt updatedAt, incomingText backup r = .ok payloadJson ∧
      isoFromTimestamp r.createdAt = .ok createdAt ∧ isoFromTimestamp r.updatedAt = .ok updatedAt ∧
      isSqliteInteger r.revision = true ∧
      row = ⟨r.entityType, r.workspaceId, r.revision, payloadJson, createdAt, updatedAt⟩ := by
  simp only [incomingRow, Checked.bind_eq_ok, Checked.pure_eq_ok, bindInteger, Checked.require_eq_ok] at h
  obtain ⟨payloadJson, text, createdAt, created, updatedAt, updated, _, bound, rfl⟩ := h
  exact ⟨payloadJson, createdAt, updatedAt, text, created, updated, bound, rfl⟩

theorem incomingRow_key {r : BackupRecord} {row : RecordRow} (h : incomingRow backup r = .ok row) : row.key = r.key := by
  obtain ⟨_, _, _, -, -, -, -, rfl⟩ := incomingRow_eq_ok h
  rfl

/-- One record action that writes sets the identity to the incoming row. -/
theorem applyRecord_sets {r : BackupRecord} {action : Action} (applies : action.applies = true)
    (present : action = .replaceOlder → db.record? r.entityType r.workspaceId ≠ none)
    (h : applyRecord backup db r action = .ok db') :
    ∃ row, incomingRow backup r = .ok row ∧ Store.Sets db db' r.key (some row, (db.entry r.key).2) := by
  cases action with
  | create =>
    simp only [applyRecord, Checked.bind_eq_ok] at h
    obtain ⟨row, incoming, inserted⟩ := h
    obtain ⟨-, -, sets⟩ := Store.insertRecord_eq_ok inserted
    have key := incomingRow_key incoming
    refine ⟨row, incoming, ?_⟩
    rw [key] at sets
    rw [← key]
    rw [← key] at sets
    exact sets
  | replaceOlder =>
    simp only [applyRecord, Checked.bind_eq_ok, Checked.pure_eq_ok] at h
    obtain ⟨row, incoming, rfl⟩ := h
    obtain ⟨existing, found⟩ := Option.ne_none_iff_exists'.1 (present rfl)
    obtain ⟨mem, type, id⟩ := Store.mem_of_record? found
    obtain ⟨payloadJson, createdAt, updatedAt, -, -, -, -, rfl⟩ := incomingRow_eq_ok incoming
    refine ⟨_, incoming, ?_⟩
    have sets := Store.putRecord_sets r.revision payloadJson createdAt updatedAt mem
    rw [type, id] at sets
    have key : existing.key = r.key := Prod.ext type id
    rw [key] at sets
    exact sets
  | duplicate => cases applies
  | conflict => cases applies
  | blockedByTombstone => cases applies

/-- **The record loop**: an identity holds what the last action on it wrote, or what it held. -/
theorem applyRecords_entry {n m : Nat} {actions : List (BackupRecord × Action)}
    (present : ∀ a ∈ actions, a.2 = .replaceOlder → db.record? a.1.entityType a.1.workspaceId ≠ none)
    (h : applyRecords inject backup db n actions = .ok (db', m)) :
    db'.imports = db.imports ∧ ∀ k,
      (∃ a ∈ actions, a.2.applies = true ∧ a.1.key = k ∧ ∃ row, incomingRow backup a.1 = .ok row ∧
        db'.entry k = (some row, (db.entry k).2)) ∨
      ((∀ a ∈ actions, a.2.applies = true → a.1.key ≠ k) ∧ db'.entry k = db.entry k) := by
  induction actions generalizing db n with
  | nil =>
    simp only [applyRecords, Checked.pure_eq_ok, Prod.mk.injEq] at h
    obtain ⟨rfl, -⟩ := h
    exact ⟨rfl, fun k => .inr ⟨by simp, rfl⟩⟩
  | cons a rest ih =>
    obtain ⟨r, action⟩ := a
    rw [applyRecords] at h
    split at h
    · next applies =>
      simp only [Checked.bind_eq_ok] at h
      obtain ⟨db₁, applied, ⟨⟩, -, h⟩ := h
      obtain ⟨row, incoming, sets⟩ := applyRecord_sets applies (present (r, action) (by simp)) applied
      have present₁ : ∀ a ∈ rest, a.2 = .replaceOlder → db₁.record? a.1.entityType a.1.workspaceId ≠ none := by
        intro a mem replaces
        by_cases same : a.1.key = r.key
        · have found : db₁.record? a.1.entityType a.1.workspaceId = some row := by
            have := congrArg Prod.fst sets.entry_same
            rw [← same] at this
            exact this
          rw [found]
          exact Option.some_ne_none row
        · have kept := sets.record_other same
          exact kept ▸ present a (List.mem_cons_of_mem _ mem) replaces
      obtain ⟨imports, entries⟩ := ih present₁ h
      refine ⟨imports.trans sets.imports, fun k => ?_⟩
      have second : (db₁.entry k).2 = (db.entry k).2 := by
        by_cases hk : k = r.key
        · rw [hk, sets.entry_same]
        · rw [sets.entry_other hk]
      rcases entries k with ⟨a, mem, applies', key, row', incoming', entry⟩ | ⟨untouched, entry⟩
      · exact .inl ⟨a, List.mem_cons_of_mem _ mem, applies', key, row', incoming', second ▸ entry⟩
      · by_cases hk : r.key = k
        · subst hk
          refine .inl ⟨(r, action), by simp, applies, rfl, row, incoming, ?_⟩
          rw [entry, sets.entry_same]
        · refine .inr ⟨?_, ?_⟩
          · intro a mem applies'
            rcases List.mem_cons.1 mem with rfl | mem
            · exact hk
            · exact untouched a mem applies'
          · rw [entry, sets.entry_other (Ne.symm hk)]
    · next idle =>
      obtain ⟨imports, entries⟩ := ih (fun a mem => present a (List.mem_cons_of_mem _ mem)) h
      refine ⟨imports, fun k => ?_⟩
      rcases entries k with ⟨a, mem, rest'⟩ | ⟨untouched, entry⟩
      · exact .inl ⟨a, List.mem_cons_of_mem _ mem, rest'⟩
      · refine .inr ⟨?_, entry⟩
        intro a mem applies'
        rcases List.mem_cons.1 mem with rfl | mem
        · exact absurd applies' idle
        · exact untouched a mem applies'

/-- The row a tombstone action leaves. -/
def tombstoneRow (t : BackupTombstone) (deletedAt : String) : TombstoneRow :=
  ⟨t.entityType, t.workspaceId, t.revision, deletedAt⟩

theorem applyTombstone_sets {t : BackupTombstone} {action : TombstoneAction} (applies : action.applies = true)
    (h : applyTombstone db t action = .ok db') :
    ∃ deletedAt, isoFromTimestamp t.deletedAt = .ok deletedAt ∧ isSqliteInteger t.revision = true ∧
      Store.Sets db db' t.key (none, some (tombstoneRow t deletedAt)) := by
  have both : ∀ {deletedAt : String},
      (db.deleteRecord t.entityType t.workspaceId).upsertTombstone (tombstoneRow t deletedAt) = .ok db' →
        isSqliteInteger t.revision = true ∧ Store.Sets db db' t.key (none, some (tombstoneRow t deletedAt)) := by
    intro deletedAt upserted
    obtain ⟨bound, sets⟩ := Store.upsertTombstone_eq_ok upserted
    have removed := Store.deleteRecord_sets db t.key
    have gone : (db.deleteRecord t.entityType t.workspaceId).record? t.entityType t.workspaceId = none :=
      congrArg Prod.fst removed.entry_same
    have whole := removed.trans sets
    refine ⟨bound, ?_⟩
    rw [show (tombstoneRow t deletedAt).entityType = t.entityType from rfl,
      show (tombstoneRow t deletedAt).entityId = t.workspaceId from rfl, gone] at whole
    exact whole
  cases action with
  | create =>
    simp only [applyTombstone, Checked.bind_eq_ok] at h
    obtain ⟨deletedAt, iso, upserted⟩ := h
    exact ⟨deletedAt, iso, both upserted⟩
  | replace =>
    simp only [applyTombstone, Checked.bind_eq_ok] at h
    obtain ⟨deletedAt, iso, upserted⟩ := h
    exact ⟨deletedAt, iso, both upserted⟩
  | duplicate => cases applies
  | conflict => cases applies

/-- **The tombstone loop**: an identity holds what the last action on it left, or what it held. -/
theorem applyTombstones_entry {n : Nat} {actions : List (BackupTombstone × TombstoneAction)}
    (h : applyTombstones inject db n actions = .ok db') :
    db'.imports = db.imports ∧ ∀ k,
      (∃ a ∈ actions, a.2.applies = true ∧ a.1.key = k ∧ ∃ deletedAt, isoFromTimestamp a.1.deletedAt = .ok deletedAt ∧
        isSqliteInteger a.1.revision = true ∧ db'.entry k = (none, some (tombstoneRow a.1 deletedAt))) ∨
      ((∀ a ∈ actions, a.2.applies = true → a.1.key ≠ k) ∧ db'.entry k = db.entry k) := by
  induction actions generalizing db n with
  | nil =>
    rw [applyTombstones, Checked.pure_eq_ok] at h
    subst h
    exact ⟨rfl, fun k => .inr ⟨by simp, rfl⟩⟩
  | cons a rest ih =>
    obtain ⟨t, action⟩ := a
    rw [applyTombstones] at h
    split at h
    · next applies =>
      simp only [Checked.bind_eq_ok] at h
      obtain ⟨db₁, applied, ⟨⟩, -, h⟩ := h
      obtain ⟨deletedAt, iso, bound, sets⟩ := applyTombstone_sets applies applied
      obtain ⟨imports, entries⟩ := ih h
      refine ⟨imports.trans sets.imports, fun k => ?_⟩
      rcases entries k with ⟨a, mem, rest'⟩ | ⟨untouched, entry⟩
      · exact .inl ⟨a, List.mem_cons_of_mem _ mem, rest'⟩
      · by_cases hk : t.key = k
        · subst hk
          refine .inl ⟨(t, action), by simp, applies, rfl, deletedAt, iso, bound, ?_⟩
          rw [entry, sets.entry_same]
        · refine .inr ⟨?_, ?_⟩
          · intro a mem applies'
            rcases List.mem_cons.1 mem with rfl | mem
            · exact hk
            · exact untouched a mem applies'
          · rw [entry, sets.entry_other (Ne.symm hk)]
    · next idle =>
      obtain ⟨imports, entries⟩ := ih h
      refine ⟨imports, fun k => ?_⟩
      rcases entries k with ⟨a, mem, rest'⟩ | ⟨untouched, entry⟩
      · exact .inl ⟨a, List.mem_cons_of_mem _ mem, rest'⟩
      · refine .inr ⟨?_, entry⟩
        intro a mem applies'
        rcases List.mem_cons.1 mem with rfl | mem
        · exact absurd applies' idle
        · exact untouched a mem applies'

/-! ## The whole import -/

/-- What an import that is not a repetition leaves of the store. -/
structure Imported (backup : ValidatedBackup) (db db' : Store) where
  plan : Plan
  planned : Transfer.plan db backup = .ok plan
  /-- Every identity: buried by a tombstone, written by a record, or as it was. -/
  entry : ∀ k,
    (∃ t ∈ backup.tombstones, (planTombstone db t).applies = true ∧ t.key = k ∧ ∃ deletedAt,
      isoFromTimestamp t.deletedAt = .ok deletedAt ∧ isSqliteInteger t.revision = true ∧
      db'.entry k = (none, some (tombstoneRow t deletedAt))) ∨
    ((∀ t ∈ backup.tombstones, (planTombstone db t).applies = true → t.key ≠ k) ∧
      ((∃ a ∈ plan.records, a.2.applies = true ∧ a.1.key = k ∧ ∃ row, incomingRow backup a.1 = .ok row ∧
          db'.entry k = (some row, none)) ∨
        ((∀ a ∈ plan.records, a.2.applies = true → a.1.key ≠ k) ∧ db'.entry k = db.entry k)))

/-- An action that writes a record finds no tombstone of it. -/
theorem planRecord_applies {r : BackupRecord} {action : Action} (h : planRecord db backup r = .ok action)
    (applies : action.applies = true) : (db.entry r.key).2 = none := by
  cases action with
  | create => rw [planRecord_create h]
  | replaceOlder =>
    obtain ⟨_, entry, -⟩ := planRecord_replace h
    rw [entry]
  | duplicate => cases applies
  | conflict => cases applies
  | blockedByTombstone => cases applies

theorem insertImport_eq_ok {row : ImportRow} (h : insertImport db row = .ok db') :
    db'.records = db.records ∧ db'.tombstones = db.tombstones ∧ db.imports.insert? row = some db'.imports := by
  simp only [insertImport, Checked.bind_eq_ok, Checked.orRaise_eq_ok, Checked.pure_eq_ok] at h
  obtain ⟨imports, inserted, rfl⟩ := h
  exact ⟨rfl, rfl, inserted⟩

theorem entry_congr (records : db'.records = db.records) (tombstones : db'.tombstones = db.tombstones) :
    db'.entry = db.entry := by
  funext k
  rw [Store.entry, Store.entry, Store.record?, Store.record?, Store.tombstone?, Store.tombstone?, records, tombstones]

/-- **What a fresh import leaves.** -/
theorem importFresh_eq_ok {now : String} {receipt : Json} (h : importFresh inject now backup db = .ok (db', receipt)) :
    ∃ imported : Imported backup db db', ∃ row, receiptRow backup imported.plan now = .ok row ∧
      db.imports.insert? row = some db'.imports := by
  simp only [importFresh, Checked.bind_eq_ok, Checked.pure_eq_ok, Prod.mk.injEq, Prod.exists] at h
  obtain ⟨p, planned, db₁, n, records, db₂, tombstones, row, receipted, db₃, inserted, rfl, -⟩ := h
  obtain ⟨-, actions, buried⟩ := plan_eq_ok planned
  have present : ∀ a ∈ p.records, a.2 = .replaceOlder → db.record? a.1.entityType a.1.workspaceId ≠ none := by
    intro a mem replaces
    have action := actions a mem
    rw [replaces] at action
    obtain ⟨existing, entry, -⟩ := planRecord_replace action
    rw [show db.record? a.1.entityType a.1.workspaceId = some existing from congrArg Prod.fst entry]
    exact Option.some_ne_none existing
  obtain ⟨imports₁, entries₁⟩ := applyRecords_entry present records
  obtain ⟨imports₂, entries₂⟩ := applyTombstones_entry tombstones
  obtain ⟨sameRecords, sameTombstones, inserted⟩ := insertImport_eq_ok inserted
  have same := entry_congr sameRecords sameTombstones
  have entry : ∀ k,
      (∃ t ∈ backup.tombstones, (planTombstone db t).applies = true ∧ t.key = k ∧ ∃ deletedAt,
        isoFromTimestamp t.deletedAt = .ok deletedAt ∧ isSqliteInteger t.revision = true ∧
        db₃.entry k = (none, some (tombstoneRow t deletedAt))) ∨
      ((∀ t ∈ backup.tombstones, (planTombstone db t).applies = true → t.key ≠ k) ∧
        ((∃ a ∈ p.records, a.2.applies = true ∧ a.1.key = k ∧ ∃ row, incomingRow backup a.1 = .ok row ∧
            db₃.entry k = (some row, none)) ∨
          ((∀ a ∈ p.records, a.2.applies = true → a.1.key ≠ k) ∧ db₃.entry k = db.entry k))) := by
    intro k
    rw [same]
    rcases entries₂ k with ⟨a, mem, applies, key, written⟩ | ⟨untouched, kept⟩
    · rw [buried] at mem
      obtain ⟨t, ht, rfl⟩ := List.mem_map.1 mem
      exact .inl ⟨t, ht, applies, key, written⟩
    · refine .inr ⟨?_, ?_⟩
      · intro t ht applies
        exact untouched (t, planTombstone db t) (by rw [buried]; exact List.mem_map_of_mem ht) applies
      · rw [kept]
        rcases entries₁ k with ⟨a, mem, applies, rfl, row, incoming, written⟩ | ⟨untouched', kept'⟩
        · refine .inl ⟨a, mem, applies, rfl, row, incoming, ?_⟩
          rw [written, planRecord_applies (actions a mem) applies]
        · exact .inr ⟨untouched', kept'⟩
  refine ⟨⟨p, planned, entry⟩, row, receipted, ?_⟩
  rw [← imports₁, ← imports₂]
  exact inserted

/-- An import accepts a backup, and repeats an earlier one or is fresh. -/
theorem importBackup_eq_ok {ctx : Context} {raw : JsonValue} {digest : String} {receipt : Json}
    (h : importBackup inject ctx raw digest db = .ok (db', receipt)) :
    ∃ backup, validateWorkspaceBackup ctx.settings.portableSecrets raw = .ok backup ∧ digest = backup.digest ∧
      (db' = db ∨ (db.imports.find? (fun row => row.sourceDigest = backup.digest) = none ∧
        importFresh inject ctx.nowText backup db = .ok (db', receipt))) := by
  simp only [importBackup, Checked.bind_eq_ok, Checked.require_eq_ok] at h
  obtain ⟨backup, valid, _, same, h⟩ := h
  refine ⟨backup, valid, same, ?_⟩
  split at h
  · simp only [Checked.bind_eq_ok, Checked.pure_eq_ok, Prod.mk.injEq] at h
    obtain ⟨_, -, rfl, -⟩ := h
    exact .inl rfl
  · next absent => exact .inr ⟨absent, h⟩

end Transfer
