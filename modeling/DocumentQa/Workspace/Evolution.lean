import DocumentQa.Lib.Lifecycle
import DocumentQa.Transfer.Delivery
import DocumentQa.Workspace.Steps
import DocumentQa.Workspace.System

/-!
# How identities evolve

The record operations move one identity forward: absent to live, live to a later live
revision, live to a tombstone one revision up (`Evolves`). An import moves each identity of
its backup at most once past what the plan saw, and may bury a live record at the record's
own revision (`Imports`).
-/

namespace Workspace

open Python JsonText Transfer SqlTable Lifecycle

/-! ## Slots -/

/-- The content of a live record: payload and timestamps. -/
abbrev Content := String × String × String

/-- The life of an identity as the tables tell it. -/
def slotOf : Option RecordRow × Option TombstoneRow → Slot Content String
  | (_, some d) => .dead d.revision d.deletedAt
  | (some r, none) => .live r.revision (r.payloadJson, r.createdAt, r.updatedAt)
  | (none, none) => .absent

def Store.slot (db : Store) (k : Key) : Slot Content String :=
  slotOf (db.entry k)

/-- No identity is both live and deleted. -/
def Store.Disjoint (db : Store) : Prop :=
  ∀ k, (db.entry k).1 = none ∨ (db.entry k).2 = none

/-- From a store whose tables are disjoint: they stay so, and every identity moves forward. -/
def Evolves (db db' : Store) : Prop :=
  db.Disjoint → db'.Disjoint ∧ ∀ k, (db.slot k).Follows (db'.slot k)

theorem Evolves.refl (db : Store) : Evolves db db :=
  fun disjoint => ⟨disjoint, fun _ => .refl _⟩

theorem Evolves.trans {a b c : Store} (h : Evolves a b) (h' : Evolves b c) : Evolves a c := by
  intro disjoint
  obtain ⟨mid, follows⟩ := h disjoint
  obtain ⟨last, follows'⟩ := h' mid
  exact ⟨last, fun k => (follows k).trans (follows' k)⟩

section Sets

variable {db db' : Store} {k : Key} {v : Option RecordRow × Option TombstoneRow}

theorem Store.Sets.disjoint (h : Store.Sets db db' k v) (one : v.1 = none ∨ v.2 = none) (disjoint : db.Disjoint) :
    db'.Disjoint := by
  intro k'
  by_cases hk : k' = k
  · subst hk
    rw [h.entry_same]
    exact one
  · rw [h.entry_other hk]
    exact disjoint k'

theorem Store.Sets.slot_same (h : Store.Sets db db' k v) : db'.slot k = slotOf v := by
  rw [Store.slot, h.entry_same]

theorem Store.Sets.slot_other {k' : Key} (h : Store.Sets db db' k v) (ne : k' ≠ k) : db'.slot k' = db.slot k' := by
  rw [Store.slot, Store.slot, h.entry_other ne]

/-- A write of one identity is lawful when it moves that identity forward. -/
theorem Store.Sets.evolves (h : Store.Sets db db' k v) (one : db.Disjoint → v.1 = none ∨ v.2 = none)
    (forward : db.Disjoint → (db.slot k).Follows (slotOf v)) : Evolves db db' := by
  intro disjoint
  refine ⟨h.disjoint (one disjoint) disjoint, ?_⟩
  intro k'
  by_cases hk : k' = k
  · subst hk
    rw [h.slot_same]
    exact forward disjoint
  · rw [h.slot_other hk]
    exact .refl _

end Sets

variable {ctx : Context} {db db' : Store}

/-! ## Record operations -/

theorem createIn_evolves {forbidden : List String} {t i timestamp : String} {payload : JsonObject}
    {record : VersionedRecord} (h : createIn forbidden db t i payload timestamp = .ok (db', record)) : Evolves db db' := by
  obtain ⟨payloadJson, -, -, fresh, sets⟩ := createIn_eq_ok h
  refine sets.evolves (fun _ => .inr rfl) fun _ => ?_
  rw [Store.slot, fresh]
  exact .inr ⟨Nat.one_pos, nofun⟩

/-- The slot of a live identity. -/
theorem slot_of_record {t i : String} {r : RecordRow} (found : db.record? t i = some r) (disjoint : db.Disjoint) :
    db.tombstone? t i = none ∧ db.slot (t, i) = .live r.revision (r.payloadJson, r.createdAt, r.updatedAt) := by
  have free : db.tombstone? t i = none := by
    rcases disjoint (t, i) with none_ | none_
    · exact absurd (found.symm.trans none_) nofun
    · exact none_
  refine ⟨free, ?_⟩
  have entry : db.entry (t, i) = (some r, none) := Prod.ext found free
  rw [Store.slot, entry, slotOf]

theorem replaceIn_evolves {forbidden : List String} {t i timestamp : String} {payload : JsonObject} {expected : Int}
    {record : VersionedRecord} (h : replaceIn forbidden db t i payload expected timestamp = .ok (db', record)) :
    Evolves db db' := by
  obtain ⟨r, payloadJson, -, found, -, sets⟩ := replaceIn_eq_ok h
  refine sets.evolves (fun disjoint => .inr (slot_of_record found disjoint).1) fun disjoint => ?_
  obtain ⟨free, slot⟩ := slot_of_record found disjoint
  rw [slot, free]
  exact .inr ⟨Nat.lt_succ_self _, nofun⟩

theorem deleteIn_evolves {t i timestamp : String} {expected : Int} {tombstone : TombstoneRow}
    (h : deleteIn db t i expected timestamp = .ok (db', tombstone)) : Evolves db db' := by
  obtain ⟨r, found, -, rfl, sets⟩ := deleteIn_eq_ok h
  refine sets.evolves (fun _ => .inl rfl) fun _ => ?_
  rw [Store.slot, found]
  exact .inr ⟨Nat.lt_succ_self _, nofun⟩

theorem createRecord_evolves {t i : String} {payload : JsonObject} {ms : Nat} {record : VersionedRecord}
    (h : createRecord ctx db t i payload ms = .ok (db', record)) : Evolves db db' := by
  simp only [createRecord, translate_eq_ok, Checked.bind_eq_ok] at h
  obtain ⟨timestamp, -, created⟩ := h
  exact createIn_evolves created

theorem replaceRecord_evolves {t i : String} {payload : JsonObject} {expected : Int} {ms : Nat} {record : VersionedRecord}
    (h : replaceRecord ctx db t i payload expected ms = .ok (db', record)) : Evolves db db' := by
  simp only [replaceRecord, translate_eq_ok, Checked.bind_eq_ok] at h
  obtain ⟨timestamp, -, replaced⟩ := h
  exact replaceIn_evolves replaced

theorem deleteRecord_evolves {t i : String} {expected : Int} {ms : Nat} {tombstone : TombstoneRow}
    (h : deleteRecord db t i expected ms = .ok (db', tombstone)) : Evolves db db' := by
  simp only [deleteRecord, translate_eq_ok, Checked.bind_eq_ok] at h
  obtain ⟨timestamp, -, deleted⟩ := h
  exact deleteIn_evolves deleted

theorem deleteAll_evolves {ms : Nat} {rows : List RecordRow} (h : deleteAll db ms rows = .ok db') : Evolves db db' := by
  induction rows generalizing db with
  | nil =>
    rw [deleteAll, Checked.pure_eq_ok] at h
    subst h
    exact .refl _
  | cons r rs ih =>
    simp only [deleteAll, Checked.bind_eq_ok, Prod.exists] at h
    obtain ⟨db₁, _, deleted, rest⟩ := h
    exact (deleteRecord_evolves deleted).trans (ih rest)

theorem passOver_eq_ok {out : Except PyError (Store × TombstoneRow)} (h : passOver db out = .ok db') :
    db' = db ∨ ∃ tombstone, out = .ok (db', tombstone) := by
  cases out with
  | ok done =>
    obtain ⟨db₁, tombstone⟩ := done
    rw [passOver, Checked.pure_eq_ok] at h
    subst h
    exact .inr ⟨tombstone, rfl⟩
  | error e =>
    rw [passOver] at h
    split at h
    · rw [Checked.pure_eq_ok] at h
      exact .inl h.symm
    · cases h

theorem pruneRows_evolves {ms : Nat} {rows : List RecordRow} (h : pruneRows db ms rows = .ok db') : Evolves db db' := by
  induction rows generalizing db with
  | nil =>
    rw [pruneRows, Checked.pure_eq_ok] at h
    subst h
    exact .refl _
  | cons r rs ih =>
    rw [pruneRows, Checked.bind_eq_ok] at h
    obtain ⟨db₁, pruned, rest⟩ := h
    rcases passOver_eq_ok pruned with rfl | ⟨_, deleted⟩
    · exact ih rest
    · exact (deleteRecord_evolves deleted).trans (ih rest)

theorem pruneActivityIn_evolves {collectionId : Option String} {ms : Nat}
    (h : pruneActivityIn db collectionId ms = .ok db') : Evolves db db' := by
  unfold pruneActivityIn at h
  split at h
  · rw [Checked.pure_eq_ok] at h
    subst h
    exact .refl _
  · dsimp only at h
    split at h
    · rw [Checked.pure_eq_ok] at h
      subst h
      exact .refl _
    · exact pruneRows_evolves h

theorem recordActivityIn_evolves {k : Nat} {collectionId : Option String} {event t i : String}
    (h : recordActivityIn ctx k db collectionId event t i = .ok db') : Evolves db db' := by
  obtain ⟨ms, db₁, record, -, pruned, created⟩ := recordActivityIn_eq_ok h
  exact (pruneActivityIn_evolves pruned).trans (createRecord_evolves created)

/-! ## Calls of the repositories -/

theorem addNote_evolves {id : String} {text : Json} {evidenceRef : Option JsonValue} {given : Option String}
    {record : VersionedRecord} (h : addNote ctx id text evidenceRef given db = .ok (db', record)) : Evolves db db' := by
  obtain ⟨_, _, _, _, db₁, -, -, -, -, -, created, recorded⟩ := addNote_eq_ok h
  exact (createRecord_evolves created).trans (recordActivityIn_evolves recorded)

theorem RecordCall.body_evolves {call : RecordCall} (h : call.body ctx db = .ok db') : Evolves db db' := by
  cases call with
  | create t i payload =>
    obtain ⟨_, created⟩ := storeOf_eq_ok.1 h
    exact createIn_evolves created
  | replace t i payload expected =>
    obtain ⟨_, replaced⟩ := storeOf_eq_ok.1 h
    exact replaceIn_evolves replaced
  | delete t i expected =>
    obtain ⟨_, deleted⟩ := storeOf_eq_ok.1 h
    exact deleteIn_evolves deleted

/-- A call of the collections is an import or moves every identity forward. -/
theorem WorkspaceCall.body_evolves {call : WorkspaceCall} (h : call.body ctx db = .ok db') :
    (∃ inject raw digest, call = .importBackup inject raw digest) ∨ Evolves db db' := by
  cases call with
  | createCollection args id =>
    obtain ⟨_, created⟩ := storeOf_eq_ok.1 h
    obtain ⟨_, _, db₁, -, -, -, -, created, recorded⟩ := createCollection_eq_ok created
    exact .inr ((createRecord_evolves created).trans (recordActivityIn_evolves recorded))
  | updateCollection id expected args =>
    obtain ⟨_, updated⟩ := storeOf_eq_ok.1 h
    obtain ⟨_, _, _, _, db₁, -, -, -, -, replaced, recorded⟩ := updateCollection_eq_ok updated
    exact .inr ((replaceRecord_evolves replaced).trans (recordActivityIn_evolves recorded))
  | deleteCollection id expected =>
    obtain ⟨_, deleted⟩ := storeOf_eq_ok.1 h
    obtain ⟨_, db₁, db₂, db₃, -, -, items, notes, deleted, recorded⟩ := deleteCollection_eq_ok deleted
    exact .inr ((((deleteAll_evolves items).trans (deleteAll_evolves notes)).trans (deleteRecord_evolves deleted)).trans
      (recordActivityIn_evolves recorded))
  | addItem id args item =>
    obtain ⟨_, added⟩ := storeOf_eq_ok.1 h
    rcases addItem_eq_ok added with ⟨_, _, _, note⟩ | ⟨_, _, _, db₁, -, -, -, -, -, -, -, -, -, -, created, recorded⟩
    · exact .inr (addNote_evolves note)
    · exact .inr ((createRecord_evolves created).trans (recordActivityIn_evolves recorded))
  | deleteItem id item expected =>
    obtain ⟨_, deleted⟩ := storeOf_eq_ok.1 h
    obtain ⟨_, _, _, _, db₁, -, deleted, recorded⟩ := deleteItem_eq_ok deleted
    exact .inr ((deleteRecord_evolves deleted).trans (recordActivityIn_evolves recorded))
  | addNote id text reference note =>
    obtain ⟨_, added⟩ := storeOf_eq_ok.1 h
    exact .inr (addNote_evolves added)
  | updateNote id note expected text =>
    obtain ⟨_, updated⟩ := storeOf_eq_ok.1 h
    obtain ⟨_, _, _, _, _, _, _, db₁, -, -, -, -, replaced, recorded⟩ := updateNote_eq_ok updated
    exact .inr ((replaceRecord_evolves replaced).trans (recordActivityIn_evolves recorded))
  | recordActivity id event t i => exact .inr (recordActivityIn_evolves (recordActivity_eq_ok h))
  | importBackup inject raw digest => exact .inl ⟨inject, raw, digest, rfl⟩

/-! ## Imports -/

/-- A tombstone of the backup buries a live identity at the revision it is live at. -/
def BuriesLevel (backup : ValidatedBackup) (k : Key) (s t : Slot Content String) : Prop :=
  ∃ tombstone ∈ backup.tombstones, tombstone.key = k ∧ s.isLive = true ∧ t.isDead = true ∧
    s.revision = tombstone.revision ∧ t.revision = tombstone.revision

theorem BuriesLevel.levels {backup : ValidatedBackup} {k : Key} {s t : Slot Content String} (h : BuriesLevel backup k s t) :
    s.Levels t := by
  obtain ⟨_, -, -, live, dead, same, same'⟩ := h
  exact .inr ⟨live, dead, same'.trans same.symm⟩

/-- **What an import does to identities.** -/
theorem imported_evolves {secrets : List String} {envelope : JsonObject} {backup : ValidatedBackup}
    (accepted : Accepted secrets envelope backup) (imported : Imported backup db db') (disjoint : db.Disjoint) :
    db'.Disjoint ∧ ∀ k, (db.slot k).Follows (db'.slot k) ∨ BuriesLevel backup k (db.slot k) (db'.slot k) := by
  obtain ⟨sources, actions, -⟩ := plan_eq_ok imported.planned
  have each : ∀ k, ((db'.entry k).1 = none ∨ (db'.entry k).2 = none) ∧
      ((db.slot k).Follows (db'.slot k) ∨ BuriesLevel backup k (db.slot k) (db'.slot k)) := by
    intro k
    rcases imported.entry k with ⟨t, mem, applies, rfl, deletedAt, -, -, entry⟩ | ⟨-, h⟩
    · -- a tombstone passes what it buries, or meets it at its own revision
      obtain ⟨live, old⟩ := planTombstone_applies applies
      have after : db'.slot t.key = .dead t.revision deletedAt := by
        rw [Store.slot, entry]
        rfl
      refine ⟨.inl (by rw [entry]), ?_⟩
      rw [after]
      have before : db.slot t.key = slotOf (db.entry t.key) := rfl
      cases record : db.record? t.entityType t.workspaceId with
      | none =>
        cases tombstone : db.tombstone? t.entityType t.workspaceId with
        | none =>
          rw [before, show db.entry t.key = (none, none) from Prod.ext record tombstone]
          exact .inl (.inr ⟨(accepted.tombstone mem).1, nofun⟩)
        | some d =>
          rw [before, show db.entry t.key = (none, some d) from Prod.ext record tombstone]
          exact .inl (.inr ⟨old d tombstone, fun _ => rfl⟩)
      | some r =>
        have slot := (slot_of_record record disjoint).2
        change db.slot t.key = _ at slot
        obtain ⟨-, le⟩ := live r record
        rw [slot]
        rcases Nat.lt_or_eq_of_le le with lt | same
        · exact .inl (.inr ⟨lt, nofun⟩)
        · exact .inr ⟨t, mem, rfl, rfl, rfl, same, rfl⟩
    · rcases h with ⟨a, mem, applies, rfl, row, incoming, entry⟩ | ⟨-, entry⟩
      · obtain ⟨payloadJson, createdAt, updatedAt, -, -, -, -, rfl⟩ := incomingRow_eq_ok incoming
        have after : db'.slot a.1.key = .live a.1.revision (payloadJson, createdAt, updatedAt) := by
          rw [Store.slot, entry]
          rfl
        refine ⟨.inr (by rw [entry]), .inl ?_⟩
        have action := actions a mem
        rw [after, Store.slot]
        cases chosen : a.2 with
        | create =>
          rw [chosen] at action
          have member : a.1 ∈ backup.records := sources ▸ List.mem_map_of_mem mem
          obtain ⟨_, facts⟩ := accepted.record member
          rw [planRecord_create action]
          exact .inr ⟨facts.revisionPositive, nofun⟩
        | replaceOlder =>
          rw [chosen] at action
          obtain ⟨existing, found, -, older⟩ := planRecord_replace action
          rw [found]
          exact .inr ⟨older, nofun⟩
        | duplicate =>
          rw [chosen] at applies
          cases applies
        | conflict =>
          rw [chosen] at applies
          cases applies
        | blockedByTombstone =>
          rw [chosen] at applies
          cases applies
      · refine ⟨by rw [entry]; exact disjoint k, .inl ?_⟩
        rw [Store.slot, Store.slot, entry]
        exact .refl _
  exact ⟨fun k => (each k).1, fun k => (each k).2⟩

/-! ## Runs -/

/-- What a call may do to one identity: move it forward, or be an import that buries it level. -/
def MovesForward (input : Context × Call) (k : Key) (s t : Slot Content String) : Prop :=
  s.Follows t ∨ ∃ inject raw digest backup, input.2 = .workspace (.importBackup inject raw digest) ∧
    validateWorkspaceBackup input.1.settings.portableSecrets raw = .ok backup ∧ BuriesLevel backup k s t

theorem MovesForward.advances {input : Context × Call} {k : Key} {s t : Slot Content String}
    (h : MovesForward input k s t) : s.Advances t := by
  rcases h with follows | ⟨_, _, _, _, -, -, buries⟩
  · exact Slot.Levels.advances (.inl follows)
  · exact buries.levels.advances

/-- **One call**: the tables stay disjoint and every identity moves forward. -/
theorem step_evolves (input : Context × Call) (disjoint : db.Disjoint) :
    (step db input).Disjoint ∧ ∀ k, MovesForward input k (db.slot k) ((step db input).slot k) := by
  have lawful : Evolves db (step db input) →
      (step db input).Disjoint ∧ ∀ k, MovesForward input k (db.slot k) ((step db input).slot k) := by
    intro evolves
    obtain ⟨after, follows⟩ := evolves disjoint
    exact ⟨after, fun k => .inl (follows k)⟩
  obtain ⟨ctx, call⟩ := input
  rcases settle_cases (call.body ctx db) db with ok | same
  · cases call with
    | record call => exact lawful (RecordCall.body_evolves ok)
    | workspace call =>
      rcases WorkspaceCall.body_evolves ok with ⟨inject, raw, digest, rfl⟩ | evolves
      · obtain ⟨receipt, done⟩ := storeOf_eq_ok.1 ok
        obtain ⟨backup, valid, -, same | ⟨-, fresh⟩⟩ := importBackup_eq_ok done
        · refine lawful ?_
          rw [show step db (ctx, .workspace (.importBackup inject raw digest)) = db from same]
          exact .refl db
        · obtain ⟨imported, -⟩ := importFresh_eq_ok fresh
          obtain ⟨envelope, -, accepted⟩ := validateWorkspaceBackup_eq_ok.1 valid
          obtain ⟨after, moves⟩ := imported_evolves accepted imported disjoint
          refine ⟨after, fun k => ?_⟩
          rcases moves k with follows | buries
          · exact .inl follows
          · exact .inr ⟨inject, raw, digest, backup, rfl, valid, buries⟩
      · exact lawful evolves
  · refine lawful ?_
    rw [show step db (ctx, call) = db from same]
    exact .refl db

theorem empty_disjoint : Store.empty.Disjoint :=
  fun _ => .inl rfl

theorem reaches_disjoint (reach : Runs.Reaches step Store.empty db) : db.Disjoint :=
  reach.invariant empty_disjoint fun _ input h => (step_evolves input h).1

/-- **Identities over whole runs.** In every state that calls of the repositories and imports
reach, no identity is live and deleted; from there on its revision never falls and a deleted
identity stays deleted; and a call that changes what is recorded of an identity raises its
revision, unless it is an import whose tombstone has the revision of the live record. -/
theorem identity_lifecycle (reach : Runs.Reaches step Store.empty db) :
    (∀ k : Key, db.record? k.1 k.2 = none ∨ db.tombstone? k.1 k.2 = none) ∧
    (∀ later, Runs.Reaches step db later → ∀ k : Key, (db.slot k).revision ≤ (later.slot k).revision ∧
      ((db.tombstone? k.1 k.2).isSome = true → later.record? k.1 k.2 = none ∧ (later.tombstone? k.1 k.2).isSome = true)) ∧
    ∀ input k, (step db input).slot k ≠ db.slot k → (db.slot k).revision < ((step db input).slot k).revision ∨
      ∃ inject raw digest backup, input.2 = .workspace (.importBackup inject raw digest) ∧
        validateWorkspaceBackup input.1.settings.portableSecrets raw = .ok backup ∧
        BuriesLevel backup k (db.slot k) ((step db input).slot k) := by
  have disjoint := reaches_disjoint reach
  refine ⟨disjoint, ?_, ?_⟩
  · intro later run k
    have advances : (db.slot k).Advances (later.slot k) :=
      run.relation (R := fun a b => (a.slot k).Advances (b.slot k)) disjoint (fun _ input h => (step_evolves input h).1)
        (fun _ => .refl _) (fun _ _ _ h h' => h.trans h') fun _ input h => ((step_evolves input h).2 k).advances
    refine ⟨advances.1, ?_⟩
    intro deleted
    obtain ⟨d, found⟩ := Option.isSome_iff_exists.1 deleted
    have dead : (db.slot k).isDead = true := by
      change (slotOf (db.record? k.1 k.2, db.tombstone? k.1 k.2)).isDead = true
      rw [found]
      cases db.record? k.1 k.2 <;> rfl
    have dead' := advances.2 dead
    change (slotOf (later.record? k.1 k.2, later.tombstone? k.1 k.2)).isDead = true at dead'
    have kept : (later.tombstone? k.1 k.2).isSome = true := by
      cases record : later.record? k.1 k.2 <;> cases tombstone : later.tombstone? k.1 k.2 <;>
        first
        | rfl
        | (rw [record, tombstone] at dead'; cases dead')
    rcases reaches_disjoint (reach.trans run) k with none_ | none_
    · exact ⟨none_, kept⟩
    · rw [show later.tombstone? k.1 k.2 = none from none_] at kept
      cases kept
  · intro input k changed
    rcases (step_evolves input disjoint).2 k with follows | level
    · exact .inl (follows.lt changed)
    · exact .inr level

/-! ## A level burial -/

/-- A tombstone buries the live record it belongs to, unless that is at a later revision. -/
theorem planTombstone_level {t : BackupTombstone} {r : RecordRow} (entry : db.entry t.key = (some r, none))
    (owned : ownedBy .conversation t.legacyId r.payloadJson = true) (le : r.revision ≤ t.revision) :
    planTombstone db t = .create := by
  obtain ⟨record, unburied⟩ := Prod.mk.inj entry
  change db.record? t.entityType t.workspaceId = some r at record
  change db.tombstone? t.entityType t.workspaceId = none at unburied
  have inside : outlives db t = false := by
    rw [outlives, record]
    simp only [owned, Bool.not_true, Bool.false_or, decide_eq_false_iff_not]
    omega
  rw [planTombstone, inside, unburied]
  rfl

/-- Nothing configured, the epoch on both clocks. -/
def sampleContext : Context where
  settings := ⟨"", "", "", ""⟩
  now := ⟨0, by decide⟩
  clock := ⟨0, by decide⟩
  token := fun _ => ""
  isPrintable := fun _ => true

/-- The wrapper of the conversation `c`. -/
def sampleWrapper : JsonObject :=
  ⟨[("workspace_transfer_version", .int 1), ("source_kind", .str "conversation"), ("legacy_id", .str "c")], by decide⟩

def sampleCreate : Context × Call :=
  (sampleContext, .record (.create "conversation" (stableId .conversation "c") sampleWrapper))

/-- A backup of one tombstone, of the conversation `c` at revision 1. -/
def sampleBurial : ValidatedBackup :=
  ⟨"", [], [], [], [], [⟨"c", 1, 0⟩], []⟩

def sampleExport : Exported :=
  ⟨[], [], [], [], [⟨"c", 1, 0⟩], []⟩

theorem sampleBurial_validates : ∃ raw digest,
    validateWorkspaceBackup sampleContext.settings.portableSecrets raw = .ok { sampleBurial with digest } := by
  have matched : Matches [] sampleExport sampleBurial :=
    ⟨.nil, .nil, .nil, .nil, .cons (by decide +kernel) .nil, .nil, by decide⟩
  have limited : Limited sampleExport := ⟨by decide, by decide, by decide, by decide, by decide, by decide⟩
  have time : validateExportedAt (.str "2024-01-01") = .ok () := by decide
  exact exported_validates matched limited time (by decide +kernel) (by decide +kernel)

/-- The identity of the conversation `c`. -/
def sampleKey : Key :=
  ("conversation", stableId .conversation "c")

/-- Creating the conversation makes it live at revision 1. -/
theorem sampleCreate_commits : ∃ db payloadJson, Runs.Reaches step Store.empty db ∧
    Store.Sets Store.empty db sampleKey
      (some ⟨"conversation", sampleKey.2, 1, payloadJson, sampleContext.clockText, sampleContext.clockText⟩, none) ∧
    ownedBy .conversation "c" payloadJson = true := by
  obtain ⟨payloadJson, text⟩ : ∃ payloadJson, canonicalPayload [] sampleWrapper = .ok payloadJson :=
    Checked.exists_ok (by decide +kernel)
  have entity : validateEntity "conversation" sampleKey.2 = .ok () :=
    validateEntity_stableId (by decide) .conversation "c"
  have fresh : Store.empty.entry sampleKey = (none, none) := rfl
  obtain ⟨db, record, created, sets⟩ : ∃ db record, createIn [] Store.empty "conversation" sampleKey.2 sampleWrapper
      sampleContext.clockText = .ok (db, record) ∧ _ := createIn_commits entity text fresh
  have body : sampleCreate.2.body sampleCreate.1 Store.empty = .ok db := storeOf_eq_ok.2 ⟨record, created⟩
  refine ⟨db, payloadJson, ⟨[sampleCreate], ?_⟩, sets, ?_⟩
  · rw [Runs.run_cons, Runs.run_nil, step, body]
    rfl
  · have read : loadsObject payloadJson = some sampleWrapper.sorted := by
      simp only [canonicalPayload, Checked.bind_eq_ok, Checked.orRaise_eq_ok] at text
      obtain ⟨_, -, dumped⟩ := text
      exact loadsObject_dumps dumped
    rw [ownedBy, read]
    decide

/-- Deleting by import leaves the revision of the live record. -/
theorem burial_not_increasing :
    ¬ ∀ db, Runs.Reaches step Store.empty db → ∀ input k, (step db input).slot k ≠ db.slot k →
      (db.slot k).revision < ((step db input).slot k).revision := by
  intro claim
  obtain ⟨db, payloadJson, reached, sets, owned⟩ := sampleCreate_commits
  obtain ⟨raw, digest, valid⟩ := sampleBurial_validates
  have times : ∀ t ∈ sampleBurial.tombstones, inRange t.deletedAt = true ∧ isSqliteInteger t.revision = true := by
    decide +kernel
  have first : db.imports.rows = [] := by
    rw [sets.imports]
    rfl
  obtain ⟨db', receipt, done, ⟨imported⟩⟩ := first_import valid first nofun .nil times
  let input : Context × Call := (sampleContext, .workspace (.importBackup (fun _ _ => .ok ()) raw digest))
  have stepped : step db input = db' := by
    have body : input.2.body input.1 db = .ok db' := storeOf_eq_ok.2 ⟨receipt, done⟩
    rw [step, body]
    rfl
  have live : db.slot sampleKey = .live 1 (payloadJson, sampleContext.clockText, sampleContext.clockText) :=
    sets.slot_same
  have chosen : planTombstone db ⟨"c", 1, 0⟩ = .create := planTombstone_level sets.entry_same owned (Nat.le_refl 1)
  rcases imported.entry sampleKey with ⟨t, mem, -, -, deletedAt, -, -, entry⟩ | ⟨untouched, -⟩
  · obtain rfl := List.mem_singleton.1 mem
    have dead : db'.slot sampleKey = .dead 1 deletedAt := by
      rw [Store.slot, entry]
      rfl
    have raised := claim db reached input sampleKey
    rw [stepped, live, dead] at raised
    exact absurd (raised nofun) (Nat.lt_irrefl 1)
  · have mem : (⟨"c", 1, 0⟩ : BackupTombstone) ∈ sampleBurial.tombstones := by decide
    have applies : (planTombstone db ⟨"c", 1, 0⟩).applies = true := by
      rw [chosen]
      rfl
    have key : (⟨"c", 1, 0⟩ : BackupTombstone).key = sampleKey := rfl
    exact untouched _ mem applies key

theorem identity_lifecycle_sample : ∃ db : Store, db.slot sampleKey ≠ .absent ∧
    ∀ k : Key, db.record? k.1 k.2 = none ∨ db.tombstone? k.1 k.2 = none := by
  obtain ⟨db, payloadJson, reached, sets, -⟩ := sampleCreate_commits
  refine ⟨db, ?_, (identity_lifecycle reached).1⟩
  rw [show db.slot sampleKey = _ from sets.slot_same]
  exact nofun

end Workspace
