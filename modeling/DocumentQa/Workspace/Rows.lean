import DocumentQa.Lib.Json.Reading
import DocumentQa.Transfer.Commit
import DocumentQa.Workspace.Evolution

/-!
# What the rows of the workspace hold

Every live row was written by a call of the collections or by an import (`Written`). The
payload it holds reads back as the wrapper that was written, up to the order of its keys and
the form of its floats, so what the readers look up in a row is what the writer put there.
-/

namespace Workspace

open Python JsonText Transfer SqlTable

/-! ## Texts -/

/-- The text reads back as the wrapper. -/
def Holds (text : String) (wrapper : JsonObject) : Prop :=
  ∃ g payload, Reading g ∧ loadsObject text = some payload ∧
    ∀ key, payload.get? key = (wrapper.get? key).map g

theorem holds_canonical {forbidden : List String} {payload : JsonObject} {text : String}
    (h : canonicalPayload forbidden payload = .ok text) : Holds text payload := by
  simp only [canonicalPayload, Checked.bind_eq_ok, Checked.orRaise_eq_ok] at h
  obtain ⟨_, -, dumped⟩ := h
  refine ⟨Json.sorted, payload.sorted, sorted_reading, loadsObject_dumps dumped, ?_⟩
  obtain ⟨fields, e, under⟩ := sorted_reading.obj payload.fields
  have same : payload.sorted.fields = fields := Json.obj.inj ((Json.sorted_obj _).symm.trans e)
  intro key
  show Json.lookup key payload.sorted.fields = _
  rw [same]
  exact under payload.distinct key

theorem printable_int {i : Int} (h : i.natAbs < 10 ^ 21) : printable (.int i) = true := by
  have wide : i.natAbs < 10 ^ maxStrDigits := h.trans_le (Nat.pow_le_pow_right (by decide) (by decide))
  simp only [printable, Json.all, decide_eq_true_eq]
  exact wide

/-- The integer of a number text of at most 21 digits. -/
theorem settle_printable (x : Double) : printable x.settle = true := by
  unfold Double.settle
  split
  · exact printable_int (by decide)
  · next d =>
    split
    · next short =>
      obtain ⟨whole, few⟩ := short
      rw [Decimal.point] at whole few
      apply printable_int
      have digits : d.sig < 10 ^ d.digits.length :=
        (Nat.length_toDigits_le_iff (by decide) (List.length_pos_iff.2 (natText_ne_nil d.sig))).1 (Nat.le_refl _)
      have scaled : d.sig * 10 ^ d.exp.toNat < 10 ^ 21 := by
        calc d.sig * 10 ^ d.exp.toNat < 10 ^ d.digits.length * 10 ^ d.exp.toNat :=
              Nat.mul_lt_mul_of_pos_right digits (Nat.pow_pos (by decide))
          _ = 10 ^ (d.digits.length + d.exp.toNat) := (Nat.pow_add ..).symm
          _ ≤ 10 ^ 21 := Nat.pow_le_pow_right (by decide) (by omega)
      split
      · rw [Int.natAbs_neg, Int.natAbs_natCast]
        exact scaled
      · rw [Int.natAbs_natCast]
        exact scaled
    · rfl
  · rfl

/-- A value read back from its canonical text has a text itself. -/
theorem rebuild_printable {j : Json} (h : printable j = true) :
    printable (j.rebuild (leafBack Double.settle) id) = true := by
  refine Json.all_rebuild ?_ (fun _ _ => rfl) (fun _ _ => rfl) (fun _ _ mem => mem) h
  intro j small noArr noObj
  have leaf : ∀ p : Json → Bool, Json.all p j = p j := by
    intro p
    cases j with
    | arr items => exact absurd rfl (noArr items)
    | obj fields => exact absurd rfl (noObj fields)
    | _ => rfl
  cases j with
  | float x => exact settle_printable x
  | arr items => exact absurd rfl (noArr items)
  | obj fields => exact absurd rfl (noObj fields)
  | _ => exact (leaf _).trans small

/-- What an import writes reads back as its wrapper. -/
theorem holds_canonicalJson {wrapper : JsonObject} {text : String} (print : prints wrapper.json = true)
    (h : canonicalJson wrapper.json = some text) : Holds text wrapper := by
  have both := print
  rw [prints, Bool.and_eq_true] at both
  obtain ⟨finite, print_⟩ := both
  rw [canonicalJson_prints print, Option.some.injEq] at h
  subst h
  have read : Python.loads (String.ofList (ecmaPrinter.text wrapper.json.sorted)) =
      some (wrapper.json.sorted.rebuild (leafBack Double.settle) id) := by
    have back : JsonText.loads (ecmaPrinter.text wrapper.json.sorted) =
        some (wrapper.json.sorted.rebuild (leafBack Double.settle) id) :=
      JsonText.loads_text ecmaPrinter_reads (Json.sorted_distinctKeys wrapper.distinct) (Json.sorted_finite finite)
    simp only [Python.loads, String.toList_ofList, back, rebuild_printable (sorted_printable print_), if_true]
  have reading := settle_reading.comp sorted_reading
  obtain ⟨fields, e, under⟩ := reading.obj wrapper.fields
  have distinct : (Json.obj fields).distinctKeys = true := by
    rw [← e]
    exact reading.distinct _ wrapper.distinct
  refine ⟨_, ⟨fields, distinct⟩, reading, ?_, under wrapper.distinct⟩
  rw [loadsObject_eq_some, read]
  exact congrArg some e

/-! ## Reading a row -/

/-- The typed data of a row: what `unwrap_payload` returns. -/
def dataOf (r : RecordRow) : Option (List (String × Json)) :=
  (loadsObject r.payloadJson).bind fun payload => (unwrapPayload payload "record").toOption

/-- A field that is a text. -/
def textAt (key : String) (fields : List (String × Json)) : Option String :=
  match Json.lookup key fields with
  | some (.str s) => some s
  | _ => none

/-- The identifier a row carries. -/
def identifierOf (r : RecordRow) : Option String :=
  (dataOf r).bind (textAt "id")

/-- The collection a row names: `data.collectionId`. -/
def collectionNamed (r : RecordRow) : Option String :=
  (dataOf r).bind (textAt "collectionId")

/-- The collection a row belongs to: `parent_legacy_id` of its wrapper. -/
def parentOf (r : RecordRow) : Option String :=
  (loadsObject r.payloadJson).bind fun payload => textAt "parent_legacy_id" payload.fields

/-- The row is marked as a note. -/
def isNoteRow (r : RecordRow) : Bool :=
  match loadsObject r.payloadJson with
  | some payload => payload.holdsInt "workspace_collection_note" 1
  | none => false

theorem textAt_eq_some {key s : String} {fields : List (String × Json)} :
    textAt key fields = some s ↔ Json.lookup key fields = some (.str s) := by
  unfold textAt
  split
  · next t found => rw [found, Option.some.injEq, Option.some.injEq, Json.str.injEq]
  · next other =>
    simp only [reduceCtorEq, false_iff]
    exact other s

/-- The payload is a typed record, whatever the caller calls it. -/
theorem unwrapPayload_eq_ok {payload : JsonObject} {label : String} {data : List (String × Json)} :
    unwrapPayload payload label = .ok data ↔ payload.get? "data" = some (.obj data) ∧
      (payload.holdsInt "workspace_transfer_version" 1 = true ∨ payload.holdsInt "workspace_collection_note" 1 = true) := by
  unfold unwrapPayload
  split
  · next fields found =>
    simp only [Checked.bind_eq_ok, Checked.require_eq_ok, Checked.pure_eq_ok, found, Option.some.injEq, Json.obj.injEq]
    constructor
    · rintro ⟨_, typed, rfl⟩
      exact ⟨rfl, typed⟩
    · rintro ⟨rfl, typed⟩
      exact ⟨(), typed, rfl⟩
  · next other =>
    simp only [Checked.throw_ne_ok, false_iff]
    rintro ⟨found, -⟩
    exact other data found

theorem dataOf_eq_some {r : RecordRow} {data : List (String × Json)} :
    dataOf r = some data ↔ ∃ payload, loadsObject r.payloadJson = some payload ∧ unwrapPayload payload "record" = .ok data := by
  rw [dataOf, Option.bind_eq_some_iff]
  refine exists_congr fun payload => and_congr_right fun _ => ?_
  cases unwrapPayload payload "record" <;> simp [Except.toOption]

/-- A text is read back as itself. -/
theorem textAt_reading {g : Json → Json} (reading : Reading g) {key : String} {fields fields' : List (String × Json)}
    (under : Json.lookup key fields' = (Json.lookup key fields).map g) : textAt key fields' = textAt key fields := by
  apply Option.ext
  intro s
  rw [textAt_eq_some, textAt_eq_some, under, Option.map_eq_some_iff]
  constructor
  · rintro ⟨j, found, text⟩
    rw [found, reading.str_iff.1 text]
  · intro found
    exact ⟨.str s, found, reading.str s⟩

/-- A wrapper marks what it is. -/
def typed (wrapper : JsonObject) : Prop :=
  wrapper.get? "workspace_transfer_version" = some (.int 1) ∨ wrapper.get? "workspace_collection_note" = some (.int 1)

/-- **What a row of a typed wrapper reads back as.** -/
theorem Holds.data {r : RecordRow} {wrapper : JsonObject} {fields : List (String × Json)} (h : Holds r.payloadJson wrapper)
    (marked : typed wrapper) (inside : wrapper.get? "data" = some (.obj fields)) :
    ∃ g data, Reading g ∧ dataOf r = some data ∧ ∀ key, Json.lookup key data = (Json.lookup key fields).map g := by
  obtain ⟨g, payload, reading, loaded, under⟩ := h
  obtain ⟨data, e, within⟩ := reading.obj fields
  have distinct : (Json.obj fields).distinctKeys = true :=
    ((Json.distinctKeys_obj _).1 wrapper.distinct).2 _ (Json.lookup_mem inside)
  refine ⟨g, data, reading, dataOf_eq_some.2 ⟨payload, loaded, unwrapPayload_eq_ok.2 ⟨?_, ?_⟩⟩, within distinct⟩
  · rw [under, inside, Option.map_some, e]
  · have one : equalsInt 1 (g (.int 1)) = true := by
      rw [reading.int]
      rfl
    rcases marked with mark | mark
    · left
      rw [JsonObject.holdsInt, under, mark]
      exact one
    · right
      rw [JsonObject.holdsInt, under, mark]
      exact one

theorem Holds.identifierOf {r : RecordRow} {wrapper : JsonObject} {fields : List (String × Json)}
    (h : Holds r.payloadJson wrapper) (marked : typed wrapper) (inside : wrapper.get? "data" = some (.obj fields)) :
    identifierOf r = textAt "id" fields := by
  obtain ⟨g, data, reading, read, under⟩ := h.data marked inside
  rw [Workspace.identifierOf, read, Option.bind_some, textAt_reading reading (under "id")]

theorem Holds.collectionNamed {r : RecordRow} {wrapper : JsonObject} {fields : List (String × Json)}
    (h : Holds r.payloadJson wrapper) (marked : typed wrapper) (inside : wrapper.get? "data" = some (.obj fields)) :
    collectionNamed r = textAt "collectionId" fields := by
  obtain ⟨g, data, reading, read, under⟩ := h.data marked inside
  rw [Workspace.collectionNamed, read, Option.bind_some, textAt_reading reading (under "collectionId")]

theorem Holds.parentOf {r : RecordRow} {wrapper : JsonObject} (h : Holds r.payloadJson wrapper) :
    parentOf r = textAt "parent_legacy_id" wrapper.fields := by
  obtain ⟨g, payload, reading, loaded, under⟩ := h
  rw [Workspace.parentOf, loaded, Option.bind_some, textAt_reading reading (under "parent_legacy_id")]

theorem Holds.notNote {r : RecordRow} {wrapper : JsonObject} (h : Holds r.payloadJson wrapper)
    (unmarked : wrapper.get? "workspace_collection_note" = none) : isNoteRow r = false := by
  obtain ⟨g, payload, reading, loaded, under⟩ := h
  simp only [isNoteRow, loaded, JsonObject.holdsInt, under, unmarked, Option.map_none]

theorem Holds.isNote {r : RecordRow} {wrapper : JsonObject} (h : Holds r.payloadJson wrapper)
    (marked : wrapper.get? "workspace_collection_note" = some (.int 1)) : isNoteRow r = true := by
  obtain ⟨g, payload, reading, loaded, under⟩ := h
  simp only [isNoteRow, loaded, JsonObject.holdsInt, under, marked, Option.map_some, reading.int]
  rfl

/-! ## Who wrote a row -/

/-- A row as a call of the collections or an import writes it; an imported record satisfies `allowed`. -/
inductive Written (allowed : BackupRecord → Prop) (r : RecordRow) : Prop where
  | collection (id : String) (fields : CollectionFields) (createdAtMs updatedAtMs : Int)
      (key : r.key = (collectionEntityType, stableId .collection id)) (legacy : isLegacyId id = true)
      (holds : Holds r.payloadJson (collectionPayload id fields createdAtMs updatedAtMs))
  | item (id collectionId : String) (fields : ItemFields) (savedAtMs : Int)
      (key : r.key = (itemEntityType, stableId .evidenceItem id)) (legacy : isLegacyId id = true)
      (kind : fields.itemKind ∈ referenceItemKinds) (parent : isLegacyId collectionId = true)
      (holds : Holds r.payloadJson (itemPayload id collectionId fields savedAtMs))
  | note (id collectionId text : String) (evidenceRef : Option JsonObject) (createdAtMs updatedAtMs : Int)
      (key : r.key = (noteEntityType, id)) (opaque_ : opaqueId.fullmatch id = true)
      (holds : Holds r.payloadJson (notePayload id collectionId text evidenceRef createdAtMs updatedAtMs))
  | activity (id : String) (collectionId : Option String) (entityType entityId eventType occurredAt : String)
      (key : r.key = (activityEntityType, id))
      (holds : Holds r.payloadJson (activityPayload id collectionId entityType entityId eventType occurredAt))
  | imported (record : BackupRecord) (favorite : Bool) (secrets : List String) (raw : JsonObject)
      (facts : RecordFacts secrets record.role.kind raw record) (allow : allowed record) (key : r.key = record.key)
      (holds : Holds r.payloadJson ⟨wrappedPayload record favorite, wrappedPayload_distinct record favorite⟩)

/-- The imported item names its parent as its collection too. -/
def Parented (record : BackupRecord) : Prop :=
  ∀ parent, record.role = .evidenceItem parent → record.payload.get? "collectionId" = some (.str parent)

section Types

variable {allowed : BackupRecord → Prop} {r : RecordRow}

theorem entityType_eq {t i : String} (key : r.key = (t, i)) : r.entityType = t ∧ r.entityId = i :=
  Prod.mk.inj key

/-- **A row of an item.** -/
theorem Written.item_row (written : Written allowed r) (type : r.entityType = itemEntityType) :
    ∃ id c, r.entityId = stableId .evidenceItem id ∧ identifierOf r = some id ∧ isLegacyId id = true ∧
      parentOf r = some c ∧ isLegacyId c = true ∧ isNoteRow r = false ∧
      ((∀ record, allowed record → Parented record) → collectionNamed r = some c) := by
  cases written with
  | collection id fields created updated key legacy holds =>
    exact absurd ((entityType_eq key).1.symm.trans type) (by decide)
  | note id c text ref created updated key opaque_ holds => exact absurd ((entityType_eq key).1.symm.trans type) (by decide)
  | activity id c t i event at_ key holds => exact absurd ((entityType_eq key).1.symm.trans type) (by decide)
  | item id c fields saved key legacy kind parent holds =>
    have marked : typed (itemPayload id c fields saved) := .inl rfl
    have inside : (itemPayload id c fields saved).get? "data" = some (.obj (itemData id c fields saved).fields) := rfl
    refine ⟨id, c, (entityType_eq key).2, ?_, legacy, ?_, parent, holds.notNote rfl, fun _ => ?_⟩
    · rw [holds.identifierOf marked inside]
      rfl
    · rw [holds.parentOf]
      rfl
    · rw [holds.collectionNamed marked inside]
      rfl
  | imported record favorite secrets raw facts allow key holds =>
    obtain ⟨type', id⟩ := entityType_eq key
    have kind : record.role.kind = .evidenceItem :=
      RecordKind.entityType_injective (type'.symm.trans type : record.role.kind.entityType = RecordKind.evidenceItem.entityType)
    obtain ⟨parent, role⟩ : ∃ parent, record.role = .evidenceItem parent := by
      cases role : record.role with
      | evidenceItem parent => exact ⟨parent, rfl⟩
      | conversation =>
        rw [role] at kind
        cases kind
      | collection =>
        rw [role] at kind
        cases kind
    have legal : isLegacyId parent = true := by
      have valid := facts.role
      rw [kind, role] at valid
      simp only [validateRole, validateEvidenceItem, Checked.bind_eq_ok, Checked.pure_eq_ok, validateLegacyId_eq_ok,
        Role.evidenceItem.injEq] at valid
      obtain ⟨_, ⟨_, -, _, ⟨-, legal⟩, _, -, _, -, rfl⟩, rfl⟩ := valid
      exact legal
    refine ⟨record.legacyId, parent, ?_, ?_, facts.isLegacyId, ?_, legal, ?_, ?_⟩
    · rw [id, BackupRecord.workspaceId, kind]
    · rw [holds.identifierOf (.inl rfl) rfl]
      exact textAt_eq_some.2 facts.id
    · rw [holds.parentOf]
      show textAt "parent_legacy_id" (wrappedPayload record favorite) = some parent
      rw [wrappedPayload, role]
      rfl
    · apply holds.notNote
      show Json.lookup _ (wrappedPayload record favorite) = none
      rw [wrappedPayload, role]
      rfl
    · intro parented
      rw [holds.collectionNamed (.inl rfl) rfl]
      exact textAt_eq_some.2 (parented record allow parent role)

/-- A row of a note was written by a call of the notes. -/
theorem Written.note_holds (written : Written allowed r) (type : r.entityType = noteEntityType) :
    opaqueId.fullmatch r.entityId = true ∧ ∃ c text evidenceRef createdAtMs updatedAtMs,
      Holds r.payloadJson (notePayload r.entityId c text evidenceRef createdAtMs updatedAtMs) := by
  cases written with
  | collection id fields created updated key legacy holds =>
    exact absurd ((entityType_eq key).1.symm.trans type) (by decide)
  | item id c fields saved key legacy kind parent holds => exact absurd ((entityType_eq key).1.symm.trans type) (by decide)
  | activity id c t i event at_ key holds => exact absurd ((entityType_eq key).1.symm.trans type) (by decide)
  | imported record favorite secrets raw facts allow key holds =>
    obtain ⟨type', -⟩ := entityType_eq key
    have other : record.role.kind.entityType = noteEntityType := type'.symm.trans type
    cases kind : record.role.kind with
    | _ =>
      rw [kind] at other
      exact absurd other (by decide)
  | note id c text ref created updated key opaque_ holds =>
    obtain ⟨-, rfl⟩ := entityType_eq key
    exact ⟨opaque_, c, text, ref, created, updated, holds⟩

/-- **A row of a note.** -/
theorem Written.note_row (written : Written allowed r) (type : r.entityType = noteEntityType) :
    identifierOf r = some r.entityId ∧ opaqueId.fullmatch r.entityId = true ∧ isNoteRow r = true ∧
      ∃ c, collectionNamed r = some c := by
  obtain ⟨opaque_, c, text, ref, created, updated, holds⟩ := written.note_holds type
  rw [holds.identifierOf (.inr rfl) rfl, holds.collectionNamed (.inr rfl) rfl]
  exact ⟨rfl, opaque_, holds.isNote rfl, c, rfl⟩

/-- **A row of a collection.** -/
theorem Written.collection_row (written : Written allowed r) (type : r.entityType = collectionEntityType) :
    ∃ c, r.entityId = stableId .collection c ∧ identifierOf r = some c ∧ isLegacyId c = true := by
  cases written with
  | note id c text ref created updated key opaque_ holds => exact absurd ((entityType_eq key).1.symm.trans type) (by decide)
  | item id c fields saved key legacy kind parent holds => exact absurd ((entityType_eq key).1.symm.trans type) (by decide)
  | activity id c t i event at_ key holds => exact absurd ((entityType_eq key).1.symm.trans type) (by decide)
  | collection id fields created updated key legacy holds =>
    refine ⟨id, (entityType_eq key).2, ?_, legacy⟩
    rw [holds.identifierOf (.inl rfl) rfl]
    rfl
  | imported record favorite secrets raw facts allow key holds =>
    obtain ⟨type', id⟩ := entityType_eq key
    have kind : record.role.kind = .collection :=
      RecordKind.entityType_injective (type'.symm.trans type : record.role.kind.entityType = RecordKind.collection.entityType)
    refine ⟨record.legacyId, ?_, ?_, facts.isLegacyId⟩
    · rw [id, BackupRecord.workspaceId, kind]
    · rw [holds.identifierOf (.inl rfl) rfl]
      exact textAt_eq_some.2 facts.id

end Types

/-! ## What a call writes -/

/-- Every row is an old one, or satisfies `W`. -/
def Grows (W : RecordRow → Prop) (db db' : Store) : Prop :=
  ∀ r ∈ db'.records.rows, r ∈ db.records.rows ∨ W r

section Grows

variable {W : RecordRow → Prop} {ctx : Context} {db db' db'' : Store}

theorem Grows.refl (W : RecordRow → Prop) (db : Store) : Grows W db db :=
  fun _ mem => .inl mem

theorem Grows.trans (h : Grows W db db') (h' : Grows W db' db'') : Grows W db db'' := by
  intro r mem
  rcases h' r mem with old | new
  · exact h r old
  · exact .inr new

theorem Store.Sets.grows {k : Key} {v : Option RecordRow × Option TombstoneRow} (h : Store.Sets db db' k v)
    (w : ∀ r, v.1 = some r → W r) : Grows W db db' := by
  intro r mem
  have found : db'.record? r.key.1 r.key.2 = some r := Store.record?_eq_some.2 ⟨mem, rfl⟩
  by_cases same : r.key = k
  · right
    apply w
    rw [same] at found
    rw [← found]
    exact (congrArg Prod.fst h.entry_same).symm
  · left
    rw [h.record_other same] at found
    exact (Store.record?_eq_some.1 found).1

theorem createRecord_grows {t i : String} {payload : JsonObject} {ms : Nat} {record : VersionedRecord}
    (h : createRecord ctx db t i payload ms = .ok (db', record))
    (w : ∀ r : RecordRow, r.key = (t, i) → opaqueId.fullmatch i = true → Holds r.payloadJson payload → W r) :
    Grows W db db' := by
  have valid : opaqueId.fullmatch i = true := by
    simp only [createRecord, translate_eq_ok, Checked.bind_eq_ok, createIn, validateEntity, Checked.require_eq_ok] at h
    obtain ⟨_, -, _, ⟨_, -, valid⟩, -⟩ := h
    exact valid
  obtain ⟨timestamp, payloadJson, -, text, -, -, sets⟩ := createRecord_eq_ok h
  refine sets.grows ?_
  rintro r ⟨⟩
  exact w _ rfl valid (holds_canonical text)

theorem replaceRecord_grows {t i : String} {payload : JsonObject} {expected : Int} {ms : Nat} {record : VersionedRecord}
    (h : replaceRecord ctx db t i payload expected ms = .ok (db', record))
    (w : ∀ r : RecordRow, r.key = (t, i) → opaqueId.fullmatch i = true → Holds r.payloadJson payload → W r) :
    Grows W db db' := by
  have valid : opaqueId.fullmatch i = true := by
    simp only [replaceRecord, translate_eq_ok, Checked.bind_eq_ok, replaceIn, validateEntity, Checked.require_eq_ok] at h
    obtain ⟨_, -, _, ⟨_, -, valid⟩, -⟩ := h
    exact valid
  obtain ⟨_, timestamp, payloadJson, -, text, -, -, sets⟩ := replaceRecord_eq_ok h
  refine sets.grows ?_
  rintro r ⟨⟩
  exact w _ rfl valid (holds_canonical text)

theorem deleteRecord_grows {t i : String} {expected : Int} {ms : Nat} {tombstone : TombstoneRow}
    (h : deleteRecord db t i expected ms = .ok (db', tombstone)) : Grows W db db' := by
  obtain ⟨_, _, -, -, -, -, sets⟩ := deleteRecord_eq_ok h
  refine sets.grows ?_
  rintro r ⟨⟩

theorem deleteAll_grows {ms : Nat} {rows : List RecordRow} (h : deleteAll db ms rows = .ok db') : Grows W db db' := by
  induction rows generalizing db with
  | nil =>
    rw [deleteAll, Checked.pure_eq_ok] at h
    subst h
    exact .refl W db
  | cons r rs ih =>
    simp only [deleteAll, Checked.bind_eq_ok, Prod.exists] at h
    obtain ⟨db₁, _, deleted, rest⟩ := h
    exact (deleteRecord_grows deleted).trans (ih rest)

theorem pruneRows_grows {ms : Nat} {rows : List RecordRow} (h : pruneRows db ms rows = .ok db') : Grows W db db' := by
  induction rows generalizing db with
  | nil =>
    rw [pruneRows, Checked.pure_eq_ok] at h
    subst h
    exact .refl W db
  | cons r rs ih =>
    rw [pruneRows, Checked.bind_eq_ok] at h
    obtain ⟨db₁, pruned, rest⟩ := h
    rcases passOver_eq_ok pruned with rfl | ⟨_, deleted⟩
    · exact ih rest
    · exact (deleteRecord_grows deleted).trans (ih rest)

theorem pruneActivityIn_grows {collectionId : Option String} {ms : Nat}
    (h : pruneActivityIn db collectionId ms = .ok db') : Grows W db db' := by
  unfold pruneActivityIn at h
  split at h
  · rw [Checked.pure_eq_ok] at h
    subst h
    exact .refl W db
  · dsimp only at h
    split at h
    · rw [Checked.pure_eq_ok] at h
      subst h
      exact .refl W db
    · exact pruneRows_grows h

end Grows

variable {allowed : BackupRecord → Prop} {ctx : Context} {db db' : Store}

theorem recordActivityIn_grows {k : Nat} {collectionId : Option String} {event t i : String}
    (h : recordActivityIn ctx k db collectionId event t i = .ok db') : Grows (Written allowed) db db' := by
  obtain ⟨ms, db₁, record, -, pruned, created⟩ := recordActivityIn_eq_ok h
  exact (pruneActivityIn_grows pruned).trans
    (createRecord_grows created fun r key _ holds => .activity _ _ _ _ _ _ key holds)

theorem addNote_grows {id : String} {text : Json} {evidenceRef : Option JsonValue} {given : Option String}
    {record : VersionedRecord} (h : addNote ctx id text evidenceRef given db = .ok (db', record)) :
    Grows (Written allowed) db db' := by
  obtain ⟨_, _, _, _, db₁, -, -, -, -, -, created, recorded⟩ := addNote_eq_ok h
  exact (createRecord_grows created fun r key valid holds => .note _ _ _ _ _ _ key valid holds).trans
    (recordActivityIn_grows recorded)

/-- The records an import brings are all allowed. -/
def Admits (allowed : BackupRecord → Prop) (input : Context × WorkspaceCall) : Prop :=
  ∀ inject raw digest backup, input.2 = .importBackup inject raw digest →
    validateWorkspaceBackup input.1.settings.portableSecrets raw = .ok backup → ∀ r ∈ backup.records, allowed r

/-- The rows of a fresh import. -/
theorem imported_grows {secrets : List String} {envelope : JsonObject} {backup : ValidatedBackup}
    (accepted : Accepted secrets envelope backup) (imported : Imported backup db db')
    (admitted : ∀ r ∈ backup.records, allowed r) : Grows (Written allowed) db db' := by
  intro r mem
  have found : (db'.entry r.key).1 = some r := Store.record?_eq_some.2 ⟨mem, rfl⟩
  rcases imported.entry r.key with ⟨t, -, -, -, _, -, -, entry⟩ | ⟨-, ⟨a, planned, -, key, row, incoming, entry⟩ | ⟨-, entry⟩⟩
  · rw [entry] at found
    cases found
  · rw [entry] at found
    cases found
    obtain ⟨sources, -, -⟩ := plan_eq_ok imported.planned
    have member : a.1 ∈ backup.records := sources ▸ List.mem_map_of_mem planned
    obtain ⟨raw, facts⟩ := accepted.record member
    obtain ⟨payloadJson, _, _, text, -, -, -, rfl⟩ := incomingRow_eq_ok incoming
    rw [incomingText, Checked.orRaise_eq_ok] at text
    exact .inr (.imported a.1 _ secrets raw facts (admitted a.1 member) rfl
      (holds_canonicalJson (wrapper_prints accepted member) text))
  · rw [entry] at found
    exact .inl (Store.record?_eq_some.1 found).1

/-- **Every row a call leaves** was there before, or is one that calls write. -/
theorem WorkspaceCall.body_grows {call : WorkspaceCall} (admits : Admits allowed (ctx, call))
    (h : call.body ctx db = .ok db') : Grows (Written allowed) db db' := by
  cases call with
  | createCollection args id =>
    obtain ⟨_, created⟩ := storeOf_eq_ok.1 h
    obtain ⟨_, _, db₁, -, -, legacy, -, created, recorded⟩ := createCollection_eq_ok created
    exact (createRecord_grows created fun r key _ holds => .collection _ _ _ _ key legacy holds).trans
      (recordActivityIn_grows recorded)
  | updateCollection id expected args =>
    obtain ⟨_, updated⟩ := storeOf_eq_ok.1 h
    obtain ⟨_, _, _, _, db₁, legacy, -, -, -, replaced, recorded⟩ := updateCollection_eq_ok updated
    exact (replaceRecord_grows replaced fun r key _ holds => .collection _ _ _ _ key legacy holds).trans
      (recordActivityIn_grows recorded)
  | deleteCollection id expected =>
    obtain ⟨_, deleted⟩ := storeOf_eq_ok.1 h
    obtain ⟨_, db₁, db₂, db₃, -, -, items, notes, deleted, recorded⟩ := deleteCollection_eq_ok deleted
    exact (((deleteAll_grows items).trans (deleteAll_grows notes)).trans (deleteRecord_grows deleted)).trans
      (recordActivityIn_grows recorded)
  | addItem id args item =>
    obtain ⟨_, added⟩ := storeOf_eq_ok.1 h
    rcases addItem_eq_ok added with ⟨_, _, _, note⟩ |
      ⟨_, _, _, db₁, kind, parent, legacy, -, -, -, -, -, -, -, created, recorded⟩
    · exact addNote_grows note
    · exact (createRecord_grows created fun r key _ holds => .item _ _ _ _ key legacy kind parent holds).trans
        (recordActivityIn_grows recorded)
  | deleteItem id item expected =>
    obtain ⟨_, deleted⟩ := storeOf_eq_ok.1 h
    obtain ⟨_, _, _, _, db₁, -, deleted, recorded⟩ := deleteItem_eq_ok deleted
    exact (deleteRecord_grows deleted).trans (recordActivityIn_grows recorded)
  | addNote id text reference note =>
    obtain ⟨_, added⟩ := storeOf_eq_ok.1 h
    exact addNote_grows added
  | updateNote id note expected text =>
    obtain ⟨_, updated⟩ := storeOf_eq_ok.1 h
    obtain ⟨_, _, _, _, _, _, _, db₁, -, -, -, -, replaced, recorded⟩ := updateNote_eq_ok updated
    exact (replaceRecord_grows replaced fun r key valid holds => .note _ _ _ _ _ _ key valid holds).trans
      (recordActivityIn_grows recorded)
  | recordActivity id event t i => exact recordActivityIn_grows (recordActivity_eq_ok h)
  | importBackup inject raw digest =>
    obtain ⟨receipt, done⟩ := storeOf_eq_ok.1 h
    obtain ⟨backup, valid, -, rfl | ⟨-, fresh⟩⟩ := importBackup_eq_ok done
    · exact .refl _ _
    · obtain ⟨imported, -⟩ := importFresh_eq_ok fresh
      obtain ⟨envelope, -, accepted⟩ := validateWorkspaceBackup_eq_ok.1 valid
      exact imported_grows accepted imported (admits inject raw digest backup rfl valid)

/-- Every live row was written by a call. -/
def Rows (allowed : BackupRecord → Prop) (db : Store) : Prop :=
  ∀ r ∈ db.records.rows, Written allowed r

theorem workspaceStep_rows {input : Context × WorkspaceCall} (admits : Admits allowed input) (rows : Rows allowed db) :
    Rows allowed (workspaceStep db input) := by
  rcases settle_cases (input.2.body input.1 db) db with ok | same
  · intro r mem
    rcases WorkspaceCall.body_grows admits ok r mem with old | new
    · exact rows r old
    · exact new
  · rw [workspaceStep, same]
    exact rows

/-- **Runs**: in every state reached, every live row was written by a call of the run. -/
theorem run_rows {inputs : List (Context × WorkspaceCall)} (admits : ∀ input ∈ inputs, Admits allowed input) :
    Rows allowed (Runs.run workspaceStep Store.empty inputs) := by
  have along : ∀ (db : Store), Rows allowed db → Rows allowed (Runs.run workspaceStep db inputs) := by
    induction inputs with
    | nil => exact fun db rows => rows
    | cons input inputs ih =>
      intro db rows
      rw [Runs.run_cons]
      apply ih (fun x mem => admits x (List.mem_cons_of_mem _ mem))
      exact workspaceStep_rows (admits input List.mem_cons_self) rows
  exact along Store.empty (fun r mem => absurd mem (List.not_mem_nil))

end Workspace
