import DocumentQa.Transfer.Import

/-!
# When an import commits

The texts an import writes always exist: an accepted record prints, and so does the receipt.
What can still fail is a timestamp outside `datetime`, a revision the store cannot bind, two
records under one identity, or an import identifier that is taken (`importFresh_commits`).
-/

namespace Transfer

open Python JsonText Workspace SqlTable

/-! ## Values that print -/

/-- Finite, and every integer inside has a text. -/
def prints (j : Json) : Bool :=
  j.finite && printable j

theorem prints_obj {fields : List (String × Json)} : prints (.obj fields) = true ↔ ∀ f ∈ fields, prints f.2 = true := by
  simp only [prints, Bool.and_eq_true, Json.finite_obj, printable, Json.all_obj]
  constructor
  · rintro ⟨finite, -, print⟩ f hf
    exact ⟨finite f hf, print f hf⟩
  · intro h
    exact ⟨fun f hf => (h f hf).1, trivial, fun f hf => (h f hf).2⟩

theorem prints_arr {items : List Json} : prints (.arr items) = true ↔ ∀ j ∈ items, prints j = true := by
  simp only [prints, Bool.and_eq_true, Json.finite_arr, printable, Json.all_arr]
  constructor
  · rintro ⟨finite, -, print⟩ j hj
    exact ⟨finite j hj, print j hj⟩
  · intro h
    exact ⟨fun j hj => (h j hj).1, trivial, fun j hj => (h j hj).2⟩

@[simp] theorem prints_str (s : String) : prints (.str s) = true :=
  rfl

@[simp] theorem prints_bool (b : Bool) : prints (.bool b) = true :=
  rfl

@[simp] theorem prints_null : prints .null = true :=
  rfl

/-- `2 ** 64`, below every integer too long to print. -/
def wordBound : Nat := 18446744073709551616

theorem prints_nat {n : Nat} (h : n < wordBound) : prints (.int n) = true := by
  have small : (n : Int).natAbs < 10 ^ maxStrDigits := by
    rw [Int.natAbs_natCast]
    calc n < wordBound := h
      _ < 10 ^ 20 := by decide
      _ ≤ 10 ^ maxStrDigits := Nat.pow_le_pow_right (by decide) (by decide)
  simp only [prints, printable, Json.all, Json.finite, Bool.true_and, decide_eq_true_eq]
  exact small

/-- A value that prints has a canonical text. -/
theorem canonicalJson_prints {j : Json} (h : prints j = true) :
    canonicalJson j = some (String.ofList (ecmaPrinter.text j.sorted)) := by
  rw [prints, Bool.and_eq_true] at h
  exact canonicalJson_eq h.1 h.2

/-! ## Records -/

/-- The wrapper of a record as a value. -/
def wrapperJson (backup : ValidatedBackup) (r : BackupRecord) : Json :=
  .obj (wrappedPayload r (isFavorite backup r))

/-- The text of a wrapper. -/
def wrapperText (backup : ValidatedBackup) (r : BackupRecord) : String :=
  String.ofList (ecmaPrinter.text (wrapperJson backup r).sorted)

theorem validateRole_small {kind : RecordKind} {schemaVersion revision createdAt updatedAt : Nat} {payload : JsonObject}
    {parent : Json} {role : Role}
    (h : validateRole kind schemaVersion revision createdAt updatedAt payload parent = .ok role) : schemaVersion < 6 := by
  cases kind with
  | conversation =>
    simp only [validateRole, validateConversation, Checked.bind_eq_ok, Checked.require_eq_ok] at h
    obtain ⟨_, ⟨_, ⟨known, -⟩, -⟩, -⟩ := h
    omega
  | collection =>
    simp only [validateRole, validateCollection, Checked.bind_eq_ok, Checked.require_eq_ok] at h
    obtain ⟨_, ⟨_, known, -⟩, -⟩ := h
    omega
  | evidenceItem =>
    simp only [validateRole, validateEvidenceItem, Checked.bind_eq_ok, Checked.require_eq_ok] at h
    obtain ⟨_, ⟨_, known, -⟩, -⟩ := h
    omega

theorem roleFields_prints (role : Role) (favorite : Bool) : ∀ f ∈ roleFields role favorite, prints f.2 = true := by
  cases role <;> simp [roleFields, textField]

section Accepted

variable {secrets : List String} {envelope : JsonObject} {backup : ValidatedBackup} {db db' : Store}

theorem wrapper_prints (accepted : Accepted secrets envelope backup) {r : BackupRecord} (h : r ∈ backup.records) :
    prints (wrapperJson backup r) = true := by
  obtain ⟨_, facts⟩ := accepted.record h
  have payload : prints r.payload.json = true := by
    rw [prints, Bool.and_eq_true]
    exact validateJsonTree_numbers facts.portable
  have schema : prints (.int r.schemaVersion) = true := by
    apply prints_nat
    have := validateRole_small facts.role
    unfold wordBound
    omega
  rw [wrapperJson, prints_obj, wrappedPayload]
  intro f hf
  rcases List.mem_append.1 hf with hf | hf
  · simp only [List.mem_cons, List.not_mem_nil, or_false] at hf
    rcases hf with rfl | rfl | rfl | rfl | rfl
    · exact prints_nat (n := 1) (by decide)
    · rfl
    · rfl
    · exact schema
    · exact payload
  · exact roleFields_prints _ _ f hf

/-- The text an import writes for an accepted record. -/
theorem incomingText_accepted (accepted : Accepted secrets envelope backup) {r : BackupRecord} (h : r ∈ backup.records) :
    incomingText backup r = .ok (wrapperText backup r) := by
  rw [incomingText, Checked.orRaise_eq_ok]
  exact canonicalJson_prints (wrapper_prints accepted h)

/-- A time `datetime` can hold. -/
def inRange (ms : Nat) : Bool :=
  (isoFromTimestamp ms).isOk

def isoValue : Except PyError String → String
  | .ok text => text
  | .error _ => ""

theorem eq_ok_isoValue {x : Except PyError String} (h : x.isOk = true) : x = .ok (isoValue x) := by
  cases x with
  | ok text => rfl
  | error e => cases h

/-- The text of a time in range. -/
def isoOf (ms : Nat) : String :=
  isoValue (isoFromTimestamp ms)

theorem isoFromTimestamp_inRange {ms : Nat} (h : inRange ms = true) : isoFromTimestamp ms = .ok (isoOf ms) :=
  eq_ok_isoValue h

/-- What the store can hold of a record. -/
def storable (r : BackupRecord) : Bool :=
  inRange r.createdAt && inRange r.updatedAt && isSqliteInteger r.revision

/-- The row of a record that can be stored. -/
def rowOf (backup : ValidatedBackup) (r : BackupRecord) : RecordRow :=
  ⟨r.entityType, r.workspaceId, r.revision, wrapperText backup r, isoOf r.createdAt, isoOf r.updatedAt⟩

theorem incomingRow_accepted (accepted : Accepted secrets envelope backup) {r : BackupRecord} (h : r ∈ backup.records)
    (stored : storable r = true) : incomingRow backup r = .ok (rowOf backup r) := by
  rw [storable, Bool.and_eq_true, Bool.and_eq_true] at stored
  obtain ⟨⟨created, updated⟩, revision⟩ := stored
  have bound : bindInteger r.revision = .ok () := bindInteger_eq_ok.2 revision
  rw [incomingRow, incomingText_accepted accepted h, isoFromTimestamp_inRange created, isoFromTimestamp_inRange updated,
    bound]
  rfl

/-! ## The receipt -/

theorem sum_bound {unsupported : List UnsupportedSource} (h : ∀ s ∈ unsupported, s.count ≤ maxSafeInteger) (n : Nat) :
    unsupported.foldl (fun n s => n + s.count) n ≤ n + unsupported.length * maxSafeInteger := by
  induction unsupported generalizing n with
  | nil => simp
  | cons s rest ih =>
    have head := h s (by simp)
    have tail := ih (fun a ha => h a (List.mem_cons_of_mem _ ha)) (n + s.count)
    rw [List.foldl_cons, List.length_cons, Nat.succ_mul]
    omega

theorem int_of_tree {i : Int} {j : Json} (h : validateJsonTree secrets j = .ok ()) {fields : List (String × Json)}
    {key : String} (obj : j = .obj fields) (mem : (key, .int i) ∈ fields) : i.natAbs ≤ maxSafeInteger := by
  obtain ⟨nodes, -⟩ := Json.Walk.check_eq_ok.1 h
  rw [obj, Json.all_obj] at nodes
  have ok := Json.isOk_iff.1 (Json.all_self (nodes.2 _ mem))
  simpa [portableTree, visitScalar] using ok

theorem validateUnsupported_small {raw : JsonValue} {s : UnsupportedSource} (h : validateUnsupported secrets raw = .ok s) :
    s.count ≤ maxSafeInteger ∧ ∀ v, s.schemaVersion = some v → v ≤ maxSafeInteger := by
  simp only [validateUnsupported, Checked.bind_eq_ok, Checked.require_eq_ok, Checked.pure_eq_ok, positiveInt_eq_ok] at h
  obtain ⟨descriptor, -, _, -, _, -, version, versionOk, count, ⟨-, countIs⟩, _, -, _, -, _, tree, rfl⟩ := h
  have member : ∀ {key : String} {i : Int}, (descriptor.value key).json = .int i → (key, .int i) ∈ descriptor.fields := by
    intro key i e
    apply Json.lookup_mem
    cases found : Json.lookup key descriptor.fields with
    | none =>
      have : (descriptor.value key).json = .null := by
        change (Json.lookup key descriptor.fields).getD .null = _
        rw [found]
        rfl
      rw [this] at e
      cases e
    | some j =>
      change (Json.lookup key descriptor.fields).getD .null = _ at e
      rw [found] at e
      exact congrArg some e
  constructor
  · have := int_of_tree tree rfl (member countIs)
    simpa using this
  · rintro v rfl
    cases versionIs : (descriptor.value "schema_version").json with
    | int i =>
      have bound := int_of_tree tree rfl (member versionIs)
      rw [versionIs] at versionOk
      simp only [optionalVersion, Checked.bind_eq_ok, Checked.require_eq_ok, Checked.pure_eq_ok,
        Option.some.injEq] at versionOk
      obtain ⟨_, positive, rfl⟩ := versionOk
      omega
    | _ =>
      rw [versionIs] at versionOk
      simp [optionalVersion] at versionOk

theorem limited_length {key label : String} {limit : Nat} {raws : List JsonValue}
    (h : limitedList envelope key label limit = .ok raws) : raws.length ≤ limit := by
  simp only [limitedList, Checked.bind_eq_ok, Checked.require_eq_ok, Checked.pure_eq_ok] at h
  obtain ⟨_, -, _, bound, rfl⟩ := h
  exact bound

/-- The lists of an accepted backup are within their limits. -/
structure BackupLimits (backup : ValidatedBackup) : Prop where
  conversations : backup.conversations.length ≤ maxConversations
  collections : backup.collections.length ≤ maxCollections
  evidenceItems : backup.evidenceItems.length ≤ maxEvidenceItems
  favorites : backup.favorites.length ≤ maxFavorites
  tombstones : backup.tombstones.length ≤ maxTombstones
  unsupported : backup.unsupported.length ≤ maxUnsupportedDescriptors

theorem Accepted.limits (accepted : Accepted secrets envelope backup) : BackupLimits backup := by
  have within {α : Type} {f : JsonValue → Except PyError α} {bs : List α} {key label : String} {limit : Nat}
      (h : ∃ raws, limitedList envelope key label limit = .ok raws ∧ Checked.collect f raws = .ok bs) :
      bs.length ≤ limit := by
    obtain ⟨raws, limited, collected⟩ := h
    rw [← (Checked.collect_eq_ok.1 collected).length_eq]
    exact limited_length limited
  exact ⟨within accepted.conversations, within accepted.collections, within accepted.evidenceItems,
    within accepted.favorites, within accepted.tombstones, within accepted.unsupported⟩

theorem mappings_length (backup : ValidatedBackup) :
    (mappings backup).length ≤ backup.records.length + backup.tombstones.length := by
  have grow : ∀ (ts : List BackupTombstone) (ms : List Mapping),
      (ts.foldl (fun ms t => if Mapping.mk .conversation t.legacyId ∈ ms then ms
        else ms ++ [Mapping.mk .conversation t.legacyId]) ms).length ≤ ms.length + ts.length := by
    intro ts
    induction ts with
    | nil => exact fun _ => Nat.le_refl _
    | cons t ts ih =>
      intro ms
      refine (ih _).trans ?_
      dsimp only
      split
      · rw [List.length_cons]
        omega
      · rw [List.length_append, List.length_cons, List.length_cons, List.length_nil]
        omega
  rw [mappings, List.length_insertionSort]
  refine (grow _ _).trans ?_
  rw [List.length_map]

theorem preview_prints (accepted : Accepted secrets envelope backup) {p : Plan} (planned : plan db backup = .ok p) :
    ∀ f ∈ previewFields backup p, prints f.2 = true := by
  obtain ⟨sources, -, buried⟩ := plan_eq_ok planned
  have limits := accepted.limits
  have records : p.records.length ≤ 5150 := by
    rw [← List.length_map (f := Prod.fst), sources]
    simp only [ValidatedBackup.records, List.length_append]
    have := limits.conversations
    have := limits.collections
    have := limits.evidenceItems
    unfold maxConversations maxCollections maxEvidenceItems at *
    omega
  have tombstones : p.tombstones.length ≤ 1000 := by
    rw [buried, List.length_map]
    exact limits.tombstones
  have small {n : Nat} (h : n ≤ 1000000) : prints (.int n) = true := prints_nat (by unfold wordBound; omega)
  have counted {α : Type} {l : List α} {n : Nat} (q : α → Bool) (h : l.length ≤ n) : l.countP q ≤ n :=
    (List.countP_le_length).trans h
  have sources' : ∀ s ∈ backup.unsupported, s.count ≤ maxSafeInteger ∧ ∀ v, s.schemaVersion = some v → v ≤ maxSafeInteger := by
    intro s hs
    obtain ⟨_, -, collected⟩ := accepted.unsupported
    obtain ⟨raw, -, ok⟩ := Checked.collect_source collected hs
    exact validateUnsupported_small ok
  have total : unsupportedCount backup.unsupported ≤ 100 * maxSafeInteger := by
    have := sum_bound (fun s hs => (sources' s hs).1) 0
    have := limits.unsupported
    unfold unsupportedCount maxUnsupportedDescriptors maxSafeInteger at *
    omega
  have descriptors : prints (.arr (backup.unsupported.map UnsupportedSource.json)) = true := by
    rw [prints_arr]
    intro j hj
    obtain ⟨s, hs, rfl⟩ := List.mem_map.1 hj
    obtain ⟨count, version⟩ := sources' s hs
    rw [UnsupportedSource.json, prints_obj, UnsupportedSource.fields]
    simp only [List.forall_mem_cons]
    refine ⟨rfl, ?_, prints_nat (by unfold wordBound maxSafeInteger at *; omega), rfl, by simp⟩
    cases h : s.schemaVersion with
    | none => rfl
    | some v => exact prints_nat (by have := version v h; unfold wordBound maxSafeInteger at *; omega)
  have maps : (mappings backup).length ≤ 6150 := by
    refine (mappings_length backup).trans ?_
    rw [← sources, List.length_map]
    have := limits.tombstones
    unfold maxTombstones at *
    omega
  have mapped : prints (.arr ((mappings backup).map Mapping.json)) = true := by
    rw [prints_arr]
    intro j hj
    obtain ⟨m, -, rfl⟩ := List.mem_map.1 hj
    rw [Mapping.json, prints_obj]
    simp
  have d1 := counted (fun a : BackupRecord × Action => decide (a.2 = .duplicate)) records
  have d2 := counted (fun a : BackupTombstone × TombstoneAction => decide (a.2 = .duplicate)) tombstones
  have c1 := counted (fun a : BackupRecord × Action => a.2 = .conflict || a.2 = .blockedByTombstone) records
  have c2 := counted (fun a : BackupTombstone × TombstoneAction => decide (a.2 = .conflict)) tombstones
  have n1 := counted (fun a : BackupRecord × Action => decide (a.2 = .create)) records
  have n2 := counted (fun a : BackupRecord × Action => decide (a.2 = .replaceOlder)) records
  have l1 := limits.conversations
  have l2 := limits.collections
  have l3 := limits.evidenceItems
  have l4 := limits.favorites
  have l5 := limits.tombstones
  unfold maxConversations maxCollections maxEvidenceItems maxFavorites maxTombstones at *
  simp only [previewFields, List.forall_mem_cons]
  refine ⟨rfl, prints_nat (by decide), rfl, rfl, ?_, prints_nat (by unfold wordBound maxSafeInteger at *; omega),
    descriptors, small ?_, small ?_, small (by omega), small ?_, small ?_, small ?_, small (by omega), mapped, by simp⟩
  · rw [prints_obj]
    simp only [List.forall_mem_cons]
    exact ⟨small (by omega), small (by omega), small (by omega), small (by omega), by simp⟩
  all_goals
    simp only [Plan.tally]
    omega

/-- The row an import leaves as its receipt. -/
def receiptOf (backup : ValidatedBackup) (p : Plan) (now : String) : ImportRow :=
  ⟨importId backup.digest, backup.digest, String.ofList (ecmaPrinter.text (Json.obj (receiptFields backup p now)).sorted),
    now, now⟩

theorem receiptRow_accepted (accepted : Accepted secrets envelope backup) {p : Plan} (planned : plan db backup = .ok p)
    (now : String) : receiptRow backup p now = .ok (receiptOf backup p now) := by
  have print : prints (.obj (receiptFields backup p now)) = true := by
    rw [prints_obj, receiptFields]
    intro f hf
    rcases List.mem_append.1 hf with hf | hf
    · simp only [List.mem_cons, List.not_mem_nil, or_false] at hf
      rcases hf with rfl | rfl | rfl | rfl <;> rfl
    · exact preview_prints accepted planned f (List.mem_of_mem_filter hf)
  simp only [receiptRow, canonicalJson_prints print, Checked.bind_eq_ok, Checked.orRaise_eq_ok, Checked.pure_eq_ok]
  exact ⟨_, rfl, rfl⟩

end Accepted

/-! ## The loops -/

section Loops

variable {inject : String → Nat → Except PyError Unit} {backup : ValidatedBackup} {db db' : Store}

/-- The record loop commits when every row exists and no identity is created twice. -/
theorem applyRecords_commits (quiet : ∀ action n, inject action n = .ok ()) {row : BackupRecord → RecordRow} {n : Nat}
    {actions : List (BackupRecord × Action)}
    (rows : ∀ a ∈ actions, a.2.applies = true → incomingRow backup a.1 = .ok (row a.1))
    (present : ∀ a ∈ actions, a.2 = .replaceOlder → db.record? a.1.entityType a.1.workspaceId ≠ none)
    (absent : ∀ a ∈ actions, a.2 = .create → db.record? a.1.entityType a.1.workspaceId = none)
    (once : actions.Pairwise fun a b => a.2 = .create → b.2 = .create → a.1.key ≠ b.1.key) :
    ∃ db' m, applyRecords inject backup db n actions = .ok (db', m) := by
  induction actions generalizing db n with
  | nil => exact ⟨db, n, rfl⟩
  | cons a rest ih =>
    obtain ⟨r, action⟩ := a
    obtain ⟨apart, once⟩ := List.pairwise_cons.1 once
    have rows' : ∀ a ∈ rest, a.2.applies = true → incomingRow backup a.1 = .ok (row a.1) :=
      fun a mem => rows a (List.mem_cons_of_mem _ mem)
    rw [applyRecords]
    split
    · next applies =>
      have incoming := rows (r, action) (by simp) applies
      have written : ∃ db₁, applyRecord backup db r action = .ok db₁ := by
        cases action with
        | create =>
          obtain ⟨_, _, _, -, -, -, bound, is⟩ := incomingRow_eq_ok incoming
          have free : db.record? (row r).entityType (row r).entityId = none := by
            rw [is]
            exact absent (r, .create) (by simp) rfl
          have fits : isSqliteInteger (row r).revision = true := by
            rw [is]
            exact bound
          obtain ⟨db₁, inserted⟩ := Store.insertRecord_commits fits free
          refine ⟨db₁, ?_⟩
          exact Checked.bind_eq_ok.2 ⟨row r, incoming, inserted⟩
        | replaceOlder =>
          exact ⟨_, Checked.bind_eq_ok.2 ⟨row r, incoming, rfl⟩⟩
        | duplicate => cases applies
        | conflict => cases applies
        | blockedByTombstone => cases applies
      obtain ⟨db₁, applied⟩ := written
      obtain ⟨row', -, sets⟩ := applyRecord_sets applies (present (r, action) (by simp)) applied
      have kept : ∀ k : Key, k ≠ r.key → db₁.record? k.1 k.2 = db.record? k.1 k.2 := fun k ne => sets.record_other ne
      have here : db₁.record? r.entityType r.workspaceId = some row' := congrArg Prod.fst sets.entry_same
      obtain ⟨db', m, done⟩ := @ih db₁ (n + 1) rows'
        (by
          intro a mem replaces
          by_cases same : a.1.key = r.key
          · have type : a.1.entityType = r.entityType := congrArg Prod.fst same
            have id : a.1.workspaceId = r.workspaceId := congrArg Prod.snd same
            rw [type, id, here]
            exact Option.some_ne_none row'
          · exact kept _ same ▸ present a (List.mem_cons_of_mem _ mem) replaces)
        (by
          intro a mem creates
          have before := absent a (List.mem_cons_of_mem _ mem) creates
          have ne : a.1.key ≠ r.key := by
            intro same
            have type : a.1.entityType = r.entityType := congrArg Prod.fst same
            have id : a.1.workspaceId = r.workspaceId := congrArg Prod.snd same
            cases action with
            | create => exact apart a mem rfl creates same.symm
            | replaceOlder =>
              refine present (r, .replaceOlder) (by simp) rfl ?_
              rw [← type, ← id]
              exact before
            | duplicate => cases applies
            | conflict => cases applies
            | blockedByTombstone => cases applies
          exact (kept _ ne).trans before) once
      refine ⟨db', m, ?_⟩
      simp only [applied, quiet, Checked.ok_bind]
      exact done
    · exact ih rows' (fun a mem => present a (List.mem_cons_of_mem _ mem))
        (fun a mem => absent a (List.mem_cons_of_mem _ mem)) once

/-- The tombstone loop commits when every tombstone can be stored. -/
theorem applyTombstones_commits (quiet : ∀ action n, inject action n = .ok ()) {n : Nat}
    {actions : List (BackupTombstone × TombstoneAction)}
    (stored : ∀ a ∈ actions, a.2.applies = true → inRange a.1.deletedAt = true ∧ isSqliteInteger a.1.revision = true) :
    ∃ db', applyTombstones inject db n actions = .ok db' := by
  induction actions generalizing db n with
  | nil => exact ⟨db, rfl⟩
  | cons a rest ih =>
    obtain ⟨t, action⟩ := a
    have rest' := fun a mem => stored a (List.mem_cons_of_mem _ mem)
    rw [applyTombstones]
    split
    · next applies =>
      obtain ⟨range, bound⟩ := stored (t, action) (by simp) applies
      have upserted : ∃ db₁, (db.deleteRecord t.entityType t.workspaceId).upsertTombstone
          (tombstoneRow t (isoOf t.deletedAt)) = .ok db₁ := by
        have fits : bindInteger (tombstoneRow t (isoOf t.deletedAt)).revision = .ok () := bindInteger_eq_ok.2 bound
        exact ⟨_, Checked.bind_eq_ok.2 ⟨(), fits, rfl⟩⟩
      obtain ⟨db₁, upserted⟩ := upserted
      have written : applyTombstone db t action = .ok db₁ := by
        cases action with
        | create =>
          exact Checked.bind_eq_ok.2 ⟨isoOf t.deletedAt, isoFromTimestamp_inRange range, upserted⟩
        | replace =>
          exact Checked.bind_eq_ok.2 ⟨isoOf t.deletedAt, isoFromTimestamp_inRange range, upserted⟩
        | duplicate => cases applies
        | conflict => cases applies
      obtain ⟨db', done⟩ := @ih db₁ (n + 1) rest'
      refine ⟨db', ?_⟩
      simp only [written, quiet, Checked.ok_bind]
      exact done
    · exact ih rest'

end Loops

section Commit

variable {inject : String → Nat → Except PyError Unit} {secrets : List String} {envelope : JsonObject}
  {backup : ValidatedBackup} {db db' : Store}

/-- Every accepted record has a plan. -/
theorem planRecord_accepted (accepted : Accepted secrets envelope backup) {r : BackupRecord} (h : r ∈ backup.records) :
    ∃ action, planRecord db backup r = .ok action := by
  rw [planRecord, incomingText_accepted accepted h]
  simp only [Checked.ok_bind]
  split
  · exact ⟨_, rfl⟩
  · split
    · exact ⟨_, rfl⟩
    · split
      · exact ⟨_, rfl⟩
      · split
        · exact ⟨_, rfl⟩
        · split <;> exact ⟨_, rfl⟩

theorem plan_accepted (accepted : Accepted secrets envelope backup) (db : Store) : ∃ p, plan db backup = .ok p := by
  have every : ∀ rs : List BackupRecord, (∀ r ∈ rs, r ∈ backup.records) →
      ∃ actions, Checked.collect (fun r => do
        let action ← planRecord db backup r
        pure (r, action)) rs = .ok actions := by
    intro rs
    induction rs with
    | nil => exact fun _ => ⟨[], rfl⟩
    | cons r rs ih =>
      intro members
      obtain ⟨action, planned⟩ : ∃ action, planRecord db backup r = .ok action :=
        planRecord_accepted accepted (members r (by simp))
      obtain ⟨actions, collected⟩ := ih fun a ha => members a (List.mem_cons_of_mem _ ha)
      refine ⟨(r, action) :: actions, ?_⟩
      simp only [Checked.collect, planned, collected, Checked.ok_bind]
      rfl
  obtain ⟨actions, collected⟩ := every backup.records fun _ h => h
  refine ⟨⟨actions, backup.tombstones.map fun t => (t, planTombstone db t)⟩, ?_⟩
  rw [plan, collected]
  rfl

/-- **When a fresh import commits.** -/
theorem importFresh_commits (quiet : ∀ action n, inject action n = .ok ()) (accepted : Accepted secrets envelope backup)
    {p : Plan} (planned : plan db backup = .ok p)
    (stored : ∀ a ∈ p.records, a.2.applies = true → storable a.1 = true)
    (once : p.records.Pairwise fun a b => a.2 = .create → b.2 = .create → a.1.key ≠ b.1.key)
    (buried : ∀ t ∈ backup.tombstones, (planTombstone db t).applies = true →
      inRange t.deletedAt = true ∧ isSqliteInteger t.revision = true)
    (unused : ∀ row ∈ db.imports.rows, row.importId ≠ importId backup.digest ∧ row.sourceDigest ≠ backup.digest)
    (now : String) : ∃ db' receipt, importFresh inject now backup db = .ok (db', receipt) := by
  obtain ⟨sources, actions, tombstones⟩ := plan_eq_ok planned
  have entries : ∀ a ∈ p.records, (a.2 = .replaceOlder → db.record? a.1.entityType a.1.workspaceId ≠ none) ∧
      (a.2 = .create → db.record? a.1.entityType a.1.workspaceId = none) := by
    intro a mem
    have action := actions a mem
    constructor
    · intro replaces
      rw [replaces] at action
      obtain ⟨existing, entry, -⟩ := planRecord_replace action
      rw [show db.record? a.1.entityType a.1.workspaceId = some existing from congrArg Prod.fst entry]
      exact nofun
    · intro creates
      rw [creates] at action
      exact congrArg Prod.fst (planRecord_create action)
  obtain ⟨db₁, n, records⟩ := applyRecords_commits (n := 0) quiet
    (fun a mem applies => incomingRow_accepted accepted (sources ▸ List.mem_map_of_mem mem) (stored a mem applies))
    (fun a mem => (entries a mem).1) (fun a mem => (entries a mem).2) once
  obtain ⟨db₂, tombstones'⟩ : ∃ db₂, applyTombstones inject db₁ n p.tombstones = .ok db₂ := by
    apply applyTombstones_commits quiet
    intro a mem applies
    rw [tombstones] at mem
    obtain ⟨t, ht, rfl⟩ := List.mem_map.1 mem
    exact buried t ht applies
  have receipt := receiptRow_accepted accepted planned now
  obtain ⟨imports₁, -⟩ := applyRecords_entry (fun a mem => (entries a mem).1) records
  obtain ⟨imports₂, -⟩ := applyTombstones_entry tombstones'
  have inserted : ∃ imports, db₂.imports.insert? (receiptOf backup p now) = some imports := by
    cases h : db₂.imports.insert? (receiptOf backup p now) with
    | some imports => exact ⟨imports, rfl⟩
    | none =>
      rw [Table.insert?] at h
      split at h
      · next taken =>
        obtain ⟨a, mem, clash⟩ := List.any_eq_true.1 taken
        rw [imports₂, imports₁] at mem
        obtain ⟨ids, digests⟩ := unused a mem
        simp only [clashes, Row.clash, Row.identity, receiptOf, Bool.or_eq_true] at clash
        rcases clash with e | e
        · exact absurd (of_decide_eq_true e).symm ids
        · exact absurd (of_decide_eq_true e).symm digests
      · cases h
  obtain ⟨imports, inserted⟩ := inserted
  refine ⟨{ db₂ with imports }, .obj (receiptFields backup p now), ?_⟩
  rw [importFresh, planned]
  simp only [Checked.ok_bind, records, tombstones', receipt, insertImport, inserted, Checked.orRaise]
  rfl

/-- The digest of a fresh import is new to the store. -/
theorem importBackup_fresh {ctx : Context} {raw : JsonValue}
    (valid : validateWorkspaceBackup ctx.settings.portableSecrets raw = .ok backup)
    (unused : ∀ row ∈ db.imports.rows, row.sourceDigest ≠ backup.digest) :
    importBackup inject ctx raw backup.digest db = importFresh inject ctx.nowText backup db := by
  have absent : db.imports.find? (fun row => row.sourceDigest = backup.digest) = none :=
    Table.find?_eq_none.2 fun row mem => decide_eq_false (unused row mem)
  rw [importBackup, valid]
  simp only [Checked.ok_bind, Checked.require, if_true, absent]

end Commit

end Transfer
