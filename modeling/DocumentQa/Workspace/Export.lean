import DocumentQa.Workspace.Capacity
import DocumentQa.Workspace.Members

/-!
# The export of a collection

`export_collection` reads one page of items and one page of notes. Within the bounds of
`Capacity` a page holds all of them, so nothing of the collection is left out.
-/

namespace Workspace

open Python JsonText Transfer SqlTable

/-! ## Readers -/

structure CollectionNote where
  noteId : String
  collectionId : String
  text : String
  /-- The reference, when it is a mapping. -/
  evidenceRef : Option (List (String × Json))
  revision : Nat
  createdAt : String
  updatedAt : String
deriving DecidableEq

section Readers

variable (ctx : Context)

/-- One type of members in `list_items`. -/
def listedItems (collectionId : String) (kind : Option String) :
    List (RecordRow × JsonObject) → Except PyError (List CollectionItem)
  | [] => pure []
  | (r, payload) :: rest =>
    match collectionItemOf ctx r.entityId r.revision payload r.createdAt r.updatedAt with
    | .ok item => do
      let items ← listedItems collectionId kind rest
      pure (if item.collectionId = collectionId && kind.all fun k => item.itemKind = k then item :: items else items)
    | .error e => if e.kind ∈ collectionErrors then listedItems collectionId kind rest else .error e

/-- `list_items`. -/
def listItems (collectionId : String) (kind : Option String) (page pageSize : Int) (db : Store) :
    Except PyError (List CollectionItem × Nat) := do
  let _ ← getCollection ctx collectionId db
  Checked.require (kind.all (fun k => collectionItemKinds.contains k) = true)
    (collectionError "unsupported item kind; expected one of document, evidence, answer, note")
  let (page, pageSize) ← boundedPage page pageSize
  let items ← listedItems ctx collectionId kind (scanIn db itemEntityType)
  let notes ← listedItems ctx collectionId kind (scanIn db noteEntityType)
  let all := (items ++ notes).insertionSort fun a b => Store.keyLe (a.createdAt, a.itemId) (b.createdAt, b.itemId)
  pure ((all.drop ((page - 1) * pageSize)).take pageSize, all.length)

/-- The notes that `list_notes` scans. -/
def listedNotes (collectionId : String) : List (RecordRow × JsonObject) → List CollectionNote
  | [] => []
  | (r, payload) :: rest =>
    match unwrapPayload payload "note record" with
    | .ok data =>
      if namesCollection data collectionId then
        { noteId := r.entityId
          collectionId
          text := str ctx.isPrintable (orElse (Json.lookup "text" data) (.str ""))
          evidenceRef := match Json.lookup "evidenceRef" data with
            | some (.obj fields) => some fields
            | _ => none
          revision := r.revision
          createdAt := r.createdAt
          updatedAt := r.updatedAt } :: listedNotes collectionId rest
      else listedNotes collectionId rest
    | .error _ => listedNotes collectionId rest

/-- `list_notes`. -/
def listNotes (collectionId : String) (page pageSize : Int) (db : Store) : Except PyError (List CollectionNote × Nat) := do
  let _ ← getCollection ctx collectionId db
  let (page, pageSize) ← boundedPage page pageSize
  let all := (listedNotes ctx collectionId (scanIn db noteEntityType)).insertionSort
    fun a b => Store.keyLe (a.createdAt, a.noteId) (b.createdAt, b.noteId)
  pure ((all.drop ((page - 1) * pageSize)).take pageSize, all.length)

/-- What is exported: the fields of a dictionary, or a text. -/
inductive CollectionExport where
  | json (collection : Collection) (items : List CollectionItem) (notes : List CollectionNote)
  | markdown (text : String)

/-- The lines of the Markdown export. -/
def markdownLines (collection : Collection) (items : List CollectionItem) (notes : List CollectionNote) : List String :=
  ["# " ++ collection.name, ""] ++
    (if collection.description = "" then [] else [collection.description, ""]) ++
    (if collection.tags = [] then [] else ["Tags: " ++ ", ".intercalate collection.tags, ""]) ++
    ["Revision " ++ toString collection.revision ++ " · updated " ++ collection.updatedAt, ""] ++
    items.flatMap (fun item => ["## " ++ (if item.citation = "" then item.itemKind else item.citation), "", item.excerpt, "",
      "_" ++ item.itemKind ++ " · " ++ item.itemId ++ "_", ""]) ++
    notes.flatMap fun note => ["### Note " ++ note.noteId, "", note.text, ""]

/-- `"\n".join(lines).rstrip() + "\n"`. -/
def markdownOf (collection : Collection) (items : List CollectionItem) (notes : List CollectionNote) : String :=
  let text := "\n".intercalate (markdownLines collection items notes)
  String.ofList (text.toList.reverse.dropWhile isSpace).reverse ++ "\n"

/-- `export_collection`. -/
def exportCollection (collectionId format : String) (db : Store) : Except PyError CollectionExport := do
  Checked.require (format = "json" ∨ format = "markdown") (collectionError "export format must be json or markdown")
  let collection ← getCollection ctx collectionId db
  let (listed, _) ← listItems ctx collectionId none 1 maxItemsPerCollection db
  let items := listed.filter fun item => item.itemKind ≠ "note"
  let (notes, _) ← listNotes ctx collectionId 1 maxNotesPerCollection db
  pure (if format = "json" then .json collection items notes else .markdown (markdownOf collection items notes))

end Readers

/-! ## The kind of an item -/

/-- Only a text is shown as `note`. -/
theorem str_note {isPrintable : Char → Bool} {value : Option Json}
    (h : str isPrintable (orElse value (.str "")) = "note") : value = some (.str "note") := by
  have unread : readNumber ("note".toList ++ []) = none := by decide
  have text : ∀ j : Json, str isPrintable j = "note" → j = .str "note" := by
    intro j shown
    have chars : ∀ cs, String.ofList cs = "note" → cs = "note".toList := by
      intro cs same
      rw [← same, String.toList_ofList]
    cases j with
    | null =>
      have same : "None".toList = "note".toList := chars _ shown
      exact absurd same (by decide)
    | bool b =>
      cases b with
      | false =>
        have same : "False".toList = "note".toList := chars _ shown
        exact absurd same (by decide)
      | true =>
        have same : "True".toList = "note".toList := chars _ shown
        exact absurd same (by decide)
    | int i =>
      have read := readNumber_int i Stops.nil
      rw [show intText i = "note".toList from chars _ shown, unread] at read
      cases read
    | float x =>
      have same : floatRepr x = "note".toList := chars _ shown
      cases x with
      | nan => exact absurd same (by decide)
      | inf neg => cases neg <;> exact absurd same (by decide)
      | zero neg => cases neg <;> exact absurd same (by decide)
      | finite d =>
        have read := readNumber_text (reprLayout_valid d) Stops.nil
        rw [show (reprLayout d).text = "note".toList from same, unread] at read
        cases read
    | str s =>
      have same : s = "note" := shown
      rw [same]
    | arr items =>
      have same := chars _ shown
      rw [Python.repr] at same
      exact absurd (List.cons.inj same).1 (by decide)
    | obj fields =>
      have same := chars _ shown
      rw [Python.repr] at same
      exact absurd (List.cons.inj same).1 (by decide)
  cases value with
  | none => exact absurd (text _ h) (by decide)
  | some j =>
    rw [orElse] at h
    split at h
    · rw [text j h]
    · exact absurd (text _ h) (by decide)

/-- The imported item names its parent as its collection and does not call itself a note. -/
def Plain (record : BackupRecord) : Prop :=
  Parented record ∧ record.payload.get? "itemKind" ≠ some (.str "note")

section Complete

variable {ctx : Context} {allowed : BackupRecord → Prop} {db : Store}

/-- An item calls itself a note only when its record did. -/
theorem Written.item_kind {r : RecordRow} (written : Written Plain r) (type : r.entityType = itemEntityType) :
    ¬ReadsAsNote ctx r := by
  rintro ⟨data, read, kind⟩
  have text : Json.lookup "itemKind" data = some (.str "note") := str_note kind
  have from_ : ∀ {wrapper : JsonObject} {fields : List (String × Json)}, Holds r.payloadJson wrapper → typed wrapper →
      wrapper.get? "data" = some (.obj fields) → Json.lookup "itemKind" fields = some (.str "note") := by
    intro wrapper fields holds marked inside
    obtain ⟨g, data', reading, read', under⟩ := holds.data marked inside
    rw [read] at read'
    cases read'
    have same : textAt "itemKind" data = textAt "itemKind" fields := textAt_reading reading (under "itemKind")
    exact textAt_eq_some.1 (same.symm.trans (textAt_eq_some.2 text))
  cases written with
  | collection id fields created updated key legacy holds =>
    exact absurd ((entityType_eq key).1.symm.trans type) (by decide)
  | note id c text ref created updated key opaque_ holds => exact absurd ((entityType_eq key).1.symm.trans type) (by decide)
  | activity id c t i event at_ key holds => exact absurd ((entityType_eq key).1.symm.trans type) (by decide)
  | item id c fields saved key legacy referenced parent holds =>
    have own : Json.lookup "itemKind" (itemData id c fields saved).fields = some (.str fields.itemKind) := rfl
    rw [from_ holds (.inl rfl) rfl, Option.some.injEq, Json.str.injEq] at own
    rw [← own] at referenced
    exact absurd referenced (by decide)
  | imported record favorite secrets raw facts allow key holds => exact allow.2 (from_ holds (.inl rfl) rfl)

/-! ## A page of everything -/

/-- What cannot be shown cannot be read. -/
theorem collectionItemOf_eq_error {fallback : String} {revision : Nat} {payload : JsonObject} {createdAt updatedAt : String}
    {e : PyError} (h : collectionItemOf ctx fallback revision payload createdAt updatedAt = .error e) :
    itemOf ctx fallback payload = .error e := by
  simp only [collectionItemOf, itemOf, Checked.bind_eq_error] at h ⊢
  rcases h with raised | ⟨data, unwrapped, raised | ⟨_, -, never⟩⟩
  · exact .inl raised
  · exact .inr ⟨data, unwrapped, .inl raised⟩
  · cases never

/-- **`list_items`** passes over no row it can show, and shows no more than the rows of the collection. -/
theorem listedItems_eq_ok {c : String} {rows : List (RecordRow × JsonObject)} {items : List CollectionItem}
    (h : listedItems ctx c none rows = .ok items) :
    (∀ row ∈ rows, ∀ e, itemOf ctx row.1.entityId row.2 = .error e → e.kind ∈ collectionErrors) ∧
    (∀ row ∈ rows, ∀ item, collectionItemOf ctx row.1.entityId row.1.revision row.2 row.1.createdAt row.1.updatedAt = .ok item →
      item.collectionId = c → item ∈ items) ∧
    ∀ p : RecordRow × JsonObject → Bool,
      (∀ row ∈ rows, ∀ item, itemOf ctx row.1.entityId row.2 = .ok item → item.collectionId = c → p row = true) →
      items.length ≤ rows.countP p := by
  induction rows generalizing items with
  | nil =>
    rw [listedItems, Checked.pure_eq_ok] at h
    subst h
    exact ⟨fun _ mem => absurd mem List.not_mem_nil, fun _ mem => absurd mem List.not_mem_nil, fun _ _ => Nat.le_refl 0⟩
  | cons row rows ih =>
    obtain ⟨r, payload⟩ := row
    rw [listedItems] at h
    split at h
    · next item shown =>
      simp only [Checked.bind_eq_ok, Checked.pure_eq_ok, Option.all_none, Bool.and_true, decide_eq_true_eq] at h
      obtain ⟨rest, listed, rfl⟩ := h
      obtain ⟨errors, among, few⟩ := ih listed
      have stored := (collectionItemOf_eq_ok shown).1
      refine ⟨?_, ?_, ?_⟩
      · intro row mem e raised
        rcases List.mem_cons.1 mem with rfl | mem
        · rw [stored] at raised
          cases raised
        · exact errors row mem e raised
      · intro row mem item' shown' own
        rcases List.mem_cons.1 mem with rfl | mem
        · rw [shown] at shown'
          cases shown'
          rw [if_pos own]
          exact List.mem_cons_self
        · have inside := among row mem item' shown' own
          split
          · exact List.mem_cons_of_mem _ inside
          · exact inside
      · intro p counts
        have later := few p fun row mem => counts row (List.mem_cons_of_mem _ mem)
        rw [List.countP_cons]
        split
        · next own =>
          rw [counts (r, payload) List.mem_cons_self _ stored own, List.length_cons, if_pos rfl]
          omega
        · omega
    · next e raised =>
      have unread : itemOf ctx r.entityId payload = .error e := collectionItemOf_eq_error raised
      split at h
      · next passed =>
        obtain ⟨errors, among, few⟩ := ih h
        refine ⟨?_, ?_, ?_⟩
        · intro row mem e' raised'
          rcases List.mem_cons.1 mem with rfl | mem
          · rw [unread] at raised'
            cases raised'
            exact passed
          · exact errors row mem e' raised'
        · intro row mem item' shown' own
          rcases List.mem_cons.1 mem with rfl | mem
          · rw [raised] at shown'
            cases shown'
          · exact among row mem item' shown' own
        · intro p counts
          have later := few p fun row mem => counts row (List.mem_cons_of_mem _ mem)
          rw [List.countP_cons]
          omega
      · cases h

/-- **`list_notes`** shows every note of the collection, and no more. -/
theorem listedNotes_facts {c : String} (rows : List (RecordRow × JsonObject)) :
    (∀ row ∈ rows, isMember c row.2 = true → ∃ note ∈ listedNotes ctx c rows, note.noteId = row.1.entityId ∧
      note.revision = row.1.revision ∧ note.createdAt = row.1.createdAt ∧ note.updatedAt = row.1.updatedAt) ∧
    (listedNotes ctx c rows).length = rows.countP fun row => isMember c row.2 := by
  induction rows with
  | nil => exact ⟨fun _ mem => absurd mem List.not_mem_nil, rfl⟩
  | cons row rows ih =>
    obtain ⟨r, payload⟩ := row
    obtain ⟨every, count⟩ := ih
    have keep : isMember c payload = true ↔ ∃ data, unwrapPayload payload "note record" = .ok data ∧
        namesCollection data c = true := by
      rw [isMember_iff]
      constructor
      · rintro ⟨data, unwrapped, names⟩
        exact ⟨data, unwrapPayload_eq_ok.2 (unwrapPayload_eq_ok.1 unwrapped), decide_eq_true names⟩
      · rintro ⟨data, unwrapped, names⟩
        exact ⟨data, unwrapPayload_eq_ok.2 (unwrapPayload_eq_ok.1 unwrapped), of_decide_eq_true names⟩
    rw [listedNotes, List.countP_cons]
    split
    · next data unwrapped =>
      split
      · next names =>
        have member : isMember c payload = true := keep.2 ⟨data, unwrapped, names⟩
        rw [if_pos member, List.length_cons, count]
        refine ⟨fun row mem own => ?_, rfl⟩
        rcases List.mem_cons.1 mem with rfl | mem
        · exact ⟨_, List.mem_cons_self, rfl, rfl, rfl, rfl⟩
        · obtain ⟨note, among, facts⟩ := every row mem own
          exact ⟨note, List.mem_cons_of_mem _ among, facts⟩
      · next other =>
        have stranger : ¬isMember c payload = true := by
          intro member
          obtain ⟨data', unwrapped', names⟩ := keep.1 member
          rw [unwrapped] at unwrapped'
          cases unwrapped'
          exact other names
        rw [if_neg stranger]
        refine ⟨fun row mem own => ?_, count⟩
        rcases List.mem_cons.1 mem with rfl | mem
        · exact absurd own stranger
        · exact every row mem own
    · next e raised =>
      have stranger : ¬isMember c payload = true := by
        intro member
        obtain ⟨data, unwrapped, -⟩ := keep.1 member
        rw [raised] at unwrapped
        cases unwrapped
      rw [if_neg stranger]
      refine ⟨fun row mem own => ?_, count⟩
      rcases List.mem_cons.1 mem with rfl | mem
      · exact absurd own stranger
      · exact every row mem own

/-- The first page holds everything when there is room for it. -/
theorem first_page {α : Type} (items : List α) {pageSize : Int} (few : items.length ≤ pageSize.toNat) {page size : Nat}
    (bounds : boundedPage 1 pageSize = .ok (page, size)) : (items.drop ((page - 1) * size)).take size = items := by
  simp only [boundedPage, Checked.bind_eq_ok, Checked.require_eq_ok, Checked.pure_eq_ok, Prod.mk.injEq] at bounds
  obtain ⟨_, -, _, -, _, -, rfl, rfl⟩ := bounds
  rw [show ((1 : Int).toNat - 1) = 0 from rfl, Nat.zero_mul, List.drop_zero, List.take_of_length_le few]

theorem scanIn_countP (db : Store) (t : String) (p : RecordRow → Bool) :
    (scanIn db t).countP (fun row => p row.1) ≤ tally db t p := by
  rw [scanIn, tally]
  induction db.recordsOf t with
  | nil => exact Nat.le_refl 0
  | cons r rows ih =>
    rw [List.filterMap_cons, List.countP_cons]
    cases loadsObject r.payloadJson with
    | none =>
      rw [Option.map_none]
      dsimp only
      omega
    | some payload =>
      rw [Option.map_some]
      dsimp only
      rw [List.countP_cons]
      dsimp only
      omega

/-- An item row is read in the collection it names, which is its parent. -/
theorem item_read (rows : Rows Plain db) {r : RecordRow} {payload : JsonObject} (here : r ∈ db.records.rows)
    (type : r.entityType = itemEntityType) (loaded : loadsObject r.payloadJson = some payload) {stored : StoredItem}
    {fallback : String} (read : itemOf ctx fallback payload = .ok stored) :
    parentOf r = some stored.collectionId ∧ collectionNamed r = some stored.collectionId := by
  obtain ⟨_, c, -, -, -, belongs, -, -, names⟩ := (rows r here).item_row type
  have own := names fun record plain => plain.1
  obtain ⟨id, data, -, readData, whole⟩ := (rows r here).reads_item type loaded
  rw [whole] at read
  obtain ⟨_, -, rfl⟩ := Checked.map_eq_ok.1 read
  have text := own
  rw [collectionNamed, readData, Option.bind_some, textAt_eq_some] at text
  rw [text, orElse_text']
  exact ⟨belongs, own⟩

/-- **`list_items`** with a page of a hundred shows every item of the collection. -/
theorem listItems_complete (rows : Rows Plain db) (bounded : Bounded db) {c : String} {listed : List CollectionItem} {total : Nat}
    (h : listItems ctx c none 1 maxItemsPerCollection db = .ok (listed, total)) {r : RecordRow}
    (mem : r ∈ db.recordsOf itemEntityType) (belongs : parentOf r = some c) :
    ∃ item ∈ listed, Shows r item ∧ item.itemKind ≠ "note" := by
  simp only [listItems, Checked.bind_eq_ok, Checked.pure_eq_ok, Prod.exists, Prod.mk.injEq] at h
  obtain ⟨_, -, _, -, page, size, bounds, items, itemsListed, notes, notesListed, rfl, -⟩ := h
  obtain ⟨errors, among, few⟩ := listedItems_eq_ok itemsListed
  obtain ⟨-, -, fewNotes⟩ := listedItems_eq_ok notesListed
  have itemCount : items.length ≤ named db itemEntityType c := by
    refine (few (fun row => collectionNamed row.1 = some c) ?_).trans (scanIn_countP db itemEntityType fun r => collectionNamed r = some c)
    intro row scanned item read own
    obtain ⟨here, type, loaded⟩ := mem_scanIn scanned
    rw [← own]
    exact decide_eq_true (item_read rows here type loaded read).2
  have noteCount : notes.length ≤ named db noteEntityType c := by
    refine (fewNotes (fun row => collectionNamed row.1 = some c) ?_).trans (scanIn_countP db noteEntityType fun r => collectionNamed r = some c)
    intro row scanned item read own
    obtain ⟨here, type, loaded⟩ := mem_scanIn scanned
    obtain ⟨d, _, names, -, -, -, whole⟩ := (rows row.1 here).reads_note type loaded
    rw [whole] at read
    cases read
    rw [← own]
    exact decide_eq_true names
  have room := bounded.members c
  rw [memberCountIn_eq] at room
  obtain ⟨here, type⟩ := Store.mem_recordsOf.1 mem
  obtain ⟨payload, loaded⟩ := (rows r here).loads_item type
  have scanned := scanIn_mem mem loaded
  -- every row of an item is read, or the list would have raised
  obtain ⟨stored, read⟩ : ∃ stored, itemOf ctx r.entityId payload = .ok stored := by
    cases read : itemOf ctx r.entityId payload with
    | ok stored => exact ⟨stored, rfl⟩
    | error e =>
      obtain ⟨_, data, -, -, whole⟩ := (rows r here).reads_item type loaded
      have passed := errors _ scanned e read
      rw [whole] at read
      cases checked : checkDict (Json.lookup "reference" data) with
      | ok u =>
        rw [checked] at read
        cases read
      | error e' =>
        rw [checked] at read
        cases read
        exact absurd passed (checkDict_error checked)
  obtain ⟨item, shown⟩ := collectionItemOf_commits read
  obtain ⟨-, shows_⟩ := (itemRow_shown rows mem loaded r.entityId).1 item shown
  have same := (collectionItemOf_eq_ok shown).1
  have own : item.collectionId = c := by
    have parent := (item_read rows here type loaded same).1
    exact Option.some.inj (parent.symm.trans belongs)
  have inside := among _ scanned item shown own
  rw [first_page _ _ bounds]
  · refine ⟨item, (List.mem_insertionSort _).2 (List.mem_append_left _ inside), shows_, fun kind => ?_⟩
    obtain ⟨_, data, -, readData, whole⟩ := (rows r here).reads_item type loaded
    rw [whole] at same
    obtain ⟨_, -, made⟩ := Checked.map_eq_ok.1 same
    have note : memberKind ctx false data = "note" := by
      have flags := congrArg StoredItem.isNote made
      exact of_decide_eq_true (flags.trans (decide_eq_true kind))
    exact (rows r here).item_kind type ⟨data, readData, note⟩
  · rw [List.length_insertionSort, List.length_append, Int.toNat_natCast]
    omega

/-- **`list_notes`** with a page of fifty shows every note of the collection. -/
theorem listNotes_complete (bounded : Bounded db) {c : String} {notes : List CollectionNote} {total : Nat}
    (h : listNotes ctx c 1 maxNotesPerCollection db = .ok (notes, total)) {r : RecordRow}
    (mem : r ∈ db.recordsOf noteEntityType) (names : collectionNamed r = some c) :
    ∃ note ∈ notes, note.noteId = r.entityId ∧ note.revision = r.revision ∧ note.createdAt = r.createdAt ∧
      note.updatedAt = r.updatedAt := by
  simp only [listNotes, Checked.bind_eq_ok, Checked.pure_eq_ok, Prod.exists, Prod.mk.injEq] at h
  obtain ⟨_, -, page, size, bounds, rfl, -⟩ := h
  obtain ⟨every, count⟩ := listedNotes_facts (scanIn db noteEntityType)
  have room := bounded.notes c
  have member : r ∈ childrenIn db noteEntityType c := by
    obtain ⟨here, type⟩ := Store.mem_recordsOf.1 mem
    exact mem_childrenIn.2 ⟨here, type, names⟩
  rw [childrenIn] at member
  obtain ⟨row, filtered, rfl⟩ := List.mem_map.1 member
  obtain ⟨scanned, own⟩ := List.mem_filter.1 filtered
  obtain ⟨note, among, facts⟩ := every row scanned own
  rw [first_page _ _ bounds]
  · exact ⟨note, (List.mem_insertionSort _).2 among, facts⟩
  · rw [List.length_insertionSort, count, Int.toNat_natCast, List.countP_eq_length_filter]
    rw [noteCountIn, childrenIn, List.length_map] at room
    exact room

/-- Every live member of the collection is among what is exported. -/
structure Complete (db : Store) (c : String) (items : List CollectionItem) (notes : List CollectionNote) : Prop where
  items : ∀ r ∈ db.recordsOf itemEntityType, parentOf r = some c → ∃ item ∈ items, Shows r item
  notes : ∀ r ∈ db.recordsOf noteEntityType, collectionNamed r = some c → ∃ note ∈ notes, note.noteId = r.entityId ∧
    note.revision = r.revision ∧ note.createdAt = r.createdAt ∧ note.updatedAt = r.updatedAt

/-- **Within the bounds an export is complete.** -/
theorem exportCollection_complete (rows : Rows Plain db) (bounded : Bounded db) {c format : String} {out : CollectionExport}
    (h : exportCollection ctx c format db = .ok out) : ∃ collection items notes, Complete db c items notes ∧
      (out = .json collection items notes ∨ out = .markdown (markdownOf collection items notes)) := by
  simp only [exportCollection, Checked.bind_eq_ok, Checked.pure_eq_ok, Prod.exists] at h
  obtain ⟨_, -, collection, -, listed, _, itemsListed, notes, _, notesListed, rfl⟩ := h
  refine ⟨collection, listed.filter fun item => item.itemKind ≠ "note", notes, ⟨?_, ?_⟩, ?_⟩
  · intro r mem belongs
    obtain ⟨item, among, shows_, kind⟩ := listItems_complete rows bounded itemsListed mem belongs
    exact ⟨item, List.mem_filter.2 ⟨among, decide_eq_true kind⟩, shows_⟩
  · intro r mem names
    exact listNotes_complete bounded notesListed mem names
  · split
    · exact .inl rfl
    · exact .inr rfl

end Complete

/-! ## Runs -/

/-- An export leaves no live item and no note of its collection out. -/
def Exports (db : Store) : Prop :=
  ∀ (ctx : Context) (c format : String) (out : CollectionExport), exportCollection ctx c format db = .ok out →
    ∃ collection items notes, Complete db c items notes ∧
      (out = .json collection items notes ∨ out = .markdown (markdownOf collection items notes))

/-- **Within the bounds at every moment**: a run whose fresh imports leave room keeps every count
within its bound, and when they bring plain items only, every export on the way is complete. -/
theorem bounded_along {inputs : List (Context × WorkspaceCall)} (roomy : Runs.Along workspaceStep Roomy Store.empty inputs) :
    Runs.Throughout workspaceStep Bounded Store.empty inputs ∧
      ((∀ input ∈ inputs, Admits Plain input) → Runs.Throughout workspaceStep Exports Store.empty inputs) := by
  refine ⟨bounded_throughout roomy, fun plain => ?_⟩
  let kept (db : Store) : Prop := Bounded db ∧ Rows Plain db
  have start : kept Store.empty := by
    have none_ : Runs.Along workspaceStep Roomy Store.empty [] := trivial
    exact ⟨(bounded_throughout none_).last, fun r mem => absurd mem List.not_mem_nil⟩
  have step : ∀ db input, kept db → Roomy db input ∧ Admits Plain input → kept (workspaceStep db input) := by
    intro db input held allowed
    exact ⟨workspaceStep_bounded held.1 allowed.1, workspaceStep_rows allowed.2 held.2⟩
  have kept := Runs.Along.throughout step start (roomy.and_mem plain)
  apply kept.mono
  intro db held ctx c format out exported
  exact exportCollection_complete held.2 held.1 exported

theorem bounded_along_sample : ∃ db, Runs.run workspaceStep Store.empty [sampleCreation, sampleNote] = db ∧
    noteCountIn db "c" = 1 ∧ Runs.Throughout workspaceStep Bounded Store.empty [sampleCreation, sampleNote] ∧
    Runs.Throughout workspaceStep Exports Store.empty [sampleCreation, sampleNote] := by
  obtain ⟨db, r, payloadJson, ran, -, -, -, -, -, -, notes, -⟩ := sampleNote_commits
  have creates : ∀ db, Roomy db sampleCreation := by
    intro db inject raw digest backup imports
    cases imports
  have notes_ : ∀ db, Roomy db sampleNote := by
    intro db inject raw digest backup imports
    cases imports
  have roomy : Runs.Along workspaceStep Roomy Store.empty [sampleCreation, sampleNote] := ⟨creates _, notes_ _, trivial⟩
  have bounds := bounded_along roomy
  refine ⟨db, ran, notes, bounds.1, bounds.2 fun input mem inject raw digest backup imports => ?_⟩
  rcases List.mem_cons.1 mem with rfl | mem
  · cases imports
  · rw [List.mem_singleton.1 mem] at imports
    cases imports

/-! ## Room is not made -/

/-- Fifty names of two letters. -/
def manyNames : List (List Char) :=
  (List.range maxCollections).map fun n => [Char.ofNat (97 + n / 10), Char.ofNat (97 + n % 10)]

/-- What stands before a collection's name in the text of its identity. -/
def collectionPrefix : List Char :=
  "enterprise-document-qa.workspace\x001\x00collection\x00".toList

/-- The bytes whose digest begins a collection's identifier. -/
def collectionBytes (name : List Char) : List Nat :=
  (collectionPrefix ++ name).map Char.toNat

theorem stableId_collection {a b : List Char} (ha : ∀ c ∈ a, c.toNat < 128) (hb : ∀ c ∈ b, c.toNat < 128)
    (h : stableId .collection (String.ofList a) = stableId .collection (String.ofList b)) :
    (Sha256.digest (collectionBytes a)).headD 0 = (Sha256.digest (collectionBytes b)).headD 0 := by
  have joined : (backupFormat ++ "\x00" ++ "1" ++ "\x00" ++ RecordKind.collection.text ++ "\x00").toList = collectionPrefix := by
    decide +kernel
  have front : ∀ c ∈ collectionPrefix, c.toNat < 128 := by
    have all : collectionPrefix.all (fun c => c.toNat < 128) = true := by decide +kernel
    exact fun c mem => of_decide_eq_true (List.all_eq_true.1 all c mem)
  have bytes : ∀ name : List Char, (∀ c ∈ name, c.toNat < 128) → Sha256.textBytes
      (backupFormat ++ "\x00" ++ "1" ++ "\x00" ++ RecordKind.collection.text ++ "\x00" ++ String.ofList name) =
      collectionBytes name := by
    intro name ascii
    rw [Sha256.textBytes_ascii]
    · rw [String.toList_append, String.toList_ofList, joined]
      exact rfl
    · rw [String.toList_append, String.toList_ofList, joined]
      intro c mem
      rcases List.mem_append.1 mem with mem | mem
      · exact front c mem
      · exact ascii c mem
  have heads := stableId_digest h
  rwa [bytes a ha, bytes b hb] at heads

/-- No two of them share an identifier. -/
theorem manyNames_apart : ((['c'] :: manyNames).map fun name => stableId .collection (String.ofList name)).Nodup := by
  have ascii : ∀ name ∈ ['c'] :: manyNames, ∀ c ∈ name, c.toNat < 128 := by
    have all : (['c'] :: manyNames).all (fun name => name.all fun c => c.toNat < 128) = true := by decide
    exact fun name mem c inside => of_decide_eq_true (List.all_eq_true.1 (List.all_eq_true.1 all name mem) c inside)
  have heads : ((['c'] :: manyNames).map fun name => (Sha256.digest (collectionBytes name)).headD 0).Nodup := by
    decide +kernel
  rw [List.Nodup, List.pairwise_map] at heads ⊢
  apply List.Pairwise.imp_of_mem _ heads
  intro a b ma mb apart same
  exact apart (stableId_collection (ascii a ma) (ascii b mb) same)

theorem namedPayload_distinct (id : String) : (Json.obj [("id", .str id), ("schemaVersion", .int 2), ("name", .str "n"),
    ("createdAt", .int 0), ("updatedAt", .int 0)]).distinctKeys = true :=
  rfl

def namedPayload (id : String) : JsonObject :=
  ⟨[("id", .str id), ("schemaVersion", .int 2), ("name", .str "n"), ("createdAt", .int 0), ("updatedAt", .int 0)],
    namedPayload_distinct id⟩

/-- A collection that is imported, and the record it comes from. -/
def namedCollection (name : List Char) : BackupRecord :=
  ⟨.collection, String.ofList name, 2, 1, 0, 0, namedPayload (String.ofList name)⟩

def namedExport (name : List Char) : ExportedRecord :=
  ⟨⟨.str (String.ofList name), rfl⟩, ⟨.int 2, rfl⟩, 1, 0, 0, namedPayload (String.ofList name), none⟩

/-- As many collections as a backup can hold. -/
def manyCollections : ValidatedBackup where
  digest := ""
  conversations := []
  collections := manyNames.map namedCollection
  evidenceItems := []
  favorites := []
  tombstones := []
  unsupported := []

def manyExport : Exported where
  conversations := []
  collections := manyNames.map namedExport
  evidenceItems := []
  favorites := []
  tombstones := []
  unsupported := []

theorem namedExport_portable {name : List Char} (mem : name ∈ manyNames) :
    Portable [] .collection (namedExport name) (namedCollection name) := by
  have all : manyNames.all (fun name => decide (validateRecord [] .collection (namedExport name).value = .ok (namedCollection name))) =
      true := by decide +kernel
  exact validateRecord_exported.1 (of_decide_eq_true (List.all_eq_true.1 all name mem))

theorem manyCollections_validates : ∃ raw digest,
    validateWorkspaceBackup sampleContext.settings.portableSecrets raw = .ok { manyCollections with digest } := by
  have collections : List.Forall₂ (Portable [] .collection) manyExport.collections manyCollections.collections := by
    have each : ∀ names : List (List Char), (∀ name ∈ names, name ∈ manyNames) →
        List.Forall₂ (Portable [] .collection) (names.map namedExport) (names.map namedCollection) := by
      intro names
      induction names with
      | nil => exact fun _ => .nil
      | cons name names ih =>
        intro among
        exact .cons (namedExport_portable (among name List.mem_cons_self)) (ih fun n mem => among n (List.mem_cons_of_mem _ mem))
    exact each manyNames fun _ mem => mem
  have matched : Matches [] manyExport manyCollections :=
    ⟨.nil, collections, .nil, .nil, .nil, .nil, by decide +kernel⟩
  have limited : Limited manyExport := ⟨by decide, by decide, by decide, by decide, by decide, by decide⟩
  have time : validateExportedAt (.str "2024-01-01") = .ok () := by decide
  exact exported_validates matched limited time (by decide +kernel) (by decide +kernel)

/-- **An import does not look at the bounds**: next to the collection `c` it leaves fifty more. -/
theorem not_always_bounded : ¬ ∀ inputs, Runs.Throughout workspaceStep Bounded Store.empty inputs := by
  intro claim
  obtain ⟨db, payloadJson, timestamp, stepped, -, -, wrote⟩ := sampleCreation_commits
  obtain ⟨raw, digest, valid⟩ := manyCollections_validates
  have records : ∀ r, r ∈ manyCollections.records ↔ ∃ name ∈ manyNames, namedCollection name = r := by
    intro r
    rw [ValidatedBackup.records]
    show r ∈ [] ++ manyNames.map namedCollection ++ [] ↔ _
    rw [List.nil_append, List.append_nil, List.mem_map]
  have keys : manyCollections.records.map BackupRecord.key =
      manyNames.map fun name => (collectionEntityType, stableId .collection (String.ofList name)) := by
    show ([] ++ manyNames.map namedCollection ++ []).map BackupRecord.key = _
    rw [List.nil_append, List.append_nil, List.map_map]
    rfl
  have apart := manyNames_apart
  rw [List.map_cons, List.nodup_cons] at apart
  obtain ⟨foreign, apart⟩ := apart
  have stored : ∀ r ∈ manyCollections.records, storable r = true := by
    intro r mem
    obtain ⟨name, -, rfl⟩ := (records r).1 mem
    have small : (inRange 0 && inRange 0 && isSqliteInteger 1) = true := by decide +kernel
    exact small
  have once : (manyCollections.records.map BackupRecord.key).Nodup := by
    rw [keys]
    rw [List.Nodup, List.pairwise_map] at apart ⊢
    exact apart.imp fun ne same => ne (congrArg Prod.snd same)
  have first : db.imports.rows = [] := by
    rw [wrote.imports]
    rfl
  obtain ⟨db', receipt, done, ⟨imported⟩⟩ := first_import valid first stored once
    fun t mem => absurd mem List.not_mem_nil
  let call : Context × WorkspaceCall := (sampleContext, .importBackup (fun _ _ => .ok ()) raw digest)
  have last : Runs.run workspaceStep Store.empty [sampleCreation, call] = db' := by
    have body : call.2.body call.1 db = .ok db' := storeOf_eq_ok.2 ⟨receipt, done⟩
    rw [Runs.run_cons, stepped, Runs.run_cons, Runs.run_nil, workspaceStep, body]
    rfl
  have bounded : Bounded db' := last ▸ (claim [sampleCreation, call]).last
  -- the collection of the first call stays, and each of the backup's is created
  have live : ∀ id ∈ (['c'] :: manyNames).map fun name => stableId .collection (String.ofList name),
      id ∈ (db'.recordsOf collectionEntityType).map RecordRow.entityId := by
    have listed : ∀ id row, (db'.entry (collectionEntityType, id)).1 = some row →
        id ∈ (db'.recordsOf collectionEntityType).map RecordRow.entityId := by
      intro id row found
      obtain ⟨here, type, rfl⟩ := Store.mem_of_record? found
      exact List.mem_map_of_mem (Store.mem_recordsOf.2 ⟨here, type⟩)
    intro id mem
    rw [List.map_cons, List.mem_cons] at mem
    rcases mem with rfl | mem
    · have entry : db'.entry (collectionEntityType, stableId .collection (String.ofList ['c'])) =
          db.entry (collectionEntityType, stableId .collection (String.ofList ['c'])) := by
        obtain ⟨sources, -, -⟩ := plan_eq_ok imported.planned
        rcases imported.entry (collectionEntityType, stableId .collection (String.ofList ['c'])) with
          ⟨t, among, -⟩ | ⟨-, ⟨a, planned, -, key, -⟩ | ⟨-, entry⟩⟩
        · cases among
        · exfalso
          have among : a.1 ∈ manyCollections.records := sources ▸ List.mem_map_of_mem planned
          have own : a.1.key ∈ manyCollections.records.map BackupRecord.key := List.mem_map_of_mem among
          rw [keys, key, List.mem_map] at own
          obtain ⟨name, inside, same⟩ := own
          exact foreign (List.mem_map.2 ⟨name, inside, congrArg Prod.snd same⟩)
        · exact entry
      have created := wrote.entry_same
      exact listed _ _ ((congrArg Prod.fst entry).trans (congrArg Prod.fst created))
    · obtain ⟨name, inside, rfl⟩ := List.mem_map.1 mem
      have among : namedCollection name ∈ manyCollections.records := (records _).2 ⟨name, inside, rfl⟩
      have absent : db.entry (namedCollection name).key = (none, none) := by
        rw [wrote.entry_other]
        · rfl
        · intro same
          exact foreign (List.mem_map.2 ⟨name, inside, congrArg Prod.snd same⟩)
        · exact fun same => collection_ne_activity (congrArg Prod.fst same)
      have other : collectionEntityType ≠ "conversation" := by decide
      obtain ⟨row, -, entry⟩ := imported_creates imported among other absent
        fun q inside same => List.inj_on_of_nodup_map once inside among same
      exact listed _ _ (congrArg Prod.fst entry)
  have many := (List.subperm_of_subset manyNames_apart live).length_le
  have few := bounded.collections
  rw [liveCountIn_eq, tally, List.countP_true] at few
  rw [List.length_map, List.length_map] at many
  have count : (['c'] :: manyNames).length = maxCollections + 1 := by decide
  rw [count] at many
  omega

end Workspace
