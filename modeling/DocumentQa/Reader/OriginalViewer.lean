import DocumentQa.Lib.Checked
import DocumentQa.Lib.Paging
import DocumentQa.Lib.Segments
import DocumentQa.Reader.OriginalLocation
import DocumentQa.Reader.StructuredDocument
import DocumentQa.Reader.ContentPresentation

/-!
# The original viewer

`OriginalViewer.content`, `table_location` and `search` of `src/api/original_viewer.py` over
the inventory `snapshot` returns. A window is cut at the ends of the matches that begin or
end inside it, so every character of it carries the marks of the whole text
(`marks_window`); a search is followed by positions (`Paging.keyPage`).
-/

namespace Reader.OriginalViewer

open Python Spacing

/-- The settings a window and a search are checked against. -/
structure ViewerSettings where
  windowMax : Nat
  findMaxLimit : Nat

/-! ## The selected source -/

/-- The checks `content` and `search` begin with: the source asked for and its text. -/
def selectSource (snapshot : ViewerDocumentSnapshot) (sourceDocumentId sourceSetRevision documentRevision : String) :
    Except ViewerError (ViewerSourceSnapshot × String) :=
  if snapshot.sourceSetRevision ≠ sourceSetRevision then
    .error ⟨"source_changed", "The original source set changed. Reload the viewer.", 409⟩
  else
    match snapshot.sources.find? fun source => source.sourceDocumentId = sourceDocumentId with
    | none => .error ⟨"source_unavailable", "The selected original source is unavailable.", 404⟩
    | some source =>
      match source.normalizedText with
      | none => .error ⟨"source_unavailable", "The selected original source is unavailable.", 404⟩
      | some text =>
        if source.status ≠ .available then
          .error ⟨"source_unavailable", "The selected original source is unavailable.", 404⟩
        else if source.documentRevision ≠ some documentRevision then
          .error ⟨"source_changed", "The selected original source changed. Reload the viewer.", 409⟩
        else .ok (source, text)

/-! ## `table_location` -/

/-- A table of a source that has rows: its serialization and its text, blanks joined. -/
structure SourceTable where
  serialized : String
  text : String

/-- The tables of a source, read again from its bytes. -/
abbrev TableReader :=
  ViewerSourceSnapshot → Except ViewerError (List SourceTable)

abbrev Match :=
  ViewerSourceSnapshot × Nat × Nat

def ambiguousTable (reason : String) : LocationAnswer :=
  ⟨.ambiguous, some reason, 2, true, none⟩

/-- One table: the matches so far with its own, or the answer the search ends with. -/
def stepTable (chunkText : String) (source : ViewerSourceSnapshot) (found : List Match) (table : SourceTable) :
    Except LocationAnswer (List Match) :=
  if table.serialized ≠ chunkText then .ok found
  else
    match whitespaceLiteralMatches source.text table.text with
    | [] => .ok found
    | [span] =>
      if 2 ≤ (found ++ [(source, span)]).length then
        .error (ambiguousTable "The indexed table matches more than one eligible source table.")
      else .ok (found ++ [(source, span)])
    | _ :: _ :: _ => .error (ambiguousTable "The matched source table text occurs more than once.")

/-- The answer once every source is read. -/
def answerTables : List Match → LocationAnswer
  | [] => ⟨.notFound, some "The indexed table was not found as one unique source table.", 0, false, none⟩
  | (source, start, stop) :: _ =>
    ⟨.exact, none, 1, false, some ⟨source.sourceDocumentId, source.documentRevision, "table_serialization", start, stop⟩⟩

/-- The loop over the sources. -/
def searchTables (tables : TableReader) (chunkText : String) :
    List Match → List ViewerSourceSnapshot → Except ViewerError LocationAnswer
  | found, [] => .ok (answerTables found)
  | found, source :: rest =>
    match tables source with
    | .error e => .error e
    | .ok ts =>
      match ts.foldlM (stepTable chunkText source) found with
      | .error answer => .ok answer
      | .ok found => searchTables tables chunkText found rest

/-- `table_location`. -/
def tableLocation (tables : TableReader) (snapshot : ViewerDocumentSnapshot)
    (chunkText chunkTextHash sourceSetRevision : String) : Except ViewerError LocationAnswer :=
  if snapshot.sourceSetRevision ≠ sourceSetRevision then
    .error ⟨"source_changed", "The original source set changed. Reload the evidence.", 409⟩
  else if Sha256.hexdigest chunkText ≠ chunkTextHash then
    .error ⟨"chunk_changed", "The indexed chunk changed. Reload the evidence.", 409⟩
  else if snapshot.status ≠ .available ∨ snapshot.sources.any fun source => source.status ≠ .available then
    .ok (unavailable (reasonOr snapshot.reason "The complete local source set is not available."))
  else if (buildChunkPresentation chunkText (some "financial_table")).isNone then
    .ok ⟨.notFound, some "The indexed chunk has no supported table presentation.", 0, false, none⟩
  else searchTables tables chunkText [] snapshot.sources

/-! ## `content` -/

structure ContentRequest where
  sourceDocumentId : String
  sourceSetRevision : String
  documentRevision : String
  start : Int
  limit : Int
  find : Option String
  chunkText : Option String
  chunkTextHash : Option String

/-- How the indexed chunk is located: as a table when it presents as one, as a text otherwise. -/
def chunkLocation (tables : TableReader) (snapshot : ViewerDocumentSnapshot)
    (chunkText chunkTextHash sourceSetRevision : String) : Except ViewerError LocationAnswer :=
  if (buildChunkPresentation chunkText (some "financial_table")).isSome then
    tableLocation tables snapshot chunkText chunkTextHash sourceSetRevision
  else .ok (locateChunk snapshot chunkText chunkTextHash sourceSetRevision)

/-- The interval of an exact answer, when it is in the source. -/
def evidenceIn (sourceDocumentId : String) (answer : LocationAnswer) : Option (Nat × Nat) :=
  match answer.location with
  | none => none
  | some l => if answer.status = .exact ∧ l.sourceDocumentId = sourceDocumentId then some (l.start, l.stop) else none

def evidenceSpan (tables : TableReader) (snapshot : ViewerDocumentSnapshot) (r : ContentRequest) :
    Except ViewerError (Option (Nat × Nat)) :=
  match r.chunkText, r.chunkTextHash with
  | none, none => .ok none
  | some chunkText, some chunkTextHash =>
    if Sha256.hexdigest chunkText ≠ chunkTextHash then
      .error ⟨"chunk_changed", "The indexed chunk changed. Reload the evidence.", 409⟩
    else (chunkLocation tables snapshot chunkText chunkTextHash r.sourceSetRevision).map (evidenceIn r.sourceDocumentId)
  | _, _ => .error ⟨"invalid_request", "chunk_id and chunk_text_hash must be supplied together.", 422⟩

structure ViewerSegment where
  text : String
  evidence : Bool
  search : Bool
deriving DecidableEq, Repr

/-- `text[start:end]` in segments. -/
def windowSegments (text : String) (start stop : Nat) (spans : List (Nat × Nat)) (evidence : Option (Nat × Nat)) :
    List ViewerSegment :=
  (Segments.pieces (Segments.boundaries start stop (spans ++ evidence.toList))).map fun p =>
    ⟨String.ofList (slice text.toList p.1 p.2), evidence.any fun s => Segments.meets s p, spans.any fun s => Segments.meets s p⟩

structure ViewerContent where
  start : Nat
  stop : Nat
  totalLength : Nat
  previousStart : Option Nat
  nextStart : Option Nat
  segments : List ViewerSegment
deriving DecidableEq, Repr

/-- `find.strip() if isinstance(find, str) else ""`. -/
def ContentRequest.query (r : ContentRequest) : String :=
  strip (r.find.getD "")

/-- The bounds of the window, or why it is refused. -/
def ContentRequest.window (r : ContentRequest) (settings : ViewerSettings) (length : Nat) : Except ViewerError (Nat × Nat) :=
  if ¬ (0 ≤ r.start ∧ r.start ≤ length) then
    .error ⟨"invalid_window", "The original text window is outside the available source.", 422⟩
  else if ¬ (1 ≤ r.limit ∧ r.limit ≤ settings.windowMax) then
    .error ⟨"invalid_window", "The original text window limit is invalid.", 422⟩
  else if 200 < r.query.length then
    .error ⟨"invalid_search", "The inline search query is too long.", 422⟩
  else .ok (r.start.toNat, min length (r.start.toNat + r.limit.toNat))

/-- The response for a window of the text. -/
def ContentRequest.respond (r : ContentRequest) (text : String) (start stop : Nat) (evidence : Option (Nat × Nat)) :
    ViewerContent where
  start := start
  stop := stop
  totalLength := text.length
  previousStart := if 0 < start then some (start - r.limit.toNat) else none
  nextStart := if stop < text.length then some stop else none
  segments := windowSegments text start stop (whitespaceLiteralMatches text r.query) evidence

theorem ContentRequest.respond_segments (r : ContentRequest) (text : String) (start stop : Nat) (evidence : Option (Nat × Nat)) :
    (r.respond text start stop evidence).segments =
      windowSegments text start stop (whitespaceLiteralMatches text r.query) evidence := by
  simp only [ContentRequest.respond]

/-- `content`. -/
def content (settings : ViewerSettings) (tables : TableReader) (snapshot : ViewerDocumentSnapshot) (r : ContentRequest) :
    Except ViewerError ViewerContent := do
  let (_, text) ← selectSource snapshot r.sourceDocumentId r.sourceSetRevision r.documentRevision
  let (start, stop) ← r.window settings text.length
  let evidence ← evidenceSpan tables snapshot r
  return r.respond text start stop evidence

/-! ## `search` -/

structure SearchRequest where
  sourceDocumentId : String
  sourceSetRevision : String
  documentRevision : String
  query : String
  cursor : Int
  limit : Int

structure SearchMatch where
  start : Nat
  stop : Nat
  preview : String
deriving DecidableEq, Repr

structure SearchResponse where
  query : String
  found : List SearchMatch
  nextCursor : Option Nat
deriving DecidableEq, Repr

/-- `bounded_preview`, with its maximum of 240 characters. -/
def boundedPreview (text : String) (start stop : Nat) : String :=
  let left := start - 80
  let right := min text.length (max stop left + 240)
  let right := if 240 < right - left then left + 240 else right
  let left := if right - left < 240 ∧ 0 < left then right - 240 else left
  String.ofList (slice text.toList left right)

/-- The cursor from which the search goes on, or why it is refused. -/
def SearchRequest.position (r : SearchRequest) (settings : ViewerSettings) (length : Nat) : Except ViewerError Nat :=
  if ¬ (2 ≤ (strip r.query).length ∧ (strip r.query).length ≤ 200) then
    .error ⟨"invalid_search", "Find queries must contain 2 to 200 characters.", 422⟩
  else if ¬ (0 ≤ r.cursor ∧ r.cursor ≤ length) then
    .error ⟨"invalid_search", "The search cursor is invalid.", 422⟩
  else if ¬ (1 ≤ r.limit ∧ r.limit ≤ settings.findMaxLimit) then
    .error ⟨"invalid_search", "The search result limit is invalid.", 422⟩
  else .ok r.cursor.toNat

/-- The page of the matches from the cursor on. -/
def SearchRequest.respond (r : SearchRequest) (text : String) (cursor : Nat) : SearchResponse :=
  let page := Paging.keyPage Prod.fst r.limit.toNat (whitespaceLiteralMatches text (strip r.query)) cursor
  ⟨strip r.query, page.items.map fun m => ⟨m.1, m.2, boundedPreview text m.1 m.2⟩, page.next⟩

/-- `search`. -/
def search (settings : ViewerSettings) (snapshot : ViewerDocumentSnapshot) (r : SearchRequest) :
    Except ViewerError SearchResponse := do
  let (_, text) ← selectSource snapshot r.sourceDocumentId r.sourceSetRevision r.documentRevision
  let cursor ← r.position settings text.length
  return r.respond text cursor

/-! ## Marks -/

/-- The characters of the segments with their marks. -/
def marks (segments : List ViewerSegment) : List (Char × Bool × Bool) :=
  segments.flatMap fun s => s.text.toList.map fun c => (c, s.evidence, s.search)

/-- The position is in the interval. -/
def inSpan (k : Nat) (s : Nat × Nat) : Bool :=
  s.1 ≤ k && k < s.2

theorem slice_range {t : List Char} {l r : Nat} (within : r ≤ t.length) :
    slice t l r = (List.range' l (r - l)).map fun k => t.getD k default := by
  apply List.ext_getElem
  · rw [slice, List.length_drop, List.length_take, List.length_map, List.length_range']
    omega
  · intro i left right
    rw [List.length_map, List.length_range'] at right
    have inside : l + i < t.length := by omega
    simp only [slice, List.getElem_drop, List.getElem_take, List.getElem_map, List.getElem_range', Nat.one_mul]
    rw [List.getD_eq_getElem?_getD, List.getElem?_eq_getElem inside]
    rfl

section Window

variable {text : String} {start stop : Nat} {spans : List (Nat × Nat)} {evidence : Option (Nat × Nat)}

/-- The characters of a piece carry the marks of their positions. -/
theorem marks_piece (order : start ≤ stop) (within : stop ≤ text.toList.length) {p : Nat × Nat}
    (mem : p ∈ Segments.pieces (Segments.boundaries start stop (spans ++ evidence.toList))) :
    (slice text.toList p.1 p.2).map (fun c =>
        (c, (evidence.any fun s => Segments.meets s p), spans.any fun s => Segments.meets s p)) =
      (List.range' p.1 (p.2 - p.1)).map fun k =>
        (text.toList.getD k default, evidence.any (inSpan k), spans.any (inSpan k)) := by
  have last := Segments.boundaries_between order (Segments.pieces_inside Segments.boundaries_ascending mem).2.1
  rw [slice_range (by omega), List.map_map]
  apply List.map_congr_left
  intro k inside
  obtain ⟨low, high⟩ := List.mem_range'_1.1 inside
  have same (s : Nat × Nat) (span : s ∈ spans ++ evidence.toList) : Segments.meets s p = inSpan k s := by
    rw [Bool.eq_iff_iff, Segments.meets_iff order mem span low (by omega), inSpan, Bool.and_eq_true, decide_eq_true_eq,
      decide_eq_true_eq]
  have cited : (evidence.any fun s => Segments.meets s p) = evidence.any (inSpan k) := by
    cases e : evidence with
    | none => rfl
    | some s => exact same s (by simp [e])
  have hits : (spans.any fun s => Segments.meets s p) = spans.any (inSpan k) := by
    rw [Bool.eq_iff_iff, List.any_eq_true, List.any_eq_true]
    apply exists_congr
    intro s
    apply and_congr_right
    intro span
    rw [same s (List.mem_append_left _ span)]
  rw [Function.comp_apply, cited, hits]

/-- **The marks of a window** are those of its positions in the whole text. -/
theorem marks_window (order : start ≤ stop) (within : stop ≤ text.toList.length) :
    marks (windowSegments text start stop spans evidence) =
      (List.range' start (stop - start)).map fun k =>
        (text.toList.getD k default, evidence.any (inSpan k), spans.any (inSpan k)) := by
  obtain ⟨cuts, whole, last⟩ := @Segments.boundaries_ends _ _ (spans ++ evidence.toList) order
  have ascending := @Segments.boundaries_ascending start stop (spans ++ evidence.toList)
  have cover := Segments.pieces_cover start cuts (whole ▸ ascending)
  rw [last, ← whole] at cover
  rw [← cover, List.map_flatMap, marks, windowSegments, List.flatMap_map]
  apply List.flatMap_congr
  intro p mem
  rw [String.toList_ofList]
  exact marks_piece order within mem

theorem marks_at (order : start ≤ stop) (within : stop ≤ text.toList.length) {k : Nat} (after : start ≤ k) (before : k < stop) :
    (marks (windowSegments text start stop spans evidence))[k - start]? =
      some (text.toList.getD k default, evidence.any (inSpan k), spans.any (inSpan k)) := by
  have inside : k - start < stop - start := by omega
  have back : start + (k - start) = k := by omega
  rw [marks_window order within, List.getElem?_map, List.getElem?_range' inside, Nat.one_mul, back]
  rfl

/-- **The segments partition the window**, and none of them is empty. -/
theorem segments_partition (order : start ≤ stop) (within : stop ≤ text.toList.length) :
    ((windowSegments text start stop spans evidence).flatMap fun s => s.text.toList) = slice text.toList start stop ∧
      ∀ s ∈ windowSegments text start stop spans evidence, s.text ≠ "" := by
  constructor
  · have chars : ((windowSegments text start stop spans evidence).flatMap fun s => s.text.toList) =
        (marks (windowSegments text start stop spans evidence)).map Prod.fst := by
      rw [marks, List.map_flatMap]
      simp only [List.map_map, Function.comp_def, List.map_id']
    rw [chars, marks_window order within, slice_range within, List.map_map]
    rfl
  · intro s mem
    obtain ⟨p, piece, rfl⟩ := List.mem_map.1 mem
    obtain ⟨-, right, less, -⟩ := Segments.pieces_inside Segments.boundaries_ascending piece
    have last := (Segments.boundaries_between order right).2
    intro empty
    have size := congrArg String.toList empty
    rw [String.toList_ofList, slice_range (by omega)] at size
    have long := congrArg List.length size
    rw [List.length_map, List.length_range'] at long
    have zero_ : "".toList.length = 0 := rfl
    omega

end Window

/-! ## The selected source -/

/-- The inventory and the source are those asked about, the source is available and has this text. -/
structure Selected (snapshot : ViewerDocumentSnapshot) (sourceDocumentId sourceSetRevision documentRevision text : String) :
    Prop where
  set : snapshot.sourceSetRevision = sourceSetRevision
  source : ∃ source, (snapshot.sources.find? fun source => source.sourceDocumentId = sourceDocumentId) = some source ∧
    source.status = .available ∧ source.normalizedText = some text ∧ source.documentRevision = some documentRevision

theorem selectSource_ok {snapshot : ViewerDocumentSnapshot}
    {sourceDocumentId sourceSetRevision documentRevision text : String} :
    (∃ source, selectSource snapshot sourceDocumentId sourceSetRevision documentRevision = .ok (source, text)) ↔
      Selected snapshot sourceDocumentId sourceSetRevision documentRevision text := by
  constructor
  · rintro ⟨source, ok⟩
    rw [selectSource] at ok
    split at ok
    · cases ok
    · next set =>
      split at ok
      · cases ok
      · next found =>
        split at ok
        · cases ok
        · next has =>
          split at ok
          · cases ok
          · next available =>
            split at ok
            · cases ok
            · next revision =>
              cases ok
              exact ⟨not_not.1 set, source, found, not_not.1 available, has, not_not.1 revision⟩
  · rintro ⟨set, source, found, available, has, revision⟩
    refine ⟨source, ?_⟩
    rw [selectSource, if_neg (not_not.2 set), found]
    dsimp only
    rw [has]
    dsimp only
    rw [if_neg (not_not.2 available), if_neg (not_not.2 revision)]

/-! ## Table matches -/

section Tables

variable {tables : TableReader} {read : ViewerSourceSnapshot → List SourceTable} {chunkText : String}

/-- The matches of the tables of one source that have the chunk's serialization. -/
def tableSpans (chunkText : String) (source : ViewerSourceSnapshot) (ts : List SourceTable) : List Match :=
  ts.flatMap fun table =>
    if table.serialized = chunkText then (whitespaceLiteralMatches source.text table.text).map fun m => (source, m) else []

/-- What the search knows after some tables whose matches are these: the only one, or that there are more. -/
def Knows (spans : List Match) : Except LocationAnswer (List Match) → Prop
  | .ok found => found = spans ∧ spans.length ≤ 1
  | .error answer => 2 ≤ spans.length ∧ answer.status = .ambiguous

/-- **One table.** -/
theorem stepTable_knows {source : ViewerSourceSnapshot} {found : List Match} (few : found.length ≤ 1) (table : SourceTable) :
    Knows (found ++ tableSpans chunkText source [table]) (stepTable chunkText source found table) := by
  rw [tableSpans, List.flatMap_singleton, stepTable]
  by_cases same : table.serialized = chunkText
  · rw [if_neg (not_not.2 same), if_pos same]
    split
    · next none_ =>
      rw [none_, List.map_nil, List.append_nil]
      exact ⟨rfl, few⟩
    · next span one =>
      rw [one, List.map_singleton]
      split
      · next two => exact ⟨two, rfl⟩
      · next small => exact ⟨rfl, by omega⟩
    · next m m' ms many =>
      rw [many]
      refine ⟨?_, rfl⟩
      rw [List.length_append, List.map_cons, List.map_cons, List.length_cons, List.length_cons]
      omega
  · rw [if_pos same, if_neg same, List.append_nil]
    exact ⟨rfl, few⟩

/-- **The tables of one source.** -/
theorem foldTables_knows {source : ViewerSourceSnapshot} {found : List Match} (few : found.length ≤ 1)
    (ts : List SourceTable) :
    Knows (found ++ tableSpans chunkText source ts) (ts.foldlM (stepTable chunkText source) found) := by
  induction ts generalizing found with
  | nil =>
    rw [tableSpans, List.flatMap_nil, List.append_nil]
    exact ⟨rfl, few⟩
  | cons table ts ih =>
    have split : tableSpans chunkText source (table :: ts) =
        tableSpans chunkText source [table] ++ tableSpans chunkText source ts := by
      rw [tableSpans, tableSpans, tableSpans, List.flatMap_cons, List.flatMap_singleton]
    have first := @stepTable_knows chunkText source found few table
    rw [List.foldlM_cons, split, ← List.append_assoc]
    cases step : stepTable chunkText source found table with
    | error answer =>
      rw [step] at first
      refine ⟨?_, first.2⟩
      have := first.1
      rw [List.length_append]
      omega
    | ok next =>
      rw [step] at first
      obtain ⟨rfl, small⟩ := first
      exact ih small

/-- **All sources.** The answer once every source's tables could be read. -/
theorem searchTables_status {found : List Match} (few : found.length ≤ 1) {sources : List ViewerSourceSnapshot}
    (reads : ∀ source ∈ sources, tables source = .ok (read source)) :
    ∃ answer, searchTables tables chunkText found sources = .ok answer ∧
      ((found ++ sources.flatMap fun source => tableSpans chunkText source (read source)).length ≤ 1 ∧
          answer = answerTables (found ++ sources.flatMap fun source => tableSpans chunkText source (read source)) ∨
        2 ≤ (found ++ sources.flatMap fun source => tableSpans chunkText source (read source)).length ∧
          answer.status = .ambiguous) := by
  induction sources generalizing found with
  | nil =>
    rw [List.flatMap_nil, List.append_nil]
    exact ⟨_, rfl, .inl ⟨few, rfl⟩⟩
  | cons source rest ih =>
    have knows := @foldTables_knows chunkText source found few (read source)
    rw [searchTables, reads source (by simp), List.flatMap_cons, ← List.append_assoc]
    dsimp only
    cases fold : (read source).foldlM (stepTable chunkText source) found with
    | error answer =>
      rw [fold] at knows
      refine ⟨answer, rfl, .inr ⟨?_, knows.2⟩⟩
      have := knows.1
      rw [List.length_append]
      omega
    | ok next =>
      rw [fold] at knows
      obtain ⟨rfl, small⟩ := knows
      exact ih small fun s mem => reads s (by simp [mem])

/-- An exact answer has read the tables of every source. -/
theorem searchTables_reads {found : List Match} {sources : List ViewerSourceSnapshot} {answer : LocationAnswer}
    (few : found.length ≤ 1) (ok : searchTables tables chunkText found sources = .ok answer) (exact : answer.status = .exact) :
    ∀ source ∈ sources, ∃ ts, tables source = .ok ts := by
  induction sources generalizing found with
  | nil => simp
  | cons source rest ih =>
    rw [searchTables] at ok
    split at ok
    · cases ok
    · next ts read =>
      have knows := @foldTables_knows chunkText source found few ts
      cases fold : ts.foldlM (stepTable chunkText source) found with
      | error early =>
        rw [fold] at ok knows
        cases ok
        have ambiguous := knows.2
        rw [exact] at ambiguous
        cases ambiguous
      | ok next =>
        rw [fold] at ok knows
        obtain ⟨rfl, small⟩ := knows
        intro s mem
        rcases List.mem_cons.1 mem with rfl | mem
        · exact ⟨ts, read⟩
        · exact ih small ok s mem

end Tables

/-! ## The evidence of a window -/

/-- The chunk stands, up to runs of whitespace, at one place in the texts of all the sources, and it
is this one. -/
def OnlyText (snapshot : ViewerDocumentSnapshot) (chunkText sourceDocumentId : String) (s e : Nat) : Prop :=
  ∃ i source, snapshot.sources[i]? = some source ∧ source.sourceDocumentId = sourceDocumentId ∧
    ∀ p, Stands (snapshot.sources.map ViewerSourceSnapshot.text) chunkText p ↔ p = (i, s, e)

/-- The tables of all the sources that have the chunk's serialization stand at one place in their
sources' texts, and it is this one. -/
def OnlyTable (tables : TableReader) (snapshot : ViewerDocumentSnapshot) (chunkText sourceDocumentId : String)
    (s e : Nat) : Prop :=
  ∃ read : ViewerSourceSnapshot → List SourceTable, (∀ source ∈ snapshot.sources, tables source = .ok (read source)) ∧
    ∃ source, source.sourceDocumentId = sourceDocumentId ∧
      (snapshot.sources.flatMap fun source => tableSpans chunkText source (read source)) = [(source, s, e)]

/-- The evidence of a request: its chunk, located in a current inventory. -/
def EvidenceAt (tables : TableReader) (snapshot : ViewerDocumentSnapshot) (r : ContentRequest) (s e : Nat) : Prop :=
  ∃ chunkText hash, r.chunkText = some chunkText ∧ r.chunkTextHash = some hash ∧
    Current snapshot chunkText hash r.sourceSetRevision ∧
      if (buildChunkPresentation chunkText (some "financial_table")).isSome then
        OnlyTable tables snapshot chunkText r.sourceDocumentId s e
      else OnlyText snapshot chunkText r.sourceDocumentId s e

section Evidence

variable {tables : TableReader} {snapshot : ViewerDocumentSnapshot} {chunkText hash revision sourceDocumentId : String} {s e : Nat}

theorem evidenceIn_iff {answer : LocationAnswer} :
    evidenceIn sourceDocumentId answer = some (s, e) ↔
      ∃ l, answer.location = some l ∧ answer.status = .exact ∧ l.sourceDocumentId = sourceDocumentId ∧ l.start = s ∧ l.stop = e := by
  rw [evidenceIn]
  split
  · next none_ =>
    rw [none_]
    simp
  · next l location =>
    rw [location]
    simp only [Option.ite_none_right_eq_some, Option.some.injEq, Prod.mk.injEq, and_assoc, exists_eq_left']

/-- A text chunk is evidence where its only place is. -/
theorem locateChunk_evidence :
    evidenceIn sourceDocumentId (locateChunk snapshot chunkText hash revision) = some (s, e) ↔
      Current snapshot chunkText hash revision ∧ OnlyText snapshot chunkText sourceDocumentId s e := by
  rw [evidenceIn_iff]
  constructor
  · rintro ⟨l, location, exact, id, rfl, rfl⟩
    obtain ⟨current, i, source, s, e, there, found, unique, -⟩ := locateChunk_exact exact
    rw [location] at found
    cases found
    exact ⟨current, i, source, there, id, unique⟩
  · rintro ⟨current, i, source, there, id, unique⟩
    have exact : (locateChunk snapshot chunkText hash revision).status = .exact := by
      have few := locateChunk_ambiguous current
      have map := matches_map snapshot.sources chunkText
      rw [locateChunk_current current] at few ⊢
      obtain ⟨text, at_, occurs⟩ := (unique (i, s, e)).2 rfl
      have mem : (s, e) ∈ (snapshot.sources.map ViewerSourceSnapshot.text).flatMap fun text =>
          whitespaceLiteralMatches text chunkText :=
        List.mem_flatMap.2 ⟨text, List.mem_of_getElem? at_, mem_whitespaceLiteralMatches.2 occurs⟩
      rw [← map] at mem
      cases found : snapshot.sources.flatMap fun source => source.matchesOf chunkText with
      | nil =>
        rw [found] at mem
        cases mem
      | cons m ms =>
        cases ms with
        | nil => rfl
        | cons m' ms =>
          rw [found] at few
          obtain ⟨p, q, differ, left, right⟩ := few.1 rfl
          exact absurd (((unique p).1 left).trans ((unique q).1 right).symm) differ
    obtain ⟨-, j, source', s', e', there', location, unique', -⟩ := locateChunk_exact exact
    obtain ⟨rfl, rfl, rfl⟩ : i = j ∧ s = s' ∧ e = e' := by
      have same := (unique' (i, s, e)).1 ((unique (i, s, e)).2 rfl)
      simpa using same
    rw [there] at there'
    cases there'
    exact ⟨_, location, exact, id, rfl, rfl⟩

/-- What an answer over the tables of all the sources says. -/
theorem answerTables_evidence {spans : List Match} (few : spans.length ≤ 1) :
    evidenceIn sourceDocumentId (answerTables spans) = some (s, e) ↔
      ∃ source, source.sourceDocumentId = sourceDocumentId ∧ spans = [(source, s, e)] := by
  cases spans with
  | nil => simp [evidenceIn, answerTables]
  | cons m ms =>
    cases ms with
    | nil =>
      obtain ⟨source, s', e'⟩ := m
      simp [evidenceIn, answerTables, and_comm, and_assoc]
    | cons m' ms =>
      rw [List.length_cons, List.length_cons] at few
      omega

/-- A table chunk is evidence where the only place of its tables is. -/
theorem tableLocation_evidence (isTable : (buildChunkPresentation chunkText (some "financial_table")).isSome = true)
    {answer : LocationAnswer} (ok : tableLocation tables snapshot chunkText hash revision = .ok answer) :
    evidenceIn sourceDocumentId answer = some (s, e) ↔
      Current snapshot chunkText hash revision ∧ OnlyTable tables snapshot chunkText sourceDocumentId s e := by
  have some_ : (buildChunkPresentation chunkText (some "financial_table")).isNone ≠ true := by
    rw [Option.isSome_iff_ne_none] at isTable
    rwa [Ne, Option.isNone_iff_eq_none]
  rw [tableLocation, if_neg some_] at ok
  split at ok
  · cases ok
  · next set =>
    split at ok
    · cases ok
    · next same =>
      split at ok
      · next lacking =>
        have not_ : ¬ Current snapshot chunkText hash revision := by
          intro current
          rcases lacking with status | sources
          · exact status current.status
          · obtain ⟨source, mem, missing⟩ := List.any_eq_true.1 sources
            exact of_decide_eq_true missing (current.sources source mem)
        cases ok
        constructor
        · intro cited
          obtain ⟨l, location, -⟩ := evidenceIn_iff.1 cited
          cases location
        · rintro ⟨current, -⟩
          exact absurd current not_
      · next complete =>
        rw [not_or] at complete
        have current : Current snapshot chunkText hash revision := by
          refine ⟨not_not.1 set, not_not.1 same, not_not.1 complete.1, ?_⟩
          simpa using complete.2
        constructor
        · intro cited
          obtain ⟨-, -, exact, -⟩ := evidenceIn_iff.1 cited
          have reads := @searchTables_reads tables chunkText [] _ _ (Nat.zero_le 1) ok exact
          choose! read reads using reads
          obtain ⟨answer', ok', ⟨few, rfl⟩ | ⟨-, ambiguous⟩⟩ := @searchTables_status tables read chunkText [] (Nat.zero_le 1) _ reads
          · rw [ok] at ok'
            cases ok'
            rw [List.nil_append] at few cited
            exact ⟨current, read, reads, (answerTables_evidence few).1 cited⟩
          · rw [ok] at ok'
            cases ok'
            rw [exact] at ambiguous
            cases ambiguous
        · rintro ⟨-, read, reads, source, id, spans⟩
          obtain ⟨answer', ok', ⟨few, rfl⟩ | ⟨many, -⟩⟩ := @searchTables_status tables read chunkText [] (Nat.zero_le 1) _ reads
          · rw [ok] at ok'
            cases ok'
            rw [List.nil_append] at few ⊢
            exact (answerTables_evidence few).2 ⟨source, id, spans⟩
          · rw [List.nil_append, spans, List.length_singleton] at many
            omega

/-- **The evidence of a window** is the located chunk. -/
theorem evidenceSpan_iff {r : ContentRequest} {evidence : Option (Nat × Nat)}
    (ok : evidenceSpan tables snapshot r = .ok evidence) : evidence = some (s, e) ↔ EvidenceAt tables snapshot r s e := by
  rw [evidenceSpan] at ok
  split at ok
  · next none_ _ =>
    cases ok
    constructor
    · rintro ⟨⟩
    · rintro ⟨chunkText, hash, text, -⟩
      rw [none_] at text
      cases text
  · next chunkText hash text sha =>
    have at_ : EvidenceAt tables snapshot r s e ↔ Current snapshot chunkText hash r.sourceSetRevision ∧
        if (buildChunkPresentation chunkText (some "financial_table")).isSome then
          OnlyTable tables snapshot chunkText r.sourceDocumentId s e
        else OnlyText snapshot chunkText r.sourceDocumentId s e := by
      constructor
      · rintro ⟨chunkText', hash', text', sha', both⟩
        rw [text] at text'
        rw [sha] at sha'
        cases text'
        cases sha'
        exact both
      · intro both
        exact ⟨chunkText, hash, text, sha, both⟩
    rw [at_]
    split at ok
    · cases ok
    · rw [chunkLocation] at ok
      split at ok
      · next isTable =>
        cases located : tableLocation tables snapshot chunkText hash r.sourceSetRevision with
        | error _ =>
          rw [located] at ok
          cases ok
        | ok answer =>
          rw [located] at ok
          cases ok
          rw [if_pos isTable]
          exact tableLocation_evidence isTable located
      · next plain =>
        cases ok
        rw [if_neg plain]
        exact locateChunk_evidence
  · cases ok

end Evidence

/-! ## Windows -/

theorem query_find (r : ContentRequest) (text : String) :
    whitespaceLiteralMatches text r.query = whitespaceLiteralMatches text (r.find.getD "") := by
  rw [whitespaceLiteralMatches, whitespaceLiteralMatches, foldedQuery_eq, foldedQuery_eq, ContentRequest.query, strip,
    String.toList_ofList, stripBy_idem]

/-- A position lies in a match of the text. -/
theorem any_matches {text query : String} {k : Nat} :
    (whitespaceLiteralMatches text query).any (inSpan k) = true ↔
      ∃ s e, Occurs isSpace text.toList query.toList s e ∧ s ≤ k ∧ k < e := by
  rw [List.any_eq_true]
  constructor
  · rintro ⟨⟨s, e⟩, mem, inside⟩
    rw [inSpan, Bool.and_eq_true, decide_eq_true_eq, decide_eq_true_eq] at inside
    exact ⟨s, e, mem_whitespaceLiteralMatches.1 mem, inside⟩
  · rintro ⟨s, e, occurs, inside⟩
    refine ⟨(s, e), mem_whitespaceLiteralMatches.2 occurs, ?_⟩
    rw [inSpan, Bool.and_eq_true, decide_eq_true_eq, decide_eq_true_eq]
    exact inside

section Content

variable {settings : ViewerSettings} {tables : TableReader} {snapshot : ViewerDocumentSnapshot} {r : ContentRequest}
  {response : ViewerContent}

/-- **What a window is.** -/
theorem content_ok (ok : content settings tables snapshot r = .ok response) :
    ∃ text evidence, Selected snapshot r.sourceDocumentId r.sourceSetRevision r.documentRevision text ∧
      0 ≤ r.start ∧ r.start ≤ text.length ∧ 1 ≤ r.limit ∧ r.limit ≤ settings.windowMax ∧
      evidenceSpan tables snapshot r = .ok evidence ∧
      response = r.respond text r.start.toNat (min text.length (r.start.toNat + r.limit.toNat)) evidence := by
  obtain ⟨⟨source, text⟩, selected, ok⟩ := Checked.bind_eq_ok.1 ok
  obtain ⟨⟨start, stop⟩, window, ok⟩ := Checked.bind_eq_ok.1 ok
  obtain ⟨evidence, cited, ok⟩ := Checked.bind_eq_ok.1 ok
  cases ok
  rw [ContentRequest.window] at window
  split at window
  · cases window
  · next inside =>
    split at window
    · cases window
    · next limit =>
      split at window
      · cases window
      · cases window
        exact ⟨text, evidence, selectSource_ok.1 ⟨source, selected⟩, (not_not.1 inside).1, (not_not.1 inside).2,
          (not_not.1 limit).1, (not_not.1 limit).2, cited, rfl⟩

/-- A position lies in the evidence. -/
theorem evidence_at {evidence : Option (Nat × Nat)} (ok : evidenceSpan tables snapshot r = .ok evidence) {k : Nat} :
    evidence.any (inSpan k) = true ↔ ∃ s e, EvidenceAt tables snapshot r s e ∧ s ≤ k ∧ k < e := by
  rw [Option.any_eq_true]
  constructor
  · rintro ⟨⟨s, e⟩, span, at_⟩
    rw [inSpan, Bool.and_eq_true, decide_eq_true_eq, decide_eq_true_eq] at at_
    exact ⟨s, e, (evidenceSpan_iff ok).1 span, at_⟩
  · rintro ⟨s, e, located, at_⟩
    refine ⟨(s, e), (evidenceSpan_iff ok).2 located, ?_⟩
    rw [inSpan, Bool.and_eq_true, decide_eq_true_eq, decide_eq_true_eq]
    exact at_

/-- A response shows its window: the segments partition the window's text in order and carry the
marks of the whole text. -/
structure Shows (tables : TableReader) (snapshot : ViewerDocumentSnapshot) (r : ContentRequest) (text : String)
    (response : ViewerContent) : Prop where
  start : (response.start : Int) = r.start
  stop : (response.stop : Int) = min (text.length : Int) (r.start + r.limit)
  partition : (response.segments.flatMap fun s => s.text.toList) = slice text.toList response.start response.stop
  solid : ∀ s ∈ response.segments, s.text ≠ ""
  marked : ∀ k, response.start ≤ k → k < response.stop → ∃ evidence search,
    (marks response.segments)[k - response.start]? = some (text.toList.getD k default, evidence, search) ∧
      (search = true ↔ ∃ s e, Occurs isSpace text.toList (r.find.getD "").toList s e ∧ s ≤ k ∧ k < e) ∧
      (evidence = true ↔ ∃ s e, EvidenceAt tables snapshot r s e ∧ s ≤ k ∧ k < e)

theorem content_shows (ok : content settings tables snapshot r = .ok response) :
    ∃ text, Selected snapshot r.sourceDocumentId r.sourceSetRevision r.documentRevision text ∧
      Shows tables snapshot r text response := by
  obtain ⟨text, evidence, selected, low, high, some_, -, cited, rfl⟩ := content_ok ok
  have size : text.toList.length = text.length := String.length_toList
  generalize first : r.start.toNat = start
  generalize last : min text.length (start + r.limit.toNat) = stop
  have order : start ≤ stop := by omega
  have within : stop ≤ text.toList.length := by omega
  obtain ⟨whole, solid⟩ := @segments_partition text start stop (whitespaceLiteralMatches text r.query) evidence order within
  have begins : (start : Int) = r.start := by omega
  have ends : (stop : Int) = min (text.length : Int) (r.start + r.limit) := by omega
  refine ⟨text, selected, begins, ends, ?_, ?_, ?_⟩
  · rw [r.respond_segments]
    exact whole
  · rw [r.respond_segments]
    exact solid
  · intro k after before
    rw [r.respond_segments]
    have mark := @marks_at text start stop (whitespaceLiteralMatches text r.query) evidence order within k after before
    rw [query_find] at mark
    refine ⟨evidence.any (inSpan k), (whitespaceLiteralMatches text (r.find.getD "")).any (inSpan k), ?_, any_matches,
      evidence_at cited⟩
    rw [← query_find] at mark ⊢
    exact mark

end Content

/-! ## Following a search -/

/-- The page a search answers, as the intervals of its matches. -/
def searchPage (settings : ViewerSettings) (snapshot : ViewerDocumentSnapshot) (r : SearchRequest) (cursor : Nat) :
    Except ViewerError (Paging.Page (Nat × Nat)) :=
  (search settings snapshot { r with cursor := cursor }).map fun response =>
    ⟨response.found.map fun m => (m.start, m.stop), response.nextCursor⟩

/-- The search is one the viewer admits. -/
structure SearchRequest.Admitted (r : SearchRequest) (settings : ViewerSettings) : Prop where
  long : 2 ≤ (strip r.query).length
  short : (strip r.query).length ≤ 200
  some_ : 1 ≤ r.limit
  few : r.limit ≤ settings.findMaxLimit

section Search

variable {settings : ViewerSettings} {snapshot : ViewerDocumentSnapshot} {r : SearchRequest} {text : String}

theorem search_ok (selected : Selected snapshot r.sourceDocumentId r.sourceSetRevision r.documentRevision text)
    {cursor : Nat} (position : r.position settings text.length = .ok cursor) :
    search settings snapshot r = .ok (r.respond text cursor) := by
  obtain ⟨source, ok⟩ := selectSource_ok.2 selected
  exact Checked.bind_eq_ok.2 ⟨_, ok, Checked.bind_eq_ok.2 ⟨_, position, rfl⟩⟩

theorem position_ok (admitted : r.Admitted settings) {length cursor : Nat} (at_ : r.cursor = cursor) (within : cursor ≤ length) :
    r.position settings length = .ok cursor := by
  have long : ¬ ¬ (2 ≤ (strip r.query).length ∧ (strip r.query).length ≤ 200) := not_not.2 ⟨admitted.long, admitted.short⟩
  have inside : ¬ ¬ (0 ≤ r.cursor ∧ r.cursor ≤ length) := not_not.2 (by omega)
  have limit : ¬ ¬ (1 ≤ r.limit ∧ r.limit ≤ settings.findMaxLimit) := not_not.2 ⟨admitted.some_, admitted.few⟩
  rw [SearchRequest.position, if_neg long, if_neg inside, if_neg limit, at_]
  rfl

theorem searchPage_eq (selected : Selected snapshot r.sourceDocumentId r.sourceSetRevision r.documentRevision text)
    (admitted : r.Admitted settings) (cursor : Nat) (within : cursor ≤ text.length) :
    searchPage settings snapshot r cursor =
      .ok (Paging.keyPage Prod.fst r.limit.toNat (whitespaceLiteralMatches text (strip r.query)) cursor) := by
  have again : ({ r with cursor := cursor } : SearchRequest).Admitted settings :=
    ⟨admitted.long, admitted.short, admitted.some_, admitted.few⟩
  have ok := @search_ok settings snapshot { r with cursor := cursor } text selected cursor (position_ok again rfl within)
  rw [searchPage, ok]
  generalize page : Paging.keyPage Prod.fst r.limit.toNat (whitespaceLiteralMatches text (strip r.query)) cursor = p
  have respond : SearchRequest.respond { r with cursor := cursor } text cursor =
      ⟨strip r.query, p.items.map fun m => ⟨m.1, m.2, boundedPreview text m.1 m.2⟩, p.next⟩ := by
    rw [SearchRequest.respond, page]
  rw [respond, Except.map, List.map_map]
  simp only [Function.comp_def, Prod.mk.eta, List.map_id']

/-- **Following the search cursor** from the start yields every match once, in order, and ends. -/
theorem search_exhausts (selected : Selected snapshot r.sourceDocumentId r.sourceSetRevision r.documentRevision text)
    (admitted : r.Admitted settings) :
    Paging.Exhausts (searchPage settings snapshot r) (whitespaceLiteralMatches text (strip r.query)) := by
  apply @Paging.exhausts_keyed _ _ _ _ Prod.fst r.limit.toNat text.length (whitespaceLiteralMatches_ascending _ _)
  · rintro ⟨s, e⟩ mem
    have occurs := mem_whitespaceLiteralMatches.1 mem
    obtain ⟨c, rest, shape, -⟩ := opens_iff.1 occurs.opens
    have size := congrArg List.length shape
    rw [slice, List.length_drop, List.length_take, List.length_cons] at size
    have within := occurs.within
    rw [String.length_toList] at within size
    show s < text.length
    omega
  · have := admitted.some_
    omega
  · exact fun c within => searchPage_eq selected admitted c within

end Search

/-! ## Windows and searches -/

/-- **Paging and marking are exact.** The segments of a window partition its text in order; a
character is marked as a search hit exactly when it lies in a match of the search text in the
whole original, and as evidence exactly when it lies in the place where the chunk is located.
Following the search cursor yields every match once, in order, and ends. -/
theorem windows_and_searches :
    (∀ (settings : ViewerSettings) (tables : TableReader) (snapshot : ViewerDocumentSnapshot) (r : ContentRequest)
        (response : ViewerContent), content settings tables snapshot r = .ok response →
      ∃ text, Selected snapshot r.sourceDocumentId r.sourceSetRevision r.documentRevision text ∧
        Shows tables snapshot r text response) ∧
    ∀ (settings : ViewerSettings) (snapshot : ViewerDocumentSnapshot) (r : SearchRequest) (text : String),
      Selected snapshot r.sourceDocumentId r.sourceSetRevision r.documentRevision text → r.Admitted settings →
        ∃ found : List (Nat × Nat), Paging.Exhausts (searchPage settings snapshot r) found ∧
          (∀ s e, (s, e) ∈ found ↔ Occurs isSpace text.toList r.query.toList s e) ∧
          found.Pairwise fun m n => m.1 < n.1 := by
  constructor
  · exact fun _ _ _ _ _ ok => content_shows ok
  · intro settings snapshot r text selected admitted
    have trimmed : whitespaceLiteralMatches text (strip r.query) = whitespaceLiteralMatches text r.query := by
      rw [whitespaceLiteralMatches, whitespaceLiteralMatches, foldedQuery_eq, foldedQuery_eq, strip, String.toList_ofList,
        stripBy_idem]
    refine ⟨_, search_exhausts selected admitted, ?_, whitespaceLiteralMatches_ascending _ _⟩
    intro s e
    rw [trimmed, mem_whitespaceLiteralMatches]

section Sample

def repeatedSource : ViewerSourceSnapshot :=
  ⟨"source-1", .available, some "revision-1", some "aa aa"⟩

def repeatedSnapshot : ViewerDocumentSnapshot :=
  ⟨.available, none, "set-1", [repeatedSource]⟩

/-- The whole text, with a chunk that stands in it twice. -/
def repeatedRequest : ContentRequest where
  sourceDocumentId := "source-1"
  sourceSetRevision := "set-1"
  documentRevision := "revision-1"
  start := 0
  limit := 5
  find := none
  chunkText := some "aa"
  chunkTextHash := some (Sha256.hexdigest "aa")

def noTables : TableReader :=
  fun _ => .ok []

def sampleSettings : ViewerSettings :=
  ⟨32000, 100⟩

theorem repeatedRequest_content :
    content sampleSettings noTables repeatedSnapshot repeatedRequest =
      .ok ⟨0, 5, 5, none, none, [⟨"aa aa", false, false⟩]⟩ := by
  rfl

/-- **A chunk that stands in the sources twice is not marked**: it is not located, so none of its
matches is evidence. -/
theorem repeated_chunk_is_not_marked :
    ¬ ∀ (settings : ViewerSettings) (tables : TableReader) (snapshot : ViewerDocumentSnapshot) (r : ContentRequest)
        (response : ViewerContent) (text chunkText : String),
      Selected snapshot r.sourceDocumentId r.sourceSetRevision r.documentRevision text → r.chunkText = some chunkText →
        content settings tables snapshot r = .ok response →
          ∀ k, response.start ≤ k → k < response.stop → ∀ c evidence search,
            (marks response.segments)[k - response.start]? = some (c, evidence, search) →
              (evidence = true ↔ ∃ s e, Occurs isSpace text.toList chunkText.toList s e ∧ s ≤ k ∧ k < e) := by
  intro claim
  have selected : Selected repeatedSnapshot "source-1" "set-1" "revision-1" "aa aa" :=
    ⟨rfl, repeatedSource, rfl, rfl, rfl, rfl⟩
  have marked := claim _ _ _ _ _ "aa aa" "aa" selected rfl repeatedRequest_content 0 (Nat.le_refl 0) (by decide) 'a' false
    false rfl
  have occurs : Occurs isSpace "aa aa".toList "aa".toList 0 2 := by
    refine mem_whitespaceLiteralMatches.1 ?_
    decide +kernel
  exact Bool.noConfusion (marked.2 ⟨0, 2, occurs, by decide, by decide⟩)

/-- A window of four characters with a search whose second match ends behind it, and a chunk that
stands in the text once. -/
def sampleRequest : ContentRequest :=
  { repeatedRequest with limit := 4, find := some "aa", chunkText := some "a a", chunkTextHash := some (Sha256.hexdigest "a a") }

def sampleSearch : SearchRequest where
  sourceDocumentId := "source-1"
  sourceSetRevision := "set-1"
  documentRevision := "revision-1"
  query := "aa"
  cursor := 0
  limit := 1

theorem windows_and_searches_sample :
    (∃ text, Selected repeatedSnapshot sampleRequest.sourceDocumentId sampleRequest.sourceSetRevision
        sampleRequest.documentRevision text ∧
      Shows noTables repeatedSnapshot sampleRequest text
        ⟨0, 4, 5, none, some 4, [⟨"a", false, true⟩, ⟨"a", true, true⟩, ⟨" ", true, false⟩, ⟨"a", true, true⟩]⟩) ∧
    ∃ found : List (Nat × Nat), Paging.Exhausts (searchPage sampleSettings repeatedSnapshot sampleSearch) found ∧
      (∀ s e, (s, e) ∈ found ↔ Occurs isSpace "aa aa".toList sampleSearch.query.toList s e) ∧
      found.Pairwise fun m n => m.1 < n.1 :=
  ⟨windows_and_searches.1 sampleSettings noTables repeatedSnapshot sampleRequest _ rfl,
    windows_and_searches.2 sampleSettings repeatedSnapshot sampleSearch "aa aa" ⟨rfl, repeatedSource, rfl, rfl, rfl, rfl⟩
      ⟨by decide +kernel, by decide +kernel, by decide, by decide⟩⟩

end Sample

end Reader.OriginalViewer
