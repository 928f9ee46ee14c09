import DocumentQa.Reader.ContentPresentation
import DocumentQa.Reader.OriginalLocation
import DocumentQa.Reader.StructuredPaging

/-!
# Locating a chunk in the structured sources

`src/api/structured_location.py`: a chunk is searched in the blocks of every parsed source,
as a table of the same cells when it presents as one, otherwise as text in the block texts
joined by blank lines, and a match is cut into one range a block.
-/

namespace Reader

open Python Spacing

/-! ## Matching -/

/-- `_same_text`. -/
def sameText (left right : String) : Bool :=
  words isSpace left.toList = words isSpace right.toList

def sameTexts (left right : List String) : Bool :=
  decide (left.length = right.length) && (left.zip right).all fun p => sameText p.1 p.2

/-- `_table_matches`. -/
def tableMatches (block : StructuredBlock) (table : IndexedTable) : Bool :=
  let units := table.units.getD ""
  let rows := block.rows.map fun row => row.map fun c => c.text
  let body := match rows with
    | first :: rest => if sameTexts first block.columns then rest else rows
    | [] => rows
  block.kind = .table && sameText (block.caption.getD "") (table.caption.getD "") &&
    (decide (units = "") || sameText (block.units.getD "") units) && sameTexts block.columns table.columns &&
    decide (body.length = table.rows.length) && (body.zip table.rows).all fun p => sameTexts p.1 p.2

inductive MatchMethod where
  | textWhitespace
  | tableSemantic
deriving DecidableEq, Repr

structure EvidenceRange where
  blockId : String
  blockIndex : Nat
  kind : BlockKind
  start : Nat
  stop : Nat
  method : MatchMethod
deriving DecidableEq, Repr

/-- One of the `parts` of `_text_ranges`. -/
structure TextPart where
  index : Nat
  block : StructuredBlock
  start : Nat
  stop : Nat

/-- The loop that collects the parts, `cursor` characters into the joined text. -/
def textParts : Nat → List (StructuredBlock × Nat) → List TextPart
  | _, [] => []
  | cursor, (block, index) :: rest =>
    if block.kind.sourceBacked && decide (block.readable ≠ "") then
      ⟨index, block, cursor, cursor + block.readable.toList.length⟩ ::
        textParts (cursor + block.readable.toList.length + 2) rest
    else textParts cursor rest

/-- The parts of a document. -/
def StructuredDocument.parts (d : StructuredDocument) : List TextPart :=
  textParts 0 d.blocks.zipIdx

/-- `combined`: the readable texts of the parts, joined by blank lines. -/
def StructuredDocument.joinedText (d : StructuredDocument) : String :=
  join "\n\n" (d.parts.map fun part => part.block.readable)

/-- The range of a match in one part. -/
def partRange (matchStart matchEnd : Nat) (part : TextPart) : Option EvidenceRange :=
  if matchEnd ≤ part.start ∨ part.stop ≤ matchStart then none
  else
    let start := max matchStart part.start - part.start
    let stop := min matchEnd part.stop - part.start
    if start < stop then some ⟨part.block.blockId, part.index, part.block.kind, start, stop, .textWhitespace⟩ else none

/-- The ranges of a match. -/
def StructuredDocument.ranges (d : StructuredDocument) (m : Nat × Nat) : List EvidenceRange :=
  d.parts.filterMap (partRange m.1 m.2)

/-- `_text_ranges`. -/
def textRanges (d : StructuredDocument) (chunkText : String) : List (List EvidenceRange) :=
  (((whitespaceLiteralMatches d.joinedText chunkText).map d.ranges).filter fun ranges => !ranges.isEmpty).take 2

/-- The ranges of the blocks that show the table. -/
def tableRanges (d : StructuredDocument) (table : IndexedTable) : List (List EvidenceRange) :=
  (d.blocks.zipIdx.filter fun b => tableMatches b.1 table).map fun b =>
    [⟨b.1.blockId, b.2, .table, 0, max 1 b.1.sourceText.toList.length, .tableSemantic⟩]

/-! ## `locate` -/

structure EvidenceLocation where
  chunkId : String
  chunkTextHash : String
  documentId : String
  sourceSetRevision : String
  status : LocationStatus
  reason : Option String
  sourceDocumentId : Option String := none
  documentRevision : Option String := none
  representationRevision : Option String := none
  ranges : List EvidenceRange := []
  matchCount : Nat := 0
  matchCountCapped : Bool := false
deriving DecidableEq, Repr

/-- The structured reader: how the bytes of an admitted source are loaded and what the HTML parser
makes of them. -/
structure SourceReader where
  tools : ParserTools
  load : ViewerSourceSnapshot → Except ViewerError (Nat × Option Node)

/-- `StructuredDocumentService.document`. -/
def SourceReader.document (reader : SourceReader) (documentId sourceSetRevision : String) (source : ViewerSourceSnapshot) :
    Except ViewerError StructuredDocument := do
  let raw ← reader.load source
  parseStructuredDocument reader.tools raw.1 raw.2 documentId source.sourceDocumentId sourceSetRevision
    (source.documentRevision.getD "")

structure Candidate where
  source : ViewerSourceSnapshot
  document : StructuredDocument
  ranges : List EvidenceRange

/-- The loop over the sources, which ends at the second candidate. -/
def candidates (document : ViewerSourceSnapshot → Except ViewerError StructuredDocument)
    (search : StructuredDocument → List (List EvidenceRange)) :
    List Candidate → List ViewerSourceSnapshot → Except ViewerError (List Candidate)
  | found, [] => .ok found
  | found, source :: rest => do
    let d ← document source
    if 2 ≤ (found ++ (search d).map (Candidate.mk source d)).length then
      .ok ((found ++ (search d).map (Candidate.mk source d)).take 2)
    else candidates document search (found ++ (search d).map (Candidate.mk source d)) rest

/-- `[\s$€£¥,().%+\-0-9]+` matches the whole stripped text. -/
def isNumberOnly (chunkText : String) : Bool :=
  let cs := stripBy isSpace chunkText.toList
  !cs.isEmpty && cs.all fun c => isSpace c || decide (c ∈ ['$', '€', '£', '¥', ',', '(', ')', '.', '%', '+', '-']) ||
    (decide ('0' ≤ c) && decide (c ≤ '9'))

/-- What a located chunk is asked by. -/
structure LocateRequest where
  documentId : String
  chunkId : String
  chunkText : String
  chunkTextHash : String
  sourceSetRevision : String
  section_ : Option String

/-- `_base`. -/
def LocateRequest.base (r : LocateRequest) (status : LocationStatus) (reason : Option String) : EvidenceLocation where
  chunkId := r.chunkId
  chunkTextHash := r.chunkTextHash
  documentId := r.documentId
  sourceSetRevision := r.sourceSetRevision
  status := status
  reason := reason

/-- The location the candidates give. -/
def LocateRequest.answer (r : LocateRequest) : List Candidate → EvidenceLocation
  | [] => r.base .notFound (some "The full indexed chunk was not found in the admitted structured sources.")
  | [c] =>
    { r.base .exact none with
      sourceDocumentId := some c.source.sourceDocumentId
      documentRevision := c.source.documentRevision
      representationRevision := some c.document.representationRevision
      ranges := c.ranges
      matchCount := 1 }
  | _ :: _ :: _ =>
    { r.base .ambiguous (some "The indexed chunk matches more than one structured source interval.") with
      matchCount := 2
      matchCountCapped := true }

/-- Some source of the set is not there to be searched. -/
def ViewerDocumentSnapshot.lacking (snapshot : ViewerDocumentSnapshot) : Bool :=
  decide (snapshot.status ≠ .available) || snapshot.sources.isEmpty ||
    snapshot.sources.any fun source => decide (source.status ≠ .available) || decide (source.documentRevision.getD "" = "")

/-- How `locate` searches a chunk that is current. -/
inductive SearchMode where
  | table (table : IndexedTable)
  /-- A numeric value of the financial tables section proves no correspondence. -/
  | numeric
  | text

def LocateRequest.mode (r : LocateRequest) : SearchMode :=
  match buildChunkPresentation r.chunkText r.section_ with
  | some table => .table table
  | none => if r.section_ = some "financial_table" ∧ isNumberOnly r.chunkText then .numeric else .text

/-- `StructuredLocationService.locate` on the inventory of the document. -/
def locate (reader : SourceReader) (snapshot : ViewerDocumentSnapshot) (r : LocateRequest) : Except ViewerError EvidenceLocation :=
  if snapshot.sourceSetRevision ≠ r.sourceSetRevision then .ok (r.base .stale (some "The original source set changed."))
  else if Sha256.hexdigest r.chunkText ≠ r.chunkTextHash then .ok (r.base .stale (some "The indexed chunk changed."))
  else if snapshot.lacking then
    .ok (r.base .unavailable (some (reasonOr snapshot.reason "The complete declared source set is not available.")))
  else
    let document := reader.document r.documentId r.sourceSetRevision
    match r.mode with
    | .numeric => .ok (r.base .notFound (some "A numeric-only value is not sufficient to prove table correspondence."))
    | .table table => (candidates document (tableRanges · table) [] snapshot.sources).map r.answer
    | .text => (candidates document (textRanges · r.chunkText) [] snapshot.sources).map r.answer

/-! ## The ranges of a match -/

theorem mem_textParts {cursor : Nat} {bs : List (StructuredBlock × Nat)} {part : TextPart} (h : part ∈ textParts cursor bs) :
    (part.block, part.index) ∈ bs ∧ part.block.readable ≠ "" ∧
      part.stop = part.start + part.block.readable.toList.length := by
  induction bs generalizing cursor with
  | nil => cases h
  | cons b bs ih =>
    obtain ⟨block, index⟩ := b
    rw [textParts] at h
    split at h
    · next kept =>
      rcases List.mem_cons.1 h with rfl | h
      · exact ⟨List.mem_cons_self .., (by simpa using kept : _ ∧ _).2, rfl⟩
      · exact ⟨List.mem_cons_of_mem _ (ih h).1, (ih h).2⟩
    · exact ⟨List.mem_cons_of_mem _ (ih h).1, (ih h).2⟩

theorem textParts_ordered {cursor : Nat} {bs : List (StructuredBlock × Nat)} (order : (bs.map Prod.snd).Pairwise (· < ·)) :
    (textParts cursor bs).Pairwise fun p q => p.index < q.index := by
  induction bs generalizing cursor with
  | nil => exact List.Pairwise.nil
  | cons b bs ih =>
    obtain ⟨block, index⟩ := b
    obtain ⟨first, order⟩ := List.pairwise_cons.1 order
    rw [textParts]
    split
    · refine List.Pairwise.cons ?_ (ih order)
      intro part mem
      exact first part.index (List.mem_map_of_mem (f := Prod.snd) (mem_textParts mem).1)
    · exact ih order

theorem parts_ordered (d : StructuredDocument) : d.parts.Pairwise fun p q => p.index < q.index := by
  apply textParts_ordered
  rw [List.zipIdx_map_snd]
  exact List.pairwise_lt_range'

/-- A part is a block of the document, at its index. -/
theorem part_block {d : StructuredDocument} {part : TextPart} (h : part ∈ d.parts) : d.blocks[part.index]? = some part.block :=
  List.mem_zipIdx_iff_getElem?.1 (mem_textParts h).1

/-- What an interval of the joined text covers, part by part. -/
theorem parts_covers (cursor : Nat) (bs : List (StructuredBlock × Nat)) (i j : Nat) :
    covers 2 cursor ((textParts cursor bs).map fun part => part.block.readable.toList) i j =
      (textParts cursor bs).map fun part => slice part.block.readable.toList (i - part.start) (j - part.start) := by
  induction bs generalizing cursor with
  | nil => rfl
  | cons b bs ih =>
    obtain ⟨block, index⟩ := b
    rw [textParts]
    split
    · rw [List.map_cons, List.map_cons, covers, ih]
    · exact ih cursor

/-- A part has a range exactly when the match covers some of it, and the range is what is covered. -/
theorem partRange_words {part : TextPart} (whole : part.stop = part.start + part.block.readable.toList.length) (i j : Nat) :
    words isSpace (slice part.block.readable.toList (i - part.start) (j - part.start)) =
      ((partRange i j part).toList.flatMap fun r => words isSpace (slice part.block.readable.toList r.start r.stop)) := by
  have short : ∀ a b : Nat, b ≤ a ∨ part.block.readable.toList.length ≤ a → slice part.block.readable.toList a b = [] := by
    intro a b far
    apply List.drop_eq_nil_of_le
    rw [List.length_take]
    omega
  rw [partRange]
  split
  · next apart =>
    rw [short _ _ (by omega)]
    rfl
  · next near =>
    dsimp only
    have start : max i part.start - part.start = i - part.start := by omega
    have stop : min j part.stop - part.start = min (j - part.start) part.block.readable.toList.length := by omega
    split
    · rw [Option.toList_some, List.flatMap_singleton, start, stop, slice, slice, ← List.take_eq_take_min]
    · next empty =>
      rw [short _ _ (by omega)]
      rfl

theorem partRange_inside {part : TextPart} (whole : part.stop = part.start + part.block.readable.toList.length) {i j : Nat}
    {r : EvidenceRange} (h : partRange i j part = some r) :
    r.blockId = part.block.blockId ∧ r.blockIndex = part.index ∧ r.kind = part.block.kind ∧ r.start < r.stop ∧
      r.stop ≤ part.block.readable.toList.length := by
  rw [partRange] at h
  split at h
  · cases h
  · dsimp only at h
    split at h
    · next some_ =>
      cases h
      exact ⟨rfl, rfl, rfl, some_, by dsimp only; omega⟩
    · cases h

theorem Sourced.readable {b : StructuredBlock} (h : Sourced b) (some_ : b.readable ≠ "") : b.readable = b.sourceText := by
  rw [StructuredBlock.readable] at some_ ⊢
  split
  · next empty =>
    rw [if_pos empty] at some_
    exact absurd (h empty) some_
  · rfl

/-- The ranges cite the chunk: one a block in the order of the blocks, each inside the source text of
its block, and the slices, joined by blanks, have the words of the chunk. -/
structure Cites (d : StructuredDocument) (chunkText : String) (ranges : List EvidenceRange) : Prop where
  ordered : ranges.Pairwise fun r r' => r.blockIndex < r'.blockIndex
  inside : ∀ r ∈ ranges, ∃ b, d.blocks[r.blockIndex]? = some b ∧ r.blockId = b.blockId ∧ r.kind = b.kind ∧
    r.start < r.stop ∧ r.stop ≤ b.sourceText.toList.length
  slices : words isSpace ([' '].intercalate (ranges.map fun r =>
    slice ((d.blocks[r.blockIndex]?.map fun b => b.sourceText.toList).getD []) r.start r.stop)) = words isSpace chunkText.toList

theorem joinedText_toList (d : StructuredDocument) :
    d.joinedText.toList = ['\n', '\n'].intercalate (d.parts.map fun part => part.block.readable.toList) := by
  rw [StructuredDocument.joinedText, join, String.toList_ofList, List.map_map]
  rfl

/-- The words of the ranges of an interval are the words of the interval. -/
theorem ranges_words (d : StructuredDocument) (sourced : ∀ b ∈ d.blocks, Sourced b) (m : Nat × Nat) :
    ((d.ranges m).map fun r => slice ((d.blocks[r.blockIndex]?.map fun b => b.sourceText.toList).getD []) r.start r.stop).flatMap
        (words isSpace) = words isSpace (slice d.joinedText.toList m.1 m.2) := by
  have gap : ∀ c ∈ ['\n', '\n'], isSpace c = true := by
    intro c mem
    rcases List.mem_cons.1 mem with rfl | mem
    · decide
    · rw [List.mem_singleton.1 mem]
      decide
  have joined := @words_covers _ isSpace _ gap (List.cons_ne_nil _ _)
    (d.parts.map fun part => part.block.readable.toList) m.1 m.2
  have parts := parts_covers 0 d.blocks.zipIdx m.1 m.2
  rw [← StructuredDocument.parts] at parts
  rw [show ['\n', '\n'].length = 2 from rfl, parts] at joined
  rw [joinedText_toList, joined, StructuredDocument.ranges]
  have each : ∀ part ∈ d.parts, words isSpace (slice part.block.readable.toList (m.1 - part.start) (m.2 - part.start)) =
      (partRange m.1 m.2 part).toList.flatMap fun r =>
        words isSpace (slice ((d.blocks[r.blockIndex]?.map fun b => b.sourceText.toList).getD []) r.start r.stop) := by
    intro part mem
    have facts := mem_textParts mem
    rw [partRange_words facts.2.2]
    cases found : partRange m.1 m.2 part with
    | none => rfl
    | some r =>
      have inside := partRange_inside facts.2.2 found
      have block := part_block mem
      have source := (sourced part.block (List.mem_of_getElem? block)).readable facts.2.1
      rw [Option.toList_some, List.flatMap_singleton, List.flatMap_singleton, inside.2.1, block, source]
      rfl
  generalize d.parts = parts at each
  induction parts with
  | nil => rfl
  | cons part parts ih =>
    have rest := ih fun p mem => each p (List.mem_cons_of_mem _ mem)
    rw [List.map_cons, List.flatMap_cons, ← rest, each part (List.mem_cons_self ..), List.filterMap_cons]
    cases partRange m.1 m.2 part with
    | none => rfl
    | some r =>
      dsimp only
      rw [List.map_cons, List.flatMap_cons, Option.toList_some, List.flatMap_singleton]

/-- **The ranges of a match cite the chunk.** -/
theorem ranges_cite {d : StructuredDocument} (sourced : ∀ b ∈ d.blocks, Sourced b) {chunkText : String} {m : Nat × Nat}
    (h : Occurs isSpace d.joinedText.toList chunkText.toList m.1 m.2) : Cites d chunkText (d.ranges m) where
  ordered := by
    rw [StructuredDocument.ranges, List.pairwise_filterMap]
    refine (parts_ordered d).imp_of_mem ?_
    intro p q mem mem' before r here r' there
    rw [(partRange_inside (mem_textParts mem).2.2 here).2.1, (partRange_inside (mem_textParts mem').2.2 there).2.1]
    exact before
  inside := by
    intro r mem
    obtain ⟨part, mem, found⟩ := List.mem_filterMap.1 mem
    have facts := mem_textParts mem
    have block := part_block mem
    obtain ⟨id, index, kind, some_, within⟩ := partRange_inside facts.2.2 found
    rw [(sourced part.block (List.mem_of_getElem? block)).readable facts.2.1] at within
    exact ⟨part.block, by rw [index, block], id, kind, some_, within⟩
  slices := by
    have gap : ∀ c ∈ [' '], isSpace c = true := by
      intro c mem
      rw [List.mem_singleton.1 mem]
      exact isSpace_space
    rw [words_intercalate gap (List.cons_ne_nil _ _), ranges_words d sourced, h.same]

/-- A match has ranges. -/
theorem ranges_ne_nil {d : StructuredDocument} (sourced : ∀ b ∈ d.blocks, Sourced b) {chunkText : String} {m : Nat × Nat}
    (h : Occurs isSpace d.joinedText.toList chunkText.toList m.1 m.2) : d.ranges m ≠ [] := by
  intro none_
  have same := ranges_words d sourced m
  rw [none_] at same
  exact words_ne_nil h.closes same.symm

/-! ## Searching all sources -/

/-- Every source is loaded and parsed. -/
abbrev Loads (document : ViewerSourceSnapshot → Except ViewerError StructuredDocument) :
    List ViewerSourceSnapshot → List StructuredDocument → Prop :=
  List.Forall₂ fun source d => document source = .ok d

section Candidates

variable {document : ViewerSourceSnapshot → Except ViewerError StructuredDocument}
  {search : StructuredDocument → List (List EvidenceRange)}

/-- What the search finds in the sources and their documents. -/
def allCandidates (search : StructuredDocument → List (List EvidenceRange)) (sources : List ViewerSourceSnapshot)
    (ds : List StructuredDocument) : List Candidate :=
  (sources.zip ds).flatMap fun p => (search p.2).map (Candidate.mk p.1 p.2)

/-- When every source loads, the loop finds the first two candidates. -/
theorem candidates_all {sources : List ViewerSourceSnapshot} {ds : List StructuredDocument} (loads : Loads document sources ds)
    {found : List Candidate} (few : found.length < 2) :
    candidates document search found sources = .ok ((found ++ allCandidates search sources ds).take 2) := by
  induction loads generalizing found with
  | nil => rw [candidates, allCandidates, List.zip_nil_left, List.flatMap_nil, List.append_nil, List.take_of_length_le (by omega)]
  | @cons source d sources ds load _ ih =>
    rw [candidates, load]
    simp only [Checked.ok_bind]
    have rest : found ++ allCandidates search (source :: sources) (d :: ds) =
        (found ++ (search d).map (Candidate.mk source d)) ++ allCandidates search sources ds := by
      rw [allCandidates, List.zip_cons_cons, List.flatMap_cons, List.append_assoc]
      rfl
    rw [rest]
    split
    · next full => rw [List.take_append_of_le_length full]
    · next room => exact ih (by omega)

/-- With fewer than two candidates every source has been loaded. -/
theorem candidates_loads {sources : List ViewerSourceSnapshot} {found result : List Candidate}
    (h : candidates document search found sources = .ok result) (few : result.length < 2) : ∃ ds, Loads document sources ds := by
  induction sources generalizing found with
  | nil => exact ⟨[], .nil⟩
  | cons source sources ih =>
    rw [candidates] at h
    obtain ⟨d, load, h⟩ := Checked.bind_eq_ok.1 h
    split at h
    · next full =>
      cases h
      rw [List.length_take] at few
      omega
    · obtain ⟨ds, loads⟩ := ih h
      exact ⟨d :: ds, .cons load loads⟩

end Candidates

theorem loads_at {document : ViewerSourceSnapshot → Except ViewerError StructuredDocument} {sources : List ViewerSourceSnapshot}
    {ds : List StructuredDocument} (loads : Loads document sources ds) {i : Nat} {p : ViewerSourceSnapshot × StructuredDocument}
    (h : (sources.zip ds)[i]? = some p) : sources[i]? = some p.1 ∧ ds[i]? = some p.2 ∧ document p.1 = .ok p.2 := by
  induction loads generalizing i with
  | nil => cases h
  | cons load _ ih =>
    cases i with
    | zero =>
      cases h
      exact ⟨rfl, rfl, load⟩
    | succ i => exact ih h

/-- The documents a reader parses have source texts. -/
theorem loads_sourced {reader : SourceReader} {documentId sourceSetRevision : String} {source : ViewerSourceSnapshot}
    {d : StructuredDocument} (h : reader.document documentId sourceSetRevision source = .ok d) : ∀ b ∈ d.blocks, Sourced b := by
  obtain ⟨raw, -, parsed⟩ := Checked.bind_eq_ok.1 h
  exact parse_sourced parsed

/-- The text ranges of a document are those of its first two matches. -/
theorem textRanges_eq {d : StructuredDocument} (sourced : ∀ b ∈ d.blocks, Sourced b) (chunkText : String) :
    textRanges d chunkText = ((whitespaceLiteralMatches d.joinedText chunkText).map d.ranges).take 2 := by
  rw [textRanges, List.filter_eq_self.2]
  intro ranges mem
  obtain ⟨m, found, rfl⟩ := List.mem_map.1 mem
  have some_ := ranges_ne_nil sourced (mem_whitespaceLiteralMatches.1 found)
  simpa using some_

/-- Only the first two candidates count, in each source and in all of them. -/
theorem take_two_flatMap {α β : Type} (f : α → List β) (xs : List α) :
    ((xs.flatMap fun x => (f x).take 2).take 2) = (xs.flatMap f).take 2 := by
  induction xs with
  | nil => rfl
  | cons x xs ih =>
    rw [List.flatMap_cons, List.flatMap_cons]
    cases f x with
    | nil => exact ih
    | cons b bs =>
      cases bs with
      | nil =>
        have tail := congrArg (List.take 1) ih
        rw [List.take_take, List.take_take] at tail
        exact congrArg (List.cons b) tail
      | cons c cs => rfl

/-- The documents of the sources, all loaded by the reader, and the candidates the text search finds
in them without its early end. -/
theorem textCandidates {reader : SourceReader} {documentId sourceSetRevision chunkText : String}
    {sources : List ViewerSourceSnapshot} {ds : List StructuredDocument}
    (loads : Loads (reader.document documentId sourceSetRevision) sources ds) :
    candidates (reader.document documentId sourceSetRevision) (textRanges · chunkText) [] sources =
      .ok (((sources.zip ds).flatMap fun p => (whitespaceLiteralMatches p.2.joinedText chunkText).map fun m =>
        Candidate.mk p.1 p.2 (p.2.ranges m)).take 2) := by
  rw [candidates_all loads (by decide), List.nil_append, ← take_two_flatMap, allCandidates]
  have each : ∀ p ∈ sources.zip ds, (textRanges p.2 chunkText).map (Candidate.mk p.1 p.2) =
      ((whitespaceLiteralMatches p.2.joinedText chunkText).map fun m => Candidate.mk p.1 p.2 (p.2.ranges m)).take 2 := by
    intro p mem
    obtain ⟨i, at_⟩ := List.getElem?_of_mem mem
    rw [textRanges_eq (loads_sourced (loads_at loads at_).2.2), List.map_take, List.map_map]
    rfl
  rw [List.flatMap_congr each]

/-! ## What a structured answer says -/

/-- The inventory and the chunk are those asked about, and there are sources, all of them available
in a known revision. -/
structure Complete (snapshot : ViewerDocumentSnapshot) (r : LocateRequest) : Prop where
  current : Current snapshot r.chunkText r.chunkTextHash r.sourceSetRevision
  sources : snapshot.sources ≠ []
  revisions : ∀ source ∈ snapshot.sources, source.documentRevision.getD "" ≠ ""

theorem lacking_iff (snapshot : ViewerDocumentSnapshot) :
    snapshot.lacking = false ↔ snapshot.status = .available ∧ snapshot.sources ≠ [] ∧
      ∀ source ∈ snapshot.sources, source.status = .available ∧ source.documentRevision.getD "" ≠ "" := by
  rw [ViewerDocumentSnapshot.lacking, Bool.or_eq_false_iff, Bool.or_eq_false_iff, List.any_eq_false, and_assoc]
  simp

section Locate

variable {reader : SourceReader} {snapshot : ViewerDocumentSnapshot} {r : LocateRequest} {location : EvidenceLocation}

theorem locate_complete (c : Complete snapshot r) (mode : r.mode = .text) :
    locate reader snapshot r =
      (candidates (reader.document r.documentId r.sourceSetRevision) (textRanges · r.chunkText) [] snapshot.sources).map r.answer := by
  have whole : snapshot.lacking = false :=
    (lacking_iff snapshot).2 ⟨c.current.status, c.sources, fun source mem => ⟨c.current.sources source mem, c.revisions source mem⟩⟩
  rw [locate, if_neg (not_not.2 c.current.revision), if_neg (not_not.2 c.current.hash), whole, if_neg Bool.false_ne_true, mode]

/-- An exact location is answered of a complete inventory only, and never for a number alone. -/
theorem complete_of_exact (ok : locate reader snapshot r = .ok location) (exact : location.status = .exact) : Complete snapshot r := by
  rw [locate] at ok
  split at ok
  · cases ok
    cases exact
  · next revision =>
    split at ok
    · cases ok
      cases exact
    · next hash =>
      split at ok
      · cases ok
        cases exact
      · next whole =>
        obtain ⟨status, some_, each⟩ := (lacking_iff snapshot).1 (Bool.eq_false_iff.2 whole)
        exact ⟨⟨not_not.1 revision, not_not.1 hash, status, fun source mem => (each source mem).1⟩, some_,
          fun source mem => (each source mem).2⟩

theorem answer_exact {cs : List Candidate} (h : (r.answer cs).status = .exact) :
    ∃ c, cs = [c] ∧ (r.answer cs).sourceDocumentId = some c.source.sourceDocumentId ∧
      (r.answer cs).documentRevision = c.source.documentRevision ∧
      (r.answer cs).representationRevision = some c.document.representationRevision ∧ (r.answer cs).ranges = c.ranges := by
  cases cs with
  | nil => cases h
  | cons c cs =>
    cases cs with
    | nil => exact ⟨c, rfl, rfl, rfl, rfl, rfl⟩
    | cons c' cs => cases h

theorem answer_ambiguous (cs : List Candidate) : (r.answer cs).status = .ambiguous ↔ 2 ≤ cs.length := by
  cases cs with
  | nil => simp [LocateRequest.answer, LocateRequest.base]
  | cons c cs =>
    cases cs with
    | nil => simp [LocateRequest.answer, LocateRequest.base]
    | cons c' cs => simp [LocateRequest.answer, LocateRequest.base]

/-- The matches over the documents, without their ranges. -/
theorem candidates_length {sources : List ViewerSourceSnapshot} {ds : List StructuredDocument} (same : sources.length = ds.length)
    (chunkText : String) :
    ((sources.zip ds).flatMap fun p => (whitespaceLiteralMatches p.2.joinedText chunkText).map fun m =>
        Candidate.mk p.1 p.2 (p.2.ranges m)).length =
      ((ds.map StructuredDocument.joinedText).flatMap fun text => whitespaceLiteralMatches text chunkText).length := by
  induction sources generalizing ds with
  | nil =>
    obtain rfl : ds = [] := List.eq_nil_of_length_eq_zero same.symm
    rfl
  | cons source sources ih =>
    cases ds with
    | nil => cases same
    | cons d ds =>
      rw [List.zip_cons_cons, List.flatMap_cons, List.map_cons, List.flatMap_cons, List.length_append, List.length_append,
        List.length_map, ih (Nat.succ.inj same)]

/-- **An exact structured location** cites the only place the chunk stands at in the texts of the
documents, all of them loaded. -/
theorem locate_exact (mode : r.mode = .text) (ok : locate reader snapshot r = .ok location) (exact : location.status = .exact) :
    Complete snapshot r ∧ ∃ ds, Loads (reader.document r.documentId r.sourceSetRevision) snapshot.sources ds ∧
      ∃ i source d s e, snapshot.sources[i]? = some source ∧ ds[i]? = some d ∧
        location.sourceDocumentId = some source.sourceDocumentId ∧ location.documentRevision = source.documentRevision ∧
        location.representationRevision = some d.representationRevision ∧ location.ranges = d.ranges (s, e) ∧
        Cites d r.chunkText location.ranges ∧
        ∀ p, Stands (ds.map StructuredDocument.joinedText) r.chunkText p ↔ p = (i, s, e) := by
  have complete := complete_of_exact ok exact
  refine ⟨complete, ?_⟩
  rw [locate_complete complete mode] at ok
  obtain ⟨cs, found, rfl⟩ := Checked.map_eq_ok.1 ok
  obtain ⟨c, rfl, id, revision, representation, ranges⟩ := answer_exact exact
  obtain ⟨ds, loads⟩ := candidates_loads found (Nat.lt_succ_self 1)
  rw [textCandidates loads] at found
  have found := Except.ok.inj found
  have one : ((snapshot.sources.zip ds).flatMap fun p => (whitespaceLiteralMatches p.2.joinedText r.chunkText).map fun m =>
      Candidate.mk p.1 p.2 (p.2.ranges m)) = [c] := by
    have size := congrArg List.length found
    rw [List.length_take, List.length_singleton] at size
    rwa [List.take_of_length_le (by omega)] at found
  have size := congrArg List.length one
  rw [candidates_length loads.length_eq] at size
  obtain ⟨⟨s, e⟩, single⟩ := List.length_eq_one_iff.1 size
  obtain ⟨j, text, at_, -, unique⟩ := stands_of_singleton single
  obtain ⟨i, p, there, only, -⟩ := flatMap_singleton one
  obtain ⟨hereSource, hereDocument, load⟩ := loads_at loads there
  obtain ⟨m, rest, rfl⟩ := List.map_eq_singleton_iff.1 only
  have occurs : Occurs isSpace p.2.joinedText.toList r.chunkText.toList m.1 m.2 := by
    apply mem_whitespaceLiteralMatches.1
    rw [rest]
    exact List.mem_singleton_self _
  have place := (unique (i, m)).1 ⟨p.2.joinedText, by rw [List.getElem?_map, hereDocument]; rfl, occurs⟩
  refine ⟨ds, loads, i, p.1, p.2, m.1, m.2, hereSource, hereDocument, id, revision, representation, ranges, ?_, ?_⟩
  · rw [ranges]
    exact ranges_cite (loads_sourced load) occurs
  · rwa [show (i, m.1, m.2) = (i, m) from rfl, place]

/-- A complete inventory whose sources load is ambiguous exactly when the chunk stands at two places. -/
theorem locate_ambiguous (c : Complete snapshot r) (mode : r.mode = .text) {ds : List StructuredDocument}
    (loads : Loads (reader.document r.documentId r.sourceSetRevision) snapshot.sources ds) :
    ∃ location, locate reader snapshot r = .ok location ∧ (location.status = .ambiguous ↔
      ∃ p q, p ≠ q ∧ Stands (ds.map StructuredDocument.joinedText) r.chunkText p ∧
        Stands (ds.map StructuredDocument.joinedText) r.chunkText q) := by
  rw [locate_complete c mode, textCandidates loads]
  refine ⟨_, rfl, ?_⟩
  rw [answer_ambiguous, List.length_take, ← two_le_matches, ← candidates_length loads.length_eq]
  omega

end Locate

/-- **An exact evidence location is sound and unique.** In the original sources and, in text mode, in
the structured ones: an exact answer cites the only place the chunk stands at in all of the admitted
sources, which were available and current, and of such sources the answer is ambiguous exactly when
the chunk stands at two places. -/
theorem evidence_locations :
    (∀ snapshot chunkText chunkTextHash sourceSetRevision,
      ((locateChunk snapshot chunkText chunkTextHash sourceSetRevision).status = .exact →
        Current snapshot chunkText chunkTextHash sourceSetRevision ∧ ∃ i source s e, snapshot.sources[i]? = some source ∧
          (locateChunk snapshot chunkText chunkTextHash sourceSetRevision).location =
            some ⟨source.sourceDocumentId, source.documentRevision, "full_text_whitespace", s, e⟩ ∧
          (∀ p, Stands (snapshot.sources.map ViewerSourceSnapshot.text) chunkText p ↔ p = (i, s, e)) ∧
          words isSpace (slice source.text.toList s e) = words isSpace chunkText.toList) ∧
      (Current snapshot chunkText chunkTextHash sourceSetRevision →
        ((locateChunk snapshot chunkText chunkTextHash sourceSetRevision).status = .ambiguous ↔
          ∃ p q, p ≠ q ∧ Stands (snapshot.sources.map ViewerSourceSnapshot.text) chunkText p ∧
            Stands (snapshot.sources.map ViewerSourceSnapshot.text) chunkText q))) ∧
    ∀ (reader : SourceReader) (snapshot : ViewerDocumentSnapshot) (r : LocateRequest), r.mode = .text →
      (∀ location, locate reader snapshot r = .ok location → location.status = .exact →
        Complete snapshot r ∧ ∃ ds, Loads (reader.document r.documentId r.sourceSetRevision) snapshot.sources ds ∧
          ∃ i source d s e, snapshot.sources[i]? = some source ∧ ds[i]? = some d ∧
            location.sourceDocumentId = some source.sourceDocumentId ∧ location.documentRevision = source.documentRevision ∧
            location.representationRevision = some d.representationRevision ∧ location.ranges = d.ranges (s, e) ∧
            Cites d r.chunkText location.ranges ∧
            ∀ p, Stands (ds.map StructuredDocument.joinedText) r.chunkText p ↔ p = (i, s, e)) ∧
      (∀ ds, Complete snapshot r → Loads (reader.document r.documentId r.sourceSetRevision) snapshot.sources ds →
        ∃ location, locate reader snapshot r = .ok location ∧ (location.status = .ambiguous ↔
          ∃ p q, p ≠ q ∧ Stands (ds.map StructuredDocument.joinedText) r.chunkText p ∧
            Stands (ds.map StructuredDocument.joinedText) r.chunkText q)) :=
  ⟨fun _ _ _ _ => ⟨locateChunk_exact, locateChunk_ambiguous⟩,
    fun _ _ _ mode => ⟨fun _ ok exact => locate_exact mode ok exact, fun _ complete loads => locate_ambiguous complete mode loads⟩⟩

section Sample

/-- A filing in two documents. -/
def sampleSource : ViewerSourceSnapshot :=
  ⟨"source-1", .available, some "revision-1", some "\n Net  sales\n"⟩

def sampleExhibit : ViewerSourceSnapshot :=
  ⟨"source-2", .available, some "revision-2", some "Net income"⟩

def sampleSnapshot : ViewerDocumentSnapshot :=
  ⟨.available, none, "set-1", [sampleSource, sampleExhibit]⟩

/-- The paragraph of each of the structured documents. -/
def sampleWord (source : ViewerSourceSnapshot) : String :=
  if source.sourceDocumentId = "source-1" then "sales" else "income"

def sampleReader : SourceReader where
  tools := plainTools
  load source := .ok (42, some (paragraphTree (sampleWord source)))

def sampleRequest : LocateRequest where
  documentId := "IBM:0000051143-26-000010"
  chunkId := "chunk-1"
  chunkText := " sales"
  chunkTextHash := Sha256.hexdigest " sales"
  sourceSetRevision := "set-1"
  section_ := some "risk_factors"

theorem sampleSnapshot_current (chunkText : String) : Current sampleSnapshot chunkText (Sha256.hexdigest chunkText) "set-1" where
  revision := rfl
  hash := rfl
  status := rfl
  sources := by
    simp only [sampleSnapshot, List.forall_mem_cons]
    exact ⟨rfl, rfl, nofun⟩

theorem sampleRequest_complete : Complete sampleSnapshot sampleRequest where
  current := sampleSnapshot_current " sales"
  sources := List.cons_ne_nil _ _
  revisions := by
    simp only [sampleSnapshot, List.forall_mem_cons]
    exact ⟨by decide, by decide, nofun⟩

theorem sampleReader_parses {source : ViewerSourceSnapshot} (mem : source ∈ sampleSnapshot.sources) :
    ∃ d, sampleReader.document sampleRequest.documentId sampleRequest.sourceSetRevision source = .ok d ∧
      d.joinedText = sampleWord source := by
  have words : ∀ source ∈ sampleSnapshot.sources, ((sampleWord source).toList.all fun c => !isSpace c) = true ∧
      sampleWord source ≠ "" ∧ (sampleWord source).toList.length ≤ maxSourceCodepoints ∧
      join "\n\n" ((textParts 0 [paragraphBlock plainTools source.sourceDocumentId (sampleWord source)].zipIdx).map fun part =>
        part.block.readable) = sampleWord source := by
    simp only [sampleSnapshot, List.forall_mem_cons]
    exact ⟨⟨by decide, by decide, by decide, by decide⟩, ⟨by decide, by decide, by decide, by decide⟩, nofun⟩
  obtain ⟨solid, some_, short, text⟩ := words source mem
  have raw : 42 ≤ plainTools.rawFileMaxBytes := by decide
  obtain ⟨d, parsed, blocks⟩ := parse_paragraph plainTools (fun c mem => by simpa using List.all_eq_true.1 solid c mem)
    some_ short raw "IBM:0000051143-26-000010" source.sourceDocumentId "set-1" (source.documentRevision.getD "")
  refine ⟨d, ?_, ?_⟩
  · simp only [SourceReader.document, sampleReader, sampleRequest, Checked.ok_bind, parsed]
  · rw [StructuredDocument.joinedText, StructuredDocument.parts, blocks, text]

/-- A chunk is found in one of the documents, another one in both. -/
theorem evidence_locations_sample :
    (∃ i source s e, sampleSnapshot.sources[i]? = some source ∧
      (locateChunk sampleSnapshot "Net sales" (Sha256.hexdigest "Net sales") "set-1").location =
        some ⟨source.sourceDocumentId, source.documentRevision, "full_text_whitespace", s, e⟩ ∧
      ∀ p, Stands (sampleSnapshot.sources.map ViewerSourceSnapshot.text) "Net sales" p ↔ p = (i, s, e)) ∧
    (∃ p q, p ≠ q ∧ Stands (sampleSnapshot.sources.map ViewerSourceSnapshot.text) "Net" p ∧
      Stands (sampleSnapshot.sources.map ViewerSourceSnapshot.text) "Net" q) ∧
    (∃ location, locate sampleReader sampleSnapshot sampleRequest = .ok location ∧ location.status = .exact ∧
      ∃ d, Cites d " sales" location.ranges) ∧
    ¬ ∃ p q, p ≠ q ∧ Stands ["sales", "income"] " sales" p ∧ Stands ["sales", "income"] " sales" q := by
  obtain ⟨d, parsed, text⟩ := sampleReader_parses (List.mem_cons_self : sampleSource ∈ _)
  obtain ⟨d', parsed', text'⟩ := sampleReader_parses (List.mem_cons_of_mem _ List.mem_cons_self : sampleExhibit ∈ _)
  have loads : Loads (sampleReader.document sampleRequest.documentId sampleRequest.sourceSetRevision) sampleSnapshot.sources
      [d, d'] := .cons parsed (.cons parsed' .nil)
  have mode : sampleRequest.mode = .text := by
    unfold LocateRequest.mode
    rfl
  have law := evidence_locations.2 sampleReader sampleSnapshot sampleRequest mode
  have found : locate sampleReader sampleSnapshot sampleRequest =
      .ok (sampleRequest.answer [⟨sampleSource, d, d.ranges (0, 5)⟩]) := by
    rw [locate_complete sampleRequest_complete mode, textCandidates loads]
    have one : whitespaceLiteralMatches (sampleWord sampleSource) sampleRequest.chunkText = [(0, 5)] := by decide
    have none_ : whitespaceLiteralMatches (sampleWord sampleExhibit) sampleRequest.chunkText = [] := by decide
    simp only [sampleSnapshot, List.zip_cons_cons, List.zip_nil_left, List.flatMap_cons, List.flatMap_nil, text, text', one,
      none_, List.map_cons, List.map_nil, List.append_nil]
    rfl
  refine ⟨?_, ?_, ?_, ?_⟩
  · have exact : (locateChunk sampleSnapshot "Net sales" (Sha256.hexdigest "Net sales") "set-1").status = .exact := by
      rw [locateChunk_current (sampleSnapshot_current "Net sales")]
      decide
    obtain ⟨-, i, source, s, e, at_, location, only, -⟩ := (evidence_locations.1 sampleSnapshot "Net sales" _ "set-1").1 exact
    exact ⟨i, source, s, e, at_, location, only⟩
  · apply ((evidence_locations.1 sampleSnapshot "Net" _ "set-1").2 (sampleSnapshot_current "Net")).1
    rw [locateChunk_current (sampleSnapshot_current "Net")]
    decide
  · have exact : (sampleRequest.answer [⟨sampleSource, d, d.ranges (0, 5)⟩]).status = .exact := rfl
    obtain ⟨-, ds, -, i, source, d', s, e, -, -, -, -, -, -, cites, -⟩ := law.1 _ found exact
    exact ⟨_, found, exact, d', cites⟩
  · obtain ⟨location, ok, ambiguous⟩ := law.2 [d, d'] sampleRequest_complete loads
    rw [found] at ok
    cases ok
    rw [List.map_cons, List.map_singleton, text, text'] at ambiguous
    intro twice
    cases ambiguous.2 twice

end Sample

end Reader
