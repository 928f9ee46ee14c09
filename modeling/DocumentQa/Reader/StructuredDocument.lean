import DocumentQa.Lib.Paging
import DocumentQa.Python.Report

/-!
# Structured documents

The block contract of `src/api/structured_document.py`, its JSON form, and
`StructuredDocumentService.content`: blocks are packed from the cursor on until a budget is
spent, the first one in any case, and the response is refused when its text is too long.
-/

namespace Reader

open Python JsonText

def maxContentBlocks : Nat :=
  64

def maxContentCodepoints : Nat :=
  32000

def maxTableCells : Nat :=
  2000

def maxResponseBytes : Nat :=
  512 * 1024

/-- `OriginalViewerError` and its subclass `StructuredDocumentError`. -/
structure ViewerError where
  code : String
  message : String
  statusCode : Nat
deriving DecidableEq, Repr

structure StructuredRun where
  text : String
  emphasis : Bool := false
  strong : Bool := false
  superscript : Bool := false
  subscript : Bool := false
deriving DecidableEq, Repr

/-- A span within the bounds of its field. -/
structure Span where
  value : Nat
  positive : 1 ≤ value
  bounded : value ≤ 128
deriving DecidableEq, Repr

structure StructuredCell where
  text : String
  rowspan : Span
  colspan : Span
  header : Bool
  cellId : Option String
  sourceRow : Option Nat
  sourceColumn : Option Nat
deriving DecidableEq, Repr

inductive BlockKind where
  | heading
  | paragraph
  | list
  | table
  | separator
  | unsupported
deriving DecidableEq, Repr

def BlockKind.text : BlockKind → String
  | heading => "heading"
  | paragraph => "paragraph"
  | list => "list"
  | table => "table"
  | separator => "separator"
  | unsupported => "unsupported"

inductive TableMode where
  | semantic
  | sourceLayout
  | unsupported
deriving DecidableEq, Repr

def TableMode.text : TableMode → String
  | semantic => "semantic"
  | sourceLayout => "source_layout"
  | unsupported => "unsupported"

structure StructuredBlock where
  blockId : String
  kind : BlockKind
  text : String := ""
  runs : List StructuredRun := []
  level : Option Nat := none
  anchor : Option String := none
  items : List String := []
  caption : Option String := none
  units : Option String := none
  columns : List String := []
  rows : List (List StructuredCell) := []
  tableMode : Option TableMode := none
  tableAdapterVersion : Option String := none
  tableReason : Option String := none
  headerRows : List (List StructuredCell) := []
  headerRowCount : Nat := 0
  continuationIndex : Option Nat := none
  continuationCount : Option Nat := none
  sourceText : String := ""
deriving DecidableEq, Repr

structure OutlineItem where
  blockId : String
  label : String
  level : Nat
  anchor : String
deriving DecidableEq, Repr

inductive CoverageStatus where
  | complete
  | partly
  | unknown
deriving DecidableEq, Repr

def CoverageStatus.text : CoverageStatus → String
  | complete => "complete"
  | partly => "partial"
  | unknown => "unknown"

structure StructuredDocument where
  documentId : String
  sourceDocumentId : String
  sourceSetRevision : String
  documentRevision : String
  representationRevision : String
  blocks : List StructuredBlock
  outline : List OutlineItem
  complete : Bool
  limitations : List String
  coverageStatus : CoverageStatus
  coverageReason : Option String
  coverageReasonCode : Option String
deriving DecidableEq, Repr

/-- `StructuredContentResponse`. -/
structure ContentResponse where
  documentId : String
  sourceDocumentId : String
  sourceSetRevision : String
  documentRevision : String
  blocks : List StructuredBlock
  previousCursor : Option Nat
  nextCursor : Option Nat
  complete : Bool
  limitations : List String
  coverageStatus : CoverageStatus
  coverageReason : Option String
  coverageReasonCode : Option String
deriving DecidableEq, Repr

/-! ## `model_dump(mode="json")` -/

def jsonNat (n : Nat) : Json :=
  .int n

def jsonOption {α : Type} (f : α → Json) : Option α → Json
  | some a => f a
  | none => .null

def StructuredRun.json (r : StructuredRun) : Json :=
  .obj [("text", .str r.text), ("emphasis", .bool r.emphasis), ("strong", .bool r.strong),
    ("superscript", .bool r.superscript), ("subscript", .bool r.subscript)]

def StructuredCell.json (c : StructuredCell) : Json :=
  .obj [("text", .str c.text), ("rowspan", jsonNat c.rowspan.value), ("colspan", jsonNat c.colspan.value),
    ("header", .bool c.header), ("cell_id", jsonOption .str c.cellId), ("source_row", jsonOption jsonNat c.sourceRow),
    ("source_column", jsonOption jsonNat c.sourceColumn)]

def jsonRows (rows : List (List StructuredCell)) : Json :=
  .arr (rows.map fun row => .arr (row.map StructuredCell.json))

def StructuredBlock.json (b : StructuredBlock) : Json :=
  .obj [("block_id", .str b.blockId), ("kind", .str b.kind.text), ("text", .str b.text),
    ("runs", .arr (b.runs.map StructuredRun.json)), ("level", jsonOption jsonNat b.level),
    ("anchor", jsonOption .str b.anchor), ("items", .arr (b.items.map .str)), ("caption", jsonOption .str b.caption),
    ("units", jsonOption .str b.units), ("columns", .arr (b.columns.map .str)), ("rows", jsonRows b.rows),
    ("table_mode", jsonOption (fun m => .str m.text) b.tableMode),
    ("table_adapter_version", jsonOption .str b.tableAdapterVersion), ("table_reason", jsonOption .str b.tableReason),
    ("header_rows", jsonRows b.headerRows), ("header_row_count", jsonNat b.headerRowCount),
    ("continuation_index", jsonOption jsonNat b.continuationIndex),
    ("continuation_count", jsonOption jsonNat b.continuationCount), ("source_text", .str b.sourceText)]

def OutlineItem.json (o : OutlineItem) : Json :=
  .obj [("block_id", .str o.blockId), ("label", .str o.label), ("level", jsonNat o.level), ("anchor", .str o.anchor)]

def ContentResponse.json (r : ContentResponse) : Json :=
  .obj [("document_id", .str r.documentId), ("source_document_id", .str r.sourceDocumentId),
    ("source_set_revision", .str r.sourceSetRevision), ("document_revision", .str r.documentRevision),
    ("blocks", .arr (r.blocks.map StructuredBlock.json)), ("previous_cursor", jsonOption jsonNat r.previousCursor),
    ("next_cursor", jsonOption jsonNat r.nextCursor), ("complete", .bool r.complete),
    ("limitations", .arr (r.limitations.map .str)), ("coverage_status", .str r.coverageStatus.text),
    ("coverage_reason", jsonOption .str r.coverageReason), ("coverage_reason_code", jsonOption .str r.coverageReasonCode)]

/-- `_response_size`. -/
def responseSize (r : ContentResponse) : Nat :=
  width r.json

/-! ## `content` -/

/-- A limit the content endpoint accepts. -/
structure PageLimit where
  value : Nat
  positive : 1 ≤ value
  bounded : value ≤ 64

/-- `len(block.text) + sum(len(item.text) for row in block.rows for item in row)`. -/
def blockSize (b : StructuredBlock) : Nat :=
  b.text.toList.length + (b.rows.flatten.map fun c => c.text.toList.length).foldl (· + ·) 0

/-- `sum(len(row) for row in block.rows)`. -/
def blockCells (b : StructuredBlock) : Nat :=
  b.rows.flatten.length

/-- The packing loop, with the number of blocks selected so far and what they weigh. -/
def packFrom (most : Nat) : Nat → Nat → Nat → List StructuredBlock → List StructuredBlock
  | _, _, _, [] => []
  | count, codepoints, cells, b :: rest =>
    if most ≤ count then []
    else if 0 < count ∧ (maxContentCodepoints < codepoints + blockSize b ∨ maxTableCells < cells + blockCells b) then []
    else b :: packFrom most (count + 1) (codepoints + blockSize b) (cells + blockCells b) rest

/-- The blocks of the page that begins a rest of the document. -/
def pack (limit : PageLimit) (blocks : List StructuredBlock) : List StructuredBlock :=
  packFrom (min limit.value maxContentBlocks) 0 0 0 blocks

/-- The response that holds the selected blocks. -/
def contentResponse (d : StructuredDocument) (limit : PageLimit) (cursor : Nat) (selected : List StructuredBlock) :
    ContentResponse where
  documentId := d.documentId
  sourceDocumentId := d.sourceDocumentId
  sourceSetRevision := d.sourceSetRevision
  documentRevision := d.documentRevision
  blocks := selected
  previousCursor := if 0 < cursor then some (cursor - limit.value) else none
  nextCursor := if cursor + selected.length < d.blocks.length then some (cursor + selected.length) else none
  complete := d.blocks.length ≤ cursor + selected.length
  limitations := d.limitations
  coverageStatus := d.coverageStatus
  coverageReason := d.coverageReason
  coverageReasonCode := d.coverageReasonCode

/-- `StructuredDocumentService.content` of a loaded document. -/
def content (d : StructuredDocument) (cursor : Nat) (limit : PageLimit) : Except ViewerError ContentResponse :=
  let response := contentResponse d limit cursor (pack limit (d.blocks.drop cursor))
  if maxResponseBytes < responseSize response then
    .error ⟨"structured_response_too_large", "The structured content response exceeds the response limit.", 200⟩
  else .ok response

/-! ## Following the cursors -/

theorem packFrom_prefix (most count codepoints cells : Nat) (blocks : List StructuredBlock) :
    packFrom most count codepoints cells blocks <+: blocks := by
  induction blocks generalizing count codepoints cells with
  | nil => exact List.prefix_refl _
  | cons b rest ih =>
    rw [packFrom]
    split
    · exact List.nil_prefix
    · split
      · exact List.nil_prefix
      · exact List.prefix_cons_inj b |>.2 (ih ..)

/-- The first block is packed whatever it weighs. -/
theorem pack_fronts (limit : PageLimit) : Paging.Fronts (pack limit) where
  takes l := packFrom_prefix _ _ _ _ l
  advances {l} some_ := by
    obtain ⟨b, rest, rfl⟩ := List.exists_cons_of_ne_nil some_
    have room : ¬ min limit.value maxContentBlocks ≤ 0 := by
      have := limit.positive
      have : 0 < maxContentBlocks := by decide
      omega
    rw [pack, packFrom, if_neg room, if_neg (fun h => absurd h.1 (Nat.lt_irrefl 0))]
    exact List.cons_ne_nil _ _

/-- The answer as a page: the blocks and the next cursor. -/
def contentPage (d : StructuredDocument) (limit : PageLimit) (cursor : Nat) : Except ViewerError (Paging.Page StructuredBlock) :=
  (content d cursor limit).map fun r => ⟨r.blocks, r.nextCursor⟩

/-- The response with these blocks is short enough to be sent. -/
def PageFits (d : StructuredDocument) (limit : PageLimit) (cursor : Nat) (blocks : List StructuredBlock) : Prop :=
  responseSize (contentResponse d limit cursor blocks) ≤ maxResponseBytes

theorem content_serves (d : StructuredDocument) (limit : PageLimit) :
    Paging.Serves (contentPage d limit) (pack limit) (PageFits d limit) d.blocks where
  accepts {c} fits := by
    rw [contentPage, content]
    rw [if_neg (Nat.not_lt.2 fits)]
    rfl
  refuses {c} refused := by
    rw [contentPage, content]
    rw [if_pos (Nat.not_le.1 refused)]
    exact ⟨_, rfl⟩

/-- **Reading a document page by page** yields every block once and in order exactly when each
page of the greedy cut of its blocks is short enough to be sent. -/
theorem content_exhausts_iff (d : StructuredDocument) (limit : PageLimit) :
    Paging.Exhausts (contentPage d limit) d.blocks ↔
      ∀ page ∈ Paging.cuts (pack limit) (d.blocks.length + 1) 0 d.blocks, PageFits d limit page.1 page.2 :=
  Paging.exhausts_iff (pack_fronts limit) (content_serves d limit)

end Reader
