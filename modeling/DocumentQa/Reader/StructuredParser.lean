import DocumentQa.Lib.Sha256
import DocumentQa.Python.Search
import DocumentQa.Reader.StructuredDocument

/-!
# Parsing a filing into blocks

`parse_structured_document` on the tree the HTML parser builds: which tags become blocks,
their texts and runs, the physical tables and their classification, and the assessment of
how much of the visible text the blocks represent. What the third-party tree offers
(`find_all`, `parents`, `get_text`) is written out on the tree; Unicode case folding,
`isalnum`, `int` of a text and `str` of a cell are parameters.
-/

namespace Reader

open Python Spacing JsonText

/-! ## The tree -/

/-- The class of a string in the tree: running text, a comment, or the content of a script, a
style or a template and the like, which `get_text` passes over. -/
inductive StringClass where
  | text
  | comment
  | other
deriving DecidableEq, Repr

inductive Node where
  | string (kind : StringClass) (value : String)
  | tag (name : String) (attrs : List (String × String)) (children : List Node)

namespace Node

def name : Node → String
  | string .. => ""
  | tag n _ _ => n

def isTag : Node → Bool
  | string .. => false
  | tag .. => true

/-- `tag.get(attribute)`. -/
def attr? (key : String) : Node → Option String
  | string .. => none
  | tag _ attrs _ => (attrs.find? fun a => a.1 = key).map Prod.snd

def children : Node → List Node
  | string .. => []
  | tag _ _ cs => cs

mutual

/-- The node and everything below it in document order, each with its ancestors, the nearest
first. -/
def walk (parents : List Node) : Node → List (List Node × Node)
  | string k v => [(parents, string k v)]
  | tag n as cs => (parents, tag n as cs) :: walkAll (tag n as cs :: parents) cs

def walkAll (parents : List Node) : List Node → List (List Node × Node)
  | [] => []
  | c :: cs => walk parents c ++ walkAll parents cs

end

/-- `tag.find_all(names)`, with the ancestors of each result. -/
def findAll (parents : List Node) (accept : Node → Bool) (node : Node) : List (List Node × Node) :=
  (walkAll (node :: parents) node.children).filter fun p => p.2.isTag && accept p.2

end Node

/-- What the parser takes from outside: case folding, `str.isalnum` of a character, `int` of a
text, `str` of a cell, and the configured size limit of a source. -/
structure ParserTools where
  casefold : String → String
  isalnum : Char → Bool
  int : String → Option Int
  cellText : StructuredCell → String
  rawFileMaxBytes : Nat

def maxNestingDepth : Nat :=
  128

def maxSourceNodes : Nat :=
  250000

def maxSourceCodepoints : Nat :=
  4000000

def maxSourceSetCodepoints : Nat :=
  8000000

def tableAdapterVersion : String :=
  "sec-table-adapter-v2"

/-- `separator.join(parts)`. -/
def join (separator : String) (parts : List String) : String :=
  String.ofList (separator.toList.intercalate (parts.map String.toList))

/-- The running text of a string, stripped. -/
def strippedText : Node → Option String
  | .string .text value => some (strip value)
  | _ => none

/-- `_text`: the stripped strings below the tag, those that are left joined by spaces. -/
def tagText (tag : Node) : String :=
  joinWords (join " " (((Node.walk [] tag).filterMap fun p => strippedText p.2).filter (· ≠ "")))

/-- `_slug`. -/
def slug (tools : ParserTools) (value : String) (index : Nat) : String :=
  let folded := [('-' : Char)].intercalate (words isSpace (tools.casefold value).toList)
  let safe := stripBy (· = '-') (folded.map fun c => if tools.isalnum c || c = '-' then c else '-')
  let label := if safe.isEmpty then "section" else String.ofList (safe.take 72)
  "reader-" ++ label ++ "-" ++ toString index

/-- `_block_id`. -/
def blockId (sourceId : String) (index : Nat) (kind value : String) : String :=
  "block-" ++ String.ofList ((Sha256.hexdigest
    (sourceId ++ "\x00" ++ toString index ++ "\x00" ++ kind ++ "\x00" ++ value)).toList.take 20)

/-! ## Runs -/

def runSkipTags : List String :=
  ["script", "style", "noscript", "template"]

mutual

/-- `visit` in `_runs`, with the formatting the ancestors give. -/
def visitRuns (tools : ParserTools) (format : StructuredRun) : Node → List StructuredRun
  | .string _ value =>
    let text := joinWords value
    if text = "" then [] else [{ format with text := text }]
  | .tag name _ children =>
    if name ∈ runSkipTags then []
    else
      let folded := tools.casefold name
      visitRunsAll tools { format with
        emphasis := format.emphasis || folded = "em" || folded = "i"
        strong := format.strong || folded = "strong" || folded = "b"
        superscript := format.superscript || folded = "sup"
        subscript := format.subscript || folded = "sub" } children

def visitRunsAll (tools : ParserTools) (format : StructuredRun) : List Node → List StructuredRun
  | [] => []
  | c :: cs => visitRuns tools format c ++ visitRunsAll tools format cs

end

/-- `_runs`. -/
def tagRuns (tools : ParserTools) (tag : Node) : List StructuredRun :=
  visitRuns tools { text := "" } tag

/-! ## Coverage -/

def coverageSkipTags : List String :=
  ["head", "script", "style", "noscript", "template"]

def coverageBlockTags : List String :=
  ["address", "article", "aside", "blockquote", "body", "caption", "dd", "div", "dl", "dt", "fieldset", "figcaption",
    "figure", "footer", "form", "h1", "h2", "h3", "h4", "h5", "h6", "header", "hr", "li", "main", "nav", "ol", "p",
    "pre", "section", "summary", "table", "tbody", "tfoot", "thead", "tr", "ul"]

/-- `\s*(?:display\s*:\s*none|visibility\s*:\s*hidden)\s*(?:;|$)` at the head of a declaration. -/
def hidesAt (cs : List Char) : Bool :=
  let skip := fun (r : List Char) => r.dropWhile isSpace
  let declares := fun (property value : String) =>
    match dropWord property.toList (skip cs) with
    | none => false
    | some r =>
      match skip r with
      | ':' :: r =>
        match dropWord value.toList (skip r) with
        | none => false
        | some r => (skip r).head?.all (· = ';')
      | _ => false
  declares "display" "none" || declares "visibility" "hidden"

/-- The search for such a declaration at the start of the style or behind a semicolon. -/
def hidesContent (style : List Char) : Bool :=
  (splitOn ';' style).zipIdx.any fun p => hidesAt (([';'].intercalate ((splitOn ';' style).drop p.2)))

/-- `_coverage_hidden`. -/
def coverageHidden (tools : ParserTools) (tag : Node) : Bool :=
  decide (tools.casefold tag.name ∈ coverageSkipTags) || (tag.attr? "hidden").isSome ||
    hidesContent ((tag.attr? "style").getD "").toList

mutual

/-- `visit` in `_visible_source_text`. -/
def visiblePieces (tools : ParserTools) : Node → List String
  | .string .comment _ => []
  | .string _ value => [value]
  | .tag name attrs children =>
    if coverageHidden tools (.tag name attrs children) then []
    else
      let folded := tools.casefold name
      if folded = "br" then ["\n"]
      else
        let edge := if folded ∈ coverageBlockTags then ["\n"] else []
        edge ++ visiblePiecesAll tools children ++ edge

def visiblePiecesAll (tools : ParserTools) : List Node → List String
  | [] => []
  | c :: cs => visiblePieces tools c ++ visiblePiecesAll tools cs

end

/-- `_visible_source_text`. -/
def visibleSourceText (tools : ParserTools) (root : Node) : String :=
  joinWords (join "" (visiblePieces tools root))

/-- `block.source_text or block.text`. -/
def StructuredBlock.readable (b : StructuredBlock) : String :=
  if b.sourceText = "" then b.text else b.sourceText

/-- The kinds of blocks that are backed by source text. -/
def BlockKind.sourceBacked : BlockKind → Bool
  | heading | paragraph | list | table => true
  | separator | unsupported => false

/-- `_emitted_source_text`. -/
def emittedSourceText (blocks : List StructuredBlock) : String :=
  let pieces := (blocks.filter fun b => b.kind.sourceBacked).flatMap fun b =>
    (if b.kind = .table then (b.caption.filter (· ≠ "")).toList else []) ++ (if b.readable = "" then [] else [b.readable])
  joinWords (join " " pieces)

def supportedTags : List String :=
  ["h1", "h2", "h3", "h4", "h5", "h6", "p", "blockquote", "pre", "li", "table", "hr"]

def unsupportedTags : List String :=
  ["img", "svg", "object", "embed", "iframe", "form", "canvas", "video", "audio"]

/-- `_has_visible_unsupported_content`. -/
def hasVisibleUnsupportedContent (tools : ParserTools) (parents : List Node) (root : Node) : Bool :=
  (root.findAll parents fun t => decide (t.name ∈ unsupportedTags)).any fun p => !p.1.any (coverageHidden tools)

/-- `_assess_coverage`. -/
def assessCoverage (tools : ParserTools) (parents : List Node) (root : Node) (blocks : List StructuredBlock) :
    CoverageStatus × String × String :=
  if hasVisibleUnsupportedContent tools parents root ∨ visibleSourceText tools root ≠ emittedSourceText blocks then
    (.partly, "Some visible source content is omitted from this structured view; search normalized text for complete local text.",
      "unsupported_visible_content")
  else (.complete, "All visible source text is represented in this structured view.", "verified_complete")

/-! ## Tables -/

theorem clampSpan_positive (n : Nat) : 1 ≤ min 128 (max 1 n) := by
  omega

theorem clampSpan_bounded (n : Nat) : min 128 (max 1 n) ≤ 128 :=
  Nat.min_le_left ..

/-- `min(128, max(1, value))`. -/
def clampSpan (value : Int) : Span :=
  ⟨min 128 (max 1 value.toNat), clampSpan_positive _, clampSpan_bounded _⟩

def oneSpan : Span :=
  clampSpan 1

/-- `_table_span`: a bounded span and whether the attribute is malformed. -/
def tableSpan (tools : ParserTools) (cell : Node) (key : String) : Span × Bool :=
  match cell.attr? key with
  | none => (oneSpan, false)
  | some raw =>
    match tools.int raw with
    | none => (oneSpan, true)
    | some value => (clampSpan value, decide (value < 1 ∨ 128 < value))

/-- `not row_text.strip()` of a cell. -/
def blankCell (c : StructuredCell) : Bool :=
  strip c.text = ""

def isHeaderRow (row : List StructuredCell) : Bool :=
  row.any (fun c => c.header) && row.all fun c => c.header || blankCell c

/-- `_table_block`. -/
def tableBlock (tools : ParserTools) (sourceId : String) (ordinal : Nat) (caption : Option String)
    (rows : List (List StructuredCell)) (malformed tooLarge : Bool) : StructuredBlock :=
  let sourceText := join " " (rows.flatten.map fun c => c.text)
  if malformed ∨ tooLarge ∨ rows.isEmpty then
    let dumped := spacedPrinter.text (.arr (rows.map fun row => .arr (row.map fun c => .str (tools.cellText c))))
    { blockId := blockId sourceId ordinal "table-unsupported" (String.ofList dumped)
      kind := .table
      caption := caption
      rows := if tooLarge then [] else rows
      sourceText := sourceText
      tableMode := some .unsupported
      tableAdapterVersion := some tableAdapterVersion
      tableReason := some (if malformed then
        "This table contains malformed spans or structure; normalized text remains available."
        else "This table is too large or empty for a bounded structured view; normalized text remains available.") }
  else
    let firstContent := rows.findIdx? fun row => row.any fun c => !blankCell c || c.header
    let headerRows := match firstContent with
      | none => []
      | some index => (rows.drop index).takeWhile isHeaderRow
    let explicit := !headerRows.isEmpty && headerRows.any fun row => row.any fun c => !blankCell c
    let spacer := firstContent = some 0 && rows.head?.any fun row => !row.isEmpty && row.all blankCell
    let kept := if explicit then headerRows else []
    { blockId := blockId sourceId ordinal "table" (String.ofList (spacedPrinter.text (jsonRows rows).sorted))
      kind := .table
      caption := caption
      columns := if explicit then (headerRows.getLast?.getD []).filterMap fun c => if blankCell c then none else some c.text
        else []
      rows := rows
      tableMode := some (if explicit then .semantic else .sourceLayout)
      tableAdapterVersion := some tableAdapterVersion
      tableReason := some (if explicit then
        "The source explicitly marks one or more header rows; spans and raw order are preserved."
        else if spacer then
        "No explicit semantic headers were present; the blank physical spacer row is preserved as source layout."
        else "No explicit semantic header cells were present; physical source order is preserved.")
      headerRows := kept
      headerRowCount := kept.length
      sourceText := sourceText }

/-- One cell of `_table_blocks`, with whether a span of it is malformed. -/
def tableCell (tools : ParserTools) (sourceId : String) (ordinal rowIndex cellIndex : Nat) (cell : Node) :
    StructuredCell × Bool :=
  let rowspan := tableSpan tools cell "rowspan"
  let colspan := tableSpan tools cell "colspan"
  let digest := String.ofList ((Sha256.hexdigest (sourceId ++ "\x00" ++ toString ordinal ++ "\x00" ++ toString rowIndex ++
    "\x00" ++ toString cellIndex)).toList.take 20)
  ({ text := tagText cell, rowspan := rowspan.1, colspan := colspan.1, header := cell.name = "th",
     cellId := some ("cell-" ++ digest), sourceRow := some rowIndex, sourceColumn := some cellIndex },
    rowspan.2 || colspan.2)

/-- The rows of a table with a cell in them. -/
def tableRows (tools : ParserTools) (sourceId : String) (ordinal : Nat) (parents : List Node) (tag : Node) :
    List (List (StructuredCell × Bool)) :=
  let rows := (tag.findAll parents fun t => t.name = "tr").zipIdx.map fun row =>
    (row.1.2.children.filter fun c => c.name = "th" || c.name = "td").zipIdx.map fun cell =>
      tableCell tools sourceId ordinal row.2 cell.2 cell.1
  rows.filter fun row => !row.isEmpty

/-- The loop of `_table_blocks` that starts a new chunk when the cells of a row would not fit: the
chunks so far, the rows of the open one and its number of cells. -/
def chunkRows : List (List StructuredCell) → Nat → List (List StructuredCell) → List (List (List StructuredCell))
  | open_, _, [] => if open_.isEmpty then [] else [open_]
  | open_, cells, row :: rest =>
    if !open_.isEmpty && decide (maxTableCells < cells + row.length) then open_ :: chunkRows [row] row.length rest
    else chunkRows (open_ ++ [row]) (cells + row.length) rest

/-- The blocks of the chunks of a table, a block without rows when there is no chunk. -/
def chunkBlocks (block : Nat → List (List StructuredCell) → StructuredBlock) (chunks : List (List (List StructuredCell))) :
    List StructuredBlock :=
  if chunks.isEmpty then [block 0 []] else chunks.zipIdx.map fun chunk => block chunk.2 chunk.1

/-- Several blocks of one table are numbered. -/
def numbered (blocks : List StructuredBlock) : List StructuredBlock :=
  if 1 < blocks.length then
    blocks.zipIdx.map fun b => { b.1 with continuationIndex := some (b.2 + 1), continuationCount := some blocks.length }
  else blocks

/-- `_table_blocks`. -/
def tableBlocks (tools : ParserTools) (sourceId : String) (ordinal : Nat) (parents : List Node) (tag : Node) :
    List StructuredBlock :=
  let caption := (tag.findAll parents fun t => t.name = "caption").head?.map fun p => tagText p.2
  let found := tableRows tools sourceId ordinal parents tag
  let malformed := found.any fun row => row.any Prod.snd
  let rows := found.map fun row => row.map Prod.fst
  if maxTableCells < rows.flatten.length then
    [tableBlock tools sourceId ordinal caption (rows.take maxTableCells) false true]
  else
    numbered (chunkBlocks (fun index rows => tableBlock tools sourceId (ordinal + index) caption rows malformed false)
      (chunkRows [] 0 rows))

/-! ## Blocks -/

/-- What the loop over the tags has built. -/
structure Parsed where
  blocks : List StructuredBlock
  outline : List OutlineItem
  totalCodepoints : Nat

def headingLevel (name : String) : Option Nat :=
  ["h1", "h2", "h3", "h4", "h5", "h6"].idxOf? name |>.map (· + 1)

/-- The tag lies in a table or list whose own block holds it, or in an outer list item. -/
def nested (parents : List Node) (tag : Node) : Bool :=
  (parents.any (fun p => p.name = "table" || p.name = "ul" || p.name = "ol") && tag.name ≠ "table" && tag.name ≠ "li") ||
    (tag.name = "li" && parents.any fun p => p.name = "li")

/-- The blocks one tag adds, with its item of the outline. -/
def tagBlocks (tools : ParserTools) (sourceId : String) (ordinal : Nat) (parents : List Node) (tag : Node) (value : String) :
    List StructuredBlock × List OutlineItem :=
  if tag.name ∈ unsupportedTags then
    ([{ blockId := blockId sourceId ordinal "unsupported" value, kind := .unsupported, text := value, sourceText := value }], [])
  else if tag.name = "hr" then ([{ blockId := blockId sourceId ordinal "separator" "", kind := .separator }], [])
  else match headingLevel tag.name with
    | some level =>
      let anchor := slug tools value ordinal
      let id := blockId sourceId ordinal "heading" value
      ([{ blockId := id, kind := .heading, text := value, runs := tagRuns tools tag, level := some level,
          anchor := some anchor, sourceText := value }],
        [⟨id, value, level, anchor⟩])
    | none =>
      if tag.name = "table" then (tableBlocks tools sourceId ordinal parents tag, [])
      else if tag.name = "li" then
        ([{ blockId := blockId sourceId ordinal "list" value, kind := .list, text := value, items := [value],
            runs := tagRuns tools tag, sourceText := value }], [])
      else
        ([{ blockId := blockId sourceId ordinal "paragraph" value, kind := .paragraph, text := value,
            runs := tagRuns tools tag, sourceText := value }], [])

/-- The text of a tag, a placeholder for what is not supported. -/
def tagValue (tag : Node) : String :=
  if tag.name ∈ unsupportedTags then "Unsupported document content is omitted from this text representation." else tagText tag

/-- The loop over the tags. -/
def parseTags (tools : ParserTools) (sourceId : String) : Parsed → List (List Node × Node) → Except ViewerError Parsed
  | parsed, [] => .ok parsed
  | parsed, (parents, tag) :: rest =>
    if nested parents tag then parseTags tools sourceId parsed rest
    else if tagValue tag = "" ∧ tag.name ≠ "hr" then parseTags tools sourceId parsed rest
    else if maxSourceCodepoints < parsed.totalCodepoints + (tagValue tag).toList.length then
      .error ⟨"structured_text_too_large", "The source text exceeds the structured reader limit.", 200⟩
    else
      let added := tagBlocks tools sourceId parsed.blocks.length parents tag (tagValue tag)
      parseTags tools sourceId
        ⟨parsed.blocks ++ added.1, parsed.outline ++ added.2, parsed.totalCodepoints + (tagValue tag).toList.length⟩ rest

/-- The limitations of a parsed source. -/
def limitationsOf (parsed : Parsed) (status : CoverageStatus) : List String :=
  let headings := if parsed.outline.isEmpty then ["No source headings were detected; outline navigation is unavailable."] else []
  let graphics := if parsed.blocks.any fun b => b.kind = .unsupported then
    ["Some graphics or unsupported objects are omitted from the text representation."] else []
  let coverage := if status ≠ .complete then
    ["Some visible source content is omitted from the structured view; normalized text remains available for complete local search."]
    else []
  headings ++ graphics ++ coverage

/-- The payload of `representation_revision`. -/
def representationPayload (parsed : Parsed) (status : CoverageStatus) (code : String) : Json :=
  .obj [("blocks", .arr (parsed.blocks.map StructuredBlock.json)), ("outline", .arr (parsed.outline.map OutlineItem.json)),
    ("coverage_status", .str status.text), ("coverage_reason_code", .str code)]

/-- `parse_structured_document`: the length of the source, and the tree the HTML parser makes of it
unless it raises. -/
def parseStructuredDocument (tools : ParserTools) (rawLength : Nat) (tree : Option Node)
    (documentId sourceDocumentId sourceSetRevision documentRevision : String) : Except ViewerError StructuredDocument := do
  Checked.require (rawLength ≤ tools.rawFileMaxBytes)
    ⟨"source_too_large", "The source exceeds the structured reader size limit.", 200⟩
  let soup ← Checked.orRaise tree ⟨"structured_parse_failed", "The source could not be parsed safely.", 200⟩
  let nodes := soup.findAll [] fun _ => true
  Checked.require (nodes.length ≤ maxSourceNodes)
    ⟨"structured_too_complex", "The source has too many HTML nodes for safe rendering.", 200⟩
  Checked.require ((nodes.all fun p => p.1.length ≤ maxNestingDepth) = true)
    ⟨"structured_too_deep", "The source nesting exceeds the structured reader limit.", 200⟩
  let body := (soup.findAll [] fun t => t.name = "body").head?.getD ([], soup)
  let parsed ← parseTags tools sourceDocumentId ⟨[], [], 0⟩
    (body.2.findAll body.1 fun t => decide (t.name ∈ supportedTags) || decide (t.name ∈ unsupportedTags))
  Checked.require (parsed.totalCodepoints ≤ maxSourceSetCodepoints)
    ⟨"structured_source_set_too_large", "The source set exceeds the structured reader limit.", 200⟩
  let coverage := assessCoverage tools body.1 body.2 parsed.blocks
  let payload := pythonPrinter.text (representationPayload parsed coverage.1 coverage.2.2).sorted
  pure
    { documentId := documentId
      sourceDocumentId := sourceDocumentId
      sourceSetRevision := sourceSetRevision
      documentRevision := documentRevision
      representationRevision := Sha256.hexdigest ("sec-structured-reader-v2\x00" ++ String.ofList payload)
      blocks := parsed.blocks
      outline := parsed.outline
      complete := true
      limitations := limitationsOf parsed coverage.1
      coverageStatus := coverage.1
      coverageReason := some coverage.2.1
      coverageReasonCode := some coverage.2.2 }

/-! ## What the blocks hold -/

/-- Every block that has a text has a source text. -/
def Sourced (b : StructuredBlock) : Prop :=
  b.sourceText = "" → b.text = ""

theorem tableBlock_sourced (tools : ParserTools) (sourceId : String) (ordinal : Nat) (caption : Option String)
    (rows : List (List StructuredCell)) (malformed tooLarge : Bool) :
    (tableBlock tools sourceId ordinal caption rows malformed tooLarge).text = "" := by
  unfold tableBlock
  dsimp only
  split <;> rfl

theorem numbered_text {blocks : List StructuredBlock} (h : ∀ b ∈ blocks, b.text = "") : ∀ b ∈ numbered blocks, b.text = "" := by
  intro b mem
  rw [numbered] at mem
  split at mem
  · obtain ⟨p, at_, rfl⟩ := List.mem_map.1 mem
    exact h p.1 (List.mem_of_getElem? (List.mem_zipIdx_iff_getElem?.1 at_))
  · exact h b mem

theorem tableBlocks_sourced {tools : ParserTools} {sourceId : String} {ordinal : Nat} {parents : List Node} {tag : Node}
    {b : StructuredBlock} (h : b ∈ tableBlocks tools sourceId ordinal parents tag) : b.text = "" := by
  unfold tableBlocks at h
  dsimp only at h
  split at h
  · rw [List.mem_singleton.1 h]
    exact tableBlock_sourced ..
  · refine numbered_text ?_ b h
    intro b' mem
    rw [chunkBlocks] at mem
    split at mem
    · rw [List.mem_singleton.1 mem]
      exact tableBlock_sourced ..
    · obtain ⟨chunk, -, rfl⟩ := List.mem_map.1 mem
      exact tableBlock_sourced ..

theorem tagBlocks_sourced {tools : ParserTools} {sourceId : String} {ordinal : Nat} {parents : List Node} {tag : Node}
    {value : String} {b : StructuredBlock} (h : b ∈ (tagBlocks tools sourceId ordinal parents tag value).1) : Sourced b := by
  unfold tagBlocks at h
  split at h
  · rw [List.mem_singleton.1 h]
    exact fun empty => empty
  · split at h
    · rw [List.mem_singleton.1 h]
      exact fun _ => rfl
    · split at h
      · rw [List.mem_singleton.1 h]
        exact fun empty => empty
      · split at h
        · exact fun _ => tableBlocks_sourced h
        · split at h
          · rw [List.mem_singleton.1 h]
            exact fun empty => empty
          · rw [List.mem_singleton.1 h]
            exact fun empty => empty

theorem parseTags_sourced {tools : ParserTools} {sourceId : String} {tags : List (List Node × Node)} {parsed result : Parsed}
    (before : ∀ b ∈ parsed.blocks, Sourced b) (h : parseTags tools sourceId parsed tags = .ok result) :
    ∀ b ∈ result.blocks, Sourced b := by
  induction tags generalizing parsed with
  | nil =>
    cases h
    exact before
  | cons t tags ih =>
    obtain ⟨parents, tag⟩ := t
    rw [parseTags] at h
    split at h
    · exact ih before h
    · split at h
      · exact ih before h
      · split at h
        · cases h
        · refine ih ?_ h
          intro b mem
          rcases List.mem_append.1 mem with mem | mem
          · exact before b mem
          · exact tagBlocks_sourced mem

/-- **Every block of a parsed document** that has a text has a source text. -/
theorem parse_sourced {tools : ParserTools} {rawLength : Nat} {tree : Option Node}
    {documentId sourceDocumentId sourceSetRevision documentRevision : String} {d : StructuredDocument}
    (h : parseStructuredDocument tools rawLength tree documentId sourceDocumentId sourceSetRevision documentRevision = .ok d) :
    ∀ b ∈ d.blocks, Sourced b := by
  simp only [parseStructuredDocument, Checked.bind_eq_ok, Checked.require_eq_ok, Checked.orRaise_eq_ok, Checked.pure_eq_ok] at h
  obtain ⟨_, -, soup, -, _, -, _, -, parsed, tags, _, -, rfl⟩ := h
  exact parseTags_sourced (fun b none_ => absurd none_ List.not_mem_nil) tags

end Reader
