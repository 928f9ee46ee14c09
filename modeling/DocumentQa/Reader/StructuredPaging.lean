import DocumentQa.Reader.StructuredParser

/-!
# A paragraph no page can carry

The parser accepts a paragraph of a few hundred thousand characters; its block repeats the
text three times, so the page it stands on is always refused and following the cursors
ends there.
-/

namespace Reader

open Python Spacing JsonText

/-- `<p>…</p>` in `<html><body>…</body></html>`, as the tree the parser makes of it. -/
def paragraph (value : String) : Node :=
  .tag "p" [] [.string .text value]

def paragraphBody (value : String) : Node :=
  .tag "body" [] [paragraph value]

def paragraphRoot (value : String) : Node :=
  .tag "html" [] [paragraphBody value]

def paragraphTree (value : String) : Node :=
  .tag "[document]" [] [paragraphRoot value]

theorem strip_solid {value : String} (solid : ∀ c ∈ value.toList, isSpace c = false) : strip value = value := by
  have keeps : ∀ cs : List Char, (∀ c ∈ cs, isSpace c = false) → cs.dropWhile isSpace = cs := by
    intro cs all
    cases cs with
    | nil => rfl
    | cons c cs => exact List.dropWhile_cons_of_neg (by simp [all c (List.mem_cons_self ..)])
  rw [strip, stripBy, keeps _ solid, keeps _ fun c mem => solid c (List.mem_reverse.1 mem), List.reverse_reverse,
    String.ofList_toList]

theorem joinWords_solid {value : String} (solid : ∀ c ∈ value.toList, isSpace c = false) (some_ : value ≠ "") :
    joinWords value = value := by
  have filled : value.toList ≠ [] := fun e => some_ (String.toList_inj.1 e)
  have one : words isSpace value.toList = [value.toList] := by
    rw [words, List.splitOnP_eq_singleton solid, List.filter_cons, if_pos (by simpa using filled)]
    rfl
  rw [joinWords, one, List.intercalate_singleton, String.ofList_toList]

/-- A text without blanks is the text of a paragraph of it. -/
theorem tagText_paragraph {value : String} (solid : ∀ c ∈ value.toList, isSpace c = false) (some_ : value ≠ "") :
    tagText (paragraph value) = value := by
  have single : join " " [value] = value := by
    rw [join, List.map_singleton, List.intercalate_singleton, String.ofList_toList]
  have strings : (Node.walk [] (paragraph value)).filterMap (fun p => strippedText p.2) = [value] := by
    simp only [paragraph, Node.walk, Node.walkAll, List.append_nil, List.filterMap_cons, List.filterMap_nil, strippedText,
      strip_solid solid]
  rw [tagText, strings, List.filter_cons, if_pos (by simpa using some_), List.filter_nil, single,
    joinWords_solid solid some_]

/-- The block of a paragraph repeats its text. -/
def paragraphBlock (tools : ParserTools) (source value : String) : StructuredBlock where
  blockId := blockId source 0 "paragraph" value
  kind := .paragraph
  text := value
  runs := tagRuns tools (paragraph value)
  sourceText := value

theorem parseTags_paragraph (tools : ParserTools) {value : String} (solid : ∀ c ∈ value.toList, isSpace c = false)
    (some_ : value ≠ "") (short : value.toList.length ≤ maxSourceCodepoints) (source : String) :
    parseTags tools source ⟨[], [], 0⟩ [([paragraphBody value, paragraphRoot value, paragraphTree value], paragraph value)] =
      .ok ⟨[paragraphBlock tools source value], [], value.toList.length⟩ := by
  have outer : nested [paragraphBody value, paragraphRoot value, paragraphTree value] (paragraph value) = false := by
    simp [nested, paragraph, paragraphBody, paragraphRoot, paragraphTree, Node.name]
  have supported : (paragraph value).name ∉ unsupportedTags := by
    simp [paragraph, unsupportedTags, Node.name]
  have plain : headingLevel (paragraph value).name = none := by
    simp [headingLevel, paragraph, Node.name, List.idxOf?, List.findIdx?, List.findIdx?.go]
  have added : tagBlocks tools source 0 [paragraphBody value, paragraphRoot value, paragraphTree value] (paragraph value) value =
      ([paragraphBlock tools source value], []) := by
    rw [tagBlocks, if_neg supported, if_neg (by simp [paragraph, Node.name]), plain]
    dsimp only
    rw [if_neg (by simp [paragraph, Node.name]), if_neg (by simp [paragraph, Node.name])]
    rfl
  have text : tagValue (paragraph value) = value := by
    rw [tagValue, if_neg supported, tagText_paragraph solid some_]
  rw [parseTags, outer, if_neg Bool.false_ne_true, text]
  simp only [some_, false_and, if_false, Nat.zero_add, Nat.not_lt.2 short, List.length_nil,
    added, parseTags, List.nil_append]

theorem parse_paragraph (tools : ParserTools) {value : String} (solid : ∀ c ∈ value.toList, isSpace c = false)
    (some_ : value ≠ "") (short : value.toList.length ≤ maxSourceCodepoints) {rawLength : Nat}
    (fits : rawLength ≤ tools.rawFileMaxBytes) (document source set_ revision : String) :
    ∃ d, parseStructuredDocument tools rawLength (some (paragraphTree value)) document source set_ revision = .ok d ∧
      d.blocks = [paragraphBlock tools source value] := by
  have tags : Node.findAll [] (fun _ => true) (paragraphTree value) =
      [([paragraphTree value], paragraphRoot value), ([paragraphRoot value, paragraphTree value], paragraphBody value),
        ([paragraphBody value, paragraphRoot value, paragraphTree value], paragraph value)] := by
    simp [Node.findAll, paragraphTree, paragraphRoot, paragraphBody, paragraph, Node.walkAll, Node.walk, Node.children, Node.isTag]
  have body : (Node.findAll [] (fun t => decide (t.name = "body")) (paragraphTree value)).head? =
      some ([paragraphRoot value, paragraphTree value], paragraphBody value) := by
    simp [Node.findAll, paragraphTree, paragraphRoot, paragraphBody, paragraph, Node.walkAll, Node.walk, Node.children,
      Node.isTag, Node.name]
  have blocks : Node.findAll [paragraphRoot value, paragraphTree value]
        (fun t => decide (t.name ∈ supportedTags) || decide (t.name ∈ unsupportedTags)) (paragraphBody value) =
      [([paragraphBody value, paragraphRoot value, paragraphTree value], paragraph value)] := by
    simp [Node.findAll, paragraphTree, paragraphRoot, paragraphBody, paragraph, Node.walkAll, Node.walk, Node.children,
      Node.isTag, Node.name, supportedTags, unsupportedTags]
  have small : value.toList.length ≤ maxSourceSetCodepoints :=
    short.trans (by decide)
  simp only [parseStructuredDocument, Checked.bind_eq_ok, Checked.require_eq_ok, Checked.orRaise_eq_ok, Checked.pure_eq_ok]
  refine ⟨_, ⟨(), fits, paragraphTree value, rfl, (), ?_, (), ?_, ⟨[paragraphBlock tools source value], [], value.toList.length⟩,
    ?_, (), small, rfl⟩, rfl⟩
  · rw [tags, maxSourceNodes]
    simp
  · rw [tags]
    simp [maxNestingDepth]
  · rw [body, Option.getD_some, blocks]
    exact parseTags_paragraph tools solid some_ short source

/-- A block is written with its text and its source text. -/
theorem width_block (b : StructuredBlock) : b.text.toList.length + b.sourceText.toList.length ≤ width b.json := by
  have fields := width_obj_ge [("block_id", .str b.blockId), ("kind", .str b.kind.text), ("text", .str b.text),
    ("runs", .arr (b.runs.map StructuredRun.json)), ("level", jsonOption jsonNat b.level),
    ("anchor", jsonOption .str b.anchor), ("items", .arr (b.items.map .str)), ("caption", jsonOption .str b.caption),
    ("units", jsonOption .str b.units), ("columns", .arr (b.columns.map .str)), ("rows", jsonRows b.rows),
    ("table_mode", jsonOption (fun m => .str m.text) b.tableMode),
    ("table_adapter_version", jsonOption .str b.tableAdapterVersion), ("table_reason", jsonOption .str b.tableReason),
    ("header_rows", jsonRows b.headerRows), ("header_row_count", jsonNat b.headerRowCount),
    ("continuation_index", jsonOption jsonNat b.continuationIndex),
    ("continuation_count", jsonOption jsonNat b.continuationCount), ("source_text", .str b.sourceText)]
  rw [← StructuredBlock.json] at fields
  have text := width_str_ge b.text
  have sourceText := width_str_ge b.sourceText
  simp only [List.map_cons, List.sum_cons] at fields
  omega

/-- A response is written with every block in it. -/
theorem responseSize_block {r : ContentResponse} {b : StructuredBlock} (mem : b ∈ r.blocks) : width b.json ≤ responseSize r := by
  have array := width_arr_ge (r.blocks.map StructuredBlock.json)
  have fields := width_obj_ge [("document_id", .str r.documentId), ("source_document_id", .str r.sourceDocumentId),
    ("source_set_revision", .str r.sourceSetRevision), ("document_revision", .str r.documentRevision),
    ("blocks", .arr (r.blocks.map StructuredBlock.json)), ("previous_cursor", jsonOption jsonNat r.previousCursor),
    ("next_cursor", jsonOption jsonNat r.nextCursor), ("complete", .bool r.complete),
    ("limitations", .arr (r.limitations.map .str)), ("coverage_status", .str r.coverageStatus.text),
    ("coverage_reason", jsonOption .str r.coverageReason), ("coverage_reason_code", jsonOption .str r.coverageReasonCode)]
  have one : ∀ ns : List Nat, ∀ n ∈ ns, n ≤ ns.sum := by
    intro ns
    induction ns with
    | nil => exact fun n none_ => absurd none_ List.not_mem_nil
    | cons m ns ih =>
      intro n at_
      rw [List.sum_cons]
      rcases List.mem_cons.1 at_ with rfl | at_
      · exact Nat.le_add_right ..
      · exact (ih n at_).trans (Nat.le_add_left ..)
  have block := one _ _ (List.mem_map_of_mem (f := width) (List.mem_map_of_mem (f := StructuredBlock.json) mem))
  rw [← ContentResponse.json, ← responseSize] at fields
  simp only [List.map_cons, List.sum_cons] at fields
  omega

/-- A block that is longer than half the response limit is on no page. -/
theorem long_block_refused (d : StructuredDocument) {b : StructuredBlock} (limit : PageLimit) (only : d.blocks = [b])
    (long : maxResponseBytes < b.text.toList.length + b.sourceText.toList.length) :
    ¬ Paging.Exhausts (contentPage d limit) d.blocks := by
  rw [Paging.exhausts_iff (pack_fronts limit) (content_serves d limit), only]
  intro all
  have first := all _ (List.mem_cons_self ..)
  obtain ⟨c, rest, packed⟩ := List.exists_cons_of_ne_nil ((pack_fronts limit).advances (List.cons_ne_nil b []))
  have head : c = b := by
    obtain ⟨t, e⟩ := (pack_fronts limit).takes [b]
    rw [packed] at e
    exact (List.cons.inj e).1
  have size := responseSize_block (r := contentResponse d limit 0 (pack limit [b])) (b := b) (by
    show b ∈ pack limit [b]
    rw [packed, head]
    exact List.mem_cons_self ..)
  have block := width_block b
  have fits : responseSize (contentResponse d limit 0 (pack limit [b])) ≤ maxResponseBytes := first
  omega

/-- A paragraph of so many letters. -/
def letters (n : Nat) : String :=
  String.ofList (List.replicate n 'a')

theorem letters_length (n : Nat) : (letters n).toList.length = n := by
  rw [letters, String.toList_ofList, List.length_replicate]

theorem letters_solid (n : Nat) : ∀ c ∈ (letters n).toList, isSpace c = false := by
  intro c mem
  rw [letters, String.toList_ofList] at mem
  rw [(List.mem_replicate.1 mem).2]
  decide

def plainTools : ParserTools where
  casefold value := String.ofList (casefold value.toList)
  isalnum := isAlnum
  int _ := none
  cellText c := c.text
  rawFileMaxBytes := 20 * 1024 * 1024

theorem paragraph_unreadable {n : Nat} (long : maxResponseBytes < 2 * n) (short : n ≤ maxSourceCodepoints)
    (document source set_ revision : String) :
    ∃ d, parseStructuredDocument plainTools (n + 33) (some (paragraphTree (letters n))) document source set_ revision = .ok d ∧
      d.blocks.length = 1 ∧ ∀ limit, ¬ Paging.Exhausts (contentPage d limit) d.blocks := by
  have size := letters_length n
  have some_ : letters n ≠ "" := by
    intro empty
    rw [empty] at size
    have : n = 0 := size.symm
    omega
  have raw : n + 33 ≤ plainTools.rawFileMaxBytes := by
    have limit : maxSourceCodepoints + 33 ≤ plainTools.rawFileMaxBytes := by decide
    omega
  obtain ⟨d, parsed, blocks⟩ := parse_paragraph plainTools (letters_solid n) some_ (by rwa [size]) raw document source set_ revision
  refine ⟨d, parsed, by rw [blocks]; rfl, fun limit => long_block_refused d limit blocks ?_⟩
  show maxResponseBytes < (letters n).toList.length + (letters n).toList.length
  omega

/-- The parser accepts a source of one paragraph of 300000 letters, and under no page limit does a
reader get its only block. -/
theorem content_loses_a_long_paragraph :
    ∃ d, parseStructuredDocument plainTools (300000 + 33) (some (paragraphTree (letters 300000))) "IBM:0000051143-26-000010"
        "source-1" "set-1" "revision-1" = .ok d ∧ d.blocks.length = 1 ∧
      ∀ limit, ¬ Paging.Exhausts (contentPage d limit) d.blocks :=
  paragraph_unreadable (by decide) (by decide) _ _ _ _

end Reader
