import DocumentQa.Ingestion.TableMarkdown
import DocumentQa.Reader.ContentPresentation
import DocumentQa.Retrieval.Lookup

/-!
# Markdown rows read back

The structured lookup and the document reader each read the Markdown text of a financial
table, with rules of their own: `_iter_markdown_rows` skips the header by its first word and
every line with three dashes, `parse_indexed_markdown_table` knows escapes and refuses what
is no table. The rows they read are the rows written exactly when every label and value
stands in its cell as it is and no label is the word of the header.
-/

namespace Retrieval

open Python Spacing Ingestion Reader

/-- `[cell.strip() for cell in stripped.strip("|").split("|")]`. -/
def markdownCells (stripped : Cell) : List Cell :=
  (splitOn '|' (stripBy (· == '|') stripped)).map (stripBy isSpace)

/-- `cells[0].lower() != "metric"`, negated. -/
def isHeaderLabel (label : Cell) : Bool :=
  lower (String.ofList label) == ['m', 'e', 't', 'r', 'i', 'c']

/-- The body of the loop of `_iter_markdown_rows`. -/
def markdownRow (line : Cell) : Option (Cell × Cell) :=
  let stripped := stripBy isSpace line
  if stripped.head? ≠ some '|' ∨ isInfix ['-', '-', '-'] stripped = true then none
  else
    match markdownCells stripped with
    | label :: _ :: _ => if isHeaderLabel label then none else some (label, stripped)
    | _ => none

/-- `_iter_markdown_rows`. -/
def iterMarkdownRows (text : String) : List (String × String) :=
  ((splitlines text.toList).filterMap markdownRow).map fun row => (String.ofList row.1, String.ofList row.2)

theorem stripBy_within (p : Char → Bool) (cs : List Char) : stripBy p cs <:+: cs := by
  obtain ⟨trail, whole, -⟩ := stripBy_parts p cs
  exact ⟨cs.takeWhile p, trail, by rw [List.append_assoc, ← whole]⟩

/-- A line between bars has no blanks at its ends. -/
theorem stripBy_barred (s : Cell) : stripBy isSpace ('|' :: (s ++ ['|'])) = '|' :: (s ++ ['|']) := by
  have whole := @stripBy_between isSpace [] ('|' :: (s ++ ['|'])) [] (by simp) (by simp) rfl
    (closes_iff.2 ⟨'|' :: s, '|', rfl, rfl⟩)
  rwa [List.nil_append, List.append_nil] at whole

theorem stripBy_solid {c : Char} (solid : isSpace c = false) (cs : Cell) : (stripBy isSpace (c :: cs)).head? = some c := by
  obtain ⟨trail, -, back, -, -, ends⟩ := stripBy_parts isSpace (c :: cs)
  rw [List.dropWhile_cons_of_neg (by simp [solid])] at back
  rcases ends with ⟨open_, -⟩ | ⟨none_, rfl⟩
  · obtain ⟨d, s, e, -⟩ := opens_iff.1 open_
    rw [e, List.cons_append, List.cons.injEq] at back
    rw [e, back.1]
    rfl
  · rw [none_] at back
    cases back

/-! ## A row -/

section Row

variable {label : Cell} {values : List Cell}

/-- The text of a row between its outer bars. -/
def inner (label : Cell) (values : List Cell) : Cell :=
  ['|'].intercalate ((label :: values).map padded)

theorem inner_parts (label : Cell) (values : List Cell) :
    ∃ tail front, inner label values = ' ' :: tail ∧ inner label values = front ++ [' '] := by
  rw [inner]
  induction values generalizing label with
  | nil =>
    rw [List.map_singleton, List.intercalate_singleton]
    exact ⟨_, ' ' :: label, rfl, rfl⟩
  | cons value values ih =>
    obtain ⟨tail, front, -, last⟩ := ih value
    rw [List.map_cons, List.map_cons, List.intercalate_cons_cons, ← List.map_cons, last]
    exact ⟨_, _, rfl, (List.append_assoc _ _ _).symm⟩

theorem padded_unbarred {text : Cell} (h : '|' ∉ text) : '|' ∉ padded text := by
  simp [padded, h]

/-- Both readers split a row at its bars. -/
theorem splitOn_inner (unbarred : ∀ text ∈ label :: values, '|' ∉ text) :
    splitOn '|' (inner label values) = (label :: values).map padded := by
  apply splitOn_intercalate
  · simp
  · intro part mem
    obtain ⟨text, stored, rfl⟩ := List.mem_map.1 mem
    exact padded_unbarred (unbarred text stored)

theorem map_strip_padded {cells : List Cell} (plain : ∀ text ∈ cells, PlainCell text) :
    (cells.map padded).map (stripBy isSpace) = cells := by
  rw [List.map_map]
  conv_rhs => rw [← List.map_id cells]
  apply List.map_congr_left
  intro text mem
  exact stripBy_padded (plain text mem).stripped

theorem stripBy_rowLine (some_ : values ≠ []) : stripBy isSpace (rowLine label values) = rowLine label values := by
  rw [rowLine_eq label some_]
  exact stripBy_barred _

theorem markdownCells_rowLine (some_ : values ≠ []) (plain : ∀ text ∈ label :: values, PlainCell text) :
    markdownCells (rowLine label values) = label :: values := by
  obtain ⟨tail, front, first, last⟩ := inner_parts label values
  have bare : stripBy (· == '|') (rowLine label values) = inner label values := by
    rw [rowLine_eq label some_]
    show stripBy _ (['|'] ++ (inner label values ++ ['|'])) = _
    apply stripBy_between
    · simp
    · simp
    · exact opens_iff.2 ⟨' ', tail, first, rfl⟩
    · exact closes_iff.2 ⟨front, ' ', last, rfl⟩
  rw [markdownCells, bare, splitOn_inner fun text mem => (plain text mem).unbarred, map_strip_padded plain]

/-- A row with plain cells is read back, unless its label is the header's. -/
theorem markdownRow_rowLine (some_ : values ≠ []) (plain : ∀ text ∈ label :: values, PlainCell text) :
    markdownRow (rowLine label values) = if isHeaderLabel label then none else some (label, rowLine label values) := by
  have undashed : isInfix ['-', '-', '-'] (rowLine label values) = false := by
    rw [Bool.eq_false_iff, Ne, isInfix_iff, rowLine_eq label some_]
    exact undashed_row fun text mem => (plain text mem).undashed
  obtain ⟨value, rest, rfl⟩ := List.exists_cons_of_ne_nil some_
  rw [markdownRow, stripBy_rowLine some_]
  rw [if_neg, markdownCells_rowLine some_ plain]
  rw [undashed]
  simp [rowLine]

/-- The backslash the loop of `_split_row` holds back. -/
def heldBack (escaped : Bool) : Cell :=
  if escaped then ['\\'] else []

/-- A padded cell ends in a blank, so that no backslash stands before its bar. -/
theorem splitCells_bar {text : Cell} (h : '|' ∉ text) (current : Cell) (escaped : Bool) (rest : Cell) :
    splitCells current escaped (text ++ ' ' :: '|' :: rest) =
      stripBy isSpace (current ++ (heldBack escaped ++ (text ++ [' ']))) :: splitCells [] false rest := by
  induction text generalizing current escaped with
  | nil => cases escaped <;> simp [splitCells, heldBack]
  | cons c text ih =>
    rw [List.mem_cons, not_or] at h
    cases escaped with
    | true =>
      rw [List.cons_append, splitCells, if_neg (Ne.symm h.1), ih h.2]
      simp [heldBack]
    | false =>
      rw [List.cons_append, splitCells]
      by_cases backslash : c = '\\'
      · rw [if_pos backslash, ih h.2, backslash]
        rfl
      · rw [if_neg backslash, if_neg (Ne.symm h.1), ih h.2]
        simp [heldBack]

theorem splitCells_end {text : Cell} (h : '|' ∉ text) (current : Cell) (escaped : Bool) :
    splitCells current escaped (text ++ [' ']) = [stripBy isSpace (current ++ (heldBack escaped ++ (text ++ [' '])))] := by
  induction text generalizing current escaped with
  | nil => cases escaped <;> simp [splitCells, heldBack]
  | cons c text ih =>
    rw [List.mem_cons, not_or] at h
    cases escaped with
    | true =>
      rw [List.cons_append, splitCells, if_neg (Ne.symm h.1), ih h.2]
      simp [heldBack]
    | false =>
      rw [List.cons_append, splitCells]
      by_cases backslash : c = '\\'
      · rw [if_pos backslash, ih h.2, backslash]
        rfl
      · rw [if_neg backslash, if_neg (Ne.symm h.1), ih h.2]
        simp [heldBack]

theorem splitCells_inner (unbarred : ∀ text ∈ label :: values, '|' ∉ text) :
    splitCells [] false (inner label values) = ((label :: values).map padded).map (stripBy isSpace) := by
  have blank : ∀ text, '|' ∉ text → '|' ∉ ' ' :: text := by
    intro text absent
    simpa using absent
  induction values generalizing label with
  | nil =>
    rw [inner, List.map_singleton, List.intercalate_singleton]
    exact splitCells_end (blank label (unbarred label List.mem_cons_self)) [] false
  | cons value values ih =>
    have head := splitCells_bar (blank label (unbarred label List.mem_cons_self)) [] false (inner value values)
    rw [ih fun text mem => unbarred text (List.mem_cons_of_mem _ mem)] at head
    rw [inner, List.map_cons, List.map_cons, List.intercalate_cons_cons, ← List.map_cons, ← inner]
    rw [show padded label ++ ['|'] ++ inner value values = ' ' :: label ++ ' ' :: '|' :: inner value values by simp [padded]]
    exact head

/-- The row of the document reader. -/
theorem splitRow_rowLine (some_ : values ≠ []) (plain : ∀ text ∈ label :: values, PlainCell text) :
    splitRow (rowLine label values) = some ((label :: values).map String.ofList) := by
  have cells : splitCells [] false (inner label values) = label :: values := by
    rw [splitCells_inner fun text mem => (plain text mem).unbarred, map_strip_padded plain]
  rw [splitRow, stripBy_rowLine some_, rowLine_eq label some_, ← inner]
  rw [if_pos ⟨rfl, by rw [← List.cons_append, List.getLast?_concat]⟩, List.drop_one, List.tail_cons, List.dropLast_concat,
    cells]

end Row

/-- What a row read from a line is. -/
theorem markdownRow_plain {line : Cell} (unbroken : ∀ c ∈ line, isLineBreak c = false) {row : Cell × Cell}
    (h : markdownRow line = some row) :
    isHeaderLabel row.1 = false ∧ ∀ text ∈ row.1 :: markdownCells row.2, PlainCell text := by
  rw [markdownRow] at h
  split at h
  · cases h
  next clean =>
  rw [not_or] at clean
  have cells : ∀ text ∈ markdownCells (stripBy isSpace line), PlainCell text := by
    intro text mem
    obtain ⟨part, cut, rfl⟩ := List.mem_map.1 mem
    obtain ⟨unbarred, inside⟩ := mem_splitOn cut
    have within : stripBy isSpace part <:+: stripBy isSpace line :=
      (stripBy_within isSpace part).trans (inside.trans (stripBy_within _ _))
    exact {
      unbroken := fun c mem => unbroken c (stripBy_subset (within.subset mem))
      unbarred := fun mem => unbarred (stripBy_subset mem)
      stripped := stripBy_idem isSpace part
      undashed := fun dashed => clean.2 (isInfix_iff.2 (dashed.trans within)) }
  split at h
  · next label _ _ e =>
    split at h
    · cases h
    · next word =>
      cases h
      refine ⟨Bool.eq_false_iff.2 word, List.forall_mem_cons.2 ⟨cells label (by rw [e]; exact List.mem_cons_self), cells⟩⟩
  · cases h

/-! ## A table -/

/-- Every label and value stands in its cell as it is, and no label is the word of the header. -/
def Readable (t : ExtractedTable) : Prop :=
  t.Plain ∧ ∀ row ∈ t.rows, isHeaderLabel row.label = false

/-- The lines above the header start with no bar. -/
theorem headLines_head {tableName : Cell} {tableUnit : Option Cell} {line : Cell} (mem : line ∈ headLines tableName tableUnit) :
    ∃ c cs, line = c :: cs ∧ isSpace c = false ∧ c ≠ '|' := by
  unfold headLines at mem
  rw [List.mem_append] at mem
  rcases mem with mem | mem
  · split at mem
    · cases mem
    · rw [List.mem_singleton.1 mem]
      exact ⟨'#', _, rfl, rfl, by decide⟩
  · cases tableUnit with
    | none => cases mem
    | some unit_ =>
      cases unit_ with
      | nil => cases mem
      | cons c unit_ =>
        rw [List.mem_singleton.1 mem]
        exact ⟨'U', _, rfl, rfl, by decide⟩

theorem markdownRow_other {c : Char} (solid : isSpace c = false) (other : c ≠ '|') (cs : Cell) : markdownRow (c :: cs) = none := by
  rw [markdownRow, if_pos]
  left
  rw [stripBy_solid solid]
  simpa using other

theorem separatorLine_succ (columns : Nat) :
    ∃ s, separatorLine (columns + 1) = '|' :: (s ++ ['|']) ∧ ['-', '-', '-'] <:+: separatorLine (columns + 1) := by
  refine ⟨['-', '-', '-'] ++ (List.replicate columns ['|', '-', '-', '-']).flatten, ?_, ?_⟩
  · rw [separatorLine, List.replicate_succ, List.flatten_cons]
    rfl
  · rw [separatorLine, List.replicate_succ, List.flatten_cons]
    exact ⟨['|'], (List.replicate columns ['|', '-', '-', '-']).flatten ++ ['|'], rfl⟩

theorem markdownRow_separator (columns : Nat) : markdownRow (separatorLine (columns + 1)) = none := by
  obtain ⟨s, barred, dashed⟩ := separatorLine_succ columns
  have kept : stripBy isSpace (separatorLine (columns + 1)) = separatorLine (columns + 1) := by
    rw [barred, stripBy_barred]
  rw [markdownRow, kept, if_pos (.inr (isInfix_iff.2 dashed))]

theorem markdownRow_header {t : ExtractedTable} (some_ : t.rows ≠ []) : markdownRow (rowLine metric t.years) = none := by
  rw [markdownRow_rowLine (t.years_ne_nil some_) (List.forall_mem_cons.2 ⟨.metric, t.plain_years⟩), if_pos]
  decide

theorem ExtractedTable.tableLines_eq (t : ExtractedTable) :
    tableLines t.rows = rowLine metric t.years :: separatorLine (t.years.length + 1) ::
      t.rows.map fun row => rowLine row.label (rowValues t.years row) :=
  rfl

/-- The rows of the structured lookup. -/
theorem markdownRows_markdown {t : ExtractedTable} (readable : Readable t) :
    (splitlines t.markdown).filterMap markdownRow =
      t.rows.map fun row => (row.label, rowLine row.label (rowValues t.years row)) := by
  by_cases some_ : t.rows = []
  · rw [ExtractedTable.markdown, rowsToMarkdown, some_]
    rfl
  have heads : (headLines t.tableName t.tableUnit).filterMap markdownRow = [] := by
    apply List.filterMap_eq_nil_iff.2
    intro line mem
    obtain ⟨c, cs, rfl, solid, other⟩ := headLines_head mem
    exact markdownRow_other solid other cs
  have columns := t.years_ne_nil some_
  rw [ExtractedTable.splitlines_markdown readable.1 some_, List.filterMap_append, heads, List.nil_append,
    ExtractedTable.tableLines_eq, List.filterMap_cons_none (markdownRow_header some_),
    List.filterMap_cons_none (markdownRow_separator _), List.filterMap_map]
  have each : ∀ row ∈ t.rows, (markdownRow ∘ fun row => rowLine row.label (rowValues t.years row)) row =
      some (row.label, rowLine row.label (rowValues t.years row)) := by
    intro row mem
    have plain : ∀ text ∈ row.label :: rowValues t.years row, PlainCell text :=
      List.forall_mem_cons.2 ⟨(readable.1 row mem).1, readable.1.values mem⟩
    rw [Function.comp_apply, markdownRow_rowLine (ExtractedTable.rowValues_ne_nil some_ row) plain, readable.2 row mem]
    rfl
  rw [List.filterMap_congr each, ← List.filterMap_eq_map]
  rfl

/-! ## The document reader -/

theorem splitRow_head {line : Cell} {cells : List String} (h : splitRow line = some cells) :
    (stripBy isSpace line).head? = some '|' := by
  rw [splitRow] at h
  split at h
  · next ends => exact ends.1
  · cases h

/-- The lines a label takes away stand behind it. -/
theorem labelled_above {label : String} {lines rest : List Cell} {value : Option String}
    (h : labelled label lines = some (value, rest)) :
    ∃ above, lines = above ++ rest ∧ ∀ line ∈ above, label.toList <+: line := by
  cases lines with
  | nil =>
    cases h
    exact ⟨[], rfl, by simp⟩
  | cons line lines =>
    rw [labelled] at h
    split at h
    · next found =>
      dsimp only at h
      split at h
      · cases h
      · cases h
        exact ⟨[line], rfl, by simpa [List.isPrefixOf_iff_prefix] using found⟩
    · cases h
      exact ⟨[], rfl, by simp⟩

/-- The stripped lines that are not empty. -/
def contentLines (text : String) : List Cell :=
  ((splitlines text.toList).map (stripBy isSpace)).filter fun line => !line.isEmpty

/-- What `parse_indexed_markdown_table` returns was read from the lines behind those with a label. -/
theorem parseIndexedMarkdownTable_eq_some {text : String} {maxRows maxColumns : Nat} {T : IndexedTable}
    (h : parseIndexedMarkdownTable text maxRows maxColumns = some T) :
    ∃ above header separator body, contentLines text = above ++ header :: separator :: body ∧
      (∀ line ∈ above, line.head? ≠ some '|') ∧ splitRow header = some T.columns ∧
      (body.mapM fun line => (splitRow line).filter fun row => row.length = T.columns.length) = some T.rows := by
  rw [parseIndexedMarkdownTable] at h
  rw [contentLines]
  split at h
  · cases h
  dsimp only at h
  split at h
  · cases h
  generalize ((splitlines text.toList).map (stripBy isSpace)).filter (fun line => !line.isEmpty) = lines at h ⊢
  cases captioned : labelled "### " lines with
  | none =>
    rw [captioned] at h
    cases h
  | some c =>
    obtain ⟨caption, rest⟩ := c
    rw [captioned] at h
    dsimp only at h
    cases united : labelled "Units: " rest with
    | none =>
      rw [united] at h
      cases h
    | some u =>
      obtain ⟨units, rest'⟩ := u
      rw [united] at h
      obtain ⟨above, rfl, names⟩ := labelled_above captioned
      obtain ⟨above', rfl, scales⟩ := labelled_above united
      split at h
      · cases h
      · next header separator body e =>
        cases e
        split at h
        · next columns separators readHeader _ =>
          split at h
          · obtain ⟨rows, read, rfl⟩ := Option.map_eq_some_iff.1 h
            refine ⟨above ++ above', header, separator, body, by simp, ?_, readHeader, ?_⟩
            · intro line mem
              rcases List.mem_append.1 mem with mem | mem
              · obtain ⟨name, rfl⟩ := names line mem
                simp
              · obtain ⟨scale, rfl⟩ := scales line mem
                simp
            · rw [bodyRows] at read
              split at read
              · cases read
              · next rows' body' =>
                split at read
                · cases read
                  exact body'
                · cases read
          · cases h
        · cases h
      · cases h

theorem mapM_read {α β : Type} {f : α → Option β} {g : α → β} {l : List α} (same : ∀ a ∈ l, ∀ b, f a = some b → b = g a)
    {r : List β} (h : l.mapM f = some r) : r = l.map g := by
  induction l generalizing r with
  | nil =>
    cases h
    rfl
  | cons a l ih =>
    rw [List.mapM_cons] at h
    obtain ⟨b, first, h⟩ := Option.bind_eq_some_iff.1 h
    obtain ⟨bs, rest, h⟩ := Option.bind_eq_some_iff.1 h
    cases h
    rw [same a List.mem_cons_self b first, ih (fun a mem => same a (List.mem_cons_of_mem _ mem)) rest]
    rfl

/-- The first line with a bar divides a text in one way. -/
theorem divided_once {above above' rest rest' : List Cell} {line line' : Cell} (bar : line.head? = some '|')
    (bar' : line'.head? = some '|') (none_ : ∀ l ∈ above, l.head? ≠ some '|') (none_' : ∀ l ∈ above', l.head? ≠ some '|')
    (same : above ++ line :: rest = above' ++ line' :: rest') : line = line' ∧ rest = rest' := by
  have dropped := congrArg (List.dropWhile fun l : Cell => l.head? != some '|') same
  rw [List.dropWhile_append_of_pos (by simpa using none_), List.dropWhile_append_of_pos (by simpa using none_'),
    List.dropWhile_cons_of_neg (by simp [bar]), List.dropWhile_cons_of_neg (by simp [bar'])] at dropped
  exact List.cons.inj dropped

theorem tableLines_barred {t : ExtractedTable} (some_ : t.rows ≠ []) {line : Cell} (mem : line ∈ tableLines t.rows) :
    ∃ s, line = '|' :: (s ++ ['|']) := by
  rw [ExtractedTable.tableLines_eq] at mem
  simp only [List.mem_cons, List.mem_map] at mem
  rcases mem with rfl | rfl | ⟨row, -, rfl⟩
  · exact ⟨_, rowLine_eq metric (t.years_ne_nil some_)⟩
  · obtain ⟨s, barred, -⟩ := separatorLine_succ t.years.length
    exact ⟨s, barred⟩
  · exact ⟨_, rowLine_eq row.label (ExtractedTable.rowValues_ne_nil some_ row)⟩

/-- The content of a rendered table: what stands above it, and its lines. -/
theorem contentLines_markdown {t : ExtractedTable} (plain : t.Plain) (some_ : t.rows ≠ []) :
    ∃ above, contentLines (String.ofList t.markdown) = above ++ tableLines t.rows ∧ ∀ line ∈ above, line.head? ≠ some '|' := by
  have kept : (tableLines t.rows).map (stripBy isSpace) = tableLines t.rows := by
    conv_rhs => rw [← List.map_id (tableLines t.rows)]
    apply List.map_congr_left
    intro line mem
    obtain ⟨s, rfl⟩ := tableLines_barred some_ mem
    exact stripBy_barred s
  have some_' : (tableLines t.rows).filter (fun line => !line.isEmpty) = tableLines t.rows := by
    apply List.filter_eq_self.2
    intro line mem
    obtain ⟨s, rfl⟩ := tableLines_barred some_ mem
    rfl
  rw [contentLines, String.toList_ofList, ExtractedTable.splitlines_markdown plain some_, List.map_append, List.filter_append, kept,
    some_']
  refine ⟨_, rfl, ?_⟩
  intro line mem
  obtain ⟨raw, stored, rfl⟩ := List.mem_map.1 (List.mem_of_mem_filter mem)
  obtain ⟨c, cs, rfl, solid, other⟩ := headLines_head stored
  rw [stripBy_solid solid]
  simpa using other

/-- **The document reader's table** of a rendered table has its columns and its rows. -/
theorem parse_markdown {t : ExtractedTable} (plain : t.Plain) {maxRows maxColumns : Nat} {T : IndexedTable}
    (h : parseIndexedMarkdownTable (String.ofList t.markdown) maxRows maxColumns = some T) :
    T.columns = (metric :: t.years).map String.ofList ∧
      T.rows = t.rows.map fun row => (row.label :: rowValues t.years row).map String.ofList := by
  obtain ⟨above, header, separator, body, content, none_, readHeader, readBody⟩ := parseIndexedMarkdownTable_eq_some h
  have some_ : t.rows ≠ [] := by
    intro empty
    rw [ExtractedTable.markdown, rowsToMarkdown, empty] at h
    cases h
  obtain ⟨above', content', none_'⟩ := contentLines_markdown plain some_
  have bar : header.head? = some '|' := by
    have mem : header ∈ contentLines (String.ofList t.markdown) := by
      rw [content]
      simp
    obtain ⟨raw, -, rfl⟩ := List.mem_map.1 (List.mem_of_mem_filter mem)
    have head := splitRow_head readHeader
    rwa [stripBy_idem] at head
  rw [content', ExtractedTable.tableLines_eq] at content
  obtain ⟨rfl, rest⟩ := divided_once bar rfl none_ none_' content.symm
  rw [splitRow_rowLine (t.years_ne_nil some_) (List.forall_mem_cons.2 ⟨.metric, t.plain_years⟩), Option.some.injEq] at readHeader
  refine ⟨readHeader.symm, ?_⟩
  rw [(List.cons.inj rest).2, List.mapM_map] at readBody
  apply mapM_read _ readBody
  intro row mem cells read
  obtain ⟨read, -⟩ := Option.filter_eq_some_iff.1 read
  dsimp only at read
  rw [splitRow_rowLine (ExtractedTable.rowValues_ne_nil some_ row)
    (List.forall_mem_cons.2 ⟨(plain row mem).1, plain.values mem⟩)] at read
  exact (Option.some.inj read).symm

/-! ## The round trip -/

/-- A table as `build_table_chunks` stores it. -/
structure StoredTable where
  chunkId : String
  ticker : String
  filingDate : String
  table : ExtractedTable

def StoredTable.chunk (s : StoredTable) : Chunk :=
  ⟨s.chunkId, s.ticker, "financial_table", s.filingDate, String.ofList s.table.markdown⟩

/-- The cells written for a row. -/
def writtenCells (t : ExtractedTable) (row : TableRow) : List Cell :=
  row.label :: rowValues t.years row

/-- The match reports a row of a stored table of the ticker, with the values written for it. -/
structure Reports (p : Patterns) (entry : String × List String) (ticker : String) (s : StoredTable) (row : TableRow)
    (m : StructuredMatch) : Prop where
  ticker : s.ticker = ticker
  extracted : row ∈ s.table.rows
  matched : p.labelMatches (String.ofList row.label) entry.2 = true
  chunk : m.chunk = s.chunk
  key : m.canonicalKey = entry.1
  label : m.label = String.ofList row.label
  values : markdownCells m.line.toList = writtenCells s.table row

/-- What the readers find in stored tables is what was extracted. -/
structure RoundTrip (tables : List StoredTable) : Prop where
  /-- `_iter_markdown_rows` recovers the labels and cell lists, in order. -/
  rows : ∀ s ∈ tables,
    (iterMarkdownRows s.chunk.text).map (fun row => (row.1.toList, markdownCells row.2.toList)) =
      s.table.rows.map fun row => (row.label, writtenCells s.table row)
  /-- `structured_lookup` reports a row of the ticker's tables that carries a label of the metric, and finds one when there is one. -/
  lookup : ∀ (p : Patterns) (question ticker : String) (entry : String × List String),
    p.isAuditorQuery (lower question) = false →
    canonicalLabels.find? (fun entry => p.asksFor entry.1 (lower question)) = some entry →
      (∀ m, structuredLookup { p with markdownRows := iterMarkdownRows } question (some ticker) (tables.map StoredTable.chunk) = some m →
        ∃ s ∈ tables, ∃ row, Reports p entry ticker s row m) ∧
      ((structuredLookup { p with markdownRows := iterMarkdownRows } question (some ticker)
          (tables.map StoredTable.chunk)).isSome = true ↔
        ∃ s ∈ tables, s.ticker = ticker ∧ ∃ row ∈ s.table.rows, p.labelMatches (String.ofList row.label) entry.2 = true)
  /-- A table `parse_indexed_markdown_table` returns has the columns and the rows written. -/
  view : ∀ s ∈ tables, ∀ (maxRows maxColumns : Nat) (T : IndexedTable),
    parseIndexedMarkdownTable s.chunk.text maxRows maxColumns = some T →
      T.columns = (metric :: s.table.years).map String.ofList ∧
        T.rows = s.table.rows.map fun row => (writtenCells s.table row).map String.ofList

theorem iterMarkdownRows_chunk {s : StoredTable} (readable : Readable s.table) :
    iterMarkdownRows s.chunk.text =
      s.table.rows.map fun row => (String.ofList row.label, String.ofList (rowLine row.label (rowValues s.table.years row))) := by
  rw [iterMarkdownRows, StoredTable.chunk, String.toList_ofList, markdownRows_markdown readable, List.map_map]
  rfl

theorem writtenCells_plain {t : ExtractedTable} (plain : t.Plain) {row : TableRow} (mem : row ∈ t.rows) :
    ∀ text ∈ writtenCells t row, PlainCell text :=
  List.forall_mem_cons.2 ⟨(plain row mem).1, plain.values mem⟩

theorem markdownCells_row {t : ExtractedTable} (plain : t.Plain) {row : TableRow} (mem : row ∈ t.rows) :
    markdownCells (rowLine row.label (rowValues t.years row)) = writtenCells t row :=
  markdownCells_rowLine (ExtractedTable.rowValues_ne_nil (List.ne_nil_of_mem mem) row) (writtenCells_plain plain mem)

/-- The candidates are the extracted rows that carry a label of the metric. -/
theorem mem_tableCandidates {tables : List StoredTable} (readable : ∀ s ∈ tables, Readable s.table) {p : Patterns}
    {key : String} {variants : List String} {ticker : String} {m : StructuredMatch} :
    m ∈ tableCandidates { p with markdownRows := iterMarkdownRows } key variants ticker (tables.map StoredTable.chunk) ↔
      ∃ s ∈ tables, s.ticker = ticker ∧ ∃ row ∈ s.table.rows, p.labelMatches (String.ofList row.label) variants = true ∧
        m = ⟨s.chunk, key, String.ofList row.label, String.ofList (rowLine row.label (rowValues s.table.years row))⟩ := by
  rw [tableCandidates, List.mem_flatMap]
  constructor
  · rintro ⟨chunk, admitted, found⟩
    obtain ⟨stored, here⟩ := List.mem_filter.1 admitted
    obtain ⟨s, mem, rfl⟩ := List.mem_map.1 stored
    dsimp only at found
    rw [iterMarkdownRows_chunk (readable s mem)] at found
    obtain ⟨_, filtered, rfl⟩ := List.mem_map.1 found
    obtain ⟨written, matched⟩ := List.mem_filter.1 filtered
    obtain ⟨row, mem', rfl⟩ := List.mem_map.1 written
    rw [Bool.and_eq_true, decide_eq_true_eq] at here
    exact ⟨s, mem, here.1, row, mem', matched, rfl⟩
  · rintro ⟨s, mem, rfl, row, mem', matched, rfl⟩
    refine ⟨s.chunk, List.mem_filter.2 ⟨List.mem_map_of_mem mem, ?_⟩, ?_⟩
    · rw [Bool.and_eq_true, decide_eq_true_eq, decide_eq_true_eq]
      exact ⟨rfl, rfl⟩
    · dsimp only
      rw [iterMarkdownRows_chunk (readable s mem)]
      exact List.mem_map.2 ⟨_, List.mem_filter.2 ⟨List.mem_map_of_mem mem', matched⟩, rfl⟩

/-- **The round trip of financial tables.** -/
theorem roundTrip_iff (tables : List StoredTable) : RoundTrip tables ↔ ∀ s ∈ tables, Readable s.table := by
  constructor
  · intro trip s mem
    have recovered : ∀ row ∈ s.table.rows,
        isHeaderLabel row.label = false ∧ ∀ text ∈ writtenCells s.table row, PlainCell text := by
      intro row mem'
      have written : (row.label, writtenCells s.table row) ∈ s.table.rows.map fun row => (row.label, writtenCells s.table row) :=
        List.mem_map_of_mem mem'
      rw [← trip.rows s mem, iterMarkdownRows, List.map_map] at written
      obtain ⟨read, found, same⟩ := List.mem_map.1 written
      obtain ⟨line, line_, found⟩ := List.mem_filterMap.1 found
      simp only [Function.comp_apply, String.toList_ofList, Prod.mk.injEq] at same
      have plain := markdownRow_plain (splitlines_within _ line line_) found
      rw [same.1, same.2] at plain
      exact ⟨plain.1, fun text mem => plain.2 text (List.mem_cons_of_mem _ mem)⟩
    constructor
    · intro row mem'
      have plain := (recovered row mem').2
      refine ⟨plain _ List.mem_cons_self, ?_⟩
      intro value stored
      exact plain _ (List.mem_cons_of_mem _ (value_written mem' (s.table.extracted row mem') stored))
    · exact fun row mem' => (recovered row mem').1
  · intro readable
    constructor
    · intro s mem
      rw [iterMarkdownRows_chunk (readable s mem), List.map_map]
      apply List.map_congr_left
      intro row mem'
      simp only [Function.comp_apply, String.toList_ofList]
      rw [markdownCells_row (readable s mem).1 mem']
    · intro p question ticker entry notAuditor asked
      have lookup : structuredLookup { p with markdownRows := iterMarkdownRows } question (some ticker)
          (tables.map StoredTable.chunk) = pickBestTableMatch { p with markdownRows := iterMarkdownRows }
            (tableCandidates { p with markdownRows := iterMarkdownRows } entry.1 entry.2 ticker (tables.map StoredTable.chunk))
            entry.1 := by
        rw [structuredLookup, Option.bind_some]
        dsimp only
        rw [notAuditor, asked]
        rfl
      rw [lookup]
      constructor
      · intro m picked
        obtain ⟨s, mem, same, row, mem', matched, rfl⟩ := (mem_tableCandidates readable).1 (pickBestTableMatch_mem picked)
        exact ⟨s, mem, row, same, mem', matched, rfl, rfl, rfl, by
          rw [String.toList_ofList]
          exact markdownCells_row (readable s mem).1 mem'⟩
      · rw [pickBestTableMatch_isSome]
        constructor
        · rintro ⟨m, mem⟩
          obtain ⟨s, mem, same, row, mem', matched, -⟩ := (mem_tableCandidates readable).1 mem
          exact ⟨s, mem, same, row, mem', matched⟩
        · rintro ⟨s, mem, same, row, mem', matched⟩
          exact ⟨_, (mem_tableCandidates readable).2 ⟨s, mem, same, row, mem', matched, rfl⟩⟩
    · intro s mem maxRows maxColumns T parsed
      exact parse_markdown (readable s mem).1 parsed

/-! ## A bar in a label -/

theorem headLines_none : ∀ line ∈ headLines [] none, ∀ c ∈ line, isLineBreak c = false := by
  simp [headLines]

/-- A table with the row `Cash | equivalents`. -/
def barredTable : ExtractedTable where
  tableName := []
  tableUnit := none
  rows := extractTableRows [["2023".toList, "2022".toList], ["Cash | equivalents".toList, "5".toList, "4".toList]]
  oneLine := headLines_none
  extracted := extractTableRows_extracted _

/-- The bar inside the label ends the cell, and the row is read under half its label with a value too many. -/
theorem barred_label_cut : ¬ RoundTrip [⟨"c1", "ACME", "2024-02-01", barredTable⟩] := by
  intro trip
  have same := trip.rows _ List.mem_cons_self
  revert same
  decide +kernel

end Retrieval
