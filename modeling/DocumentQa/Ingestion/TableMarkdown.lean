import DocumentQa.Ingestion.TableExtractor
import DocumentQa.Python.Lines
import DocumentQa.Python.Search

/-!
# Financial tables as Markdown

`rows_to_markdown` writes the rows of an extracted table as a Markdown table of metrics by
year, its cells unescaped. A table whose rows `extract_table_rows` returned carries the
facts the readers rely on: its caption and unit are one line each, and every row has a
value for at least one year.
-/

namespace Ingestion

open Python Spacing Evidence Regex

/-- `sorted({year for row in rows for year in row.values_by_year}, reverse=True)`. -/
def allYears (rows : List TableRow) : List Cell :=
  (rows.flatMap fun row => row.valuesByYear.map Prod.fst).dedup.insertionSort fun a b => b ≤ a

/-- `[row.values_by_year.get(year, "-") for year in all_years]`. -/
def rowValues (allYears : List Cell) (row : TableRow) : List Cell :=
  allYears.map fun year => (row.valuesByYear.lookup year).getD ['-']

/-- `f"| {label} | " + " | ".join(values) + " |"`. -/
def rowLine (label : Cell) (values : List Cell) : Cell :=
  '|' :: ' ' :: label ++ ([' ', '|', ' '] ++ ([' ', '|', ' '].intercalate values ++ [' ', '|']))

/-- `"|---" * columns + "|"`. -/
def separatorLine (columns : Nat) : Cell :=
  (List.replicate columns ['|', '-', '-', '-']).flatten ++ ['|']

/-- The lines above the header: the table's name and unit, where they are given. -/
def headLines (tableName : Cell) (tableUnit : Option Cell) : List Cell :=
  (if tableName.isEmpty then [] else [['#', '#', '#', ' '] ++ tableName]) ++
    match tableUnit with
    | some (c :: unit_) => [['U', 'n', 'i', 't', 's', ':', ' '] ++ c :: unit_]
    | _ => []

def metric : Cell :=
  ['M', 'e', 't', 'r', 'i', 'c']

/-- The lines of the table itself. -/
def tableLines (rows : List TableRow) : List Cell :=
  let allYears := allYears rows
  rowLine metric allYears :: separatorLine (allYears.length + 1) ::
    rows.map fun row => rowLine row.label (rowValues allYears row)

/-- `rows_to_markdown`. -/
def rowsToMarkdown (rows : List TableRow) (tableName : Cell) (tableUnit : Option Cell) : Cell :=
  if rows.isEmpty then [] else ['\n'].intercalate (headLines tableName tableUnit ++ tableLines rows)

/-! ## Extracted tables -/

/-- A row as the extractor builds it. -/
structure TableRow.Extracted (row : TableRow) : Prop where
  some_ : row.valuesByYear ≠ []
  years : ∀ value ∈ row.valuesByYear, yearPattern.fullmatch value.1 = true
  distinct : (row.valuesByYear.map Prod.fst).Nodup

theorem extractYear_year {cell year : Cell} (h : extractYearFromCell cell = some year) : yearPattern.fullmatch year = true := by
  obtain ⟨⟨s, t⟩, found, rfl⟩ := Option.map_eq_some_iff.1 h
  obtain ⟨reads, -⟩ := searchFrom_reads found
  obtain ⟨u, spells, whole⟩ := reads.spells rfl
  obtain ⟨u', whole', front⟩ := reads.spans
  obtain rfl : u = u' := List.append_cancel_right (whole.symm.trans whole')
  have text : s.text t = u := by
    rw [Cursor.text, front, List.length_append, Nat.add_sub_cancel, List.take_left, List.reverse_reverse]
  rw [fullmatch_iff rfl]
  exact text ▸ spells

theorem findHeaderFrom_years {i j : Nat} {rows : List (List Cell)} {years : List Cell}
    (h : findHeaderFrom i rows = some (j, years)) : ∀ year ∈ years, yearPattern.fullmatch year = true := by
  induction rows generalizing i with
  | nil => cases h
  | cons row rows ih =>
    rw [findHeaderFrom] at h
    split at h
    · cases h
      intro year mem
      obtain ⟨cell, -, found⟩ := List.mem_filterMap.1 mem
      exact extractYear_year found
    · exact ih h

theorem enter_nodup {κ σ : Type} [DecidableEq κ] {table pairs : List (κ × σ)} (h : (table.map Prod.fst).Nodup) :
    ((Ranking.enter table pairs).map Prod.fst).Nodup := by
  induction pairs generalizing table with
  | nil => exact h
  | cons p pairs ih => exact ih (Ranking.put_nodup h)

theorem readRow_extracted {years : List Cell} (areYears : ∀ year ∈ years, yearPattern.fullmatch year = true) (skip : Bool)
    {s : Option Cell × List TableRow} (h : ∀ row ∈ s.2, row.Extracted) (row : List Cell) :
    ∀ r ∈ (readRow years skip s row).2, r.Extracted := by
  rw [readRow]
  split
  · exact h
  · split <;> exact h
  · split
    · exact h
    · next label tokens _ _ =>
      dsimp only
      split
      · exact h
      · next some_ =>
        intro r mem
        rcases List.mem_append.1 mem with mem | mem
        · exact h r mem
        rw [List.mem_singleton.1 mem]
        refine ⟨fun empty => some_ (List.isEmpty_iff.2 empty), ?_, enter_nodup List.nodup_nil⟩
        intro value mem
        rcases Ranking.mem_enter.1 (List.mem_map_of_mem mem) with none_ | entered
        · cases none_
        · obtain ⟨pair, zipped, same⟩ := List.mem_map.1 entered
          exact same ▸ areYears pair.1 (List.of_mem_zip zipped).1

/-- **The rows of a table** are extracted rows. -/
theorem extractTableRows_extracted (rows : List (List Cell)) : ∀ row ∈ extractTableRows rows, row.Extracted := by
  rw [extractTableRows]
  split
  · simp
  · next headerIdx years found =>
    have areYears := findHeaderFrom_years found
    dsimp only
    generalize hasChangeColumn _ = skip
    generalize rows.drop (headerIdx + 1) = later
    have all : ∀ s : Option Cell × List TableRow, (∀ row ∈ s.2, row.Extracted) →
        ∀ row ∈ (later.foldl (readRow years skip) s).2, row.Extracted := by
      induction later with
      | nil => exact fun s h => h
      | cons row later ih => exact fun s h => ih _ (readRow_extracted areYears skip h row)
    exact all (none, []) (by simp)

/-- An extracted table with the name and unit it is rendered under, one line each. -/
structure ExtractedTable where
  tableName : Cell
  tableUnit : Option Cell
  rows : List TableRow
  oneLine : ∀ line ∈ headLines tableName tableUnit, ∀ c ∈ line, isLineBreak c = false
  extracted : ∀ row ∈ rows, row.Extracted

/-- The years of the columns. -/
def ExtractedTable.years (t : ExtractedTable) : List Cell :=
  allYears t.rows

/-- The Markdown text of the table. -/
def ExtractedTable.markdown (t : ExtractedTable) : Cell :=
  rowsToMarkdown t.rows t.tableName t.tableUnit

theorem mem_allYears {rows : List TableRow} {year : Cell} :
    year ∈ allYears rows ↔ ∃ row ∈ rows, year ∈ row.valuesByYear.map Prod.fst := by
  rw [allYears, List.mem_insertionSort, List.mem_dedup, List.mem_flatMap]

theorem ExtractedTable.years_ne_nil (t : ExtractedTable) (some_ : t.rows ≠ []) : t.years ≠ [] := by
  obtain ⟨row, rest, e⟩ := List.exists_cons_of_ne_nil some_
  have mem : row ∈ t.rows := by
    rw [e]
    exact List.mem_cons_self
  obtain ⟨value, values, e'⟩ := List.exists_cons_of_ne_nil (t.extracted row mem).some_
  apply List.ne_nil_of_mem
  exact mem_allYears.2 ⟨row, mem, by rw [e']; exact List.mem_cons_self⟩

theorem ExtractedTable.rowValues_ne_nil {t : ExtractedTable} (some_ : t.rows ≠ []) (row : TableRow) :
    rowValues t.years row ≠ [] := by
  intro none_
  exact t.years_ne_nil some_ (List.map_eq_nil_iff.1 none_)

/-- What is written for a row is a value of it or a dash. -/
theorem mem_rowValues {years : List Cell} {row : TableRow} {text : Cell} (mem : text ∈ rowValues years row) :
    text = ['-'] ∨ ∃ value ∈ row.valuesByYear, value.2 = text := by
  obtain ⟨year, -, rfl⟩ := List.mem_map.1 mem
  cases found : row.valuesByYear.lookup year with
  | none => exact .inl rfl
  | some text =>
    obtain ⟨before, after, e, -⟩ := List.lookup_eq_some_iff.1 found
    refine .inr ⟨(year, text), ?_, rfl⟩
    rw [e]
    exact List.mem_append_right _ List.mem_cons_self

/-- Every value of a row is written. -/
theorem value_written {rows : List TableRow} {row : TableRow} (mem : row ∈ rows) (extracted : row.Extracted)
    {value : Cell × Cell} (stored : value ∈ row.valuesByYear) : value.2 ∈ rowValues (allYears rows) row := by
  apply List.mem_map.2
  refine ⟨value.1, mem_allYears.2 ⟨row, mem, List.mem_map_of_mem stored⟩, ?_⟩
  obtain ⟨before, after, e⟩ := List.append_of_mem stored
  have first : row.valuesByYear.lookup value.1 = some value.2 := by
    apply List.lookup_eq_some_iff.2
    refine ⟨before, after, e, ?_⟩
    intro pair earlier
    have distinct := extracted.distinct
    rw [e, List.map_append, List.map_cons, List.nodup_append] at distinct
    exact bne_iff_ne.2 (distinct.2.2 _ (List.mem_map_of_mem earlier) _ List.mem_cons_self).symm
  rw [first]
  rfl

/-! ## Cells that stand as they are -/

/-- A text that a cell between bars holds as it is: on one line, without a bar, without blanks
at its ends and without the dashes of a separator. -/
structure PlainCell (text : Cell) : Prop where
  unbroken : ∀ c ∈ text, isLineBreak c = false
  unbarred : '|' ∉ text
  stripped : stripBy isSpace text = text
  undashed : ¬ ['-', '-', '-'] <:+: text

/-- A text around one character is in what stands before it or in what stands behind it, unless it holds it. -/
theorem infix_split {α : Type} {x a b : List α} {c : α} (absent : c ∉ x) (h : x <:+: a ++ c :: b) : x <:+: a ∨ x <:+: b := by
  obtain ⟨s, t, whole⟩ := h
  rw [List.append_assoc] at whole
  rcases List.append_eq_append_iff.1 whole with ⟨u, e, rest⟩ | ⟨u, e, rest⟩
  · rcases List.append_eq_append_iff.1 rest with ⟨v, e', rest'⟩ | ⟨v, e', rest'⟩
    · left
      exact ⟨s, v, by rw [e, e', List.append_assoc]⟩
    · cases v with
      | nil =>
        left
        exact ⟨s, [], by rw [e, e']; simp⟩
      | cons d v =>
        rw [List.cons_append, List.cons.injEq] at rest'
        exact absurd (by rw [e', rest'.1]; simp) absent
  · cases u with
    | nil =>
      rw [List.nil_append] at rest
      cases x with
      | nil => exact .inl (List.nil_infix)
      | cons d x =>
        rw [List.cons_append, List.cons.injEq] at rest
        exact absurd (by rw [rest.1]; simp) absent
    | cons d u =>
      right
      rw [List.cons_append, List.cons.injEq] at rest
      exact ⟨u, t, by rw [rest.2, List.append_assoc]⟩

/-- A cell between its blanks. -/
def padded (text : Cell) : Cell :=
  ' ' :: (text ++ [' '])

/-- A row is its padded cells between bars. -/
theorem rowLine_eq (label : Cell) {values : List Cell} (some_ : values ≠ []) :
    rowLine label values = '|' :: (['|'].intercalate ((label :: values).map padded) ++ ['|']) := by
  have cells : ∀ label, [' ', '|', ' '].intercalate (label :: values) ++ [' ', '|'] =
      (['|'].intercalate ((label :: values).map padded) ++ ['|']).tail := by
    induction values with
    | nil => exact absurd rfl some_
    | cons value values ih =>
      intro label
      rw [List.intercalate_cons_cons, List.append_assoc, List.map_cons, List.map_cons, List.intercalate_cons_cons]
      cases values with
      | nil => simp [padded]
      | cons next values =>
        rw [ih (List.cons_ne_nil _ _) value]
        simp [padded, List.intercalate_cons_cons]
  have whole := cells label
  obtain ⟨value, rest, rfl⟩ := List.exists_cons_of_ne_nil some_
  rw [List.intercalate_cons_cons, List.append_assoc, List.append_assoc] at whole
  rw [rowLine, List.cons_append, List.cons_append, whole]
  rfl

theorem stripBy_padded {text : Cell} (h : stripBy isSpace text = text) : stripBy isSpace (padded text) = text := by
  obtain ⟨trail, -, -, -, -, ends⟩ := stripBy_parts isSpace text
  rw [h] at ends
  rcases ends with ⟨open_, close⟩ | ⟨rfl, -⟩
  · have blank : ∀ c ∈ [' '], isSpace c = true := by simp [isSpace]
    exact stripBy_between blank blank open_ close
  · rfl

theorem undashed_row {cells : List Cell} (h : ∀ text ∈ cells, ¬ ['-', '-', '-'] <:+: text) :
    ¬ ['-', '-', '-'] <:+: '|' :: (['|'].intercalate (cells.map padded) ++ ['|']) := by
  have single : ∀ text ∈ cells, ¬ ['-', '-', '-'] <:+: padded text := by
    intro text mem inside
    rcases infix_split (a := []) (c := ' ') (by decide) inside with none_ | inside
    · exact absurd none_ (by decide)
    · rcases infix_split (b := []) (c := ' ') (by decide) inside with inside | none_
      · exact h text mem inside
      · exact absurd none_ (by decide)
  have joined : ¬ ['-', '-', '-'] <:+: ['|'].intercalate (cells.map padded) := by
    clear h
    induction cells with
    | nil => decide
    | cons text cells ih =>
      cases cells with
      | nil =>
        rw [List.map_singleton, List.intercalate_singleton]
        exact single text List.mem_cons_self
      | cons next cells =>
        rw [List.map_cons, List.map_cons, List.intercalate_cons_cons, List.append_assoc]
        intro inside
        rcases infix_split (by decide) inside with inside | inside
        · exact single text List.mem_cons_self inside
        · exact ih (fun text mem => single text (List.mem_cons_of_mem _ mem)) inside
  intro inside
  rcases infix_split (a := []) (by decide) inside with none_ | inside
  · exact absurd none_ (by decide)
  · rcases infix_split (by decide) inside with inside | none_
    · exact joined inside
    · exact absurd none_ (by decide)

/-! ## The fixed cells -/

theorem PlainCell.dash : PlainCell ['-'] where
  unbroken := by simp [isLineBreak]
  unbarred := by decide
  stripped := by decide
  undashed := by decide

theorem PlainCell.metric : PlainCell metric where
  unbroken := by simp [Ingestion.metric, isLineBreak]
  unbarred := by decide
  stripped := by decide
  undashed := by decide

/-- A character the lines of a table give a meaning. -/
def isMark (c : Char) : Bool :=
  isSpace c || isLineBreak c || c == '|' || c == '-'

/-- No digit is a mark. -/
theorem decimal_not_mark {c : Char} (h : isDecimal c = true) : isMark c = false := by
  have digits : decimalZeros.all (fun first => (List.range 10).all fun k => !isMark (Char.ofNat (first + k))) = true := by
    decide +kernel
  rw [isDecimal, decimal?, Option.isSome_map, List.find?_isSome] at h
  obtain ⟨first, mem, range⟩ := h
  simp only [Bool.and_eq_true, decide_eq_true_eq] at range
  have here := List.all_eq_true.1 (List.all_eq_true.1 digits first mem) (c.toNat - first) (List.mem_range.2 (by omega))
  rw [Nat.add_sub_cancel' range.1, Char.ofNat_toNat] at here
  simpa using here

theorem year_digits {year : Cell} (h : yearPattern.fullmatch year = true) : year ≠ [] ∧ ∀ c ∈ year, isDecimal c = true := by
  rw [fullmatch_iff rfl] at h
  simp only [yearPattern, chr, digit, spells_seq, spells_alt, spells_unit, beq_iff_eq] at h
  obtain ⟨century, _, front, ⟨_, _, ⟨c, third, rfl⟩, ⟨d, fourth, rfl⟩, rfl⟩, rfl⟩ := h
  have digits : ∀ e ∈ century, isDecimal e = true := by
    rcases front with ⟨_, _, ⟨_, rfl, rfl⟩, ⟨_, rfl, rfl⟩, rfl⟩ | ⟨_, _, ⟨_, rfl, rfl⟩, ⟨_, rfl, rfl⟩, rfl⟩
    all_goals exact List.all_eq_true.1 (by decide)
  constructor
  · simp
  · intro e mem
    simp only [List.mem_append, List.mem_singleton] at mem
    rcases mem with mem | rfl | rfl
    · exact digits e mem
    · exact third
    · exact fourth

theorem PlainCell.year {year : Cell} (h : yearPattern.fullmatch year = true) : PlainCell year := by
  obtain ⟨some_, digits⟩ := year_digits h
  have marks : ∀ c ∈ year, isSpace c = false ∧ isLineBreak c = false ∧ c ≠ '|' ∧ c ≠ '-' := by
    intro c mem
    have clean := decimal_not_mark (digits c mem)
    simpa only [isMark, Bool.or_eq_false_iff, beq_eq_false_iff_ne, and_assoc] using clean
  have whole : opens isSpace year = true ∧ closes isSpace year = true := by
    obtain ⟨c, rest, e⟩ := List.exists_cons_of_ne_nil some_
    have last := List.dropLast_append_getLast some_
    exact ⟨opens_iff.2 ⟨c, rest, e, (marks c (by rw [e]; exact List.mem_cons_self)).1⟩,
      closes_iff.2 ⟨_, _, last.symm, (marks _ (List.getLast_mem some_)).1⟩⟩
  exact {
    unbroken := fun c mem => (marks c mem).2.1
    unbarred := fun mem => (marks _ mem).2.2.1 rfl
    stripped := by
      have ends := @stripBy_between isSpace [] year [] (by simp) (by simp) whole.1 whole.2
      rwa [List.nil_append, List.append_nil] at ends
    undashed := fun inside => (marks '-' (inside.subset (by simp))).2.2.2 rfl }

/-! ## The lines -/

/-- Every label and every value stands in its cell as it is. -/
def ExtractedTable.Plain (t : ExtractedTable) : Prop :=
  ∀ row ∈ t.rows, PlainCell row.label ∧ ∀ value ∈ row.valuesByYear, PlainCell value.2

theorem ExtractedTable.Plain.values {t : ExtractedTable} (plain : t.Plain) {row : TableRow} (mem : row ∈ t.rows) :
    ∀ text ∈ rowValues t.years row, PlainCell text := by
  intro text written
  rcases mem_rowValues written with rfl | ⟨value, stored, rfl⟩
  · exact .dash
  · exact (plain row mem).2 value stored

theorem ExtractedTable.plain_years (t : ExtractedTable) : ∀ year ∈ t.years, PlainCell year := by
  intro year column
  obtain ⟨row, mem, some_⟩ := mem_allYears.1 column
  obtain ⟨value, stored, rfl⟩ := List.mem_map.1 some_
  exact .year ((t.extracted row mem).years value stored)

theorem rowLine_unbroken {label : Cell} {values : List Cell} (some_ : values ≠ []) (whole : PlainCell label)
    (wholes : ∀ text ∈ values, PlainCell text) : ∀ c ∈ rowLine label values, isLineBreak c = false := by
  have pad : ∀ text, PlainCell text → ∀ c ∈ padded text, isLineBreak c = false := by
    intro text plain c mem
    simp only [padded, List.mem_cons, List.mem_append, List.not_mem_nil, or_false] at mem
    rcases mem with rfl | mem | rfl
    · rfl
    · exact plain.unbroken c mem
    · rfl
  have joined : ∀ cells : List Cell, (∀ text ∈ cells, PlainCell text) →
      ∀ c ∈ ['|'].intercalate (cells.map padded), isLineBreak c = false := by
    intro cells
    induction cells with
    | nil => simp
    | cons text cells ih =>
      intro plain
      cases cells with
      | nil =>
        rw [List.map_singleton, List.intercalate_singleton]
        exact pad text (plain text List.mem_cons_self)
      | cons next cells =>
        intro c mem
        rw [List.map_cons, List.map_cons, List.intercalate_cons_cons, List.mem_append, List.mem_append] at mem
        rcases mem with (mem | mem) | mem
        · exact pad text (plain text List.mem_cons_self) c mem
        · rw [List.mem_singleton.1 mem]
          rfl
        · exact ih (fun text mem => plain text (List.mem_cons_of_mem _ mem)) c mem
  rw [rowLine_eq label some_]
  intro c mem
  rw [List.mem_cons, List.mem_append, List.mem_singleton] at mem
  rcases mem with rfl | mem | rfl
  · rfl
  · exact joined _ (List.forall_mem_cons.2 ⟨whole, wholes⟩) c mem
  · rfl

theorem separatorLine_chars (columns : Nat) : ∀ c ∈ separatorLine columns, c = '|' ∨ c = '-' := by
  intro c mem
  rw [separatorLine, List.mem_append, List.mem_flatten, List.mem_singleton] at mem
  rcases mem with ⟨part, copied, inside⟩ | rfl
  · rw [List.eq_of_mem_replicate copied] at inside
    simpa using inside
  · exact .inl rfl

/-- The lines of a table whose cells are plain. -/
theorem ExtractedTable.splitlines_markdown {t : ExtractedTable} (plain : t.Plain) (some_ : t.rows ≠ []) :
    splitlines t.markdown = headLines t.tableName t.tableUnit ++ tableLines t.rows := by
  have columns := t.years_ne_nil some_
  have whole : ∀ line ∈ headLines t.tableName t.tableUnit ++ tableLines t.rows, ∀ c ∈ line, isLineBreak c = false := by
    intro line mem
    rcases List.mem_append.1 mem with mem | mem
    · exact t.oneLine line mem
    simp only [tableLines, List.mem_cons, List.mem_map] at mem
    rcases mem with rfl | rfl | ⟨row, stored, rfl⟩
    · exact rowLine_unbroken columns .metric t.plain_years
    · intro c mem
      rcases separatorLine_chars _ c mem with rfl | rfl <;> rfl
    · exact rowLine_unbroken (rowValues_ne_nil some_ row) (plain row stored).1 (plain.values stored)
  have end_ : ∃ lines row, headLines t.tableName t.tableUnit ++ tableLines t.rows =
      lines ++ [rowLine row.label (rowValues t.years row)] := by
    have rows := congrArg (List.map fun row => rowLine row.label (rowValues t.years row))
      (List.dropLast_append_getLast some_).symm
    rw [List.map_append, List.map_singleton] at rows
    refine ⟨headLines t.tableName t.tableUnit ++ rowLine metric t.years :: separatorLine (t.years.length + 1) ::
      t.rows.dropLast.map fun row => rowLine row.label (rowValues t.years row), t.rows.getLast some_, ?_⟩
    rw [List.append_assoc, List.cons_append, List.cons_append, ← rows]
    rfl
  obtain ⟨lines, row, e⟩ := end_
  rw [markdown, rowsToMarkdown, if_neg (by simpa using some_), e]
  rw [e] at whole
  apply splitlines_joined
  · exact fun line mem => whole line (List.mem_append_left _ mem)
  · exact whole _ (by simp)
  · exact List.cons_ne_nil _ _

end Ingestion
