import DocumentQa.Evaluation.Evidence
import DocumentQa.Python.Lines

/-!
# Presentation of indexed table chunks

`src/api/content_presentation.py`: a chunk of the financial tables section is shown as a
table when its text is one Markdown table of metrics by year, read without loss.
-/

namespace Reader

open Python

/-- The loop of `_split_row` over a row without its outer bars: the open cell, whether the last
character was a backslash, and the cells after it. -/
def splitCells : List Char → Bool → List Char → List (List Char)
  | current, escaped, [] => [stripBy isSpace (if escaped then current ++ ['\\'] else current)]
  | current, true, c :: cs => splitCells (current ++ (if c = '|' then ['|'] else ['\\', c])) false cs
  | current, false, c :: cs =>
    if c = '\\' then splitCells current true cs
    else if c = '|' then stripBy isSpace current :: splitCells [] false cs
    else splitCells (current ++ [c]) false cs

/-- `_split_row`. -/
def splitRow (line : List Char) : Option (List String) :=
  let value := stripBy isSpace line
  if value.head? = some '|' ∧ value.getLast? = some '|' then
    some ((splitCells [] false (value.drop 1).dropLast).map String.ofList)
  else none

/-- `^(?:19|20)\d{2}$`. -/
def isYear (value : String) : Bool :=
  match value.toList with
  | [a, b, c, d] => ((a = '1' && b = '9') || (a = '2' && b = '0')) && Evidence.isDecimal c && Evidence.isDecimal d
  | _ => false

/-- `^:?-{3,}:?$`. -/
def isSeparator (value : String) : Bool :=
  let rest := match value.toList with
    | ':' :: cs => cs
    | cs => cs
  let tail := rest.dropWhile (· = '-')
  decide (3 ≤ (rest.takeWhile (· = '-')).length) && (tail.isEmpty || tail = [':'])

/-- The table `parse_indexed_markdown_table` reads. -/
structure IndexedTable where
  caption : Option String
  units : Option String
  columns : List String
  rows : List (List String)
deriving DecidableEq, Repr

/-- The text behind a label at the head of the next line, `some none` when the label is not there and
`none` when nothing stands behind it. -/
def labelled (label : String) (lines : List (List Char)) : Option (Option String × List (List Char)) :=
  match lines with
  | line :: rest =>
    if label.toList.isPrefixOf line then
      let value := stripBy isSpace (line.drop label.toList.length)
      if value.isEmpty then none else some (some (String.ofList value), rest)
    else some (none, lines)
  | [] => some (none, lines)

/-- The rows under the header, each with as many cells. -/
def bodyRows (columns maxRows : Nat) (lines : List (List Char)) : Option (List (List String)) :=
  match lines.mapM fun line => (splitRow line).filter fun row => row.length = columns with
  | none => none
  | some rows => if rows.length ≤ maxRows then some rows else none

/-- The header row of a table of metrics by year, with the separator row under it. -/
def isTableHeader (maxColumns : Nat) (header separator : List String) : Bool :=
  decide (3 ≤ header.length ∧ header.length ≤ maxColumns) && header.head?.any (fun cell => casefold cell.toList = "metric".toList) &&
    (header.drop 1).all isYear && decide (header.drop 1).Nodup && decide (separator.length = header.length) &&
    separator.all isSeparator

/-- `parse_indexed_markdown_table`. -/
def parseIndexedMarkdownTable (text : String) (maxRows : Nat := 1000) (maxColumns : Nat := 32) : Option IndexedTable :=
  if text = "" ∨ 2000000 < text.toList.length then none
  else
    let lines := ((splitlines text.toList).map (stripBy isSpace)).filter fun line => !line.isEmpty
    if lines.length < 3 then none
    else
      match labelled "### " lines with
      | none => none
      | some (caption, rest) =>
        match labelled "Units: " rest with
        | none => none
        | some (units, header :: separator :: body) =>
          match splitRow header, splitRow separator with
          | some header, some separator =>
            if isTableHeader maxColumns header separator then
              (bodyRows header.length maxRows body).map fun rows => ⟨caption, units, header, rows⟩
            else none
          | _, _ => none
        | some _ => none

/-- `build_chunk_presentation`: the table, `none` for plain text. -/
def buildChunkPresentation (text : String) (section_ : Option String) : Option IndexedTable :=
  if section_ = some "financial_table" then parseIndexedMarkdownTable text else none

end Reader
