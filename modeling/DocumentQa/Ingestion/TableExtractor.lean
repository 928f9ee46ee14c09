import DocumentQa.Evaluation.Evidence
import DocumentQa.Lib.Checked
import DocumentQa.Lib.Ranking
import DocumentQa.Lib.Regex
import DocumentQa.Lib.Spacing

/-!
# Rows of financial tables

`extract_table_rows`: the first row with two different years is the header, and the values
of a later row are paired with the years by position after the cells that carry no value
were dropped. What the function files under the years is what stands in their columns exactly
when no column without a number stands left of one with a number, columns of one year agree,
and the last column of each year is written so that one reading takes the whole number.
-/

namespace Ingestion

open Python Spacing Evidence Regex

/-- The text of a cell. -/
abbrev Cell :=
  List Char

abbrev Pattern :=
  Regex Char String

/-! ## Patterns -/

def chr (c : Char) : Pattern :=
  unit (· == c)

def digit : Pattern :=
  unit isDecimal

/-- `(19|20)\d{2}`. -/
def yearPattern : Pattern :=
  seq (alt (seq (chr '1') (chr '9')) (seq (chr '2') (chr '0'))) (seq digit digit)

/-- `\(?-?\d[\d,]*(?:\.\d+)?`. -/
def amountPattern : Pattern :=
  cat [opt (chr '('), opt (chr '-'), digit, many false (unit fun c => isDecimal c || c == ','),
    opt (seq (chr '.') (plus digit))]

/-- `^\(?-?\d[\d,]*(?:\.\d+)?\)?$`. -/
def valuePattern : Pattern :=
  seq amountPattern (opt (chr ')'))

/-- `^\(?-?\d[\d,]*(?:\.\d+)?\)?%$`. -/
def percentValuePattern : Pattern :=
  seq valuePattern (chr '%')

/-! ## Cells and rows -/

/-- `re.sub(r"\s+", " ", text).strip()`. -/
def cleanText (text : Cell) : Cell :=
  stripBy isSpace (squeeze isSpace ' ' text)

/-- `_clean_cells` of a row, given as the texts of its cells. -/
def cleanCells (row : List Cell) : List Cell :=
  (row.map cleanText).filter fun text => !text.isEmpty

/-- `_extract_year_from_cell`. -/
def extractYearFromCell (cellText : Cell) : Option Cell :=
  (yearPattern.search cellText).map fun m => m.1.text m.2

/-- `_find_header_row`, from the row with the given index on. -/
def findHeaderFrom : Nat → List (List Cell) → Option (Nat × List Cell)
  | _, [] => none
  | i, row :: rows =>
    let yearsFound := (cleanCells row).filterMap extractYearFromCell
    if 2 ≤ yearsFound.dedup.length then some (i, yearsFound) else findHeaderFrom (i + 1) rows

def findHeaderRow (rows : List (List Cell)) : Option (Nat × List Cell) :=
  findHeaderFrom 0 rows

/-- `_is_value_token`. -/
def isValueToken (text : Cell) : Bool :=
  valuePattern.fullmatch text

/-- `_is_section_header_row`. -/
def isSectionHeaderRow (cleanedCells : List Cell) : Bool :=
  match cleanedCells with
  | [text] =>
    !endsWith text [':'] && !yearPattern.found text && !text.all fun c => c ∈ ['$', '%', '(', ')', '-'] || isSpace c
  | _ => false

/-- `_extract_data_values`. `skip` says that the last step was `i += 2`. -/
def extractDataValues (skipPercentValues : Bool) : Bool → List Cell → List Cell
  | _, [] => []
  | true, _ :: tokens => extractDataValues skipPercentValues false tokens
  | false, token :: tokens =>
    let nextToken := tokens.head?.getD []
    if token = ['$'] ∨ token = ['%'] then extractDataValues skipPercentValues false tokens
    else if token.head? = some '$' ∧ isValueToken token.tail = true then
      token.tail :: extractDataValues skipPercentValues false tokens
    else if percentValuePattern.fullmatch token = true then
      if skipPercentValues then extractDataValues skipPercentValues false tokens
      else token :: extractDataValues skipPercentValues false tokens
    else if isValueToken token = true ∧ nextToken = ['%'] ∧ skipPercentValues = true then
      extractDataValues skipPercentValues true tokens
    else if isValueToken token = true ∧ nextToken = ['%'] then
      (token ++ ['%']) :: extractDataValues skipPercentValues true tokens
    else if token.head? = some '(' ∧ nextToken = [')'] then
      (token ++ [')']) :: extractDataValues skipPercentValues true tokens
    else if isValueToken token = true then token :: extractDataValues skipPercentValues false tokens
    else extractDataValues skipPercentValues false tokens

structure TableRow where
  label : Cell
  valuesByYear : List (Cell × Cell)
deriving DecidableEq

/-- A label after which the row is not read: a year, a sign or a heading. -/
def isSkippedLabel (label : Cell) : Bool :=
  yearPattern.fullmatch label || label == ['$'] || label == ['%'] || endsWith label [':']

/-- `values_by_year`. -/
def valuesByYear (years : List Cell) (skipPercentValues : Bool) (tokens : List Cell) : List (Cell × Cell) :=
  Ranking.enter [] (years.zip (extractDataValues skipPercentValues false tokens))

/-- `f"{current_segment} - {label}" if current_segment else label`. -/
def fullLabel (currentSegment : Option Cell) (label : Cell) : Cell :=
  match currentSegment with
  | none => label
  | some segment => segment ++ ([' ', '-', ' '] ++ label)

/-- The body of the loop over the rows after the header. -/
def readRow (years : List Cell) (skipPercentValues : Bool) (s : Option Cell × List TableRow) (row : List Cell) :
    Option Cell × List TableRow :=
  match cleanCells row with
  | [] => s
  | [label] => if isSectionHeaderRow [label] then (some label, s.2) else s
  | label :: tokens =>
    if isSkippedLabel label then s
    else
      let values := valuesByYear years skipPercentValues tokens
      if values.isEmpty then s else (s.1, s.2 ++ [⟨fullLabel s.1 label, values⟩])

/-- `any(cell.lower() == "change" for cell in header_cells)`. No other letter than an ASCII
one has a letter of this word as its lower case. -/
def hasChangeColumn (headerCells : List Cell) : Bool :=
  headerCells.any fun cell => cell.map Char.toLower == ['c', 'h', 'a', 'n', 'g', 'e']

/-- `extract_table_rows` of a table, given as the texts of the cells of its rows. -/
def extractTableRows (rows : List (List Cell)) : List TableRow :=
  match findHeaderRow rows with
  | none => []
  | some (headerIdx, years) =>
    let skipPercentValues := hasChangeColumn (cleanCells (rows[headerIdx]?.getD []))
    ((rows.drop (headerIdx + 1)).foldl (readRow years skipPercentValues) (none, [])).2

end Ingestion
