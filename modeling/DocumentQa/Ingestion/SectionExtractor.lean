import DocumentQa.Evaluation.Evidence
import DocumentQa.Lib.Checked
import DocumentQa.Lib.Expansion
import DocumentQa.Lib.Regex
import DocumentQa.Lib.Spacing

/-!
# Sections of a filing

Headings and end boundaries are sought in the lower-cased text, and their positions there cut
the sections out of the text itself. The two have the same positions as long as no `İ` stands
before, the one character whose lower case is two characters. Lower case and word characters
are those of Python's Unicode tables, which are a parameter.
-/

namespace Ingestion

open Python Spacing Regex

/-- What Python's Unicode tables say. -/
structure LowerTables where
  /-- The lower case of a character between what stands before it, nearest first, and behind it. -/
  lowerIn : List Char → Char → List Char → List Char
  /-- `\w` -/
  isWord : Char → Bool
  lower_dotted : ∀ before after, lowerIn before 'İ' after = ['i', '\u0307']
  lower_one : ∀ before c after, c ≠ 'İ' → (lowerIn before c after).length = 1
  lower_space : ∀ before c after, isSpace c = true → lowerIn before c after = [c]

/-! ## Patterns -/

/-- A boundary: a first word, what follows it, and whether a word has to end there. -/
structure Boundary where
  keyword : String
  tail : Regex Char String
  /-- `\b` at the end -/
  closed : Bool

def literal (text : String) : Regex Char String :=
  word (· == ·) text.toList

def spaces : Regex Char String :=
  plus (unit isSpace)

/-- The letters of a word with `\s*` between them. -/
def spaced : List Char → Regex Char String
  | [] => empty
  | [c] => unit (c == ·)
  | c :: cs => seq (unit (c == ·)) (seq (many false (unit isSpace)) (spaced cs))

/-- Patterns with `\s+` between them. -/
def phrase : List (Regex Char String) → Regex Char String
  | [] => empty
  | [a] => a
  | a :: as => seq a (seq spaces (phrase as))

/-- `(?:marks)?`. -/
def optionalMark (marks : List Char) : Regex Char String :=
  opt (unit fun c => marks.contains c)

/-- `BUSINESS`. -/
def business : Regex Char String :=
  spaced "business".toList

/-- `RISK_FACTORS`. -/
def riskFactors : Regex Char String :=
  phrase [spaced "risk".toList, spaced "factors".toList]

/-- `MDNA`. -/
def mdna : Regex Char String :=
  phrase [cat [literal "management", optionalMark ['\uFFFD', '’', '\''], literal "s"], literal "discussion", literal "and",
    literal "analysis"]

/-- `FINANCIAL_STATEMENTS`. -/
def financialStatements : Regex Char String :=
  phrase [spaced "financial".toList, spaced "statements".toList]

/-- `item\s+number\.?\s+title`. -/
def itemHeading (number : String) (title : Regex Char String) : Boundary :=
  ⟨"item", cat [spaces, literal number, opt (literal "."), spaces, title], false⟩

/-- `item\s+number\b`. -/
def itemNumber (number : String) : Boundary :=
  ⟨"item", cat [spaces, literal number], true⟩

/-- `statement\s+of\s+management[’']?s\s+responsibility\s+for\s+financial\s+statements`. -/
def responsibilityStatement : Boundary :=
  ⟨"statement", cat [spaces, phrase [literal "of", cat [literal "management", optionalMark ['’', '\''], literal "s"],
    literal "responsibility", literal "for", literal "financial", literal "statements"]], false⟩

/-- `report\s+of\s+management\s+on\s+internal\s+c\s*ontrol\s+over\s+financial\s+reporting`. -/
def controlReport : Boundary :=
  ⟨"report", cat [spaces, phrase [literal "of", literal "management", literal "on", literal "internal",
    cat [literal "c", many false (unit isSpace), literal "ontrol"], literal "over", literal "financial", literal "reporting"]],
    false⟩

/-- The keys of `SECTION_BOUNDARIES`. -/
inductive SectionName where
  | business | riskFactors | mdna | financialStatements
deriving DecidableEq

def SectionName.all : List SectionName :=
  [.business, .riskFactors, .mdna, .financialStatements]

def SectionName.text : SectionName → String
  | .business => "business"
  | .riskFactors => "risk_factors"
  | .mdna => "mdna"
  | .financialStatements => "financial_statements"

/-- `boundary["start"]`. -/
def SectionName.heading : SectionName → Boundary
  | .business => itemHeading "1" Ingestion.business
  | .riskFactors => itemHeading "1a" Ingestion.riskFactors
  | .mdna => itemHeading "7" Ingestion.mdna
  | .financialStatements => itemHeading "8" Ingestion.financialStatements

/-- `boundary["end"]`. -/
def SectionName.ends : SectionName → List Boundary
  | .business => [itemHeading "1a" Ingestion.riskFactors]
  | .riskFactors => [itemNumber "1b", itemNumber "1c", itemNumber "2"]
  | .mdna => [responsibilityStatement, controlReport, itemNumber "7a", itemHeading "8" Ingestion.financialStatements]
  | .financialStatements => [itemNumber "9"]

def minValidSectionLength : Nat := 1000
def minGenuineStartInterval : Nat := 200

/-- A letter of a pattern compiled with `re.IGNORECASE`. -/
def anyLetter (choices : List Char) : Regex Char String :=
  unit fun c => choices.any fun letter => matchesIgnoringCase letter c

/-- A word of a pattern compiled with `re.IGNORECASE`. -/
def anyWord (text : String) : Regex Char String :=
  word matchesIgnoringCase text.toList

/-- `$`. -/
def atEnd : Regex Char String :=
  look fun _ rest => rest = [] || rest = ['\n']

def newlines : Regex Char String :=
  plus (unit (· == '\n'))

def blanks : Regex Char String :=
  many false (unit isSpace)

/-- `TRAILING_NOISE_PATTERNS` before their `$`. -/
def trailingNoiseBodies : List (Regex Char String) :=
  let digit := unit Evidence.isDecimal
  let part := cat [anyWord "part", spaces, plus (anyLetter ['i', 'v', 'x'])]
  [cat [newlines, digit, upTo 3 digit, blanks, newlines, part, blanks,
      opt (cat [anyWord "item", spaces, plus digit, opt (anyLetter ['a', 'b', 'c']), opt (literal ".")]), blanks],
    cat [newlines, phrase [anyWord "table", anyWord "of", anyWord "contents"], blanks],
    cat [newlines, part, blanks]]

/-! ## The lower-cased text -/

variable (u : LowerTables)

/-- Each character with what stands before it, nearest first, and behind it. -/
def contexts : List Char → List Char → List (List Char × Char × List Char)
  | _, [] => []
  | before, c :: after => (before, c, after) :: contexts (c :: before) after

/-- The lower case of one character in its context. -/
def LowerTables.lowerOne (x : List Char × Char × List Char) : List Char :=
  u.lowerIn x.1 x.2.1 x.2.2

/-- The lower case of a text behind another. -/
def LowerTables.lowerFrom (before text : List Char) : List Char :=
  (contexts before text).flatMap u.lowerOne

/-- `text.lower()`. -/
def LowerTables.lower (text : List Char) : List Char :=
  u.lowerFrom [] text

/-- `\b`. -/
def LowerTables.isBoundary (before : Option Char) (rest : List Char) : Bool :=
  before.any u.isWord != rest.head?.any u.isWord

/-- What a boundary matches, its `\b` apart. -/
def Boundary.body (b : Boundary) : Regex Char String :=
  seq (literal b.keyword) b.tail

def Boundary.regex (b : Boundary) : Regex Char String :=
  seq b.body (look fun before rest => !b.closed || u.isBoundary before rest)

/-! ## Sections -/

/-- `_strip_trailing_noise`. -/
def stripTrailingNoise (content : List Char) : List Char :=
  let content := trailingNoiseBodies.foldl (fun content body => (seq body atEnd).remove content) content
  (content.reverse.dropWhile isSpace).reverse

/-- `_strip_trailing_noise(text[start:stop].strip())`. -/
def cleaned (text : List Char) (start stop : Nat) : List Char :=
  stripTrailingNoise (stripBy isSpace (slice text start stop))

/-- `_iter_end_candidates`. -/
def endCandidates (lowered : List Char) (patterns : List Boundary) (startPos : Nat) : List Nat :=
  ((patterns.flatMap fun pattern => ((pattern.regex u).finditer (lowered.drop startPos)).map fun m =>
    startPos + m.1.before.length).dedup).insertionSort (· ≤ ·)

/-- The content, when it is long enough. -/
def longEnough (content : List Char) : Option (List Char) :=
  if minValidSectionLength ≤ content.length then some content else none

/-- The loop of `_extract_valid_content`. No value stands for a loop that does not end. -/
def validLoop (text lowered : List Char) (patterns : List Boundary) (start : Nat) : Nat → Nat → Option (Option (List Char))
  | 0, _ => none
  | fuel + 1, cursor =>
    match endCandidates u lowered patterns cursor with
    | [] => some (longEnough (cleaned text start text.length))
    | stop :: _ =>
      match longEnough (cleaned text start stop) with
      | some content => some (some content)
      | none => validLoop text lowered patterns start fuel (stop + 1)

/-- `_extract_valid_content` of a heading from `start` to `headingEnd`. -/
def extractValidContent (text lowered : List Char) (patterns : List Boundary) (start headingEnd : Nat) :
    Option (Option (List Char)) :=
  match endCandidates u lowered patterns headingEnd with
  | [] => some (longEnough (cleaned text start text.length))
  | first :: _ =>
    if first - headingEnd < minGenuineStartInterval then some none
    else validLoop u text lowered patterns start (lowered.length + 1) headingEnd

/-- `_is_reference_match`. -/
def isReferenceMatch (name : SectionName) (lowered : List Char) (endPos : Nat) : Bool :=
  let suffix := ((lowered.drop endPos).take 80).dropWhile isSpace
  "of this".toList.isPrefixOf suffix || "in this".toList.isPrefixOf suffix ||
    (name = .riskFactors && ("and ".toList.isPrefixOf suffix || ";".toList.isPrefixOf suffix))

/-- The first heading with content, of the matches left. -/
def firstContent (text lowered : List Char) (name : SectionName) :
    List (Cursor Char String × Cursor Char String) → Option (Option (List Char))
  | [] => some none
  | m :: ms =>
    if isReferenceMatch name lowered m.2.before.length then firstContent text lowered name ms
    else
      match extractValidContent u text lowered name.ends m.1.before.length m.2.before.length with
      | none => none
      | some none => firstContent text lowered name ms
      | some (some content) =>
        if minValidSectionLength ≤ content.length then some (some content) else firstContent text lowered name ms

/-- `_find_sections`. -/
def findSections (text lowered : List Char) : List SectionName → Option (List (SectionName × List Char))
  | [] => some []
  | name :: names => do
    let content ← firstContent u text lowered name ((name.heading.regex u).finditer lowered)
    let sections ← findSections text lowered names
    match content with
    | none => pure sections
    | some content => pure ((name, content) :: sections)

structure ExtractionResult where
  sections : List (SectionName × List Char)
  warnings : List String

def shortWarning (found : SectionName × List Char) : String :=
  "Section '" ++ found.1.text ++ "' only has " ++ toString found.2.length ++ " characters — suspicious " ++
    "extraction (likely includes table of contents or truncated). Please verify manually."

def missingWarning (name : SectionName) : String :=
  "Section '" ++ name.text ++ "' NOT found in this filing"

/-- `extract_sections`, the missing sections in the order of their declaration. -/
def extractSections (text : List Char) : Option ExtractionResult := do
  let sections ← findSections u text (u.lower text) SectionName.all
  let short := sections.filter fun found => found.2.length < minValidSectionLength
  let missing := SectionName.all.filter fun name => !(sections.map Prod.fst).contains name
  pure ⟨sections, short.map shortWarning ++ missing.map missingWarning⟩

end Ingestion
