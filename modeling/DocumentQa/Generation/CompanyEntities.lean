import DocumentQa.Evaluation.Evidence
import DocumentQa.Lib.Checked
import DocumentQa.Lib.Regex
import DocumentQa.Python.Search

/-!
# Companies and the kind of a comparative question

A text names a company by one of its aliases or by its ticker; the companies come in the order
in which they first appear. The case folding and the word characters of Python's Unicode
tables are parameters.
-/

namespace Generation

open Python Regex

/-- What Python's Unicode tables say. -/
structure UnicodeTables where
  /-- `value.casefold()` -/
  casefold : List Char → List Char
  /-- `\w` -/
  isWord : Char → Bool

/-- The keys of `COMPANY_ALIASES`. -/
inductive Ticker where
  | AAPL | MSFT | AMZN | GOOGL | META | NVDA | TSLA | MS | MCD | INTC | COST | GE | HON
deriving DecidableEq

def Ticker.all : List Ticker :=
  [.AAPL, .MSFT, .AMZN, .GOOGL, .META, .NVDA, .TSLA, .MS, .MCD, .INTC, .COST, .GE, .HON]

def Ticker.text : Ticker → String
  | .AAPL => "AAPL"
  | .MSFT => "MSFT"
  | .AMZN => "AMZN"
  | .GOOGL => "GOOGL"
  | .META => "META"
  | .NVDA => "NVDA"
  | .TSLA => "TSLA"
  | .MS => "MS"
  | .MCD => "MCD"
  | .INTC => "INTC"
  | .COST => "COST"
  | .GE => "GE"
  | .HON => "HON"

/-- `COMPANY_ALIASES`. -/
def Ticker.aliases : Ticker → List String
  | .AAPL => ["apple"]
  | .MSFT => ["microsoft"]
  | .AMZN => ["amazon"]
  | .GOOGL => ["alphabet", "google"]
  | .META => ["meta", "facebook"]
  | .NVDA => ["nvidia"]
  | .TSLA => ["tesla"]
  | .MS => ["morgan stanley"]
  | .MCD => ["mcdonald's", "mcdonalds"]
  | .INTC => ["intel"]
  | .COST => ["costco"]
  | .GE => ["general electric", "ge aerospace"]
  | .HON => ["honeywell"]

/-! ## Patterns -/

/-- `\b`. -/
def UnicodeTables.boundary (u : UnicodeTables) : Regex Char String :=
  look fun before rest => before.any u.isWord != rest.head?.any u.isWord

/-- The characters of a text. -/
def exactly (text : String) : Regex Char String :=
  word (· == ·) text.toList

/-- The letters of a lower-case word, compiled with `re.IGNORECASE`. -/
def anyCase (text : String) : Regex Char String :=
  word matchesIgnoringCase text.toList

/-- `\b(?:...|...)\b`. -/
def UnicodeTables.wholeWord (u : UnicodeTables) (choices : List (Regex Char String)) : Regex Char String :=
  cat [u.boundary, oneOf choices, u.boundary]

/-- `\b[A-Z]{1,5}(?:-[A-Z])?\b`. -/
def UnicodeTables.tickerPattern (u : UnicodeTables) : Regex Char String :=
  let capital := unit fun c => 'A' ≤ c && c ≤ 'Z'
  cat [u.boundary, capital, upTo 4 capital, opt (seq (unit (· == '-')) capital), u.boundary]

/-! ## `detect_tickers` -/

/-- Where an alias is first found as a word. -/
def aliasStart (u : UnicodeTables) (normalized : List Char) (alias_ : String) : Option Int :=
  ((u.wholeWord [exactly alias_]).search normalized).map fun m => (m.1.before.length : Int)

/-- `question.find(ticker)`. -/
def symbolStart (question : List Char) (ticker : Ticker) : Int :=
  match find question ticker.text.toList 0 with
  | some start => (start : Int)
  | none => -1

/-- `positions.get(ticker)` behind the loop. -/
def position (u : UnicodeTables) (question : List Char) (ticker : Ticker) : Option Int :=
  let aliased := (ticker.aliases.filterMap (aliasStart u (u.casefold question))).min?
  if (u.tickerPattern.findall question).contains ticker.text.toList then
    some (min (aliased.getD question.length) (symbolStart question ticker))
  else aliased

/-- The order of `sorted`: by position, then by ticker. -/
def appearsBefore (a b : Int × Ticker) : Bool :=
  a.1 < b.1 || (a.1 == b.1 && a.2.text ≤ b.2.text)

/-- `detect_tickers`. -/
def detectTickers (u : UnicodeTables) (question : String) : List Ticker :=
  let positions := Ticker.all.filterMap fun ticker => (position u question.toList ticker).map fun start => (start, ticker)
  (positions.insertionSort fun a b => appearsBefore a b = true).map Prod.snd

theorem detectTickers_nodup (u : UnicodeTables) (question : String) : (detectTickers u question).Nodup := by
  have named (tickers : List Ticker) :
      ((tickers.filterMap fun ticker => (position u question.toList ticker).map fun start => (start, ticker)).map
        Prod.snd).Sublist tickers := by
    induction tickers with
    | nil => exact .slnil
    | cons ticker tickers ih =>
      rw [List.filterMap_cons]
      cases position u question.toList ticker with
      | none => exact ih.cons ticker
      | some start => exact ih.cons_cons ticker
  have sorted := (List.perm_insertionSort (fun a b => appearsBefore a b = true) (Ticker.all.filterMap fun ticker =>
    (position u question.toList ticker).map fun start => (start, ticker))).map Prod.snd
  apply sorted.nodup_iff.2
  exact (named Ticker.all).nodup (by decide)

/-! ## `classify_comparative_question` -/

inductive Mode where
  | dependency | growth | value | qualitative
deriving DecidableEq

/-- `_DEPENDENCY_RE`. -/
def UnicodeTables.dependencyPattern (u : UnicodeTables) : Regex Char String :=
  u.wholeWord [seq (anyCase "depend") (oneOf [anyCase "s", anyCase "ed", anyCase "ence", anyCase "ency"]),
    seq (anyCase "reli") (oneOf [anyCase "es", anyCase "ance", anyCase "ant"]), anyCase "reliant"]

/-- `\b(?:growth|grew|increase|decrease|trend)\b`. -/
def UnicodeTables.growthPattern (u : UnicodeTables) : Regex Char String :=
  u.wholeWord (["growth", "grew", "increase", "decrease", "trend"].map exactly)

/-- `\b(?:higher|lower|largest|smallest|value|amount)\b`. -/
def UnicodeTables.valuePattern (u : UnicodeTables) : Regex Char String :=
  u.wholeWord (["higher", "lower", "largest", "smallest", "value", "amount"].map exactly)

/-- `classify_comparative_question(question).mode`. -/
def comparativeMode (u : UnicodeTables) (question : String) : Mode :=
  let lowered := u.casefold question.toList
  if u.dependencyPattern.found question.toList then .dependency
  else if u.growthPattern.found lowered then .growth
  else if u.valuePattern.found lowered then .value
  else .qualitative

end Generation
