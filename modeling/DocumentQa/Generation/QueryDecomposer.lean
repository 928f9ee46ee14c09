import DocumentQa.Lib.Checked
import DocumentQa.Lib.Regex
import DocumentQa.Python.Json
import DocumentQa.Retrieval.Lookup

/-!
# Plans of the query decomposer

The completion of the planning model is cut out of its fences, parsed and validated inside a
handler that turns every error but a retryable one into the simple path, and the validated
plan is then taken apart outside of it. The text of a JSON error is a parameter, since the
handler looks for words of a rate limit in it, and so is how deep a text may nest.
-/

namespace Decomposer

open Python JsonText Regex

/-- What the handler sees of an exception: `str(error)`. -/
abbrev Raised :=
  String

/-- `_is_retryable_external_error`. -/
def isRetryableExternalError (error : Raised) : Bool :=
  ["429", "rate limit", "quota", "503", "unavailable"].any fun marker => isInfix marker.toList (Retrieval.lower error)

def supportedTickers : List String :=
  ["AAPL", "MSFT", "AMZN", "GOOGL", "META", "NVDA", "TSLA", "JPM", "BAC", "GS", "MS", "BRK-B", "JNJ", "UNH", "PFE", "WMT",
    "HD", "MCD", "XOM", "CVX", "AMD", "INTC", "QCOM", "AVGO", "TXN", "CRM", "ORCL", "NOW", "IBM", "V", "MA", "AXP", "LLY",
    "MRK", "ABBV", "TMO", "PG", "KO", "PEP", "COST", "NKE", "CAT", "GE", "BA", "LMT", "HON", "UPS", "RTX", "VZ", "T"]

def validSections : List String :=
  ["business", "risk_factors", "mdna", "financial_statements", "financial_table"]

/-! ## Values of a plan -/

/-- `type(value).__name__`. -/
def typeName : Json → String
  | .null => "NoneType"
  | .bool _ => "bool"
  | .int _ => "int"
  | .float _ => "float"
  | .str _ => "str"
  | .arr _ => "list"
  | .obj _ => "dict"

/-- `value.get` of a value. -/
def attributeGet : Json → Except Raised (List (String × Json))
  | .obj fields => .ok fields
  | value => .error ("'" ++ typeName value ++ "' object has no attribute 'get'")

/-- `for item in value`. -/
def iterate : Json → Except Raised (List Json)
  | .arr items => .ok items
  | .obj fields => .ok (fields.map fun field => .str field.1)
  | .str text => .ok (text.toList.map fun c => .str (String.ofList [c]))
  | value => .error ("'" ++ typeName value ++ "' object is not iterable")

/-- `value in names` of a set of texts. -/
def memberOf (names : List String) : Json → Except Raised Bool
  | .str text => .ok (names.contains text)
  | .arr _ => .error "unhashable type: 'list'"
  | .obj _ => .error "unhashable type: 'dict'"
  | _ => .ok false

/-- `value[:n]` of a value, for its error alone. -/
def cut : Json → Except Raised Unit
  | .str _ | .arr _ => .ok ()
  | .obj _ => .error "slice(None, 50, None)"
  | value => .error ("'" ++ typeName value ++ "' object is not subscriptable")

/-- `value is not None and value not in names`. -/
def isUnsupported (names : List String) : Option Json → Except Raised Bool
  | none | some .null => .ok false
  | some value => do
    let member ← memberOf names value
    pure !member

/-! ## `_validate_plan` -/

/-- The log of a dropped sub-query cuts its query. -/
def logDropped (fields : List (String × Json)) : Except Raised Bool := do
  cut ((fields.lookup "query").getD (.str ""))
  pure false

/-- The body of the loop: whether the sub-query is valid. -/
def validateSubQuery (sq : Json) : Except Raised Bool := do
  let fields ← attributeGet sq
  let badTicker ← isUnsupported supportedTickers (fields.lookup "ticker")
  if badTicker then logDropped fields
  else
    let badSection ← isUnsupported validSections (fields.lookup "section")
    if badSection then logDropped fields else pure true

/-- `valid_sub_queries`. -/
def validSubQueries : List Json → Except Raised (List Json)
  | [] => pure []
  | sq :: rest => do
    let valid ← validateSubQuery sq
    let others ← validSubQueries rest
    pure (if valid then sq :: others else others)

/-- A plan as `run` reads it: the truth of `needs_decomposition` and the sub-queries. -/
structure Plan where
  needsDecomposition : Bool
  subQueries : List Json

/-- The plan a list of valid sub-queries makes. -/
def planOf (valid : List Json) : Plan :=
  if valid.isEmpty then ⟨false, []⟩ else ⟨true, valid⟩

/-- `_validate_plan`. Of a plan that needs no decomposition nothing else is read. -/
def validatePlan (plan : Json) : Except Raised Plan := do
  let fields ← attributeGet plan
  if !truthy ((fields.lookup "needs_decomposition").getD .null) then pure ⟨false, []⟩
  else
    let items ← iterate ((fields.lookup "sub_queries").getD (.arr []))
    let valid ← validSubQueries items
    pure (planOf valid)

/-! ## `_plan` -/

def fence : List Char :=
  ['`', '`', '`']

/-- The text before the next fence. -/
def beforeFence : List Char → List Char
  | [] => []
  | c :: cs => if fence.isPrefixOf (c :: cs) then [] else c :: beforeFence cs

/-- A leading `json`, cut. -/
def withoutLabel (raw : List Char) : List Char :=
  if ['j', 's', 'o', 'n'].isPrefixOf raw then raw.drop 4 else raw

/-- Strip markdown fences if applicable. -/
def withoutFences (raw : List Char) : List Char :=
  if fence.isPrefixOf raw then withoutLabel (beforeFence (raw.drop 3)) else raw

/-- `\{.*\}` with `DOTALL`. -/
def bracePattern : Regex Char String :=
  seq (unit (· == '\x7b')) (seq (many false (unit fun _ => true)) (unit (· == '\x7d')))

/-- The text between the outermost braces, if any. -/
def betweenBraces (raw : List Char) : List Char :=
  match bracePattern.search raw with
  | none => raw
  | some m => m.1.text m.2

/-- The text of a completion that is parsed. -/
def planText (content : String) : String :=
  String.ofList (betweenBraces (withoutFences (stripBy isSpace content.toList)))

/-- `int(text)` and `float(text)` of a number literal. An integer that is too long raises; a
float is zero from half the least double downwards, and of the others only that they are not
zero is ever read. -/
def numberOf : Json → Option Json
  | .int i => if i.natAbs < 10 ^ maxStrDigits then some (.int i) else none
  | .float (.finite d) => some (.float (if d.sig * 2 ^ 1075 ≤ 10 ^ (-d.exp).toNat then .zero d.neg else .finite d))
  | j => some j

/-- `json.loads` of a completion. An unpaired surrogate reads as the replacement character,
which like it is in no key of a plan, no ticker and no section. -/
def planHooks : Hooks :=
  { Hooks.plain with number := numberOf, lone := fun _ => some (Char.ofNat 0xFFFD) }

/-- What the interpreter adds to `json.loads`: the text of its error, and the texts whose
nesting exhausts its stack. -/
structure Decoder where
  error : String → Raised
  exhausts : String → Bool

/-- `json.loads(raw)`, `none` where it raises. -/
def Decoder.loads (decoder : Decoder) (raw : String) : Option Json :=
  if decoder.exhausts raw then none else loadsWith planHooks raw.toList

section Planner

variable (decoder : Decoder)

/-- `json.loads(raw)`, with the text of its error. -/
def parsePlan (raw : String) : Except Raised Json :=
  Checked.orRaise (decoder.loads raw) (decoder.error raw)

/-- The body of the handler. -/
def planned : Option String → Except Raised Plan
  | none => .error "'NoneType' object has no attribute 'strip'"
  | some content => do
    let plan ← parsePlan decoder (planText content)
    validatePlan plan

/-- `_plan` of a completion with the given content. -/
def plan (content : Option String) : Except Raised Plan :=
  match planned decoder content with
  | .ok plan => .ok plan
  | .error error => if isRetryableExternalError error then .error error else .ok ⟨false, []⟩

end Planner

/-! ## `run` -/

structure SubQuery where
  query : Json
  ticker : Json
  «section» : Json

/-- `SubQuery(query=sq["query"], ticker=sq.get("ticker"), section=sq.get("section"))`. -/
def subQueryOf (sq : Json) : Except Raised SubQuery := do
  let fields ← attributeGet sq
  let query ← Checked.orRaise (fields.lookup "query") "'query'"
  pure ⟨query, (fields.lookup "ticker").getD .null, (fields.lookup "section").getD .null⟩

/-- `retrieve_one` without a cancelled event: a text is retrieved for or its failure logged,
and of anything else the retrieval fails and the log cuts it. -/
def retrieveOne (sq : SubQuery) : Except Raised Unit :=
  match sq.query with
  | .str _ => .ok ()
  | query => cut query

/-- The path a request takes. -/
inductive Path where
  | simple
  | decomposed (subQueries : List SubQuery)

/-- Complex query: decompose and execute. -/
def decompose (subQueries : List Json) : Except Raised Path := do
  let subQueries ← Checked.collect subQueryOf subQueries
  if subQueries.isEmpty then pure .simple
  else
    Checked.each retrieveOne subQueries
    pure (.decomposed subQueries)

/-- `QueryDecomposer.run`, up to the retrieval of the sub-queries. -/
def run (decoder : Decoder) (content : Option String) : Except Raised Path := do
  let plan ← plan decoder content
  if plan.needsDecomposition then decompose plan.subQueries else pure .simple

end Decomposer
