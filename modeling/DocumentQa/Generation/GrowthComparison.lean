import DocumentQa.Generation.CompanyEntities

/-!
# The growth comparison

`render_deterministic_growth_comparison` states for Amazon and for Microsoft the rate of the
first match in the first source of each, and closes with a sentence that is the same whatever
the rates are. So the sentence is true exactly where Microsoft's rate is the larger one.
-/

namespace Growth

open Python Evidence Regex Generation

/-! ## Patterns -/

/-- `\s+`. -/
def spaces : Regex Char String :=
  plus (unit isSpace)

/-- `\d+(?:\.\d+)?`. -/
def decimalPattern : Regex Char String :=
  seq (plus (unit isDecimal)) (opt (seq (unit (· == '.')) (plus (unit isDecimal))))

/-- `(?P<rate>\d+(?:\.\d+)?)\s*%`. -/
def ratePattern : Regex Char String :=
  cat [group "rate" decimalPattern, many false (unit isSpace), unit (· == '%')]

/-- `(?P<year>(?:19|20)\d{2})`. -/
def yearPattern : Regex Char String :=
  group "year" (cat [oneOf [exactly "19", exactly "20"], times 2 (unit isDecimal)])

/-- `.*?`. -/
def anything : Regex Char String :=
  many true (unit (· != '\n'))

/-- `patterns.get(ticker, ())`. -/
def patterns : Ticker → List (Regex Char String)
  | .AMZN =>
    [cat [anyCase "aws", spaces, anyCase "sales", spaces, anyCase "increased", spaces, ratePattern, spaces, anyCase "in",
        spaces, yearPattern],
      cat [anyCase "aws", spaces, oneOf [anyCase "sales", anyCase "growth"], anything, ratePattern]]
  | .MSFT =>
    [cat [anyCase "microsoft", spaces, anyCase "cloud", spaces, anyCase "revenue", spaces, anyCase "increased", spaces,
        ratePattern],
      cat [anyCase "microsoft", spaces, anyCase "cloud", anything, ratePattern]]
  | _ => []

/-! ## Selecting -/

/-- A value of `selected`. -/
structure Stated where
  number : Nat
  sentence : List Char
  rate : List Char
  year : Option (List Char)
deriving DecidableEq

/-- What is kept of a match. -/
def stated (source : EvidenceSource) (match_ : Cursor Char String × Cursor Char String) : Stated where
  number := source.number
  sentence := match_.1.text match_.2
  rate := (match_.2.group? "rate").getD []
  year := match_.2.group? "year"

/-- The loop over the patterns of a ticker. -/
def firstMatch (ticker : Ticker) (source : EvidenceSource) : Option Stated :=
  (patterns ticker).findSome? fun pattern => (pattern.search source.text.toList).map (stated source)

/-- The first ticker of the question that the citation names. -/
def sourceTicker (u : UnicodeTables) (tickers : List Ticker) (source : EvidenceSource) : Option Ticker :=
  tickers.find? (detectTickers u source.citation).contains

/-- The body of the loop over the sources. -/
def selectFrom (u : UnicodeTables) (tickers : List Ticker) (selected : List (Ticker × Stated)) (source : EvidenceSource) :
    List (Ticker × Stated) :=
  match sourceTicker u tickers source with
  | none => selected
  | some ticker =>
    if (selected.lookup ticker).isSome then selected
    else match firstMatch ticker source with
      | none => selected
      | some found => selected ++ [(ticker, found)]

/-- The rates that are stated, in the order of the tickers of the question. -/
def growthStatements (u : UnicodeTables) (question evidenceContext : String) : Option (List (Ticker × Stated)) :=
  if comparativeMode u question ≠ .growth then none
  else
    let tickers := detectTickers u question
    if tickers.length < 2 then none
    else
      let selected := (parseEvidenceSources evidenceContext).foldl (selectFrom u tickers) []
      tickers.mapM fun ticker => (selected.lookup ticker).map fun found => (ticker, found)

/-! ## Rendering -/

/-- The sentence about one company. -/
def statement (answerLanguage : String) (fact : Ticker × Stated) : String :=
  let rate := String.ofList fact.2.rate
  let source := " [Source " ++ String.ofList (JsonText.natText fact.2.number) ++ "]."
  if answerLanguage = "vi" then
    (if fact.1 = .AMZN then "AWS của Amazon" else "Microsoft Cloud") ++ " được báo cáo có tốc độ tăng trưởng " ++ rate ++ "%" ++
      (match fact.2.year with
        | some year => if year = [] then "" else " trong " ++ String.ofList year
        | none => "") ++ source
  else
    (if fact.1 = .AMZN then "Amazon's AWS segment" else "Microsoft Cloud") ++ " reported a growth rate of " ++ rate ++ "%" ++
      (match fact.2.year with
        | some year => if year = [] then "" else " in " ++ String.ofList year
        | none => "") ++ source

/-- The last sentence. -/
def conclusion (answerLanguage : String) : String :=
  if answerLanguage = "vi" then
    "Theo các tỷ lệ được báo cáo, Microsoft Cloud có tỷ lệ cao hơn AWS; " ++
      "đây chỉ là so sánh các tỷ lệ tăng trưởng được nêu trong các đoạn trích."
  else
    "On the reported rates, Microsoft Cloud is higher than AWS; this is " ++
      "a comparison of the disclosed growth rates only."

/-- `render_deterministic_growth_comparison`. -/
def renderDeterministicGrowthComparison (u : UnicodeTables) (question evidenceContext answerLanguage : String) :
    Option String :=
  (growthStatements u question evidenceContext).map fun facts =>
    " ".intercalate (facts.map (statement answerLanguage) ++ [conclusion answerLanguage])

/-! ## What is selected -/

variable {u : UnicodeTables} {question evidenceContext answerLanguage : String}

/-- The first match in the first source of a ticker that has one. -/
def firstStated (u : UnicodeTables) (tickers : List Ticker) (ticker : Ticker) (sources : List EvidenceSource) : Option Stated :=
  sources.findSome? fun source => if sourceTicker u tickers source = some ticker then firstMatch ticker source else none

theorem selectFrom_lookup (tickers : List Ticker) (selected : List (Ticker × Stated)) (source : EvidenceSource)
    (ticker : Ticker) : (selectFrom u tickers selected source).lookup ticker = (selected.lookup ticker).or
      (if sourceTicker u tickers source = some ticker then firstMatch ticker source else none) := by
  rw [selectFrom]
  cases named : sourceTicker u tickers source with
  | none => simp
  | some t =>
    dsimp only
    by_cases same : t = ticker
    · subst same
      rw [if_pos rfl]
      cases held : selected.lookup t with
      | some kept => simp [held]
      | none =>
        cases found : firstMatch t source with
        | none => simp [held]
        | some f => simp [held, List.lookup_append]
    · rw [if_neg fun e => same (Option.some.inj e), Option.or_none]
      split
      · rfl
      · cases firstMatch t source with
        | none => rfl
        | some f =>
          have other : (ticker == t) = false := beq_false_of_ne fun e => same e.symm
          simp [List.lookup_append, List.lookup_cons, other]

theorem select_lookup (tickers : List Ticker) (sources : List EvidenceSource) (selected : List (Ticker × Stated))
    (ticker : Ticker) : (sources.foldl (selectFrom u tickers) selected).lookup ticker =
      (selected.lookup ticker).or (firstStated u tickers ticker sources) := by
  induction sources generalizing selected with
  | nil => rw [List.foldl_nil, firstStated, List.findSome?_nil, Option.or_none]
  | cons source sources ih =>
    rw [List.foldl_cons, ih, selectFrom_lookup, Option.or_assoc, firstStated, firstStated, List.findSome?_cons]
    congr 1
    cases (if sourceTicker u tickers source = some ticker then firstMatch ticker source else none) with
    | none => rfl
    | some f => rfl

/-- **When an answer is returned**: for a question of growth that names two companies or more, where every one of them
has a source with a match. -/
theorem growthStatements_eq_some {facts : List (Ticker × Stated)} :
    growthStatements u question evidenceContext = some facts ↔ comparativeMode u question = .growth ∧
      2 ≤ (detectTickers u question).length ∧ facts.map Prod.fst = detectTickers u question ∧ ∀ fact ∈ facts,
        firstStated u (detectTickers u question) fact.1 (parseEvidenceSources evidenceContext) = some fact.2 := by
  have mapped (tickers : List Ticker) (get : Ticker → Option Stated) (facts : List (Ticker × Stated)) :
      (tickers.mapM fun ticker => (get ticker).map fun found => (ticker, found)) = some facts ↔
        facts.map Prod.fst = tickers ∧ ∀ fact ∈ facts, get fact.1 = some fact.2 := by
    induction tickers generalizing facts with
    | nil =>
      rw [List.mapM_nil, Option.pure_def, Option.some.injEq, List.map_eq_nil_iff]
      constructor
      · rintro rfl
        exact ⟨rfl, fun _ mem => absurd mem List.not_mem_nil⟩
      · exact fun h => h.1.symm
    | cons ticker tickers ih =>
      rw [List.mapM_cons]
      constructor
      · intro h
        obtain ⟨fact, one, h⟩ := Option.bind_eq_some_iff.1 h
        obtain ⟨rest, others, h⟩ := Option.bind_eq_some_iff.1 h
        cases h
        obtain ⟨found, here, rfl⟩ := Option.map_eq_some_iff.1 one
        obtain ⟨names, all⟩ := (ih rest).1 others
        refine ⟨by rw [List.map_cons, names], ?_⟩
        rw [List.forall_mem_cons]
        exact ⟨here, all⟩
      · intro h
        obtain ⟨names, all⟩ := h
        cases facts with
        | nil => cases names
        | cons fact rest =>
          obtain ⟨rfl, others⟩ := List.cons.inj names
          rw [List.forall_mem_cons] at all
          rw [all.1, (ih rest).2 ⟨others, all.2⟩]
          rfl
  rw [growthStatements]
  split
  · next other => simp [other]
  · next growth =>
    rw [not_not] at growth
    dsimp only
    split
    · next few =>
      constructor
      · intro h
        cases h
      · intro h
        omega
    · next many =>
      simp only [select_lookup, List.lookup_nil, Option.none_or]
      rw [mapped]
      have two : 2 ≤ (detectTickers u question).length := by omega
      simp [growth, two]

theorem firstStated_eq_some {tickers : List Ticker} {ticker : Ticker} {sources : List EvidenceSource} {f : Stated}
    (h : firstStated u tickers ticker sources = some f) :
    ∃ source ∈ sources, sourceTicker u tickers source = some ticker ∧
      ∃ pattern ∈ patterns ticker, ∃ match_, pattern.search source.text.toList = some match_ ∧ f = stated source match_ := by
  obtain ⟨source, mem, found⟩ := List.exists_of_findSome?_eq_some h
  split at found
  · next named =>
    obtain ⟨pattern, listed, found⟩ := List.exists_of_findSome?_eq_some found
    obtain ⟨match_, read, rfl⟩ := Option.map_eq_some_iff.1 found
    exact ⟨source, mem, named, pattern, listed, match_, read, rfl⟩
  · cases found

/-- Only Amazon and Microsoft have patterns. -/
theorem firstStated_ticker {tickers : List Ticker} {ticker : Ticker} {sources : List EvidenceSource} {f : Stated}
    (h : firstStated u tickers ticker sources = some f) : ticker = .AMZN ∨ ticker = .MSFT := by
  obtain ⟨_, _, _, pattern, listed, _⟩ := firstStated_eq_some h
  cases ticker with
  | AMZN => exact .inl rfl
  | MSFT => exact .inr rfl
  | _ => exact absurd listed List.not_mem_nil

/-! ## The winner -/

/-- The number a rate is. -/
def rateValue (rate : List Char) : ℚ :=
  mkRat (intValue (rate.filter isDecimal)) (10 ^ ((rate.dropWhile (· != '.')).length - 1))

/-- How a sentence calls the rate of a company the higher one. -/
def higherPhrase (answerLanguage : String) (ticker : Ticker) : String :=
  (if ticker = .AMZN then "AWS" else "Microsoft Cloud") ++ (if answerLanguage = "vi" then " có tỷ lệ cao hơn" else " is higher than")

def namesHigher (answerLanguage sentence : String) (ticker : Ticker) : Bool :=
  isInfix (higherPhrase answerLanguage ticker).toList sentence.toList

/-- The answer states for each company of the question a match in a source of that company, and its last sentence names
as higher exactly the company whose rate is the larger one. -/
structure TrueComparison (u : UnicodeTables) (question evidenceContext answerLanguage answer : String)
    (facts : List (Ticker × Stated)) : Prop where
  selected : growthStatements u question evidenceContext = some facts
  written : answer = " ".intercalate (facts.map (statement answerLanguage) ++ [conclusion answerLanguage])
  companies : facts.map Prod.fst = detectTickers u question
  sourced : ∀ fact ∈ facts, ∃ source ∈ parseEvidenceSources evidenceContext,
    sourceTicker u (detectTickers u question) source = some fact.1 ∧
      ∃ pattern ∈ patterns fact.1, ∃ match_, pattern.search source.text.toList = some match_ ∧ fact.2 = stated source match_
  winner : ∀ fact ∈ facts, namesHigher answerLanguage (conclusion answerLanguage) fact.1 = true ↔
    ∀ other ∈ facts, other.1 ≠ fact.1 → rateValue other.2.rate < rateValue fact.2.rate

/-- Where the question compares the growth of just Amazon and Microsoft, the first match for Microsoft has a larger rate
than the first match for Amazon. -/
def MicrosoftLeads (u : UnicodeTables) (question evidenceContext : String) : Prop :=
  comparativeMode u question = .growth → (∀ ticker, ticker ∈ detectTickers u question ↔ ticker = .AMZN ∨ ticker = .MSFT) →
    ∀ amazon microsoft,
      firstStated u (detectTickers u question) .AMZN (parseEvidenceSources evidenceContext) = some amazon →
      firstStated u (detectTickers u question) .MSFT (parseEvidenceSources evidenceContext) = some microsoft →
        rateValue amazon.rate < rateValue microsoft.rate

/-- The last sentence names Microsoft, whatever the rates. -/
theorem conclusion_names (answerLanguage : String) :
    namesHigher answerLanguage (conclusion answerLanguage) .MSFT = true ∧
      namesHigher answerLanguage (conclusion answerLanguage) .AMZN = false := by
  by_cases vi : answerLanguage = "vi"
  · subst vi
    decide +kernel
  · rw [namesHigher, namesHigher, higherPhrase, higherPhrase, conclusion, if_neg vi, if_neg vi]
    decide +kernel

/-- The companies of an answer. -/
theorem answered_companies {facts : List (Ticker × Stated)} (h : growthStatements u question evidenceContext = some facts)
    (ticker : Ticker) : ticker ∈ detectTickers u question ↔ ticker = .AMZN ∨ ticker = .MSFT := by
  obtain ⟨-, two, names, all⟩ := growthStatements_eq_some.1 h
  have within : ∀ t ∈ detectTickers u question, t = .AMZN ∨ t = .MSFT := by
    intro t mem
    rw [← names] at mem
    obtain ⟨fact, there, rfl⟩ := List.mem_map.1 mem
    exact firstStated_ticker (all fact there)
  have distinct := detectTickers_nodup u question
  refine ⟨within ticker, fun either => ?_⟩
  -- two distinct tickers out of two are both of them
  match found : detectTickers u question, two, within, distinct with
  | a :: b :: rest, _, within, distinct =>
    have first := within a (List.mem_cons_self ..)
    have second := within b (List.mem_cons_of_mem _ (List.mem_cons_self ..))
    have apart : a ≠ b := by
      intro same
      subst same
      exact (List.nodup_cons.1 distinct).1 (List.mem_cons_self ..)
    have either_ : ticker = a ∨ ticker = b := by
      rcases either with rfl | rfl <;> rcases first with rfl | rfl <;> rcases second with rfl | rfl <;> simp at apart ⊢
    rcases either_ with rfl | rfl
    · exact List.mem_cons_self ..
    · exact List.mem_cons_of_mem _ (List.mem_cons_self ..)

/-- **The stated winner is the true one** exactly where Microsoft's rate is the larger one. -/
theorem growth_winner (u : UnicodeTables) (question evidenceContext answerLanguage : String) :
    (∀ answer, renderDeterministicGrowthComparison u question evidenceContext answerLanguage = some answer →
      ∃ facts, TrueComparison u question evidenceContext answerLanguage answer facts) ↔
      MicrosoftLeads u question evidenceContext := by
  obtain ⟨higher, lower⟩ := conclusion_names answerLanguage
  constructor
  · intro h growth both amazon microsoft first second
    have named (t : Ticker) (mem : t ∈ detectTickers u question) :
        firstStated u (detectTickers u question) t (parseEvidenceSources evidenceContext) =
          some (if t = .AMZN then amazon else microsoft) := by
      rcases (both t).1 mem with rfl | rfl
      · exact first
      · exact second
    have two : 2 ≤ (detectTickers u question).length := by
      have sub : [Ticker.AMZN, .MSFT] ⊆ detectTickers u question := by
        intro t mem
        exact (both t).2 (by simpa using mem)
      have perm := List.subperm_of_subset (by decide : [Ticker.AMZN, .MSFT].Nodup) sub
      exact perm.length_le
    have selected : growthStatements u question evidenceContext =
        some ((detectTickers u question).map fun t => (t, if t = .AMZN then amazon else microsoft)) := by
      apply growthStatements_eq_some.2
      refine ⟨growth, two, by rw [List.map_map]; exact List.map_id _, ?_⟩
      rw [List.forall_mem_map]
      exact named
    have written : ∃ answer, renderDeterministicGrowthComparison u question evidenceContext answerLanguage = some answer := by
      rw [renderDeterministicGrowthComparison, selected]
      exact ⟨_, rfl⟩
    obtain ⟨answer, written⟩ := written
    obtain ⟨facts, true_⟩ := h answer written
    have same := true_.selected
    rw [selected] at same
    obtain rfl := Option.some.inj same
    have claimed := (true_.winner (.MSFT, microsoft) (List.mem_map.2 ⟨.MSFT, (both _).2 (.inr rfl), rfl⟩)).1 higher
    exact claimed (.AMZN, amazon) (List.mem_map.2 ⟨.AMZN, (both _).2 (.inl rfl), rfl⟩) Ticker.noConfusion
  · intro leads answer written
    obtain ⟨facts, selected, rfl⟩ := Option.map_eq_some_iff.1 written
    obtain ⟨growth, -, names, all⟩ := growthStatements_eq_some.1 selected
    have both := answered_companies selected
    have less : ∀ {a m}, (Ticker.AMZN, a) ∈ facts → (Ticker.MSFT, m) ∈ facts → rateValue a.rate < rateValue m.rate := by
      intro a m first second
      exact leads growth both a m (all _ first) (all _ second)
    have present (t : Ticker) (either : t = .AMZN ∨ t = .MSFT) : ∃ f, (t, f) ∈ facts := by
      have mem := (both t).2 either
      rw [← names] at mem
      obtain ⟨fact, there, rfl⟩ := List.mem_map.1 mem
      exact ⟨fact.2, there⟩
    have ticker (fact : Ticker × Stated) (mem : fact ∈ facts) : fact.1 = .AMZN ∨ fact.1 = .MSFT := by
      exact firstStated_ticker (all fact mem)
    refine ⟨facts, selected, rfl, names, fun fact mem => firstStated_eq_some (all fact mem), ?_⟩
    intro fact mem
    obtain ⟨t, f⟩ := fact
    have which := ticker (t, f) mem
    dsimp only at which
    rcases which with rfl | rfl
    · obtain ⟨m, there⟩ := present .MSFT (.inr rfl)
      constructor
      · intro names_
        rw [lower] at names_
        cases names_
      · intro all_
        have one := all_ _ there Ticker.noConfusion
        have other := less mem there
        exact absurd (one.trans other) (lt_irrefl _)
    · refine ⟨fun _ other there apart => ?_, fun _ => higher⟩
      obtain ⟨v, g⟩ := other
      have which := ticker (v, g) there
      dsimp only at which apart
      rcases which with rfl | rfl
      · exact less there mem
      · exact absurd rfl apart

def sampleTables : UnicodeTables where
  casefold := casefold
  isWord c := c.isAlphanum || c == '_'

def sampleContext : String :=
  "[Source 1] AMZN\nAWS growth 30%\n[Source 2] MSFT\nMicrosoft Cloud 12%"

/-- An answer that calls Microsoft's 12% higher than Amazon's 30%. -/
theorem smaller_rate_wins : ¬ ∀ answer,
    renderDeterministicGrowthComparison sampleTables "growth MSFT AMZN" sampleContext "en" = some answer →
      ∃ facts, TrueComparison sampleTables "growth MSFT AMZN" sampleContext "en" answer facts := by
  intro h
  have selected : growthStatements sampleTables "growth MSFT AMZN" sampleContext = some
      [(.MSFT, ⟨2, "Microsoft Cloud 12%".toList, ['1', '2'], none⟩), (.AMZN, ⟨1, "AWS growth 30%".toList, ['3', '0'], none⟩)] := by
    decide +kernel
  have written : ∃ answer,
      renderDeterministicGrowthComparison sampleTables "growth MSFT AMZN" sampleContext "en" = some answer := by
    rw [renderDeterministicGrowthComparison, selected]
    exact ⟨_, rfl⟩
  obtain ⟨answer, written⟩ := written
  obtain ⟨facts, true_⟩ := h answer written
  have same := true_.selected
  rw [selected] at same
  obtain rfl := Option.some.inj same
  have claimed := (true_.winner _ (List.mem_cons_self ..)).1 (conclusion_names "en").1
  have smaller := claimed _ (List.mem_cons_of_mem _ (List.mem_cons_self ..)) Ticker.noConfusion
  exact absurd smaller (by decide +kernel)

end Growth
