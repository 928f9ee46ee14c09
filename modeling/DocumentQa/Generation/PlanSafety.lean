import DocumentQa.Generation.QueryDecomposer

/-!
# What a plan can do to a request

No error of the validation looks like a rate limit, so the handler lets only the error of the
JSON decoder through. A validated plan keeps the sub-queries whose ticker and section pass;
that their query is a text is checked nowhere, and so it is the condition under which a
request survives its plan.
-/

namespace Decomposer

open Python JsonText

/-! ## Errors of the validation -/

/-- A computation whose errors never look retryable. -/
def Calm {α : Type} (x : Except Raised α) : Prop :=
  ∀ e, x = .error e → isRetryableExternalError e = false

theorem calm_ok {α : Type} (a : α) : Calm (.ok a : Except Raised α) := by
  rintro e ⟨⟩

theorem Calm.bind {α β : Type} {x : Except Raised α} {f : α → Except Raised β} (first : Calm x)
    (second : ∀ a, x = .ok a → Calm (f a)) : Calm (x >>= f) := by
  intro e h
  cases x with
  | ok a => exact second a rfl e h
  | error e' =>
    cases h
    exact first _ rfl

/-- The messages that name a type. -/
theorem typed_calm (value : Json) {message : String}
    (h : message ∈ ["' object has no attribute 'get'", "' object is not iterable", "' object is not subscriptable"]) :
    isRetryableExternalError ("'" ++ typeName value ++ message) = false := by
  have all : (["NoneType", "bool", "int", "float", "str", "list", "dict"].all fun name =>
      ["' object has no attribute 'get'", "' object is not iterable", "' object is not subscriptable"].all fun message =>
        !isRetryableExternalError ("'" ++ name ++ message)) = true := by
    decide +kernel
  have named : typeName value ∈ ["NoneType", "bool", "int", "float", "str", "list", "dict"] := by
    cases value
    all_goals simp [typeName]
  exact Bool.not_eq_true' _ ▸ List.all_eq_true.1 (List.all_eq_true.1 all _ named) message h

theorem attributeGet_calm (value : Json) : Calm (attributeGet value) := by
  rintro e h
  cases value
  case obj => cases h
  all_goals
    cases h
    exact typed_calm _ (List.mem_cons_self ..)

theorem iterate_calm (value : Json) : Calm (iterate value) := by
  rintro e h
  cases value
  all_goals
    cases h
    try exact typed_calm _ (List.mem_cons_of_mem _ (List.mem_cons_self ..))

theorem cut_calm (value : Json) : Calm (cut value) := by
  rintro e h
  cases value
  case obj =>
    cases h
    decide +kernel
  all_goals
    cases h
    try exact typed_calm _ (List.mem_cons_of_mem _ (List.mem_cons_of_mem _ (List.mem_cons_self ..)))

theorem memberOf_calm (names : List String) (value : Json) : Calm (memberOf names value) := by
  rintro e h
  cases value
  all_goals
    cases h
    try decide +kernel

theorem isUnsupported_calm (names : List String) (value : Option Json) : Calm (isUnsupported names value) := by
  have member : ∀ v, Calm (do let member ← memberOf names v; pure !member : Except Raised Bool) :=
    fun v => (memberOf_calm names v).bind fun _ _ => calm_ok _
  cases value with
  | none => exact calm_ok _
  | some v =>
    cases v
    case null => exact calm_ok _
    all_goals exact member _

theorem logDropped_calm (fields : List (String × Json)) : Calm (logDropped fields) :=
  (cut_calm _).bind fun _ _ => calm_ok _

theorem validateSubQuery_calm (sq : Json) : Calm (validateSubQuery sq) := by
  refine (attributeGet_calm sq).bind fun fields _ => (isUnsupported_calm _ _).bind fun badTicker _ => ?_
  split
  · exact logDropped_calm fields
  · refine (isUnsupported_calm _ _).bind fun badSection _ => ?_
    split
    · exact logDropped_calm fields
    · exact calm_ok _

theorem validSubQueries_calm (items : List Json) : Calm (validSubQueries items) := by
  induction items with
  | nil => exact calm_ok _
  | cons sq rest ih => exact (validateSubQuery_calm sq).bind fun _ _ => ih.bind fun _ _ => calm_ok _

theorem validatePlan_calm (plan : Json) : Calm (validatePlan plan) := by
  refine (attributeGet_calm plan).bind fun fields _ => ?_
  split
  · exact calm_ok _
  · exact (iterate_calm _).bind fun items _ => (validSubQueries_calm items).bind fun _ _ => calm_ok _

/-! ## Valid sub-queries -/

/-- The sub-query passes the validation. -/
def passes (sq : Json) : Bool :=
  match validateSubQuery sq with
  | .ok valid => valid
  | .error _ => false

theorem validSubQueries_eq_ok {items valid : List Json} :
    validSubQueries items = .ok valid ↔ (∀ sq ∈ items, ∃ v, validateSubQuery sq = .ok v) ∧ valid = items.filter passes := by
  induction items generalizing valid with
  | nil =>
    rw [validSubQueries, Checked.pure_eq_ok]
    simp [eq_comm]
  | cons sq rest ih =>
    simp only [validSubQueries, Checked.bind_eq_ok, Checked.pure_eq_ok, ih, List.forall_mem_cons]
    constructor
    · rintro ⟨v, here, others, ⟨all, rfl⟩, rfl⟩
      refine ⟨⟨⟨v, here⟩, all⟩, ?_⟩
      rw [List.filter_cons]
      simp [passes, here]
    · rintro ⟨⟨⟨v, here⟩, all⟩, rfl⟩
      refine ⟨v, here, _, ⟨all, rfl⟩, ?_⟩
      rw [List.filter_cons]
      simp [passes, here]

/-- A text of the set, or nothing. -/
def Named (names : List String) (value : Json) : Prop :=
  value = .null ∨ ∃ name ∈ names, value = .str name

theorem isUnsupported_false {names : List String} {value : Option Json} (h : isUnsupported names value = .ok false) :
    Named names (value.getD .null) := by
  have member : ∀ {v : Json}, (do let member ← memberOf names v; pure !member : Except Raised Bool) = .ok false →
      ∃ name ∈ names, v = .str name := by
    intro v h
    obtain ⟨found, here, e⟩ := Checked.bind_eq_ok.1 h
    have yes : found = true := by simpa using Checked.pure_eq_ok.1 e
    subst yes
    cases v
    case str text => exact ⟨text, by simpa [memberOf] using here, rfl⟩
    all_goals cases here
  cases value with
  | none => exact .inl rfl
  | some v =>
    cases v
    case null => exact .inl rfl
    all_goals exact .inr (member h)

/-- What passes is an object with a supported or absent ticker and a valid or absent section. -/
theorem of_passes {sq : Json} (h : passes sq = true) :
    ∃ fields, sq = .obj fields ∧ Named supportedTickers ((fields.lookup "ticker").getD .null) ∧
      Named validSections ((fields.lookup "section").getD .null) := by
  rw [passes] at h
  split at h
  · next valid ok =>
    subst h
    simp only [validateSubQuery, Checked.bind_eq_ok] at ok
    obtain ⟨fields, object, badTicker, ticker, rest⟩ := ok
    have dropped : ∀ {b : Bool}, logDropped fields = .ok b → b = false := by
      intro b h
      obtain ⟨_, -, e⟩ := Checked.bind_eq_ok.1 h
      exact (Checked.pure_eq_ok.1 e).symm
    cases badTicker with
    | true => exact absurd (dropped rest) (by decide)
    | false =>
      obtain ⟨badSection, section_, rest⟩ := Checked.bind_eq_ok.1 rest
      cases badSection with
      | true => exact absurd (dropped rest) (by decide)
      | false =>
        refine ⟨fields, ?_, isUnsupported_false ticker, isUnsupported_false section_⟩
        cases sq
        case obj => exact congrArg Json.obj (Except.ok.inj object)
        all_goals cases object
  · cases h

/-! ## Requests -/

/-- A sub-query that retrieval can work with. -/
structure Proper (sq : SubQuery) : Prop where
  query : ∃ text, sq.query = .str text
  ticker : Named supportedTickers sq.ticker
  «section» : Named validSections sq.section

/-- The request is answered on the simple path or goes on with proper sub-queries. -/
def Safe : Except Raised Path → Prop
  | .error _ => False
  | .ok .simple => True
  | .ok (.decomposed subQueries) => subQueries ≠ [] ∧ ∀ sq ∈ subQueries, Proper sq

/-- The sub-query has a text to ask. -/
def Asks (sq : Json) : Prop :=
  ∃ fields text, sq = .obj fields ∧ fields.lookup "query" = some (.str text)

/-- The validation takes the plan and its list of sub-queries without an error. -/
def Accepts (plan : Json) (items : List Json) : Prop :=
  ∃ fields, plan = .obj fields ∧ truthy ((fields.lookup "needs_decomposition").getD .null) = true ∧
    iterate ((fields.lookup "sub_queries").getD (.arr [])) = .ok items ∧
    ∀ sq ∈ items, ∃ v, validateSubQuery sq = .ok v

theorem Accepts.unique {plan : Json} {items items' : List Json} (h : Accepts plan items) (h' : Accepts plan items') :
    items = items' := by
  obtain ⟨fields, e, -, list, -⟩ := h
  obtain ⟨fields', e', -, list', -⟩ := h'
  have same : fields = fields' := Json.obj.inj (e.symm.trans e')
  subst same
  exact Except.ok.inj (list.symm.trans list')

/-- The condition on a completion. -/
structure PlanFits (decoder : Decoder) (content : Option String) : Prop where
  /-- The error of a text that is not read as JSON does not look like a rate limit. -/
  decode : ∀ text, content = some text → decoder.loads (planText text) = none →
    isRetryableExternalError (decoder.error (planText text)) = false
  /-- The sub-queries that pass have a text as their query. -/
  asks : ∀ text plan items, content = some text → decoder.loads (planText text) = some plan → Accepts plan items →
    ∀ sq ∈ items, passes sq = true → Asks sq

theorem subQueryOf_asks {sq : Json} {fields : List (String × Json)} (object : sq = .obj fields) {s : SubQuery}
    (h : subQueryOf sq = .ok s) :
    fields.lookup "query" = some s.query ∧ s.ticker = (fields.lookup "ticker").getD .null ∧
      s.section = (fields.lookup "section").getD .null := by
  subst object
  simp only [subQueryOf, attributeGet, Checked.ok_bind, Checked.bind_eq_ok, Checked.orRaise_eq_ok, Checked.pure_eq_ok] at h
  obtain ⟨query, found, rfl⟩ := h
  exact ⟨found, rfl, rfl⟩

/-- **Taking a validated plan apart** is safe exactly when every sub-query asks a text. -/
theorem decompose_safe {items : List Json} (all : ∀ sq ∈ items, passes sq = true) :
    Safe (decompose items) ↔ ∀ sq ∈ items, Asks sq := by
  constructor
  · intro safe
    cases taken : Checked.collect subQueryOf items with
    | error e =>
      rw [decompose, taken] at safe
      exact safe.elim
    | ok subs =>
      intro sq mem
      obtain ⟨s, member, found⟩ := Checked.collect_mem taken mem
      obtain ⟨fields, object, -⟩ := of_passes (all sq mem)
      have proper : Proper s := by
        rw [decompose, taken, Checked.ok_bind] at safe
        split at safe
        · next none_ =>
          rw [List.isEmpty_iff.1 none_] at member
          cases member
        · cases each : Checked.each retrieveOne subs with
          | error e =>
            rw [each] at safe
            exact safe.elim
          | ok u =>
            rw [each] at safe
            exact safe.2 s member
      obtain ⟨text, query⟩ := proper.query
      exact ⟨fields, text, object, by rw [(subQueryOf_asks object found).1, query]⟩
  · intro asks
    obtain ⟨subs, taken⟩ : ∃ subs, Checked.collect subQueryOf items = .ok subs := by
      refine Checked.collect_exists fun sq mem => ?_
      obtain ⟨fields, text, rfl, query⟩ := asks sq mem
      exact ⟨_, by simp [subQueryOf, attributeGet, query, Checked.orRaise]; rfl⟩
    have proper : ∀ s ∈ subs, Proper s := by
      intro s member
      obtain ⟨sq, mem, found⟩ := Checked.collect_source taken member
      obtain ⟨fields, object, ticker, section_⟩ := of_passes (all sq mem)
      obtain ⟨query, same, same'⟩ := subQueryOf_asks object found
      obtain ⟨fields', text, object', asked⟩ := asks sq mem
      have one : fields = fields' := Json.obj.inj (object.symm.trans object')
      subst one
      exact ⟨⟨text, Option.some.inj (query.symm.trans asked)⟩, by rwa [same], by rwa [same']⟩
    have retrieved : Checked.each retrieveOne subs = .ok () := by
      refine Checked.each_eq_ok.2 fun s member => ?_
      obtain ⟨text, query⟩ := (proper s member).query
      rw [retrieveOne, query]
    rw [decompose, taken, Checked.ok_bind]
    split
    · trivial
    · next some_ =>
      rw [retrieved]
      refine ⟨?_, proper⟩
      rintro rfl
      exact some_ rfl

/-- The plan of an accepted list of sub-queries. -/
theorem validatePlan_accepts {j : Json} {items : List Json} (h : Accepts j items) :
    validatePlan j = .ok (planOf (items.filter passes)) := by
  obtain ⟨fields, rfl, needs, list, each⟩ := h
  simp only [validatePlan, attributeGet, Checked.ok_bind, needs, list]
  rw [validSubQueries_eq_ok.2 ⟨each, rfl⟩]
  rfl

/-- A plan that is not accepted is none. -/
theorem validatePlan_other {j : Json} {p : Plan} (h : validatePlan j = .ok p) :
    p.needsDecomposition = false ∨ ∃ items, Accepts j items ∧ p = planOf (items.filter passes) := by
  simp only [validatePlan, Checked.bind_eq_ok] at h
  obtain ⟨fields, object, rest⟩ := h
  have same : j = .obj fields := by
    cases j
    case obj => exact congrArg Json.obj (Except.ok.inj object)
    all_goals cases object
  split at rest
  · rw [Checked.pure_eq_ok] at rest
    exact .inl (rest ▸ rfl)
  · next needs =>
    simp only [Checked.bind_eq_ok, Checked.pure_eq_ok] at rest
    obtain ⟨items, list, valid, checked, rfl⟩ := rest
    obtain ⟨each, rfl⟩ := validSubQueries_eq_ok.1 checked
    exact .inr ⟨items, ⟨fields, same, by simpa using needs, list, each⟩, rfl⟩

theorem filter_passes {items : List Json} : ∀ sq ∈ items.filter passes, passes sq = true :=
  fun _ mem => (List.mem_filter.1 mem).2

/-- What `run` does with the plan of a list of valid sub-queries. -/
theorem planOf_safe {items : List Json} (all : ∀ sq ∈ items, passes sq = true) :
    Safe (if (planOf items).needsDecomposition then decompose (planOf items).subQueries else pure .simple) ↔
      ∀ sq ∈ items, Asks sq := by
  cases items with
  | nil => exact iff_of_true trivial fun sq mem => absurd mem List.not_mem_nil
  | cons sq rest => exact decompose_safe all

section Completions

variable {decoder : Decoder} {text : String}

theorem planFits_unread (unread : decoder.loads (planText text) = none) :
    PlanFits decoder (some text) ↔ isRetryableExternalError (decoder.error (planText text)) = false := by
  constructor
  · intro fits
    exact fits.decode text rfl unread
  · intro calm
    refine ⟨?_, ?_⟩
    · rintro t ⟨⟩ -
      exact calm
    · rintro t p items ⟨⟩ found
      rw [unread] at found
      cases found

theorem planFits_read {plan : Json} (read : decoder.loads (planText text) = some plan) :
    PlanFits decoder (some text) ↔ ∀ items, Accepts plan items → ∀ sq ∈ items, passes sq = true → Asks sq := by
  constructor
  · intro fits items
    exact fits.asks text plan items rfl read
  · intro asks
    refine ⟨?_, ?_⟩
    · rintro t ⟨⟩ none_
      rw [read] at none_
      cases none_
    · rintro t p items ⟨⟩ found
      rw [read] at found
      cases found
      exact asks items

/-- A text that is not read fails inside the handler. -/
theorem run_unread (unread : decoder.loads (planText text) = none) :
    Safe (run decoder (some text)) ↔ isRetryableExternalError (decoder.error (planText text)) = false := by
  have failed : planned decoder (some text) = .error (decoder.error (planText text)) := by
    rw [planned, parsePlan, unread]
    rfl
  rw [run, plan, failed]
  dsimp only
  cases retryable : isRetryableExternalError (decoder.error (planText text)) with
  | true => exact iff_of_false id (by simp)
  | false => exact iff_of_true trivial rfl

/-- A plan that is read is safe exactly when the sub-queries that are kept ask a text. -/
theorem run_read {j : Json} (read : decoder.loads (planText text) = some j) :
    Safe (run decoder (some text)) ↔ ∀ items, Accepts j items → ∀ sq ∈ items, passes sq = true → Asks sq := by
  have body : planned decoder (some text) = validatePlan j := by
    rw [planned, parsePlan, read]
    rfl
  rw [run, plan, body]
  cases validated : validatePlan j with
  | error e =>
    dsimp only
    rw [validatePlan_calm j e validated]
    refine iff_of_true trivial fun items accepted => ?_
    rw [validatePlan_accepts accepted] at validated
    cases validated
  | ok p =>
    show Safe (if p.needsDecomposition then decompose p.subQueries else pure .simple) ↔ _
    rcases validatePlan_other validated with no | ⟨items, accepted, rfl⟩
    · rw [no]
      refine iff_of_true trivial fun items accepted sq mem pass => ?_
      rw [validatePlan_accepts accepted] at validated
      cases validated
      have some_ : items.filter passes ≠ [] := List.ne_nil_of_mem (List.mem_filter.2 ⟨mem, pass⟩)
      rw [planOf, if_neg (by simpa using some_)] at no
      cases no
    · rw [planOf_safe filter_passes]
      constructor
      · intro asks items' accepted' sq mem pass
        obtain rfl := accepted.unique accepted'
        exact asks sq (List.mem_filter.2 ⟨mem, pass⟩)
      · intro asks sq mem
        obtain ⟨member, pass⟩ := List.mem_filter.1 mem
        exact asks items accepted sq member pass

end Completions

/-- **Plans.** A request survives its plan exactly when the plan fits. -/
theorem run_safe (decoder : Decoder) (content : Option String) :
    Safe (run decoder content) ↔ PlanFits decoder content := by
  cases content with
  | none =>
    have simple : run decoder none = .ok .simple := by
      have calm : isRetryableExternalError "'NoneType' object has no attribute 'strip'" = false := by decide +kernel
      rw [run, plan, planned]
      dsimp only
      rw [calm]
      rfl
    rw [simple]
    refine iff_of_true trivial ⟨?_, ?_⟩
    · rintro text ⟨⟩
    · rintro text p items ⟨⟩
  | some text =>
    cases parsed : decoder.loads (planText text) with
    | none => exact (run_unread parsed).trans (planFits_unread parsed).symm
    | some j => exact (run_read parsed).trans (planFits_read parsed).symm

/-- The request ends in an exception. -/
def raises : Except Raised Path → Bool
  | .error _ => true
  | .ok _ => false

theorem Safe.not_raises {path : Except Raised Path} (h : Safe path) : raises path = false := by
  cases path with
  | error e => exact h.elim
  | ok p => rfl

/-- A text that is no JSON, as the decoder reports it. -/
def plainDecoder : Decoder :=
  ⟨fun _ => "Expecting value: line 1 column 1 (char 0)", fun _ => false⟩

theorem missing_query_raises :
    raises (run plainDecoder (some "\x7b\"needs_decomposition\":1,\"sub_queries\":[\x7b\x7d]\x7d")) = true := by
  decide +kernel

-- an unpaired surrogate is a text like any other
example : raises (run plainDecoder
    (some "\x7b\"needs_decomposition\":1,\"sub_queries\":[\x7b\"query\":\"\\ud800\"\x7d]\x7d")) = false := by
  decide +kernel

-- a literal that underflows asks for no decomposition
example : raises (run plainDecoder
    (some "\x7b\"needs_decomposition\":1e-400,\"sub_queries\":[\x7b\x7d]\x7d")) = false := by
  decide +kernel

/-- A plan with one sub-query without a query. -/
theorem missing_query_crashes : ¬ ∀ (decoder : Decoder) (content : Option String), Safe (run decoder content) := by
  intro h
  have safe := fun content => (h plainDecoder content).not_raises
  exact absurd (missing_query_raises.symm.trans (safe _)) (by decide)

end Decomposer
