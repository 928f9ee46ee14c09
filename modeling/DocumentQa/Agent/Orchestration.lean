import DocumentQa.Agent.ObservationProjection
import DocumentQa.Agent.Orchestrator

/-!
# Budgets of a run

Whatever the decision model proposes, the tools return and the event says, a run keeps to its
limits and to the tools it was given, and its result accounts for what it did. The rounds keep one
invariant: between two of them every decision was an observed call (`turn_keeps`).
-/

namespace Agent

open Python JsonText Observation

/-! ## Histories -/

/-- What is noted of a run: the decisions asked for, the calls of tools and the entries given to the sink, whether the event was
last seen set, and whether anything was asked behind that. -/
structure History where
  decisions : Nat
  calls : List (ToolName × ToolArguments)
  entries : List AgentTraceEntry
  cancelled : Bool
  late : Bool

namespace History

def start : History :=
  ⟨0, [], [], false, false⟩

def heard (h : History) (set : Bool) : History :=
  { h with cancelled := set, late := h.late || h.cancelled }

def asked (h : History) : History :=
  { h with decisions := h.decisions + 1, late := h.late || h.cancelled }

def called (h : History) (tool : ToolName) (body : ToolArguments) : History :=
  { h with calls := h.calls ++ [(tool, body)], late := h.late || h.cancelled }

def traced (h : History) (entry : AgentTraceEntry) : History :=
  { h with entries := h.entries ++ [entry], late := h.late || h.cancelled }

def note (h : History) : (q : Query) → q.Answer → History
  | .cancelEvent, answer => h.heard (answer.getD false)
  | .decide _, _ => h.asked
  | .execute tool body, _ => h.called tool body
  | .trace entry _ _, _ => h.traced entry

/-- The calls of one tool. -/
def count (h : History) (tool : ToolName) : Nat :=
  (h.calls.filter fun c => c.1 = tool).length

theorem length_called (h : History) (tool : ToolName) (body : ToolArguments) :
    (h.called tool body).calls.length = h.calls.length + 1 := by
  unfold called
  rw [List.length_append, List.length_singleton]

theorem count_called (h : History) (tool other : ToolName) (body : ToolArguments) :
    (h.called tool body).count other = h.count other + if other = tool then 1 else 0 := by
  unfold count called
  rw [List.filter_append, List.length_append]
  congr 1
  by_cases same : other = tool
  · rw [if_pos same, List.filter_cons_of_pos (by simp [same])]
    rfl
  · rw [if_neg same, List.filter_cons_of_neg (by simpa using Ne.symm same)]
    rfl

/-- The call itself, or one before it. -/
theorem mem_called {h : History} {tool : ToolName} {body : ToolArguments} {c : ToolName × ToolArguments}
    (mem : c ∈ (h.called tool body).calls) : c ∈ h.calls ∨ c = (tool, body) := by
  unfold called at mem
  rcases List.mem_append.1 mem with before | here
  · exact .inl before
  · exact .inr (List.mem_singleton.1 here)

end History

/-- The bytes of the observations. -/
def totalSize (T : TextTables) : List AgentObservation → Nat
  | [] => 0
  | o :: os => o.size T + totalSize T os

theorem totalSize_append (T : TextTables) (os : List AgentObservation) (o : AgentObservation) :
    totalSize T (os ++ [o]) = totalSize T os + o.size T := by
  induction os with
  | nil => exact Nat.add_comm _ _
  | cons first os ih =>
    rw [List.cons_append, totalSize, totalSize, ih]
    omega

/-- The calls of a run keep to its limits, its allowlist and its policy, and nothing is asked once the event was seen set. -/
structure Spent (a : AgentOrchestrator) (context : AgentExecutionContext) (h : History) : Prop where
  decisions : h.decisions ≤ a.limits.maxSteps
  calls : h.calls.length ≤ a.limits.maxToolCalls
  perTool : ∀ tool, h.count tool ≤ a.limits.perToolCalls.get tool
  permitted : ∀ c ∈ h.calls, ∃ tool ∈ a.registry.tools, tool.name = c.1 ∧ context.permits tool = true
  distinct : a.policy.rejectDuplicateCalls = true → (h.calls.map fun c => fingerprint c.1 c.2).Nodup
  prompt : h.late = false

/-- The observations of a run are few and small. -/
structure Bounded (T : TextTables) (limits : AgentLimits) (observations : List AgentObservation) : Prop where
  few : observations.length ≤ limits.maxObservations
  each : ∀ o ∈ observations, o.size T ≤ limits.maxObservationBytes
  total : totalSize T observations ≤ limits.maxTotalObservationBytes

/-- A result accounts for what the run did, and cites only what it observed. -/
structure Reports (T : TextTables) (a : AgentOrchestrator) (h : History) (r : AgentResult) : Prop where
  decisions : r.decisionCallCount = h.decisions
  calls : r.toolCallCount = h.calls.length
  perTool : ∀ tool, r.perToolCalls.get tool = h.count tool
  trace : r.trace = h.entries
  indexed : r.trace.map AgentTraceEntry.decisionIndex = List.range' 1 r.trace.length
  observed : Bounded T a.limits r.observations
  cited : ∀ ref ∈ r.evidenceRefs, (ref.kind, ref.value) ∈ observedRefs r.observations
  grounded : r.answer ≠ none → a.policy.requireObservationForFinal = true → r.observations ≠ []

/-- What holds where a run ends. -/
def Ends (T : TextTables) (a : AgentOrchestrator) (context : AgentExecutionContext) (h : History) : Ending → Prop
  | .returned r => Spent a context h ∧ Reports T a h r
  | .raised => Spent a context h

/-! ## Functions of the state -/

theorem refresh_same {s s' : AgentState} (h : s.refresh = some s') :
    ∃ view summary, s' = { s with researchView := view, researchSummary := summary } := by
  unfold AgentState.refresh at h
  cases session : s.research with
  | none =>
    rw [session] at h
    obtain rfl := Option.some.inj h
    exact ⟨s.researchView, s.researchSummary, by rw [← session]⟩
  | some r =>
    rw [session] at h
    simp only [Option.bind_eq_bind, Option.bind_eq_some_iff] at h
    obtain ⟨summary, -, view, -, same⟩ := h
    exact ⟨some view, some summary, (Option.some.inj same).symm⟩

/-- What a started call changes. -/
theorem start_same {s s' : AgentState} {objectiveId : Option String} {tool : ToolName} {validated : ToolArguments}
    (h : s.start objectiveId tool validated = some s') : ∃ session view summary,
      s' = { s with
        seenCalls := fingerprint tool validated :: s.seenCalls
        toolCallCount := s.toolCallCount + 1
        perToolCalls := s.perToolCalls.count tool
        research := session
        researchView := view
        researchSummary := summary } := by
  unfold AgentState.start at h
  cases session : s.research with
  | none =>
    simp only [session] at h
    obtain rfl := Option.some.inj h
    exact ⟨none, s.researchView, s.researchSummary, by rw [← session]⟩
  | some r =>
    simp only [session, Option.bind_eq_bind, Option.bind_eq_some_iff] at h
    obtain ⟨id, -, refreshed⟩ := h
    obtain ⟨view, summary, rfl⟩ := refresh_same refreshed
    exact ⟨_, view, summary, rfl⟩

/-- What an observation changes. -/
theorem observe_same {T : TextTables} {s s' : AgentState} {objectiveId : Option String} {tool : ToolName}
    {validated : ToolArguments} {o : AgentObservation} (h : s.observe T objectiveId tool validated o = some s') :
    ∃ session view summary,
      s' = { s with
        observations := s.observations ++ [o]
        observationBytes := s.observationBytes + o.size T
        research := session
        researchView := view
        researchSummary := summary } := by
  unfold AgentState.observe at h
  cases session : s.research with
  | none =>
    simp only [session] at h
    obtain rfl := Option.some.inj h
    exact ⟨none, s.researchView, s.researchSummary, by rw [← session]⟩
  | some r =>
    simp only [session, Option.bind_eq_bind, Option.bind_eq_some_iff] at h
    obtain ⟨id, -, entered⟩ := h
    split at entered
    · obtain ⟨view, summary, rfl⟩ := refresh_same entered
      exact ⟨_, view, summary, rfl⟩
    · cases entered

theorem get_count (counts : ToolCounts) (tool other : ToolName) :
    (counts.count tool).get other = counts.get other + if other = tool then 1 else 0 := by
  cases tool <;> cases other <;> rfl

/-- What an admitted decision passed. -/
structure Admitted (a : AgentOrchestrator) (context : AgentExecutionContext) (s : AgentState) (decision : ToolDecision)
    (tool : AgentTool) (validated : ToolArguments) : Prop where
  found : a.registry.get decision.toolName = some tool
  allowed : context.allowedTools.contains tool.name = true
  provider : tool.providerExecution = true → context.allowProviderExecution = true
  valid : tool.validate decision.arguments = some validated
  calls : s.toolCallCount < a.limits.maxToolCalls
  perTool : s.perToolCalls.get tool.name < a.limits.perToolCalls.get tool.name
  observations : s.observations.length < a.limits.maxObservations
  fresh : a.policy.rejectDuplicateCalls = true → fingerprint tool.name validated ∉ s.seenCalls

theorem admitTool_ok {a : AgentOrchestrator} {context : AgentExecutionContext} {s : AgentState} {decision : ToolDecision}
    {tool : AgentTool} {validated : ToolArguments} (h : admitTool a context s decision = .ok (tool, validated)) :
    Admitted a context s decision tool validated := by
  simp only [admitTool, Checked.bind_eq_ok, Checked.orRaise_eq_ok, Checked.require_eq_ok, Checked.pure_eq_ok, Prod.mk.injEq] at h
  obtain ⟨_, found, _, allowed, _, provider, _, valid, _, -, _, calls, _, perTool, _, observations, _, fresh, rfl, rfl⟩ := h
  exact ⟨found, allowed, provider, valid, calls, perTool, observations, fresh⟩

/-- The gates of an admitted call permit its tool. -/
theorem Admitted.permits {a : AgentOrchestrator} {context : AgentExecutionContext} {s : AgentState} {decision : ToolDecision}
    {tool : AgentTool} {validated : ToolArguments} (admitted : Admitted a context s decision tool validated) :
    context.permits tool = true := by
  rw [AgentExecutionContext.permits, admitted.allowed, Bool.true_and, Bool.or_eq_true, Bool.not_eq_true']
  cases needs : tool.providerExecution with
  | false => exact .inl rfl
  | true => exact .inr (admitted.provider needs)

theorem get_spec {registry : AgentToolRegistry} {name : String} {tool : AgentTool} (h : registry.get name = some tool) :
    tool ∈ registry.tools ∧ tool.name.text = name := by
  unfold AgentToolRegistry.get at h
  have named := List.find?_some h
  exact ⟨List.mem_of_find?_eq_some h, of_decide_eq_true named⟩

/-- **The gates of the registry** let an admitted call pass. -/
theorem invoke_admitted {a : AgentOrchestrator} {context : AgentExecutionContext} {s : AgentState} {decision : ToolDecision}
    {tool : AgentTool} {validated : ToolArguments} (admitted : Admitted a context s decision tool validated) :
    a.registry.invoke context tool.name.text decision.arguments =
      (Act.execute tool.name validated >>= fun answer => pure (answer.map fun data => ⟨tool.name.text, data⟩)) := by
  have found : a.registry.get tool.name.text = some tool := by
    rw [(get_spec admitted.found).2]
    exact admitted.found
  have provider : ¬ (tool.providerExecution = true ∧ context.allowProviderExecution = false) := by
    rintro ⟨needs, denied⟩
    rw [admitted.provider needs] at denied
    cases denied
  unfold AgentToolRegistry.invoke
  simp only [found, admitted.allowed, admitted.valid, Bool.true_eq_false, if_false, if_neg provider]

theorem projectObservation_fits {T : TextTables} {observation : ToolObservation} {limits : AgentLimits} {remaining : Int}
    {o : AgentObservation} (h : projectObservation T observation limits remaining = .ok o) :
    (o.size T : Int) ≤ min (limits.maxObservationBytes : Int) remaining := by
  cases extracted : extract T limits observation.data with
  | error message =>
    unfold projectObservation at h
    rw [extracted] at h
    cases h
  | ok e =>
    rw [projectObservation_extracted extracted, Checked.orRaise_eq_ok] at h
    exact of_decide_eq_true (fit_trims h).2

theorem project_fits {T : TextTables} {a : AgentOrchestrator} {s : AgentState} {observation : ToolObservation}
    {o : AgentObservation} (h : project T a s observation = .ok o) :
    o.size T ≤ a.limits.maxObservationBytes ∧ s.observationBytes + o.size T ≤ a.limits.maxTotalObservationBytes := by
  unfold project at h
  split at h
  · cases h
  · cases h
  · next projected run =>
    split at h
    · cases h
    · obtain rfl := Except.ok.inj h
      have fits := projectObservation_fits run
      omega

theorem validateFinal_none {T : TextTables} {s : AgentState} {decision : FinalDecision} {policy : AgentRunPolicy}
    (h : validateFinal T s decision policy = none) :
    (∀ ref ∈ decision.evidenceRefs, (ref.kind, ref.value) ∈ observedRefs s.observations) ∧
      (policy.requireObservationForFinal = true → s.observations ≠ []) := by
  unfold validateFinal at h
  dsimp only at h
  split at h
  · cases h
  · next grounded =>
    split at h
    · cases h
    · next cited =>
      rw [not_not] at cited
      exact ⟨fun ref mem => cited (List.mem_map_of_mem mem), fun required empty => grounded ⟨required, empty⟩⟩

theorem finalFailure_none {T : TextTables} {a : AgentOrchestrator} {s : AgentState} {decision : FinalDecision}
    (h : finalFailure T a s decision = some none) : validateFinal T s decision a.policy = none := by
  unfold finalFailure at h
  cases session : s.research with
  | none =>
    simp only [session, Option.some.injEq] at h
    split at h
    · cases h
    · exact h
  | some r =>
    cases checked : validateFinal T s decision a.policy with
    | none => rfl
    | some code => simp [session, checked] at h

/-! ## The invariant -/

/-- The state accounts for the history. -/
structure Kept (T : TextTables) (a : AgentOrchestrator) (context : AgentExecutionContext) (h : History) (s : AgentState) :
    Prop where
  spent : Spent a context h
  running : h.cancelled = false
  decisions : s.decisionCallCount = h.decisions
  calls : s.toolCallCount = h.calls.length
  perTool : ∀ tool, s.perToolCalls.get tool = h.count tool
  seen : s.seenCalls = (h.calls.map fun c => fingerprint c.1 c.2).reverse
  trace : s.trace = h.entries
  indexed : s.trace.map AgentTraceEntry.decisionIndex = List.range' 1 s.trace.length
  observed : Bounded T a.limits s.observations
  bytes : s.observationBytes = totalSize T s.observations

section Invariant

variable {T : TextTables} {a : AgentOrchestrator} {context : AgentExecutionContext} {h : History} {s : AgentState}

theorem Kept.initial (goal : String) (research : Option ResearchSession) :
    Kept T a context .start (.initial goal context.locale research) where
  spent :=
    { decisions := Nat.zero_le _
      calls := Nat.zero_le _
      perTool _ := Nat.zero_le _
      permitted _ mem := absurd mem List.not_mem_nil
      distinct _ := List.nodup_nil
      prompt := rfl }
  running := rfl
  decisions := rfl
  calls := rfl
  perTool tool := by cases tool <;> rfl
  seen := rfl
  trace := rfl
  indexed := rfl
  observed := ⟨Nat.zero_le _, fun _ mem => absurd mem List.not_mem_nil, Nat.zero_le _⟩
  bytes := rfl

/-- What is asked of a run that was not cancelled is not late. -/
theorem Kept.prompt (kept : Kept T a context h s) : (h.late || h.cancelled) = false := by
  rw [kept.spent.prompt, kept.running]
  rfl

theorem Kept.heard (kept : Kept T a context h s) (set : Bool) : Spent a context (h.heard set) :=
  { kept.spent with prompt := kept.prompt }

theorem Kept.goesOn (kept : Kept T a context h s) : Kept T a context (h.heard false) s :=
  { kept with
    spent := kept.heard false
    running := rfl }

theorem Kept.asked (kept : Kept T a context h s) (room : h.decisions < a.limits.maxSteps) :
    Kept T a context h.asked { s with decisionCallCount := s.decisionCallCount + 1 } :=
  { kept with
    spent := { kept.spent with decisions := room, prompt := kept.prompt }
    decisions := congrArg (· + 1) kept.decisions }

theorem Kept.traced (kept : Kept T a context h s) {entry : AgentTraceEntry} (place : entry.decisionIndex = s.trace.length + 1) :
    Kept T a context (h.traced entry) { s with trace := s.trace ++ [entry] } :=
  { kept with
    spent := { kept.spent with prompt := kept.prompt }
    trace := congrArg (· ++ [entry]) kept.trace
    indexed := by
      rw [List.map_append, List.map_singleton, kept.indexed, place, List.length_append, List.length_singleton,
        List.range'_1_concat, Nat.add_comm] }

/-- **A call** is accounted for when its budgets were checked. -/
theorem Kept.called (kept : Kept T a context h s) {decision : ToolDecision} {tool : AgentTool} {validated : ToolArguments}
    (admitted : Admitted a context s decision tool validated) {objectiveId : Option String} {s' : AgentState}
    (started : s.start objectiveId tool.name validated = some s') : Kept T a context (h.called tool.name validated) s' := by
  obtain ⟨session, view, summary, rfl⟩ := start_same started
  have perTool (other : ToolName) : (s.perToolCalls.count tool.name).get other = (h.called tool.name validated).count other := by
    rw [get_count, History.count_called, kept.perTool]
  have seen : fingerprint tool.name validated :: s.seenCalls =
      ((h.called tool.name validated).calls.map fun c => fingerprint c.1 c.2).reverse := by
    unfold History.called
    rw [List.map_append, List.reverse_append, kept.seen]
    rfl
  have spent : Spent a context (h.called tool.name validated) := {
    decisions := kept.spent.decisions
    calls := by
      have room := admitted.calls
      rw [kept.calls] at room
      rw [History.length_called]
      exact room
    perTool := by
      intro other
      rw [History.count_called]
      split
      · next same =>
        have room := admitted.perTool
        rw [kept.perTool] at room
        rw [same]
        exact room
      · exact kept.spent.perTool other
    permitted := by
      intro c mem
      rcases History.mem_called mem with before | rfl
      · exact kept.spent.permitted c before
      · exact ⟨tool, (get_spec admitted.found).1, rfl, admitted.permits⟩
    distinct := by
      intro rejects
      have fresh := admitted.fresh rejects
      rw [← List.nodup_reverse, ← seen, List.nodup_cons]
      refine ⟨fresh, ?_⟩
      rw [kept.seen, List.nodup_reverse]
      exact kept.spent.distinct rejects
    prompt := kept.prompt }
  exact
    { spent
      running := kept.running
      decisions := kept.decisions
      calls := by
        rw [History.length_called]
        exact congrArg (· + 1) kept.calls
      perTool
      seen
      trace := kept.trace
      indexed := kept.indexed
      observed := kept.observed
      bytes := kept.bytes }

/-- **An observation** within the budget. -/
theorem Kept.observes (kept : Kept T a context h s) {objectiveId : Option String} {tool : ToolName} {validated : ToolArguments}
    {o : AgentObservation} {s' : AgentState} (room : s.observations.length < a.limits.maxObservations)
    (small : o.size T ≤ a.limits.maxObservationBytes)
    (fits : s.observationBytes + o.size T ≤ a.limits.maxTotalObservationBytes)
    (entered : s.observe T objectiveId tool validated o = some s') : Kept T a context h s' := by
  obtain ⟨session, view, summary, rfl⟩ := observe_same entered
  have bytes : s.observationBytes + o.size T = totalSize T (s.observations ++ [o]) := by
    rw [totalSize_append, kept.bytes]
  refine { kept with observed := ⟨?_, ?_, ?_⟩, bytes }
  · rw [List.length_append, List.length_singleton]
    exact room
  · intro p mem
    rcases List.mem_append.1 mem with before | here
    · exact kept.observed.each p before
    · obtain rfl := List.mem_singleton.1 here
      exact small
  · rw [← bytes]
    exact fits

/-- A run that ends without an answer reports its state. -/
theorem Kept.fails (kept : Kept T a context h s) (status : AgentStatus) (domain : FailureDomain) (code : FailureCode) :
    Spent a context h ∧ Reports T a h (s.fails status domain code) :=
  ⟨kept.spent,
    { decisions := kept.decisions
      calls := kept.calls
      perTool := kept.perTool
      trace := kept.trace
      indexed := kept.indexed
      observed := kept.observed
      cited := fun _ mem => absurd mem List.not_mem_nil
      grounded := fun answered => absurd rfl answered }⟩

/-- A report does not depend on the event. -/
theorem Reports.same {set : Bool} {r : AgentResult} (reports : Reports T a h r) : Reports T a (h.heard set) r :=
  { reports with }

end Invariant

/-! ## One round -/

section Rounds

variable {T : TextTables} {a : AgentOrchestrator} {context : AgentExecutionContext} {h : History} {s : AgentState} {α β : Type}

/-- Between two rounds, and behind the question of the next one. -/
structure Between (T : TextTables) (a : AgentOrchestrator) (context : AgentExecutionContext) (asked : Bool) (i : Nat)
    (h : History) (s : AgentState) : Prop where
  kept : Kept T a context h s
  place : h.decisions = i + asked.toNat
  traced : s.trace.length = i

theorem Between.index {i : Nat} (between : Between T a context true i h s) : s.decisionCallCount = s.trace.length + 1 := by
  rw [between.kept.decisions, between.place, between.traced]
  rfl

/-- Every conversation that goes on from here ends as it should. -/
abbrev Goes (T : TextTables) (a : AgentOrchestrator) (context : AgentExecutionContext) (P : History → α → Prop) (h : History)
    (d : Act α) : Prop :=
  Dialogue.Always History.note (Ends T a context) P h d

theorem goes_orRaise {P : History → β → Prop} {o : Option α} {f : α → Act β} (spent : Spent a context h)
    (next : ∀ x, o = some x → Goes T a context P h (f x)) : Goes T a context P h (Act.orRaise o >>= f) := by
  cases o with
  | none => exact spent
  | some x => exact next x rfl

theorem goes_returns {P : History → α → Prop} {r : AgentResult} (fits : Spent a context h ∧ Reports T a h r) :
    Goes T a context P h (Act.returns r) :=
  fits

theorem goes_checkCancelled {P : History → α → Prop} {f : Unit → Act α} (kept : Kept T a context h s)
    (next : Goes T a context P (h.heard false) (f ())) : Goes T a context P h (Act.checkCancelled s >>= f) := by
  refine Dialogue.Always.bind (P := fun h' _ => h' = h.heard false) ?_ ?_
  · unfold Act.checkCancelled
    refine Dialogue.always_question.2 fun answer => ?_
    cases answer with
    | none => exact kept.heard false
    | some set =>
      cases set with
      | true => exact goes_returns ⟨kept.heard true, (kept.fails _ _ _).2.same⟩
      | false => exact rfl
  · rintro h' ⟨⟩ rfl
    exact next

theorem record_keeps {entry : AgentTraceEntry} (kept : Kept T a context h s) (place : entry.decisionIndex = s.trace.length + 1) :
    Goes T a context (fun h' s' => h' = h.traced entry ∧ s' = { s with trace := s.trace ++ [entry] }) h (Act.record s entry) := by
  unfold Act.record
  refine Dialogue.always_question.2 fun answer => ?_
  cases answer with
  | false => exact (kept.traced place).spent
  | true => exact ⟨rfl, rfl⟩

theorem goes_record {P : History → α → Prop} {entry : AgentTraceEntry} {f : AgentState → Act α} (kept : Kept T a context h s)
    (place : entry.decisionIndex = s.trace.length + 1)
    (next : Kept T a context (h.traced entry) { s with trace := s.trace ++ [entry] } →
      Goes T a context P (h.traced entry) (f { s with trace := s.trace ++ [entry] })) :
    Goes T a context P h (Act.record s entry >>= f) := by
  refine Dialogue.Always.bind (record_keeps kept place) ?_
  rintro h' s' ⟨rfl, rfl⟩
  exact next (kept.traced place)

/-- An entry that ends the run. -/
theorem goes_ends {P : History → α → Prop} {entry : AgentTraceEntry} (kept : Kept T a context h s)
    (place : entry.decisionIndex = s.trace.length + 1) (status : AgentStatus) (domain : FailureDomain) (code : FailureCode) :
    Goes T a context P h (Act.record s entry >>= fun s => Act.returns (s.fails status domain code)) :=
  goes_record kept place fun traced => goes_returns (traced.fails status domain code)

/-- **The question of a round.** -/
theorem propose_keeps {i : Nat} (between : Between T a context false i h s) (room : i < a.limits.maxSteps) :
    Goes T a context (fun h' p => Between T a context true i h' p.1) h (propose T a context s) := by
  have here : h.decisions = i := between.place
  have asked : Kept T a context (h.heard false).asked { s with decisionCallCount := s.decisionCallCount + 1 } :=
    between.kept.goesOn.asked (here.symm ▸ room)
  have later : Between T a context true i (h.heard false).asked { s with decisionCallCount := s.decisionCallCount + 1 } :=
    ⟨asked, congrArg (· + 1) here, between.traced⟩
  unfold propose
  refine goes_checkCancelled between.kept (Dialogue.always_question.2 fun answer => ?_)
  cases answer with
  | error error =>
    cases error with
    | unavailable => exact goes_returns (asked.fails _ _ _)
    | execution => exact goes_returns (asked.fails _ _ _)
    | other => exact goes_returns (asked.fails _ _ _)
    | provider code =>
      dsimp only
      split
      · exact goes_ends asked later.index _ _ _
      · exact goes_returns (asked.fails _ _ _)
  | ok raw =>
    refine goes_checkCancelled asked ?_
    cases parsed : parseDecision T raw with
    | none => exact goes_ends asked.goesOn later.index _ _ _
    | some decision => exact ⟨{ asked.goesOn with }, later.place, later.traced⟩

/-- **A final decision** ends the run. -/
theorem finish_keeps {i : Nat} (between : Between T a context true i h s) (decision : FinalDecision)
    {P : History → AgentState → Prop} : Goes T a context P h (finish T a s decision) := by
  unfold finish
  refine goes_orRaise between.kept.spent fun failure failed => ?_
  cases failure with
  | some code => exact goes_ends between.kept between.index _ _ _
  | none =>
    obtain ⟨cited, grounded⟩ := validateFinal_none (finalFailure_none failed)
    refine goes_record between.kept between.index fun traced => goes_returns ⟨traced.spent, ?_⟩
    exact
      { decisions := traced.decisions
        calls := traced.calls
        perTool := traced.perTool
        trace := traced.trace
        indexed := traced.indexed
        observed := traced.observed
        cited := cited
        grounded := fun _ => grounded }

/-- **The answer of the registry** is observed, or ends the run. -/
theorem receive_keeps {i : Nat} (kept : Kept T a context h s) (place : h.decisions = i + 1) (traced : s.trace.length = i)
    (room : s.observations.length < a.limits.maxObservations) (decision : ToolDecision) (tool : ToolName)
    (validated : ToolArguments) (answer : Except ToolErrorCode ToolObservation) :
    Goes T a context (Between T a context false (i + 1)) h (receive T a s decision tool validated answer) := by
  have index : s.decisionCallCount = s.trace.length + 1 := by
    rw [kept.decisions, place, traced]
  cases answer with
  | error error => exact goes_ends kept index _ _ _
  | ok observation =>
    unfold receive
    dsimp only
    cases projection : project T a s observation with
    | error code => exact goes_ends kept index _ _ _
    | ok o =>
      obtain ⟨small, fits⟩ := project_fits projection
      refine goes_orRaise kept.spent fun s' entered => goes_orRaise kept.spent fun refs _ => ?_
      have observed := kept.observes room small fits entered
      obtain ⟨session, view, summary, unchanged⟩ := observe_same entered
      have trace : s'.trace = s.trace := by
        rw [unchanged]
      have index' : s'.decisionCallCount = s'.trace.length + 1 := by
        rw [trace, ← index, unchanged]
      refine Dialogue.Always.imp (record_keeps observed index') (fun _ _ => id) ?_
      rintro h' s'' ⟨rfl, rfl⟩
      refine ⟨observed.traced index', place, ?_⟩
      show (s'.trace ++ [_]).length = i + 1
      rw [List.length_append, List.length_singleton, trace, traced]

/-- **An admitted call.** -/
theorem callTool_keeps {i : Nat} (between : Between T a context true i h s) {decision : ToolDecision} {tool : AgentTool}
    {validated : ToolArguments} (admitted : Admitted a context s decision tool validated) :
    Goes T a context (Between T a context false (i + 1)) h (callTool T a context s decision tool.name validated) := by
  unfold callTool
  refine goes_checkCancelled between.kept (goes_orRaise (between.kept.heard false) fun s' started => ?_)
  have called := between.kept.goesOn.called admitted started
  obtain ⟨session, view, summary, same⟩ := start_same started
  have traced : s'.trace.length = i := by
    rw [same]
    exact between.traced
  have room : s'.observations.length < a.limits.maxObservations := by
    rw [same]
    exact admitted.observations
  refine Dialogue.Always.bind (P := fun h' _ => h' = (h.heard false).called tool.name validated) ?_ ?_
  · rw [invoke_admitted admitted]
    exact Dialogue.always_question.2 fun answer => rfl
  · rintro h' answer rfl
    exact receive_keeps called between.place traced room decision tool.name validated answer

/-- **One round** of the loop. -/
theorem turn_keeps {i : Nat} (between : Between T a context false i h s) (room : i < a.limits.maxSteps) :
    Goes T a context (Between T a context false (i + 1)) h (turn T a context s) := by
  unfold turn
  refine Dialogue.Always.bind (propose_keeps between room) ?_
  rintro h' ⟨s', decision⟩ asked
  cases decision with
  | final decision => exact finish_keeps asked decision
  | tool decision =>
    dsimp only
    cases admission : admitTool a context s' decision with
    | error failure => exact goes_ends asked.kept asked.index _ _ _
    | ok admitted =>
      obtain ⟨tool, validated⟩ := admitted
      exact callTool_keeps asked (admitTool_ok admission)

/-- **A whole run.** -/
theorem run_keeps (goal : String) :
    Goes T a context (fun h r => Spent a context h ∧ Reports T a h r) .start (a.run T context goal) := by
  have fresh (goal : String) (research : Option ResearchSession) : Kept T a context .start (.initial goal context.locale research) :=
    .initial goal research
  have spent := (fresh goal none).spent
  unfold AgentOrchestrator.run
  split
  · refine goes_orRaise spent fun session _ => goes_orRaise spent fun research _ => ⟨spent, ?_⟩
    have kept := fresh goal none
    exact
      { decisions := rfl
        calls := rfl
        perTool := kept.perTool
        trace := rfl
        indexed := rfl
        observed := kept.observed
        cited := fun _ mem => absurd mem List.not_mem_nil
        grounded := fun answered => absurd rfl answered }
  · refine goes_orRaise spent fun goal _ => goes_orRaise spent fun session _ => goes_orRaise spent fun s refreshed => ?_
    obtain ⟨view, summary, rfl⟩ := refresh_same refreshed
    have fresh' := fresh goal session
    have kept : Kept T a context .start
        { AgentState.initial goal context.locale session with researchView := view, researchSummary := summary } :=
      { fresh' with }
    split
    · exact goes_returns (kept.fails _ _ _)
    · refine Dialogue.Always.bind (Dialogue.Always.rounds (I := Between T a context false) (k := 0) ⟨kept, rfl, rfl⟩ ?_) ?_
      · intro i _ high h s between
        exact turn_keeps between (by omega)
      · intro h s between
        exact between.kept.fails _ _ _

end Rounds

/-- The run returned this result. -/
def Returns (o : Dialogue.Finished History Ending AgentResult) (r : AgentResult) : Prop :=
  o.result = .ok r ∨ o.result = .error (.returned r)

/-- **Runs keep to their budgets.** Against any decision model, tools, cancel event and sink, whatever state they keep: the run
asks for at most as many decisions as it has steps; tools are called within the limits of the run and of each tool, only the
permitted ones and, where duplicates are rejected, never twice with the same arguments; nothing is asked once the event was
seen set. A result it returns counts exactly what was done, has one entry for each recorded decision in order, holds
observations within their bounds, and cites only what it observed. -/
theorem runs_within_budget (T : TextTables) (a : AgentOrchestrator) (context : AgentExecutionContext) (goal : String) {σ : Type}
    (answer : σ → (q : Query) → σ × q.Answer) (w : σ) :
    Spent a context (Dialogue.play History.note answer .start w (a.run T context goal)).history ∧
    ∀ r, Returns (Dialogue.play History.note answer .start w (a.run T context goal)) r →
      Reports T a (Dialogue.play History.note answer .start w (a.run T context goal)).history r := by
  have meets := Dialogue.play_always (@run_keeps T a context goal) answer w
  generalize Dialogue.play History.note answer .start w (a.run T context goal) = o at meets ⊢
  obtain ⟨history, result⟩ := o
  cases result with
  | ok r =>
    obtain ⟨spent, reports⟩ : Spent a context history ∧ Reports T a history r := meets
    refine ⟨spent, fun r' returned => ?_⟩
    rcases returned with same | other
    · obtain rfl := Except.ok.inj same
      exact reports
    · cases other
  | error ending =>
    cases ending with
    | raised =>
      refine ⟨meets, fun r' returned => ?_⟩
      rcases returned with other | other <;> cases other
    | returned r =>
      obtain ⟨spent, reports⟩ : Spent a context history ∧ Reports T a history r := meets
      refine ⟨spent, fun r' returned => ?_⟩
      rcases returned with other | same
      · cases other
      · obtain rfl := Ending.returned.inj (Except.error.inj same)
        exact reports

end Agent
