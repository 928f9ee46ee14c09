import DocumentQa.Agent.Agreement
import DocumentQa.Agent.Research

/-!
# Research ledgers stay coherent

An entry is added within the scope of the objective it is found for, and only associated with
more objectives later: every call keeps a session sound, and no call takes an entry away.
-/

namespace Agent

open Python JsonText

/-! ## Entries -/

theorem tickerOf_eq_some {documentId : Option String} {t : List Char} (h : tickerOf documentId = some t) :
    isTicker t = true ∧ documentId.any (fun d => (t ++ [':']).isPrefixOf d.toList) = true := by
  cases documentId with
  | none => cases h
  | some text =>
  rw [tickerOf, Option.bind_some] at h
  dsimp only at h
  split at h
  · next fits =>
    cases h
    simp only [Bool.and_eq_true, decide_eq_true_eq] at fits
    refine ⟨fits.1.1, ?_⟩
    cases e : text.toList.dropWhile (· ≠ ':') with
    | nil =>
      rw [e] at fits
      exact absurd rfl fits.1.2
    | cons c rest =>
      obtain rfl : c = ':' := by
        have stop := List.head?_dropWhile_not (fun c => decide (c ≠ ':')) text.toList
        rw [e] at stop
        simpa using stop
      rw [Option.any_some, List.isPrefixOf_iff_prefix]
      refine ⟨rest, ?_⟩
      rw [List.append_assoc, List.singleton_append, ← e, List.takeWhile_append_dropWhile]
  · cases h

/-- An entry of a session with this configuration. -/
structure LedgerEntry.Valid (config : ResearchConfig) (e : LedgerEntry) : Prop where
  chunk : canonicalIdentity.fullmatch e.chunkId = true
  document : e.documentId.all canonicalIdentity.fullmatch = true
  ticker : e.ticker = (tickerOf e.documentId).map String.ofList
  some_ : e.objectiveIds ≠ []
  distinct : e.objectiveIds.Nodup
  inScope : ∀ id ∈ e.objectiveIds, ∃ o ∈ config.objectives, o.objectiveId = id ∧
    ∀ scope, o.tickerScope = some scope → e.ticker = some scope
  step_range : 1 ≤ e.firstStep ∧ e.firstStep ≤ 20

/-- The entry an instance of the model came from. -/
def ResearchEvidence.entry (e : ResearchEvidence) : LedgerEntry :=
  ⟨e.documentId, e.chunkId, e.ticker, e.objectiveIds, e.firstTool, e.firstStep⟩

theorem LedgerEntry.validate_entry {e : LedgerEntry} {item : ResearchEvidence} (h : e.validate = some item) : item.entry = e := by
  rw [LedgerEntry.validate] at h
  split_ifs at h
  cases h
  rfl

theorem LedgerEntry.Valid.few {config : ResearchConfig} {e : LedgerEntry} (valid : e.Valid config) :
    e.objectiveIds.length ≤ 6 := by
  have within : e.objectiveIds ⊆ config.objectives.map ResearchObjective.objectiveId := by
    intro id mem
    obtain ⟨o, configured, rfl, -⟩ := valid.inScope id mem
    exact List.mem_map_of_mem configured
  have fewer := (List.subperm_of_subset valid.distinct within).length_le
  rw [List.length_map] at fewer
  exact Nat.le_trans fewer config.few.2

/-- A valid entry passes its model. -/
theorem LedgerEntry.Valid.validates {config : ResearchConfig} {e : LedgerEntry} (valid : e.Valid config) :
    ∃ item, e.validate = some item := by
  have identifiers : e.objectiveIds.all objectivePattern.fullmatch = true := by
    apply List.all_eq_true.2
    intro id mem
    obtain ⟨o, -, rfl, -⟩ := valid.inScope id mem
    exact o.identifier
  have ticker : e.ticker.all (isTicker ·.toList) = true ∧
      e.ticker.all (fun t => e.documentId.any fun d => (t.toList ++ [':']).isPrefixOf d.toList) = true := by
    rw [valid.ticker]
    cases found : tickerOf e.documentId with
    | none => exact ⟨rfl, rfl⟩
    | some t =>
      obtain ⟨shape, front⟩ := tickerOf_eq_some found
      simp only [Option.map_some, Option.all_some, String.toList_ofList]
      exact ⟨shape, front⟩
  rw [LedgerEntry.validate, dif_pos ⟨valid.chunk, valid.document⟩,
    dif_pos ⟨⟨valid.some_, valid.distinct, valid.few⟩, identifiers⟩, dif_pos ticker, dif_pos valid.step_range]
  exact ⟨_, rfl⟩

/-- The same source, with more objectives. -/
structure LedgerEntry.Grows (e e' : LedgerEntry) : Prop where
  same : e' = { e with objectiveIds := e'.objectiveIds }
  more : e.objectiveIds <+: e'.objectiveIds

theorem LedgerEntry.Grows.refl (e : LedgerEntry) : e.Grows e :=
  ⟨rfl, List.prefix_refl _⟩

theorem LedgerEntry.Grows.trans {a b c : LedgerEntry} (first : a.Grows b) (second : b.Grows c) : a.Grows c := by
  refine ⟨?_, first.more.trans second.more⟩
  rw [second.same, first.same]

/-- Entries stay, in their places. -/
def Grown (l l' : List LedgerEntry) : Prop :=
  ∀ (i : Nat) (e : LedgerEntry), l[i]? = some e → ∃ e', l'[i]? = some e' ∧ e.Grows e'

theorem Grown.refl (l : List LedgerEntry) : Grown l l :=
  fun _ e here => ⟨e, here, .refl e⟩

theorem Grown.append (l rest : List LedgerEntry) : Grown l (l ++ rest) := by
  intro i e here
  obtain ⟨bound, -⟩ := List.getElem?_eq_some_iff.1 here
  exact ⟨e, by rw [List.getElem?_append_left bound, here], .refl e⟩

theorem Grown.trans {a b c : List LedgerEntry} (first : Grown a b) (second : Grown b c) : Grown a c := by
  intro i e here
  obtain ⟨e', there, grows⟩ := first i e here
  obtain ⟨e'', last, grows'⟩ := second i e' there
  exact ⟨e'', last, grows.trans grows'⟩

/-! ## One source -/

namespace ResearchSession

def keys (ledger : List LedgerEntry) : List (String × String) :=
  ledger.map fun e => sourceKey e.documentId e.chunkId

theorem associate_keys (key : String × String) (id : String) (ledger : List LedgerEntry) :
    keys (associate key id ledger) = keys ledger := by
  induction ledger with
  | nil => rfl
  | cons e es ih =>
    rw [associate]
    split
    · split <;> rfl
    · rw [keys, List.map_cons]
      exact congrArg _ ih

theorem associate_grown (key : String × String) (id : String) (ledger : List LedgerEntry) : Grown ledger (associate key id ledger) := by
  induction ledger with
  | nil => exact .refl []
  | cons e es ih =>
    rw [associate]
    split
    · intro i e' here
      cases i with
      | zero =>
        cases here
        refine ⟨_, rfl, ?_⟩
        split
        · exact .refl e
        · exact ⟨rfl, List.prefix_append _ _⟩
      | succ i => exact ⟨e', here, .refl e'⟩
    · intro i e' here
      cases i with
      | zero => exact ⟨e', here, .refl e'⟩
      | succ i => exact ih i e' here

theorem mem_associate {key : String × String} {id : String} {ledger : List LedgerEntry} {e' : LedgerEntry}
    (h : e' ∈ associate key id ledger) :
    e' ∈ ledger ∨ ∃ e ∈ ledger, sourceKey e.documentId e.chunkId = key ∧ id ∉ e.objectiveIds ∧
      e' = { e with objectiveIds := e.objectiveIds ++ [id] } := by
  induction ledger with
  | nil => cases h
  | cons e es ih =>
    rw [associate] at h
    split at h
    · next here =>
      rcases List.mem_cons.1 h with rfl | later
      · split
        · exact .inl List.mem_cons_self
        · next absent => exact .inr ⟨e, List.mem_cons_self, here, absent, rfl⟩
      · exact .inl (List.mem_cons_of_mem _ later)
    · rcases List.mem_cons.1 h with rfl | later
      · exact .inl List.mem_cons_self
      · rcases ih later with old | ⟨e, mem, rest⟩
        · exact .inl (List.mem_cons_of_mem _ old)
        · exact .inr ⟨e, List.mem_cons_of_mem _ mem, rest⟩

/-- What holds of a session whenever no call is under way. -/
structure Sound (s : ResearchSession) : Prop where
  valid : ∀ e ∈ s.ledger, e.Valid s.config
  distinct : (keys s.ledger).Nodup
  capacity : s.ledger.length ≤ s.config.maxEvidenceEntries
  capped : s.evidenceCapped = true → s.ledger.length = s.config.maxEvidenceEntries
  attempts : ∀ id, s.searchAttempts id ≤ s.config.maxSearchAttemptsPerObjective

/-- What a call changes of the ledger, and what it leaves. -/
structure Advances (s s' : ResearchSession) : Prop where
  config : s'.config = s.config
  grown : Grown s.ledger s'.ledger
  capped : s.evidenceCapped = true → s'.evidenceCapped = true

theorem Advances.refl (s : ResearchSession) : Advances s s :=
  ⟨rfl, .refl _, id⟩

theorem Advances.trans {a b c : ResearchSession} (first : Advances a b) (second : Advances b c) : Advances a c :=
  ⟨second.config.trans first.config, first.grown.trans second.grown, second.capped ∘ first.capped⟩

theorem identity_solid {text : String} (h : canonicalIdentity.fullmatch text = true) : text ≠ "" := by
  rintro rfl
  cases h

/-- The key of a source determines its document, as no document has an empty identity. -/
theorem sourceKey_document {d d' : Option String} {c c' : String} (shape : d.all canonicalIdentity.fullmatch = true)
    (shape' : d'.all canonicalIdentity.fullmatch = true) (same : sourceKey d c = sourceKey d' c') : d = d' ∧ c = c' := by
  rw [sourceKey, sourceKey, Prod.mk.injEq] at same
  refine ⟨?_, same.2⟩
  cases d with
  | none =>
    cases d' with
    | none => rfl
    | some text => exact absurd same.1.symm (identity_solid shape')
  | some text =>
    cases d' with
    | none => exact absurd same.1 (identity_solid shape)
    | some text' => exact congrArg some same.1

section Record

variable {s s' : ResearchSession} {o : ResearchObjective} {tool : ToolName} {step : Nat} {documentId : Option String}
  {chunkId : String} {ticker : Option String}

/-- **One source** of an observation in the objective's scope. -/
theorem addEvidence_sound (sound : Sound s) (configured : o ∈ s.config.objectives)
    (chunk : canonicalIdentity.fullmatch chunkId = true) (document : documentId.all canonicalIdentity.fullmatch = true)
    (ticker_ : ticker = (tickerOf documentId).map String.ofList)
    (inScope : ∀ scope, o.tickerScope = some scope → ticker = some scope)
    (h : s.addEvidence o.objectiveId tool step documentId chunkId ticker = some s') :
    Sound s' ∧ Advances s s' ∧ s'.actions = s.actions ∧ s'.seen = s.seen ∧ s'.searchAttempts = s.searchAttempts := by
  rw [addEvidence] at h
  dsimp only at h
  split at h
  · next known =>
    cases h
    refine ⟨?_, ⟨rfl, associate_grown _ _ _, id⟩, rfl, rfl, rfl⟩
    have same := associate_keys (sourceKey documentId chunkId) o.objectiveId s.ledger
    have length : (associate (sourceKey documentId chunkId) o.objectiveId s.ledger).length = s.ledger.length := by
      have lengths := congrArg List.length same
      rwa [keys, keys, List.length_map, List.length_map] at lengths
    refine ⟨?_, by rw [same]; exact sound.distinct, by rw [length]; exact sound.capacity, ?_, sound.attempts⟩
    · intro e' mem
      rcases mem_associate mem with old | ⟨e, stored, key, absent, rfl⟩
      · exact sound.valid e' old
      · have valid := sound.valid e stored
        obtain ⟨rfl, -⟩ := sourceKey_document valid.document document key
        exact {
          chunk := valid.chunk
          document := valid.document
          ticker := valid.ticker
          some_ := List.append_ne_nil_of_right_ne_nil _ (List.cons_ne_nil _ _)
          distinct := List.nodup_append.2 ⟨valid.distinct, List.nodup_singleton _, by
            intro id mem id' mem'
            rw [List.mem_singleton.1 mem']
            rintro rfl
            exact absent mem⟩
          inScope := by
            intro id mem
            rcases List.mem_append.1 mem with mem | mem
            · exact valid.inScope id mem
            · rw [List.mem_singleton.1 mem]
              refine ⟨o, configured, rfl, ?_⟩
              intro scope given
              rw [valid.ticker, ← ticker_]
              exact inScope scope given
          step_range := valid.step_range }
    · intro full
      rw [length]
      exact sound.capped full
  · next new =>
    split at h
    · next full =>
      cases h
      refine ⟨⟨sound.valid, sound.distinct, sound.capacity, ?_, sound.attempts⟩, ⟨rfl, .refl _, fun _ => rfl⟩, rfl, rfl, rfl⟩
      exact fun _ => Nat.le_antisymm sound.capacity full
    · next room =>
      obtain ⟨item, passed, rfl⟩ := Option.map_eq_some_iff.1 h
      refine ⟨?_, ⟨rfl, .append _ _, id⟩, rfl, rfl, rfl⟩
      refine ⟨?_, ?_, ?_, ?_, sound.attempts⟩
      · intro e mem
        rcases List.mem_append.1 mem with mem | mem
        · exact sound.valid e mem
        · rw [List.mem_singleton.1 mem]
          have range : 1 ≤ step ∧ step ≤ 20 := by
            have same := LedgerEntry.validate_entry passed
            have range := item.step_range
            rw [show item.firstStep = step from congrArg LedgerEntry.firstStep same] at range
            exact range
          exact {
            chunk := chunk
            document := document
            ticker := ticker_
            some_ := List.cons_ne_nil _ _
            distinct := List.nodup_singleton _
            inScope := fun id mem => ⟨o, configured, (List.mem_singleton.1 mem).symm, inScope⟩
            step_range := range }
      · rw [keys, List.map_append, List.nodup_append]
        refine ⟨sound.distinct, List.nodup_singleton _, ?_⟩
        intro key mem key' mem'
        rw [List.mem_singleton.1 mem']
        rintro rfl
        obtain ⟨e, stored, same⟩ := List.mem_map.1 mem
        exact new (List.any_eq_true.2 ⟨e, stored, decide_eq_true same⟩)
      · show (s.ledger ++ _).length ≤ s.config.maxEvidenceEntries
        rw [List.length_append, List.length_singleton]
        omega
      · intro full
        have filled := sound.capped full
        omega

/-- **The records** of an observation, whether or not one of them raises. -/
theorem observeRecords_sound {s : ResearchSession} {o : ResearchObjective} (tool : ToolName) (step : Nat)
    (records : List EvidenceRecord) (sound : Sound s) (configured : o ∈ s.config.objectives) :
    Sound (observeRecords o tool step s records).1 ∧ Advances s (observeRecords o tool step s records).1 ∧
      (observeRecords o tool step s records).1.actions = s.actions ∧ (observeRecords o tool step s records).1.seen = s.seen ∧
        (observeRecords o tool step s records).1.searchAttempts = s.searchAttempts := by
  induction records generalizing s with
  | nil => exact ⟨sound, .refl s, rfl, rfl, rfl⟩
  | cons record records ih =>
    rw [observeRecords]
    split
    · exact ih sound configured
    · next chunkId given =>
      split
      · exact ⟨sound, .refl s, rfl, rfl, rfl⟩
      · next canonical =>
        rw [not_or, Bool.not_eq_false, Bool.not_eq_false] at canonical
        dsimp only
        split
        · exact ih sound configured
        · next inScope =>
          split
          · exact ⟨sound, .refl s, rfl, rfl, rfl⟩
          · next s' added =>
            obtain ⟨sound', advances, actions, seen, attempts⟩ := addEvidence_sound sound configured canonical.1 canonical.2 rfl (by
              intro scope scoped_
              rw [scoped_, Option.any_some, decide_eq_true_eq, not_not] at inScope
              exact inScope.symm) added
            obtain ⟨sound'', advances', actions', seen', attempts'⟩ := ih sound' (advances.config ▸ configured)
            exact ⟨sound'', advances.trans advances', actions'.trans actions, seen'.trans seen, attempts'.trans attempts⟩

end Record

/-! ## One call -/

theorem objective_mem {s : ResearchSession} {id : Option String} {o : ResearchObjective} (h : s.objective id = some o) :
    o ∈ s.config.objectives ∧ some o.objectiveId = id := by
  refine ⟨List.mem_of_find?_eq_some h, ?_⟩
  simpa using List.find?_some h

/-- What an observation leaves. -/
theorem observed_sound {s : ResearchSession} (sound : Sound s) (id : String) (tool : ToolName) (arguments : ToolArguments)
    (evidence : List EvidenceRecord) (step : Nat) :
    Sound (s.observed id tool arguments evidence step) ∧ Advances s (s.observed id tool arguments evidence step) ∧
      (s.observed id tool arguments evidence step).actions.length ≤ s.actions.length + 1 ∧
        (s.observed id tool arguments evidence step).searchAttempts = s.searchAttempts := by
  rw [observed]
  split
  · exact ⟨sound, .refl s, Nat.le_succ _, rfl⟩
  · next o found =>
    obtain ⟨sound', advances, actions, -, attempts⟩ := observeRecords_sound tool step evidence sound (objective_mem found).1
    split
    · next s' e =>
      rw [e] at sound' advances actions attempts
      exact ⟨sound', advances, by rw [actions]; exact Nat.le_succ _, attempts⟩
    · next s' e =>
      rw [e] at sound' advances actions attempts
      dsimp only at sound' advances actions attempts ⊢
      split
      · exact ⟨sound', advances, by rw [actions]; exact Nat.le_succ _, attempts⟩
      · refine ⟨⟨sound'.valid, sound'.distinct, sound'.capacity, sound'.capped, sound'.attempts⟩,
          ⟨advances.config, advances.grown, advances.capped⟩, ?_, attempts⟩
        rw [List.length_append, List.length_singleton, actions]

/-- An admitted search is below the limit. -/
theorem admitted_search {s : ResearchSession} {id : String} {arguments : ToolArguments}
    (h : s.beforeTool (some id) .searchDocuments arguments = none) : s.searchAttempts id < s.config.maxSearchAttemptsPerObjective := by
  rw [beforeTool] at h
  split at h
  · cases h
  · next o found =>
    split at h
    · cases h
    · split at h
      · cases h
      · split at h
        · cases h
        · next below =>
          have same := Option.some.inj (objective_mem found).2
          rw [not_and, not_le] at below
          exact same ▸ below rfl

/-- **One admitted call** keeps a session sound. -/
theorem step_sound {s : ResearchSession} {call : Call} (sound : Sound s) (admitted : Admitted s call) : Sound (s.step call) := by
  cases call with
  | beforeTool id tool arguments => exact sound
  | startTool id tool arguments =>
    refine ⟨sound.valid, sound.distinct, sound.capacity, sound.capped, ?_⟩
    intro other
    show (if tool = .searchDocuments ∧ other = id then s.searchAttempts other + 1 else s.searchAttempts other) ≤
      s.config.maxSearchAttemptsPerObjective
    split
    · next here =>
      rw [here.2]
      obtain ⟨rfl, -⟩ := here
      exact admitted_search admitted
    · exact sound.attempts other
  | observed id tool arguments evidence step => exact (observed_sound sound id tool arguments evidence step).1

/-- A call only adds to the ledger. -/
theorem step_advances {s : ResearchSession} (sound : Sound s) (call : Call) : Advances s (s.step call) := by
  cases call with
  | beforeTool id tool arguments => exact .refl s
  | startTool objectiveId tool arguments => exact ⟨rfl, .refl _, fun full => full⟩
  | observed id tool arguments evidence step => exact (observed_sound sound id tool arguments evidence step).2.1

/-! ## Runs -/

theorem new_sound {config : ResearchConfig} {limits : AgentLimits} {s : ResearchSession} (h : new config limits = some s) :
    Sound s ∧ s.config = config ∧ s.actions = [] ∧ s.searchAttempts = fun _ => 0 := by
  rw [new] at h
  split at h
  · cases h
    refine ⟨⟨?_, List.nodup_nil, Nat.zero_le _, ?_, fun _ => Nat.zero_le _⟩, rfl, rfl, rfl⟩
    · exact fun e mem => absurd mem List.not_mem_nil
    · exact fun full => absurd full Bool.false_ne_true
  · cases h

theorem run_sound {s : ResearchSession} {calls : List Call} (sound : Sound s) (admitted : Runs.Along step Admitted s calls) :
    Sound (Runs.run step s calls) := by
  induction calls generalizing s with
  | nil => exact sound
  | cons call calls ih => exact ih (step_sound sound admitted.1) admitted.2

theorem run_advances {s : ResearchSession} {calls : List Call} (sound : Sound s) (admitted : Runs.Along step Admitted s calls) :
    Advances s (Runs.run step s calls) := by
  induction calls generalizing s with
  | nil => exact .refl s
  | cons call calls ih => exact (step_advances sound call).trans (ih (step_sound sound admitted.1) admitted.2)

theorem run_actions {s : ResearchSession} {calls : List Call} (sound : Sound s) (admitted : Runs.Along step Admitted s calls) :
    (Runs.run step s calls).actions.length ≤ s.actions.length + (calls.filter Call.isObserved).length := by
  induction calls generalizing s with
  | nil => exact Nat.le_refl _
  | cons call calls ih =>
    have rest := ih (step_sound sound admitted.1) admitted.2
    rw [Runs.run_cons]
    cases call with
    | beforeTool id tool arguments => exact rest
    | startTool id tool arguments => exact rest
    | observed id tool arguments evidence step =>
      have one := (observed_sound sound id tool arguments evidence step).2.2.1
      rw [List.filter_cons_of_pos (by rfl), List.length_cons]
      show _ ≤ _
      calc (Runs.run ResearchSession.step (s.observed id tool arguments evidence step) calls).actions.length
          ≤ (s.observed id tool arguments evidence step).actions.length + (calls.filter Call.isObserved).length := rest
        _ ≤ s.actions.length + ((calls.filter Call.isObserved).length + 1) := by omega

/-- The call starts a search for the objective. -/
def Call.startsSearch (id : String) : Call → Bool
  | .startTool objectiveId tool _ => tool = .searchDocuments && objectiveId = id
  | _ => false

theorem run_attempts {s : ResearchSession} {calls : List Call} (sound : Sound s) (admitted : Runs.Along step Admitted s calls)
    (id : String) :
    (Runs.run step s calls).searchAttempts id = s.searchAttempts id + (calls.filter (Call.startsSearch id)).length := by
  induction calls generalizing s with
  | nil => rfl
  | cons call calls ih =>
    rw [Runs.run_cons, ih (step_sound sound admitted.1) admitted.2]
    cases call with
    | beforeTool objectiveId tool arguments => rfl
    | observed objectiveId tool arguments evidence step =>
      have same := (observed_sound sound objectiveId tool arguments evidence step).2.2.2
      rw [List.filter_cons_of_neg (by simp [Call.startsSearch])]
      exact congrArg (fun attempts : String → Nat => attempts id + _) same
    | startTool objectiveId tool arguments =>
      show (if tool = .searchDocuments ∧ id = objectiveId then s.searchAttempts id + 1 else s.searchAttempts id) + _ = _
      by_cases here : tool = .searchDocuments ∧ id = objectiveId
      · rw [if_pos here, List.filter_cons_of_pos (by simp [Call.startsSearch, here]), List.length_cons]
        omega
      · rw [if_neg here, List.filter_cons_of_neg]
        rw [Call.startsSearch, Bool.and_eq_true, decide_eq_true_eq, decide_eq_true_eq]
        exact fun h => here ⟨h.1, h.2.symm⟩

end ResearchSession

end Agent
