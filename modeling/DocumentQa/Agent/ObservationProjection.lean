import DocumentQa.Agent.Agreement
import DocumentQa.Agent.Observation

/-!
# Bounded and faithful projections

The extraction succeeds exactly on sound output, and then its records are those of the items
one by one. A round of the loop drops text or records from the end only, which bounds what a
projection can lose; whatever was lost is flagged.
-/

namespace Agent.Observation

open Python JsonText

/-! ## Records -/

/-- What `_record` checks. -/
structure SourceItem.Sound (T : TextTables) (item : SourceItem) : Prop where
  scores : finiteScores item.scores = true
  family : item.scoreKind.all (fun kind => kind.length ≤ 64 && !T.containsSensitiveText kind) = true
  document : item.documentId.all (EvidenceKind.accepts .documentId) = true
  chunk : item.chunkId.all (EvidenceKind.accepts .chunkId) = true
  pair : item.chunkId.all (sourcePairFits item.documentId) = true

/-- The record of an item with the texts given. -/
def SourceItem.recordWith (item : SourceItem) (citation excerpt : String) : EvidenceRecord where
  documentId := item.documentId
  chunkId := item.chunkId
  sourceLabel := item.sourceLabel
  citation := if citation = "" then none else some citation
  scoreKind := item.scoreKind
  scores := item.scores
  excerpt := excerpt

/-- The record `_record` makes of an item. -/
def SourceItem.kept (T : TextTables) (excerptLimit : Nat) (item : SourceItem) : EvidenceRecord :=
  item.recordWith (T.safeText item.citation 256).1 (T.safeText (some item.excerpt) excerptLimit).1

/-- A text of the item was redacted or cut. -/
def SourceItem.cut (T : TextTables) (excerptLimit : Nat) (item : SourceItem) : Bool :=
  (T.safeText (some item.excerpt) excerptLimit).2 || (T.safeText item.citation 256).2

/-- The record with the texts as the tool gave them. -/
def SourceItem.whole (item : SourceItem) : EvidenceRecord :=
  item.recordWith (item.citation.getD "") item.excerpt

theorem canonical_eq_ok {kind : EvidenceKind} {value result : Option String} :
    canonical kind value = .ok result ↔ value.all kind.accepts = true ∧ value = result := by
  unfold canonical
  split
  · next accepted => simp [accepted]
  · next refused => simp [refused]

theorem record_eq_ok {T : TextTables} {item : SourceItem} {excerptLimit : Nat} {result : EvidenceRecord × Bool} :
    record T item excerptLimit = .ok result ↔
      item.Sound T ∧ (item.kept T excerptLimit, item.cut T excerptLimit) = result := by
  unfold record
  simp only [Checked.bind_eq_ok, Checked.require_eq_ok, canonical_eq_ok, Checked.pure_eq_ok]
  constructor
  · rintro ⟨_, scores, _, family, _, ⟨document, rfl⟩, _, ⟨chunk, rfl⟩, _, pair, made⟩
    exact ⟨⟨scores, family, document, chunk, pair⟩, made⟩
  · rintro ⟨sound, made⟩
    exact ⟨(), sound.scores, (), sound.family, _, ⟨sound.document, rfl⟩, _, ⟨sound.chunk, rfl⟩, (), sound.pair, made⟩

/-- A text that is not flagged is kept as it is. -/
theorem safeText_whole {T : TextTables} {value : Option String} {limit : Nat} (whole : (T.safeText value limit).2 = false) :
    (T.safeText value limit).1 = value.getD "" := by
  unfold TextTables.safeText at whole ⊢
  dsimp only at whole ⊢
  rw [Bool.or_eq_false_iff, Bool.not_eq_false', decide_eq_false_iff_not, decide_eq_true_eq, not_lt] at whole
  obtain ⟨short, same⟩ := whole
  rw [List.take_of_length_le short, same, String.ofList_toList]

theorem kept_whole {T : TextTables} {excerptLimit : Nat} {item : SourceItem} (whole : item.cut T excerptLimit = false) :
    item.kept T excerptLimit = item.whole := by
  unfold SourceItem.cut at whole
  rw [Bool.or_eq_false_iff] at whole
  rw [SourceItem.kept, SourceItem.whole, safeText_whole whole.1, safeText_whole whole.2]
  rfl

theorem records_eq_ok {T : TextTables} {limits : AgentLimits} {items : List SourceItem} {result : List EvidenceRecord × Bool} :
    records T limits items = .ok result ↔
      (∀ item ∈ items.take limits.maxEvidencePerObservation, item.Sound T) ∧
        ((items.take limits.maxEvidencePerObservation).map (SourceItem.kept T limits.maxExcerptChars),
          (items.take limits.maxEvidencePerObservation).any (SourceItem.cut T limits.maxExcerptChars) ||
            decide (limits.maxEvidencePerObservation < items.length)) = result := by
  unfold records
  simp only [Checked.bind_eq_ok, Checked.pure_eq_ok, Checked.collect_partial fun _ _ => record_eq_ok]
  constructor
  · rintro ⟨_, ⟨sound, rfl⟩, made⟩
    refine ⟨sound, ?_⟩
    rw [← made, List.map_map, List.any_map]
    rfl
  · rintro ⟨sound, made⟩
    refine ⟨_, ⟨sound, rfl⟩, ?_⟩
    rw [← made, List.map_map, List.any_map]
    rfl

/-! ## Extraction -/

/-- What `_extract` checks of a stage. -/
structure StageFact.Sound (T : TextTables) (s : StageFact) : Prop where
  name : (s.name.length ≤ 64 && !T.containsSensitiveText s.name) = true
  elapsed : s.elapsedMs.all Double.isFinite = true

theorem stageFacts_eq_ok {T : TextTables} {stages result : List StageFact} :
    stageFacts T stages = .ok result ↔ (∀ s ∈ stages.take 8, s.Sound T) ∧ stages.take 8 = result := by
  unfold stageFacts
  simp only [Checked.bind_eq_ok, Checked.require_eq_ok, Checked.pure_eq_ok, List.all_eq_true]
  constructor
  · rintro ⟨_, names, _, timings, made⟩
    exact ⟨fun s mem => ⟨names s mem, timings s mem⟩, made⟩
  · rintro ⟨sound, made⟩
    exact ⟨(), fun s mem => (sound s mem).name, (), fun s mem => (sound s mem).elapsed, made⟩

/-- What the tool found, one item after the other. -/
def ToolData.sources : ToolData → List SourceItem
  | .discovery data => (data.items.flatMap DiscoveryItem.hits).map (DiscoveryHit.item data.engineKey)
  | .retrieval trace => trace.candidates.map RetrievalCandidate.item
  | .document data =>
    if data.items.isEmpty then [{ documentId := some data.documentId }]
    else data.items.map (DocumentChunkPreview.item data.documentId)
  | .query data => data.sources.map SourceChunk.item

/-- How many of them are read: all of a document without chunks. -/
def ToolData.room (limits : AgentLimits) : ToolData → Nat
  | .document data => if data.items.isEmpty then 1 else limits.maxEvidencePerObservation
  | _ => limits.maxEvidencePerObservation

def ToolData.stages : ToolData → List StageFact
  | .retrieval trace => trace.stages
  | _ => []

def ToolData.searchId : ToolData → Option String
  | .discovery data => some data.searchId
  | _ => none

def ToolData.reportedItems : ToolData → Int
  | .discovery data => data.total
  | .retrieval trace => trace.candidateCount
  | .document data => data.total
  | .query data => data.numChunksRetrieved

/-- Output whose identities, scores and stages pass the checks of `_extract`. -/
structure ToolData.Sound (T : TextTables) (limits : AgentLimits) (data : ToolData) : Prop where
  search : data.searchId.all (EvidenceKind.accepts .searchId) = true
  sources : ∀ item ∈ data.sources.take (data.room limits), item.Sound T
  stages : ∀ s ∈ data.stages.take 8, s.Sound T

/-- What is extracted of sound output. -/
structure Extracts (T : TextTables) (limits : AgentLimits) (data : ToolData) (e : Extracted) : Prop where
  search : e.searchId = data.searchId
  records : e.records = (data.sources.take (data.room limits)).map (SourceItem.kept T limits.maxExcerptChars)
  stages : e.stages = data.stages.take 8
  reported : e.reportedItems = data.reportedItems
  /-- Nothing is shortened or left out unflagged. -/
  whole : e.truncated = false → e.records = data.sources.map SourceItem.whole ∧ e.stages = data.stages

/-- Records of all items, none of them cut, are whole. -/
theorem records_whole {T : TextTables} {limits : AgentLimits} {items : List SourceItem}
    (whole : ((items.take limits.maxEvidencePerObservation).any (SourceItem.cut T limits.maxExcerptChars) ||
      decide (limits.maxEvidencePerObservation < items.length)) = false) :
    (items.take limits.maxEvidencePerObservation).map (SourceItem.kept T limits.maxExcerptChars) =
      items.map SourceItem.whole := by
  rw [Bool.or_eq_false_iff, decide_eq_false_iff_not, not_lt, List.any_eq_false] at whole
  obtain ⟨uncut, all⟩ := whole
  rw [List.take_of_length_le all] at uncut ⊢
  apply List.map_congr_left
  intro item mem
  exact kept_whole (Bool.not_eq_true _ ▸ uncut item mem)

/-- There is nothing to redact in an empty text. -/
theorem safeText_empty {T : TextTables} {value : Option String} (empty : value.getD "" = "") (limit : Nat) :
    (T.safeText value limit).1 = "" := by
  have untouched : ∀ redactions ⊆ T.redactions,
      redactions.foldl (fun text redaction => redaction.1.replace redaction.2.toList text) [] = [] := by
    intro redactions within
    induction redactions with
    | nil => rfl
    | cons redaction redactions ih =>
      have mem := within (List.mem_cons_self ..)
      have unmatched : redaction.1.replace redaction.2.toList [] = [] := by
        simp only [TextTables.redactions, List.mem_cons, List.not_mem_nil, or_false] at mem
        rcases mem with rfl | rfl | rfl | rfl | rfl | rfl
        all_goals rfl
      rw [List.foldl_cons, unmatched]
      exact ih fun _ mem' => within (List.mem_cons_of_mem _ mem')
  unfold TextTables.safeText
  dsimp only
  rw [empty, String.toList_empty, untouched _ (List.Subset.refl _), List.take_nil]

/-- The record of a document without chunks. -/
theorem kept_document {T : TextTables} {excerptLimit : Nat} (documentId : String) :
    SourceItem.kept T excerptLimit { documentId := some documentId } = { documentId := some documentId } := by
  unfold SourceItem.kept
  rw [safeText_empty rfl, safeText_empty rfl]
  rfl

theorem extract_sound {T : TextTables} {limits : AgentLimits} {data : ToolData} {e : Extracted}
    (h : extract T limits data = .ok e) : data.Sound T limits ∧ Extracts T limits data e := by
  cases data with
  | discovery data =>
    simp only [extract, Checked.bind_eq_ok, canonical_eq_ok, records_eq_ok, Checked.pure_eq_ok] at h
    obtain ⟨_, ⟨search, rfl⟩, _, ⟨sound, rfl⟩, rfl⟩ := h
    refine ⟨⟨search, sound, fun s mem => absurd mem List.not_mem_nil⟩, rfl, rfl, rfl, rfl, ?_⟩
    exact fun whole => ⟨records_whole whole, rfl⟩
  | retrieval trace =>
    simp only [extract, Checked.bind_eq_ok, stageFacts_eq_ok, records_eq_ok, Checked.pure_eq_ok] at h
    obtain ⟨_, ⟨sound, rfl⟩, _, ⟨stages, rfl⟩, rfl⟩ := h
    refine ⟨⟨rfl, sound, stages⟩, rfl, rfl, rfl, rfl, ?_⟩
    intro whole
    dsimp only at whole
    rw [Bool.or_eq_false_iff, decide_eq_false_iff_not (p := 8 < _), not_lt] at whole
    exact ⟨records_whole whole.1, List.take_of_length_le whole.2⟩
  | document data =>
    unfold extract at h
    by_cases empty : data.items.isEmpty = true
    · simp only [if_pos empty, Checked.bind_eq_ok, canonical_eq_ok, Checked.pure_eq_ok] at h
      obtain ⟨_, ⟨document, rfl⟩, rfl⟩ := h
      have sources : (ToolData.document data).sources = [{ documentId := some data.documentId }] := if_pos empty
      have taken : (ToolData.document data).sources.take ((ToolData.document data).room limits) =
          [{ documentId := some data.documentId }] := by
        rw [sources, ToolData.room, if_pos empty]
        rfl
      refine ⟨⟨rfl, ?_, fun s mem => absurd mem List.not_mem_nil⟩, rfl, ?_, rfl, rfl, ?_⟩
      · intro item mem
        rw [taken, List.mem_singleton] at mem
        rw [mem]
        exact ⟨rfl, rfl, document, rfl, rfl⟩
      · rw [taken, List.map_singleton, kept_document]
      · intro _
        rw [sources]
        exact ⟨rfl, rfl⟩
    · simp only [if_neg empty, Checked.bind_eq_ok, records_eq_ok, Checked.pure_eq_ok] at h
      obtain ⟨_, ⟨sound, rfl⟩, rfl⟩ := h
      have sources : (ToolData.document data).sources = data.items.map (DocumentChunkPreview.item data.documentId) :=
        if_neg empty
      have taken : (ToolData.document data).sources.take ((ToolData.document data).room limits) =
          (data.items.map (DocumentChunkPreview.item data.documentId)).take limits.maxEvidencePerObservation := by
        rw [sources, ToolData.room, if_neg empty]
      refine ⟨⟨rfl, ?_, fun s mem => absurd mem List.not_mem_nil⟩, rfl, ?_, rfl, rfl, ?_⟩
      · rw [taken]
        exact sound
      · rw [taken]
      · intro whole
        rw [sources]
        exact ⟨records_whole whole, rfl⟩
  | query data =>
    simp only [extract, Checked.bind_eq_ok, records_eq_ok, Checked.pure_eq_ok] at h
    obtain ⟨_, ⟨sound, rfl⟩, rfl⟩ := h
    refine ⟨⟨rfl, sound, fun s mem => absurd mem List.not_mem_nil⟩, rfl, rfl, rfl, rfl, ?_⟩
    exact fun whole => ⟨records_whole whole, rfl⟩

/-- **Sound output is extracted**, other output is refused. -/
theorem extract_succeeds {T : TextTables} {limits : AgentLimits} {data : ToolData} (sound : data.Sound T limits) :
    ∃ e, extract T limits data = .ok e := by
  obtain ⟨search, sources, stages⟩ := sound
  cases data with
  | discovery data =>
    have kept := records_eq_ok.2 ⟨sources, rfl⟩
    simp only [extract, Checked.bind_eq_ok, canonical_eq_ok, Checked.pure_eq_ok]
    exact ⟨_, _, ⟨search, rfl⟩, _, kept, rfl⟩
  | retrieval trace =>
    have kept := records_eq_ok.2 ⟨sources, rfl⟩
    simp only [extract, Checked.bind_eq_ok, stageFacts_eq_ok, Checked.pure_eq_ok]
    exact ⟨_, _, kept, _, ⟨stages, rfl⟩, rfl⟩
  | document data =>
    by_cases empty : data.items.isEmpty = true
    · have item := sources { documentId := some data.documentId } (by
        rw [ToolData.sources, if_pos empty, ToolData.room, if_pos empty]
        exact List.mem_singleton_self _)
      simp only [extract, if_pos empty, Checked.bind_eq_ok, canonical_eq_ok, Checked.pure_eq_ok]
      exact ⟨_, _, ⟨item.document, rfl⟩, rfl⟩
    · rw [ToolData.sources, if_neg empty, ToolData.room, if_neg empty] at sources
      have kept := records_eq_ok.2 ⟨sources, rfl⟩
      simp only [extract, if_neg empty, Checked.bind_eq_ok, Checked.pure_eq_ok]
      exact ⟨_, _, kept, rfl⟩
  | query data =>
    have kept := records_eq_ok.2 ⟨sources, rfl⟩
    simp only [extract, Checked.bind_eq_ok, Checked.pure_eq_ok]
    exact ⟨_, _, kept, rfl⟩

/-! ## Trimming -/

def EvidenceRecord.emptied (r : EvidenceRecord) : EvidenceRecord :=
  { r with excerpt := "" }

/-- The records that are left: the first ones, the last of them perhaps without its excerpt. -/
def Left (records kept : List EvidenceRecord) : Prop :=
  kept <+: records ∨ ∃ front last, front ++ [last] <+: records ∧ kept = front ++ [last.emptied]

/-- The round of the loop that made `o'` of `o`. -/
theorem shrink_cases {o o' : AgentObservation} (h : o.shrink = some o') :
    (∃ front last, o.evidence = front ++ [last] ∧ last.excerpt ≠ "" ∧
      o' = { o with truncated := true, evidence := front ++ [last.emptied] }) ∨
    (∃ front last, o.evidence = front ++ [last] ∧ last.excerpt = "" ∧ o' = { o with truncated := true, evidence := front }) ∨
    (∃ front last, o.evidence = [] ∧ o.stages = front ++ [last] ∧ o' = { o with truncated := true, stages := front }) := by
  unfold AgentObservation.shrink at h
  split at h
  · next last found =>
    have parts := List.dropLast_append_getLast? last found
    split at h
    · next text =>
      cases h
      exact .inl ⟨o.evidence.dropLast, last, parts.symm, text, rfl⟩
    · next blank =>
      cases h
      exact .inr (.inl ⟨o.evidence.dropLast, last, parts.symm, not_not.1 blank, rfl⟩)
  · next none_ =>
    split at h
    · cases h
    · next stages =>
      cases h
      have some_ : o.stages ≠ [] := fun empty => stages (List.isEmpty_iff.2 empty)
      have parts := List.dropLast_append_getLast some_
      exact .inr (.inr ⟨o.stages.dropLast, _, List.getLast?_eq_none_iff.1 none_, parts.symm, rfl⟩)

theorem shrink_eq_none {o : AgentObservation} (h : o.shrink = none) : o.evidence = [] ∧ o.stages = [] := by
  unfold AgentObservation.shrink at h
  split at h
  · split at h
    · cases h
    · cases h
  · next none_ =>
    split at h
    · next stages => exact ⟨List.getLast?_eq_none_iff.1 none_, List.isEmpty_iff.1 stages⟩
    · cases h

theorem shrink_lighter (o o' : AgentObservation) (h : o.shrink = some o') : o'.weight < o.weight := by
  rcases shrink_cases h with ⟨front, last, evidence, text, rfl⟩ | ⟨front, last, evidence, blank, rfl⟩ |
    ⟨front, last, none_, stages, rfl⟩
  · unfold AgentObservation.weight
    rw [evidence]
    simp [EvidenceRecord.emptied, text]
  · unfold AgentObservation.weight
    rw [evidence]
    have one : (front.getLast?.elim 0 fun last => if last.excerpt = "" then 0 else 1) ≤ 1 := by
      cases front.getLast? with
      | none => exact Nat.zero_le 1
      | some r =>
        show (if r.excerpt = "" then 0 else 1) ≤ 1
        split <;> omega
    simp only [List.length_append, List.length_singleton, List.getLast?_concat, Option.elim_some, if_pos blank]
    omega
  · unfold AgentObservation.weight
    dsimp only
    rw [stages, List.length_append, List.length_singleton]
    omega

theorem Left.refl (records : List EvidenceRecord) : Left records records :=
  .inl (List.prefix_refl records)

/-- The last record, emptied before, goes and leaves the first ones. -/
theorem Left.pop {records front : List EvidenceRecord} {last : EvidenceRecord} (h : Left records (front ++ [last])) :
    front <+: records := by
  rcases h with first | ⟨front', last', first, same⟩
  · exact (List.prefix_append front [last]).trans first
  · rw [(List.append_inj' same rfl).1]
    exact (List.prefix_append front' [last']).trans first

theorem Left.empty {records front : List EvidenceRecord} {last : EvidenceRecord} (h : Left records (front ++ [last]))
    (text : last.excerpt ≠ "") : Left records (front ++ [last.emptied]) := by
  rcases h with first | ⟨front', last', -, same⟩
  · exact .inr ⟨front, last, first, rfl⟩
  · -- the last record has been emptied already
    obtain ⟨-, last_⟩ := List.append_inj' same rfl
    rw [List.singleton_inj] at last_
    exact absurd (congrArg EvidenceRecord.excerpt last_) text

/-- What an observation has lost of the one the loop started with. -/
structure Trims (start o : AgentObservation) : Prop where
  toolName : o.toolName = start.toolName
  searchId : o.searchId = start.searchId
  reported : o.reportedItems = start.reportedItems
  evidence : Left start.evidence o.evidence
  stages : o.stages <+: start.stages
  flagged : o = start ∨ o.truncated = true ∧ (start.evidence ≠ [] ∨ start.stages ≠ [])

theorem Trims.refl (o : AgentObservation) : Trims o o :=
  ⟨rfl, rfl, rfl, .refl _, List.prefix_refl _, .inl rfl⟩

/-- **One round** trims. -/
theorem Trims.shrink {start o o' : AgentObservation} (h : Trims start o) (round : o.shrink = some o') : Trims start o' := by
  have lost (some_ : o.evidence ≠ [] ∨ o.stages ≠ []) : start.evidence ≠ [] ∨ start.stages ≠ [] := by
    rcases h.flagged with rfl | ⟨-, lost⟩
    · exact some_
    · exact lost
  rcases shrink_cases round with ⟨front, last, evidence, text, rfl⟩ | ⟨front, last, evidence, -, rfl⟩ |
    ⟨front, last, none_, stages, rfl⟩
  · have left := h.evidence
    rw [evidence] at left
    exact ⟨h.toolName, h.searchId, h.reported, left.empty text, h.stages,
      .inr ⟨rfl, lost (.inl (evidence ▸ List.concat_ne_nil last front))⟩⟩
  · have left := h.evidence
    rw [evidence] at left
    exact ⟨h.toolName, h.searchId, h.reported, .inl left.pop, h.stages,
      .inr ⟨rfl, lost (.inl (evidence ▸ List.concat_ne_nil last front))⟩⟩
  · have first := h.stages
    rw [stages] at first
    exact ⟨h.toolName, h.searchId, h.reported, h.evidence, (List.prefix_append front [last]).trans first,
      .inr ⟨rfl, lost (.inr (stages ▸ List.concat_ne_nil last front))⟩⟩

/-- **A run of the loop** that returns trims, and what it returns fits. -/
theorem fit_trims {fits : AgentObservation → Bool} {start o : AgentObservation}
    (h : Shrinking.fit AgentObservation.shrink fits start.weight start = some o) : Trims start o ∧ fits o = true := by
  obtain ⟨reached, fitting⟩ := Shrinking.fit_eq_some h
  exact ⟨reached.invariant (.refl start) fun _ _ round trims => trims.shrink round, fitting⟩

/-- A run that raises has trimmed all evidence and all stages. -/
theorem fit_raises {fits : AgentObservation → Bool} {start : AgentObservation}
    (h : Shrinking.fit AgentObservation.shrink fits start.weight start = none) :
    ∃ o, Trims start o ∧ o.evidence = [] ∧ o.stages = [] ∧ fits o = false := by
  obtain ⟨o, reached, last, large⟩ := Shrinking.fit_eq_none shrink_lighter (Nat.le_refl _) h
  obtain ⟨evidence, stages⟩ := shrink_eq_none last
  exact ⟨o, reached.invariant (.refl start) fun _ _ round trims => trims.shrink round, evidence, stages, large⟩

/-! ## Projections -/

/-- The records kept, as the extraction made them but for their excerpts. -/
structure Faithful (records kept : List EvidenceRecord) : Prop where
  few : kept.length ≤ records.length
  identities : kept.map EvidenceRecord.emptied = (records.take kept.length).map EvidenceRecord.emptied
  excerpts : ∀ i (hi : i < kept.length), kept[i].excerpt = records[i].excerpt ∨ kept[i].excerpt = ""
  emptied : ∀ i j (le : i ≤ j) (hj : j < kept.length), kept[i].excerpt ≠ records[i].excerpt → kept[j].excerpt = ""

theorem Left.faithful {records kept : List EvidenceRecord} (h : Left records kept) : Faithful records kept := by
  rcases h with ⟨rest, rfl⟩ | ⟨front, last, ⟨rest, rfl⟩, rfl⟩
  · refine ⟨?_, ?_, ?_, ?_⟩
    · rw [List.length_append]
      omega
    · rw [List.take_left]
    · intro i hi
      rw [List.getElem_append_left hi]
      exact .inl rfl
    · intro i j le hj changed
      rw [List.getElem_append_left (by omega)] at changed
      exact absurd rfl changed
  · have before {i : Nat} (hi : i < front.length) (hi' : i < (front ++ [last.emptied]).length)
        (hi'' : i < (front ++ [last] ++ rest).length) :
        (front ++ [last.emptied])[i] = (front ++ [last] ++ rest)[i] := by
      have hi''' : i < (front ++ [last]).length := by
        rw [List.length_append]
        omega
      rw [List.getElem_append_left hi, List.getElem_append_left hi''', List.getElem_append_left hi]
    have at_end {i : Nat} (hi : ¬ i < front.length) (hi' : i < (front ++ [last.emptied]).length) :
        (front ++ [last.emptied])[i].excerpt = "" := by
      rw [List.getElem_append_right (by omega)]
      rw [List.length_append, List.length_singleton] at hi'
      have zero : i - front.length = 0 := by omega
      simp only [zero, List.getElem_cons_zero]
      rfl
    refine ⟨?_, ?_, ?_, ?_⟩
    · simp only [List.length_append, List.length_singleton]
      omega
    · have same : (front ++ [last.emptied]).length = (front ++ [last]).length := by
        simp only [List.length_append, List.length_singleton]
      rw [same, List.take_left, List.map_append, List.map_append]
      rfl
    · intro i hi
      by_cases inside : i < front.length
      · exact .inl (congrArg EvidenceRecord.excerpt (before inside hi _))
      · exact .inr (at_end inside hi)
    · intro i j le hj changed
      by_cases inside : i < front.length
      · exact absurd (congrArg EvidenceRecord.excerpt (before inside (by omega) _)) changed
      · exact at_end (by omega) hj

/-- The observation without evidence and stages. -/
def bare (observation : ToolObservation) (e : Extracted) : AgentObservation where
  toolName := observation.toolName
  searchId := e.searchId
  evidence := []
  stages := []
  reportedItems := e.reportedItems
  truncated := e.truncated || !e.records.isEmpty || !e.stages.isEmpty

/-- What a projection keeps of the extracted data. -/
structure Projection (T : TextTables) (observation : ToolObservation) (budget : Int) (e : Extracted) (o : AgentObservation) :
    Prop where
  fits : (o.size T : Int) ≤ budget
  toolName : o.toolName = observation.toolName
  searchId : o.searchId = e.searchId
  reported : o.reportedItems = e.reportedItems
  evidence : Faithful e.records o.evidence
  stages : o.stages <+: e.stages
  /-- Without the flag everything the tool found is there, and whole. -/
  whole : o.truncated = false → o.evidence = observation.data.sources.map SourceItem.whole ∧ o.stages = observation.data.stages

/-- The observation the loop starts with. -/
def initial (observation : ToolObservation) (e : Extracted) : AgentObservation :=
  ⟨observation.toolName, e.searchId, e.records, e.stages, e.reportedItems, e.truncated⟩

theorem Trims.projection {T : TextTables} {limits : AgentLimits} {observation : ToolObservation} {budget : Int} {e : Extracted}
    {o : AgentObservation} (h : Trims (initial observation e) o) (extracts : Extracts T limits observation.data e)
    (fits : (o.size T : Int) ≤ budget) : Projection T observation budget e o := by
  refine ⟨fits, h.toolName, h.searchId, h.reported, h.evidence.faithful, h.stages, ?_⟩
  intro unflagged
  rcases h.flagged with rfl | ⟨flagged, -⟩
  · exact extracts.whole unflagged
  · rw [flagged] at unflagged
    cases unflagged

theorem Trims.bare {observation : ToolObservation} {e : Extracted} {o : AgentObservation} (h : Trims (initial observation e) o)
    (evidence : o.evidence = []) (stages : o.stages = []) : o = bare observation e := by
  have truncated : o.truncated = (e.truncated || !e.records.isEmpty || !e.stages.isEmpty) := by
    rcases h.flagged with same | ⟨flagged, lost⟩
    · rw [same] at evidence stages ⊢
      have records_ : e.records = [] := evidence
      have stages_ : e.stages = [] := stages
      rw [records_, stages_, List.isEmpty_nil, List.isEmpty_nil, Bool.not_true, Bool.or_false, Bool.or_false]
      rfl
    · rw [flagged]
      rcases lost with some_ | some_
      · have records_ : e.records.isEmpty = false := List.isEmpty_eq_false_iff.2 some_
        rw [records_, Bool.not_false, Bool.or_true, Bool.true_or]
      · have stages_ : e.stages.isEmpty = false := List.isEmpty_eq_false_iff.2 some_
        rw [stages_, Bool.not_false, Bool.or_true]
  obtain ⟨toolName, searchId, records, stages', reportedItems, flag⟩ := o
  cases evidence
  cases stages
  have toolName_ : toolName = observation.toolName := h.toolName
  have searchId_ : searchId = e.searchId := h.searchId
  have reported_ : reportedItems = e.reportedItems := h.reported
  have flag_ : flag = (e.truncated || !e.records.isEmpty || !e.stages.isEmpty) := truncated
  rw [toolName_, searchId_, reported_, flag_]
  rfl

theorem projectObservation_extracted {T : TextTables} {observation : ToolObservation} {limits : AgentLimits} {e : Extracted}
    (h : extract T limits observation.data = .ok e) (remainingBytes : Int) :
    projectObservation T observation limits remainingBytes =
      Checked.orRaise (Shrinking.fit AgentObservation.shrink
        (fun o => decide ((o.size T : Int) ≤ min (limits.maxObservationBytes : Int) remainingBytes))
        (initial observation e).weight (initial observation e)) (.limit "minimum observation exceeds byte budget") := by
  unfold projectObservation
  rw [h]
  rfl

/-- **Bounded and faithful projections.** The output of a tool is refused as invalid unless it is sound.
Of sound output a projection within the budget is returned, or the limit raised when not even the
observation without evidence and stages is within it. -/
theorem project_observation (T : TextTables) (observation : ToolObservation) (limits : AgentLimits) (remainingBytes : Int) :
    ((∃ message, projectObservation T observation limits remainingBytes = .error (.integrity message)) ↔
      ¬ observation.data.Sound T limits) ∧
    (∀ message, projectObservation T observation limits remainingBytes = .error (.limit message) →
      ∃ e, Extracts T limits observation.data e ∧
        min (limits.maxObservationBytes : Int) remainingBytes < (bare observation e).size T) ∧
    ∀ o, projectObservation T observation limits remainingBytes = .ok o →
      ∃ e, Extracts T limits observation.data e ∧
        Projection T observation (min (limits.maxObservationBytes : Int) remainingBytes) e o := by
  cases extracted : extract T limits observation.data with
  | error message =>
    have refused : projectObservation T observation limits remainingBytes = .error (.integrity message) := by
      unfold projectObservation
      rw [extracted]
      rfl
    have unsound : ¬ observation.data.Sound T limits := by
      intro sound
      obtain ⟨e, ok⟩ := extract_succeeds sound
      rw [ok] at extracted
      cases extracted
    rw [refused]
    refine ⟨⟨fun _ => unsound, fun _ => ⟨message, rfl⟩⟩, ?_, ?_⟩
    · intro _ h
      cases h
    · intro _ h
      cases h
  | ok e =>
    obtain ⟨sound, extracts⟩ := extract_sound extracted
    rw [projectObservation_extracted extracted]
    cases run : Shrinking.fit AgentObservation.shrink
        (fun o => decide ((o.size T : Int) ≤ min (limits.maxObservationBytes : Int) remainingBytes))
        (initial observation e).weight (initial observation e) with
    | none =>
      obtain ⟨o, trims, evidence, stages, large⟩ := fit_raises run
      rw [trims.bare evidence stages, decide_eq_false_iff_not, not_le] at large
      refine ⟨⟨?_, fun unsound => absurd sound unsound⟩, fun _ _ => ⟨e, extracts, large⟩, ?_⟩
      · rintro ⟨_, h⟩
        cases h
      · intro _ h
        cases h
    | some o =>
      obtain ⟨trims, fits⟩ := fit_trims run
      refine ⟨⟨?_, fun unsound => absurd sound unsound⟩, ?_, ?_⟩
      · rintro ⟨_, h⟩
        cases h
      · intro _ h
        cases h
      · intro _ h
        cases h
        exact ⟨e, extracts, trims.projection extracts (of_decide_eq_true fits)⟩

/-! ## Samples -/

/-- ASCII letters and digits, floats left out. -/
def plainTables : TextTables :=
  ⟨fun c => c.isAlphanum || c = '_', fun _ => []⟩

/-- A preview with the chunk of another filing. -/
def forged : ToolObservation :=
  ⟨"read_document", .document ⟨"AAPL:0000320193-25-000079",
    [⟨some "AAPL_000032019325000080_business_0001", "Forged cross-document evidence."⟩], 1⟩⟩

/-- Output with a forged identity is neither projected nor over the limit. -/
theorem forged_refused : ¬ ((∃ message, projectObservation plainTables forged sampleLimits 4096 = .error (.limit message)) ∨
    ∃ o, projectObservation plainTables forged sampleLimits 4096 = .ok o) := by
  have refused : projectObservation plainTables forged sampleLimits 4096 = .error (.integrity "conflicting source identity") := by
    rfl
  rw [refused]
  rintro (⟨_, h⟩ | ⟨_, h⟩)
  · cases h
  · cases h

end Agent.Observation
