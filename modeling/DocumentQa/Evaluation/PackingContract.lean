import DocumentQa.Evaluation.ContextPacking
import DocumentQa.Lib.Runs

/-!
# The contract of packed evidence

Packing selects: what it keeps and drops are the entries of the case, in source order, with
every structured promotion among the kept. Every required keyword some entry mentions is
mentioned by a kept one under the generic packer and the intent packer. The anchor packer
protects one donor of a keyword and may exchange another, kept one, so it meets the contract
where a kept donor of each keyword is the protected one or no anchor of the question.
-/

namespace ContextPacking

open Python Generation

section Contract

variable {Score : Type} {f : Folding} {s : Scores Score}

/-! ## Choices -/

theorem greatest_mem {α : Type} {above : α → α → Bool} {l : List α} {a : α} (h : greatest above l = some a) : a ∈ l := by
  cases l with
  | nil => cases h
  | cons first rest =>
    have all : ∀ best, rest.foldl (fun best candidate => if above candidate best then candidate else best) best ∈ best :: rest := by
      clear h
      induction rest with
      | nil => simp
      | cons candidate rest ih =>
        intro best
        rw [List.foldl_cons]
        split
        · exact List.mem_cons_of_mem _ (ih candidate)
        · rcases List.mem_cons.1 (ih best) with same | mem
          · rw [same]
            exact List.mem_cons_self
          · exact List.mem_cons_of_mem _ (List.mem_cons_of_mem _ mem)
    rw [greatest, Option.some.injEq] at h
    exact h ▸ all first

theorem greatest_eq_none {α : Type} {above : α → α → Bool} {l : List α} : greatest above l = none ↔ l = [] := by
  cases l <;> simp [greatest]

theorem topBy_eq_some {entries : List (Entry Score)} {predicate : Entry Score → Bool} {entry : Entry Score}
    (h : topBy s entries predicate = some entry) : entry ∈ entries ∧ predicate entry = true := by
  obtain ⟨c, found, rfl⟩ := Option.map_eq_some_iff.1 h
  obtain ⟨⟨entry, index⟩, mem, rfl⟩ := List.mem_map.1 (greatest_mem found)
  exact List.mem_filter.1 (List.fst_mem_of_mem_zipIdx mem)

theorem topBy_eq_none {entries : List (Entry Score)} {predicate : Entry Score → Bool} (h : topBy s entries predicate = none) :
    ∀ entry ∈ entries, predicate entry = false := by
  rw [topBy, Option.map_eq_none_iff, greatest_eq_none, List.map_eq_nil_iff, List.zipIdx_eq_nil_iff,
    List.filter_eq_nil_iff] at h
  exact fun entry mem => Bool.eq_false_iff.2 (h entry mem)

/-! ## Kept chunks -/

theorem add_grows (kept : List (Entry Score)) (entry : Entry Score) : kept ⊆ add kept entry := by
  rw [add]
  split
  · exact List.Subset.refl kept
  · exact List.subset_append_left kept [entry]

theorem mem_add {kept : List (Entry Score)} {entry e : Entry Score} (h : e ∈ add kept entry) : e ∈ kept ∨ e = entry := by
  rw [add] at h
  split at h
  · exact .inl h
  · simpa using h

theorem add_id (kept : List (Entry Score)) (entry : Entry Score) : entry.chunkId ∈ keptIds (add kept entry) := by
  rw [add]
  split
  · next here => exact here
  · exact List.mem_map_of_mem (List.mem_append_right _ (List.mem_singleton_self entry))

theorem keptIds_subset {kept kept' : List (Entry Score)} (h : kept ⊆ kept') : keptIds kept ⊆ keptIds kept' :=
  List.map_subset _ h

/-- One selection is kept on the way to another, which takes no chunk from elsewhere. -/
structure Extends (entries kept kept' : List (Entry Score)) : Prop where
  grows : kept ⊆ kept'
  within : kept ⊆ entries → kept' ⊆ entries

theorem Extends.refl (entries kept : List (Entry Score)) : Extends entries kept kept :=
  ⟨List.Subset.refl kept, id⟩

theorem Extends.trans {entries a b c : List (Entry Score)} (first : Extends entries a b) (second : Extends entries b c) :
    Extends entries a c :=
  ⟨List.Subset.trans first.grows second.grows, fun h => second.within (first.within h)⟩

theorem add_extends {entries : List (Entry Score)} (kept : List (Entry Score)) {entry : Entry Score} (mem : entry ∈ entries) :
    Extends entries kept (add kept entry) := by
  refine ⟨add_grows kept entry, ?_⟩
  intro within e added
  rcases mem_add added with here | rfl
  · exact within here
  · exact mem

theorem addFound_extends {entries : List (Entry Score)} (kept : List (Entry Score)) {found : Option (Entry Score)}
    (mem : ∀ entry, found = some entry → entry ∈ entries) : Extends entries kept (addFound kept found) := by
  cases found with
  | none => exact .refl entries kept
  | some entry => exact add_extends kept (mem entry rfl)

/-- A loop whose steps extend the selection extends it. -/
theorem foldl_extends {α : Type} {entries : List (Entry Score)} {step : List (Entry Score) → α → List (Entry Score)}
    {l : List α} (h : ∀ kept, ∀ a ∈ l, Extends entries kept (step kept a)) (kept : List (Entry Score)) :
    Extends entries kept (l.foldl step kept) := by
  induction l generalizing kept with
  | nil => exact .refl entries kept
  | cons a l ih =>
    exact (h kept a List.mem_cons_self).trans (ih (fun kept a mem => h kept a (List.mem_cons_of_mem _ mem)) _)

/-- The loop over the structured promotions keeps them. -/
theorem promotions_kept (entries kept : List (Entry Score)) :
    ∀ entry ∈ entries, promoted s entry = true → entry.chunkId ∈ keptIds ((entries.filter (promoted s)).foldl add kept) := by
  intro entry mem structured
  have all : ∀ (l : List (Entry Score)) kept, entry ∈ l → entry.chunkId ∈ keptIds (l.foldl add kept) := by
    intro l
    induction l with
    | nil => simp
    | cons first l ih =>
      intro kept mem
      rw [List.foldl_cons]
      rcases List.mem_cons.1 mem with rfl | mem
      · have rest : Extends (entry :: l) (add kept entry) (l.foldl add (add kept entry)) :=
          foldl_extends (fun kept a mem => add_extends kept (List.mem_cons_of_mem _ mem)) _
        exact keptIds_subset rest.grows (add_id kept entry)
      · exact ih _ mem
  exact all _ kept (List.mem_filter.2 ⟨mem, structured⟩)

/-! ## Required keywords -/

/-- Some entry with one of these IDs mentions the keyword. -/
def Holds (f : Folding) (entries : List (Entry Score)) (ids : List (Option String)) (keyword : String) : Prop :=
  ∃ entry ∈ entries, entry.chunkId ∈ ids ∧ mentions f keyword entry = true

theorem Holds.mono {entries : List (Entry Score)} {ids ids' : List (Option String)} {keyword : String}
    (h : Holds f entries ids keyword) (more : ids ⊆ ids') : Holds f entries ids' keyword := by
  obtain ⟨entry, mem, kept, mentioned⟩ := h
  exact ⟨entry, mem, more kept, mentioned⟩

/-- What the loop over the keywords leaves: every keyword is blank, mentioned by a kept chunk or listed,
and exactly those that no entry mentions are listed. -/
structure Covers (f : Folding) (entries : List (Entry Score)) (required : List String)
    (state : List (Entry Score) × List String) : Prop where
  within : state.1 ⊆ entries
  mentioned : ∀ keyword ∈ required, compact f keyword ≠ [] → (∃ entry ∈ entries, mentions f keyword entry = true) →
    Holds f entries (keptIds state.1) keyword
  listed : ∀ keyword, keyword ∈ state.2 ↔
    keyword ∈ required ∧ compact f keyword ≠ [] ∧ ∀ entry ∈ entries, mentions f keyword entry = false

/-- A donor is an entry that mentions the keyword, and there is one unless no entry does. -/
structure Donates (f : Folding) (entries : List (Entry Score)) (donor : String → Option (Entry Score)) : Prop where
  found : ∀ keyword entry, donor keyword = some entry → entry ∈ entries ∧ mentions f keyword entry = true
  missing : ∀ keyword, donor keyword = none → ∀ entry ∈ entries, mentions f keyword entry = false

section Keywords

variable {entries : List (Entry Score)} {donor : String → Option (Entry Score)} {state : List (Entry Score) × List String}

theorem coverKeyword_grows (state : List (Entry Score) × List String) (keyword : String) :
    state.1 ⊆ (coverKeyword f donor state keyword).1 := by
  rw [coverKeyword]
  split
  · exact List.Subset.refl _
  · split
    · exact List.Subset.refl _
    · exact add_grows _ _

variable (donor) in
theorem coverKeywords_grows (state : List (Entry Score) × List String) (required : List String) :
    state.1 ⊆ (required.foldl (coverKeyword f donor) state).1 := by
  induction required generalizing state with
  | nil => exact List.Subset.refl _
  | cons keyword required ih => exact List.Subset.trans (coverKeyword_grows state keyword) (ih _)

/-- One keyword. -/
theorem Covers.step {required : List String} (donates : Donates f entries donor) (h : Covers f entries required state)
    (keyword : String) : Covers f entries (required ++ [keyword]) (coverKeyword f donor state keyword) := by
  have earlier : ∀ k ∈ required, compact f k ≠ [] → (∃ entry ∈ entries, mentions f k entry = true) →
      Holds f entries (keptIds (coverKeyword f donor state keyword).1) k :=
    fun k mem solid some_ => (h.mentioned k mem solid some_).mono (keptIds_subset (coverKeyword_grows state keyword))
  -- a keyword that is blank or mentioned by an entry is not listed
  have unlisted : compact f keyword = [] ∨ (∃ entry ∈ entries, mentions f keyword entry = true) → ∀ k, k ∈ state.2 ↔
      k ∈ required ++ [keyword] ∧ compact f k ≠ [] ∧ ∀ entry ∈ entries, mentions f k entry = false := by
    intro reason k
    rw [h.listed k, List.mem_append, List.mem_singleton]
    constructor
    · exact fun ⟨mem, solid, none_⟩ => ⟨.inl mem, solid, none_⟩
    · rintro ⟨mem | rfl, solid, none_⟩
      · exact ⟨mem, solid, none_⟩
      · rcases reason with blank | ⟨entry, mem, mentioned⟩
        · exact absurd blank solid
        · rw [none_ entry mem] at mentioned
          cases mentioned
  by_cases blank : compact f keyword = []
  · have same : coverKeyword f donor state keyword = state := by
      rw [coverKeyword, if_pos (.inl (List.isEmpty_iff.2 blank))]
    rw [same] at earlier ⊢
    refine ⟨h.within, ?_, unlisted (.inl blank)⟩
    intro k mem solid some_
    rcases List.mem_append.1 mem with mem | mem
    · exact earlier k mem solid some_
    · rw [List.mem_singleton.1 mem] at solid
      exact absurd blank solid
  by_cases kept : state.1.any (mentions f keyword) = true
  · have same : coverKeyword f donor state keyword = state := by
      rw [coverKeyword, if_pos (.inr kept)]
    obtain ⟨holder, mem, mentioned⟩ := List.any_eq_true.1 kept
    rw [same] at earlier ⊢
    refine ⟨h.within, ?_, unlisted (.inr ⟨holder, h.within mem, mentioned⟩)⟩
    intro k mem' solid some_
    rcases List.mem_append.1 mem' with mem' | mem'
    · exact earlier k mem' solid some_
    · rw [List.mem_singleton.1 mem']
      exact ⟨holder, h.within mem, List.mem_map_of_mem mem, mentioned⟩
  have open_ : ¬ ((compact f keyword).isEmpty = true ∨ state.1.any (mentions f keyword) = true) := by
    rw [List.isEmpty_iff]
    exact not_or.2 ⟨blank, kept⟩
  cases given : donor keyword with
  | none =>
    have none_ := donates.missing keyword given
    have next : coverKeyword f donor state keyword = (state.1, state.2 ++ [keyword]) := by
      rw [coverKeyword, if_neg open_, given]
    rw [next] at earlier ⊢
    refine ⟨h.within, ?_, ?_⟩
    · intro k mem solid some_
      rcases List.mem_append.1 mem with mem | mem
      · exact earlier k mem solid some_
      · obtain ⟨entry, mem', mentioned⟩ := some_
        rw [List.mem_singleton.1 mem, none_ entry mem'] at mentioned
        cases mentioned
    · intro k
      rw [List.mem_append, List.mem_append, List.mem_singleton, h.listed k]
      constructor
      · rintro (⟨mem, solid, nowhere⟩ | rfl)
        · exact ⟨.inl mem, solid, nowhere⟩
        · exact ⟨.inr rfl, blank, none_⟩
      · rintro ⟨mem | rfl, solid, nowhere⟩
        · exact .inl ⟨mem, solid, nowhere⟩
        · exact .inr rfl
  | some entry =>
    obtain ⟨mem, mentioned⟩ := donates.found keyword entry given
    have next : coverKeyword f donor state keyword = (add state.1 entry, state.2) := by
      rw [coverKeyword, if_neg open_, given]
    rw [next] at earlier ⊢
    refine ⟨(add_extends state.1 mem).within h.within, ?_, unlisted (.inr ⟨entry, mem, mentioned⟩)⟩
    intro k mem' solid some_
    rcases List.mem_append.1 mem' with mem' | mem'
    · exact earlier k mem' solid some_
    · rw [List.mem_singleton.1 mem']
      exact ⟨entry, mem, add_id state.1 entry, mentioned⟩

theorem covers_foldl (donates : Donates f entries donor) (within : state.1 ⊆ entries) (empty : state.2 = [])
    (required : List String) : Covers f entries required (required.foldl (coverKeyword f donor) state) := by
  have all : ∀ (todo done : List String) (state : List (Entry Score) × List String), Covers f entries done state →
      Covers f entries (done ++ todo) (todo.foldl (coverKeyword f donor) state) := by
    intro todo
    induction todo with
    | nil =>
      intro done state h
      rwa [List.append_nil]
    | cons keyword todo ih =>
      intro done state h
      have rest := ih _ _ (h.step donates keyword)
      rwa [List.append_assoc, List.singleton_append] at rest
  exact all required [] state ⟨within, by simp, by simp [empty]⟩

end Keywords

/-! ## The contract -/

/-- What packing promises of the evidence of a case. -/
structure EvidenceContract (f : Folding) (s : Scores Score) (payload : CasePayload Score) (required : List String)
    (packed : PackedContext Score) : Prop where
  keptOrder : packed.kept.Sublist (collectEntries payload)
  droppedOrder : packed.dropped.Sublist (collectEntries payload)
  partition : (packed.kept ++ packed.dropped).Perm (collectEntries payload)
  promotions : ∀ entry ∈ collectEntries payload, promoted s entry = true → entry ∈ packed.kept
  coverage : ∀ keyword ∈ required, (∃ entry ∈ collectEntries payload, mentions f keyword entry = true) →
    ∃ entry ∈ packed.kept, mentions f keyword entry = true
  uncovered : ∀ keyword, keyword ∈ packed.uncoveredKeywords ↔
    keyword ∈ required ∧ ∀ entry ∈ collectEntries payload, mentions f keyword entry = false

theorem mem_restore {entries : List (Entry Score)} {ids : List (Option String)} {uncovered : List String} {entry : Entry Score} :
    entry ∈ (restore entries ids uncovered).kept ↔ entry ∈ entries ∧ entry.chunkId ∈ ids := by
  rw [restore, List.mem_filter, decide_eq_true_eq]

/-- A blank keyword is mentioned by every entry. -/
theorem mentions_blank {keyword : String} (blank : compact f keyword = []) (entry : Entry Score) :
    mentions f keyword entry = true := by
  rw [mentions, blank]
  cases compact f entry.text <;> rfl

section Restored

variable {payload : CasePayload Score} {required uncovered : List String} {ids : List (Option String)}

/-- **A selection by IDs** keeps the contract when it has the promotions and the listed keywords are those of no entry,
exactly if it holds every keyword some entry mentions. -/
theorem restore_contract
    (promotions : ∀ entry ∈ collectEntries payload, promoted s entry = true → entry.chunkId ∈ ids)
    (listed : ∀ keyword, keyword ∈ uncovered ↔
      keyword ∈ required ∧ ∀ entry ∈ collectEntries payload, mentions f keyword entry = false) :
    EvidenceContract f s payload required (restore (collectEntries payload) ids uncovered) ↔
      ∀ keyword ∈ required, (∃ entry ∈ collectEntries payload, mentions f keyword entry = true) →
        Holds f (collectEntries payload) ids keyword := by
  constructor
  · intro contract keyword mem some_
    obtain ⟨entry, kept, mentioned⟩ := contract.coverage keyword mem some_
    obtain ⟨mem', here⟩ := mem_restore.1 kept
    exact ⟨entry, mem', here, mentioned⟩
  · intro held
    exact {
      keptOrder := List.filter_sublist
      droppedOrder := List.filter_sublist
      partition := by
        have both := List.filter_append_perm (fun entry : Entry Score => decide (entry.chunkId ∈ ids)) (collectEntries payload)
        simpa only [restore, decide_not] using both
      promotions := fun entry mem structured => mem_restore.2 ⟨mem, promotions entry mem structured⟩
      coverage := by
        intro keyword mem some_
        obtain ⟨entry, mem', here, mentioned⟩ := held keyword mem some_
        exact ⟨entry, mem_restore.2 ⟨mem', here⟩, mentioned⟩
      uncovered := listed }

/-- Of no entries nothing is kept, and every keyword is one no entry mentions. -/
theorem contract_nothing (none_ : collectEntries payload = []) :
    EvidenceContract f s payload required ⟨[], [], uncovered⟩ ↔ ∀ keyword, keyword ∈ uncovered ↔ keyword ∈ required := by
  constructor
  · intro contract keyword
    rw [contract.uncovered keyword, none_]
    simp
  · intro listed
    refine ⟨?_, ?_, ?_, ?_, ?_, ?_⟩ <;> simp [none_, listed]

end Restored

/-! ## The generic packer and the intent packer -/

section Packers

variable {payload : CasePayload Score} {required : List String}

theorem Covers.listed_somewhere {entries : List (Entry Score)} {state : List (Entry Score) × List String}
    (h : Covers f entries required state) (some_ : entries ≠ []) (keyword : String) :
    keyword ∈ state.2 ↔ keyword ∈ required ∧ ∀ entry ∈ entries, mentions f keyword entry = false := by
  rw [h.listed keyword]
  constructor
  · exact fun ⟨mem, _, nowhere⟩ => ⟨mem, nowhere⟩
  · rintro ⟨mem, nowhere⟩
    refine ⟨mem, ?_, nowhere⟩
    intro blank
    obtain ⟨entry, rest, e⟩ := List.exists_cons_of_ne_nil some_
    have never := nowhere entry (by rw [e]; exact List.mem_cons_self)
    rw [mentions_blank blank entry] at never
    cases never

/-- A selection that covers the keywords and keeps the promotions meets the contract, and so does what is added to it. -/
theorem Covers.contract {state : List (Entry Score) × List String} {ids : List (Option String)}
    (h : Covers f (collectEntries payload) required state) (some_ : state.1 ≠ []) (more : keptIds state.1 ⊆ ids)
    (promotions : ∀ entry ∈ collectEntries payload, promoted s entry = true → entry.chunkId ∈ ids) :
    EvidenceContract f s payload required (restore (collectEntries payload) ids state.2) := by
  obtain ⟨first, rest, e⟩ := List.exists_cons_of_ne_nil some_
  have kept : first ∈ state.1 := by
    rw [e]
    exact List.mem_cons_self
  have entries : collectEntries payload ≠ [] := List.ne_nil_of_mem (h.within kept)
  apply (restore_contract promotions (h.listed_somewhere entries)).2
  intro keyword mem somewhere
  by_cases blank : compact f keyword = []
  · exact ⟨first, h.within kept, more (List.mem_map_of_mem kept), mentions_blank blank first⟩
  · exact (h.mentioned keyword mem blank somewhere).mono more

theorem donates_topBy (entries : List (Entry Score)) :
    Donates f entries fun keyword => topBy s entries (mentions f keyword) where
  found _ _ := topBy_eq_some
  missing _ := topBy_eq_none

theorem donates_find (entries : List (Entry Score)) : Donates f entries fun keyword => entries.find? (mentions f keyword) where
  found _ _ h := ⟨List.mem_of_find?_eq_some h, List.find?_some h⟩
  missing _ h entry mem := Bool.eq_false_iff.2 (List.find?_eq_none.1 h entry mem)

theorem addSupport_extends (category : String) (entries kept : List (Entry Score)) :
    Extends entries kept (addSupport s category entries kept) := by
  rw [addSupport]
  split
  · exact addFound_extends kept fun entry found => (topBy_eq_some found).1
  · exact .refl entries kept

theorem fill_extends (target : Nat) (entries kept : List (Entry Score)) : Extends entries kept (fill s target entries kept) := by
  apply foldl_extends
  intro kept entry mem
  split
  · exact .refl entries kept
  · exact add_extends kept (Ranking.mem_descending.1 mem)

/-- The mandatory chunks: the first entry, the promotions and chunks of the entries. -/
theorem mandatory_spec (payload : CasePayload Score) (entries : List (Entry Score)) :
    mandatory s payload entries ⊆ entries ∧ (entries ≠ [] → mandatory s payload entries ≠ []) ∧
      ∀ entry ∈ entries, promoted s entry = true → entry.chunkId ∈ keptIds (mandatory s payload entries) := by
  have first : Extends entries [] (addFound [] entries.head?) :=
    addFound_extends [] fun entry found => List.mem_of_head? found
  have structured : Extends entries (addFound [] entries.head?)
      ((entries.filter (promoted s)).foldl add (addFound [] entries.head?)) :=
    foldl_extends (fun kept entry mem => add_extends kept (List.mem_of_mem_filter mem)) _
  have rest : Extends entries ((entries.filter (promoted s)).foldl add (addFound [] entries.head?)) (mandatory s payload entries) := by
    apply (addSupport_extends payload.category entries _).trans
    apply foldl_extends
    exact fun kept ticker _ => addFound_extends kept fun entry found => (topBy_eq_some found).1
  refine ⟨(first.trans (structured.trans rest)).within (List.nil_subset _), ?_, ?_⟩
  · intro some_
    obtain ⟨entry, others, rfl⟩ := List.exists_cons_of_ne_nil some_
    exact List.ne_nil_of_mem ((structured.trans rest).grows (List.mem_singleton_self entry))
  · exact fun entry mem here => keptIds_subset rest.grows (promotions_kept _ _ entry mem here)

/-- **The generic packer** meets the contract, but for blank keywords of a case without evidence. -/
theorem packRouteAware_contract : EvidenceContract f s payload required (packRouteAware f s payload required) ↔
    (collectEntries payload = [] → ∀ keyword ∈ required, compact f keyword ≠ []) := by
  obtain ⟨within, first, promotions⟩ := mandatory_spec (s := s) payload (collectEntries payload)
  have covers : Covers f (collectEntries payload) required
      (required.foldl (coverKeyword f fun keyword => topBy s (collectEntries payload) (mentions f keyword))
        (mandatory s payload (collectEntries payload), [])) :=
    covers_foldl (donates_topBy _) within rfl required
  have grown := coverKeywords_grows (f := f) (fun keyword => topBy s (collectEntries payload) (mentions f keyword))
    (mandatory s payload (collectEntries payload), []) required
  rw [packRouteAware]
  generalize required.foldl _ _ = state at covers grown ⊢
  by_cases none_ : collectEntries payload = []
  · have nothing : restore (collectEntries payload)
        (keptIds (fill s (fillTarget payload.category) (collectEntries payload) state.1)) state.2 = ⟨[], [], state.2⟩ := by
      rw [none_]
      rfl
    rw [nothing, contract_nothing none_]
    constructor
    · intro listed _ keyword mem
      exact ((covers.listed keyword).1 ((listed keyword).2 mem)).2.1
    · intro solid keyword
      rw [covers.listed keyword]
      refine ⟨fun h => h.1, fun mem => ⟨mem, solid none_ keyword mem, ?_⟩⟩
      rw [none_]
      simp
  · have some_ : state.1 ≠ [] := by
      intro empty
      rw [empty] at grown
      exact first none_ (List.subset_nil.1 grown)
    have filled := fill_extends (s := s) (fillTarget payload.category) (collectEntries payload) state.1
    have contract := covers.contract some_ (keptIds_subset filled.grows) (s := s) fun entry mem structured =>
      keptIds_subset (List.Subset.trans grown filled.grows) (promotions entry mem structured)
    exact ⟨fun _ empty => absurd empty none_, fun _ => contract⟩

theorem fillByIntent_extends (groups : List (List String)) (entries : List (Entry Score)) (places : Nat)
    (kept : List (Entry Score)) (covered : List Nat) : Extends entries kept (fillByIntent f s groups entries places kept covered) := by
  induction places generalizing kept covered with
  | zero => exact .refl entries kept
  | succ places ih =>
    rw [fillByIntent]
    split
    · exact .refl entries kept
    · next selected found =>
      have mem : selected.2 ∈ entries := by
        obtain ⟨⟨entry, index⟩, mem, given⟩ := List.mem_filterMap.1 (greatest_mem found)
        dsimp only at given
        split at given
        · cases given
        · cases given
          exact List.fst_mem_of_mem_zipIdx mem
      exact (add_extends kept mem).trans (ih _ _)

/-- The chunks the intent packer keeps first: the promotions and chunks of the entries, one at least. -/
theorem intentSelection_spec (payload : CasePayload Score) (entries : List (Entry Score)) :
    intentSelection f s payload entries ⊆ entries ∧ (entries ≠ [] → intentSelection f s payload entries ≠ []) ∧
      ∀ entry ∈ entries, promoted s entry = true → entry.chunkId ∈ keptIds (intentSelection f s payload entries) := by
  have structured : Extends entries [] ((entries.filter (promoted s)).foldl add []) :=
    foldl_extends (fun kept entry mem => add_extends kept (List.mem_of_mem_filter mem)) _
  have promotions := promotions_kept (s := s) entries []
  rw [intentSelection]
  generalize (entries.filter (promoted s)).foldl add [] = start at structured promotions ⊢
  have filled : Extends entries start (if (summaryIntentGroups f payload).isEmpty then start
      else fillByIntent f s (summaryIntentGroups f payload) entries (summaryTarget - start.length) start []) := by
    split
    · exact .refl entries start
    · exact fillByIntent_extends _ entries _ start []
  generalize (if (summaryIntentGroups f payload).isEmpty then start
    else fillByIntent f s (summaryIntentGroups f payload) entries (summaryTarget - start.length) start []) = chosen at filled ⊢
  have whole := structured.trans filled
  split
  · next empty =>
    have last : Extends entries chosen (addFound chosen entries.head?) :=
      addFound_extends chosen fun entry found => List.mem_of_head? found
    refine ⟨(whole.trans last).within (List.nil_subset _), ?_, ?_⟩
    · intro some_
      obtain ⟨entry, others, rfl⟩ := List.exists_cons_of_ne_nil some_
      rw [List.isEmpty_iff.1 empty]
      exact List.cons_ne_nil _ _
    · exact fun entry mem here => keptIds_subset (filled.trans last).grows (promotions entry mem here)
  · next some_ =>
    refine ⟨whole.within (List.nil_subset _), fun _ empty => some_ (List.isEmpty_iff.2 empty), ?_⟩
    exact fun entry mem here => keptIds_subset filled.grows (promotions entry mem here)

/-- The intent packer meets the contract of a case with evidence. -/
theorem packSummaryIntentFirst_selects (some_ : collectEntries payload ≠ []) :
    EvidenceContract f s payload required (packSummaryIntentFirst f s payload required) := by
  obtain ⟨within, first, promotions⟩ := intentSelection_spec (f := f) (s := s) payload (collectEntries payload)
  have covers : Covers f (collectEntries payload) required
      (required.foldl (coverKeyword f fun keyword => (collectEntries payload).find? (mentions f keyword))
        (intentSelection f s payload (collectEntries payload), [])) :=
    covers_foldl (donates_find _) within rfl required
  have grown := coverKeywords_grows (f := f) (fun keyword => (collectEntries payload).find? (mentions f keyword))
    (intentSelection f s payload (collectEntries payload), []) required
  rw [packSummaryIntentFirst]
  dsimp only
  rw [if_neg fun empty => some_ (List.isEmpty_iff.1 empty)]
  apply covers.contract _ (List.Subset.refl _)
  · exact fun entry mem structured => keptIds_subset grown (promotions entry mem structured)
  · intro empty
    rw [empty] at grown
    exact first some_ (List.subset_nil.1 grown)

/-- **The intent packer** meets the contract, but for the keywords of a case without evidence. -/
theorem packSummaryIntentFirst_contract :
    EvidenceContract f s payload required (packSummaryIntentFirst f s payload required) ↔
      (collectEntries payload = [] → required = []) := by
  by_cases none_ : collectEntries payload = []
  · rw [packSummaryIntentFirst]
    dsimp only
    rw [if_pos (List.isEmpty_iff.2 none_), contract_nothing none_]
    simp only [List.not_mem_nil, false_iff, none_, forall_const]
    exact List.eq_nil_iff_forall_not_mem.symm
  · exact ⟨fun _ empty => absurd empty none_, fun _ => packSummaryIntentFirst_selects none_⟩

/-! ## The exchanges -/

/-- The next exchange gives the last kept chunk that mentions a keyword for an anchor that does not mention it. -/
structure LosesLast (f : Folding) (s : Scores Score) (x : Exchange Score) (keyword : String) (kept : List (Option String))
    (anchor : Option String) : Prop where
  new : ¬ (anchor ∈ kept ∨ anchor ∉ x.entries.map Entry.chunkId)
  full : summaryTarget ≤ kept.length
  last : ∃ removed, victim f s x kept anchor = some removed ∧
    ∀ entry ∈ x.entries, entry.chunkId ∈ kept → mentions f keyword entry = true → entry.chunkId = removed.chunkId
  silent : ∀ entry ∈ x.entries, entry.chunkId = anchor → mentions f keyword entry = false

/-- The next anchor is taken, and mentions the keyword. -/
structure Restores (f : Folding) (s : Scores Score) (x : Exchange Score) (keyword : String) (kept : List (Option String))
    (anchor : Option String) : Prop where
  new : ¬ (anchor ∈ kept ∨ anchor ∉ x.entries.map Entry.chunkId)
  place : kept.length < summaryTarget ∨ (victim f s x kept anchor).isSome = true
  mentioned : ∃ entry ∈ x.entries, entry.chunkId = anchor ∧ mentions f keyword entry = true

/-- **One exchange**: what it does to a keyword. -/
theorem holds_exchangeStep (x : Exchange Score) (keyword : String) (kept : List (Option String)) (anchor : Option String) :
    Holds f x.entries (exchangeStep f s x kept anchor) keyword ↔
      (Holds f x.entries kept keyword ∧ ¬ LosesLast f s x keyword kept anchor) ∨ Restores f s x keyword kept anchor := by
  rw [exchangeStep]
  split
  · next old =>
    constructor
    · exact fun held => .inl ⟨held, fun lost => lost.new old⟩
    · rintro (⟨held, -⟩ | restored)
      · exact held
      · exact absurd old restored.new
  next new =>
  split
  · next room =>
    constructor
    · rintro ⟨entry, mem, here, mentioned⟩
      rcases List.mem_append.1 here with here | here
      · exact .inl ⟨⟨entry, mem, here, mentioned⟩, fun lost => absurd lost.full (by omega)⟩
      · exact .inr ⟨new, .inl room, entry, mem, List.mem_singleton.1 here, mentioned⟩
    · rintro (⟨held, -⟩ | restored)
      · exact held.mono (List.subset_append_left _ _)
      · obtain ⟨entry, mem, here, mentioned⟩ := restored.mentioned
        exact ⟨entry, mem, by rw [here]; simp, mentioned⟩
  next full =>
  split
  · next stuck =>
    constructor
    · intro held
      refine .inl ⟨held, ?_⟩
      intro lost
      obtain ⟨removed, chosen, -⟩ := lost.last
      rw [stuck] at chosen
      cases chosen
    · rintro (⟨held, -⟩ | restored)
      · exact held
      · rcases restored.place with room | some_
        · exact absurd room full
        · rw [stuck] at some_
          cases some_
  · next removed chosen =>
    constructor
    · rintro ⟨entry, mem, here, mentioned⟩
      rw [exchange, List.mem_append, List.mem_filter, List.mem_singleton, decide_eq_true_eq] at here
      rcases here with ⟨here, other⟩ | here
      · refine .inl ⟨⟨entry, mem, here, mentioned⟩, ?_⟩
        intro lost
        obtain ⟨removed', chosen', only⟩ := lost.last
        rw [chosen] at chosen'
        cases chosen'
        exact other (only entry mem here mentioned)
      · exact .inr ⟨new, .inr (by rw [chosen]; rfl), entry, mem, here, mentioned⟩
    · rintro (⟨⟨entry, mem, here, mentioned⟩, kept_⟩ | restored)
      · by_contra gone
        apply kept_
        refine ⟨new, by omega, ⟨removed, chosen, ?_⟩, ?_⟩
        · intro e mem' here' mentioned'
          by_contra other
          exact gone ⟨e, mem', List.mem_append_left _ (List.mem_filter.2 ⟨here', by simpa using other⟩), mentioned'⟩
        · intro e mem' same
          rw [Bool.eq_false_iff]
          intro mentioned'
          exact gone ⟨e, mem', List.mem_append_right _ (List.mem_singleton.2 same), mentioned'⟩
      · obtain ⟨entry, mem, here, mentioned⟩ := restored.mentioned
        exact ⟨entry, mem, List.mem_append_right _ (List.mem_singleton.2 here), mentioned⟩

theorem LosesLast.not_restores {x : Exchange Score} {keyword : String} {kept : List (Option String)} {anchor : Option String}
    (lost : LosesLast f s x keyword kept anchor) : ¬ Restores f s x keyword kept anchor := by
  intro restored
  obtain ⟨entry, mem, here, mentioned⟩ := restored.mentioned
  rw [lost.silent entry mem here] at mentioned
  cases mentioned

/-! ## The anchor packer -/

/-- Every time the exchanges take away the last kept chunk that mentions the keyword, a later anchor mentions it. -/
def MadeGood (f : Folding) (s : Scores Score) (payload : CasePayload Score) (required : List String) (keyword : String) : Prop :=
  let x := exchangeOf f s payload required
  let start := keptIds (packSummaryIntentFirst f s payload required).kept
  ∀ before anchor after, sortedAnchors f s payload = before ++ anchor :: after →
    LosesLast f s x keyword (Runs.run (exchangeStep f s x) start before) anchor →
      ∃ between anchor' rest, after = between ++ anchor' :: rest ∧
        Restores f s x keyword (Runs.run (exchangeStep f s x) start (before ++ anchor :: between)) anchor'

theorem victim_removable {x : Exchange Score} {kept : List (Option String)} {anchor : Option String} {entry : Entry Score}
    (h : victim f s x kept anchor = some entry) : entry.chunkId ∉ x.protectedIds := by
  obtain ⟨c, chosen, rfl⟩ := Option.map_eq_some_iff.1 h
  obtain ⟨d, mem, rfl⟩ := List.mem_map.1 (greatest_mem chosen)
  have here := (List.mem_filter.1 mem).2
  rw [Bool.and_eq_true, decide_eq_true_eq, decide_eq_true_eq] at here
  exact here.2

/-- A protected chunk stays. -/
theorem exchangeStep_protected {x : Exchange Score} {id : Option String} (isProtected : id ∈ x.protectedIds)
    {kept : List (Option String)} (here : id ∈ kept) (anchor : Option String) : id ∈ exchangeStep f s x kept anchor := by
  rw [exchangeStep]
  split
  · exact here
  · split
    · exact List.mem_append_left _ here
    · split
      · exact here
      · next removed chosen =>
        apply List.mem_append_left
        apply List.mem_filter.2
        refine ⟨here, decide_eq_true ?_⟩
        rintro rfl
        exact victim_removable chosen isProtected

theorem exchanges_protected {x : Exchange Score} {id : Option String} (isProtected : id ∈ x.protectedIds)
    {kept : List (Option String)} (here : id ∈ kept) (anchors : List (Option String)) :
    id ∈ Runs.run (exchangeStep f s x) kept anchors := by
  induction anchors generalizing kept with
  | nil => exact here
  | cons anchor anchors ih => exact ih (exchangeStep_protected isProtected here anchor)

/-- **The anchor packer** meets the contract exactly when no keyword is lost for good, but for the keywords of a case
without evidence. -/
theorem packSummaryWithDirectAnchors_contract :
    EvidenceContract f s payload required (packSummaryWithDirectAnchors f s payload required) ↔
      (collectEntries payload = [] → required = []) ∧
        ∀ keyword ∈ required, (∃ entry ∈ collectEntries payload, mentions f keyword entry = true) →
          MadeGood f s payload required keyword := by
  rw [packSummaryWithDirectAnchors]
  by_cases none_ : collectEntries payload = []
  · rw [if_pos (List.isEmpty_iff.2 none_), contract_nothing none_]
    simp only [List.not_mem_nil, false_iff, none_, forall_const, false_and, exists_false, IsEmpty.forall_iff,
      implies_true, and_true]
    exact List.eq_nil_iff_forall_not_mem.symm
  rw [if_neg fun empty => none_ (List.isEmpty_iff.1 empty)]
  have base := @packSummaryIntentFirst_selects _ f s _ required none_
  have flag : ∀ keyword ∈ required, (∃ entry ∈ collectEntries payload, mentions f keyword entry = true) →
      (Holds f (collectEntries payload) ((sortedAnchors f s payload).foldl (exchangeStep f s (exchangeOf f s payload required))
        (keptIds (packSummaryIntentFirst f s payload required).kept)) keyword ↔ MadeGood f s payload required keyword) := by
    intro keyword mem somewhere
    obtain ⟨entry, kept, mentioned⟩ := base.coverage keyword mem somewhere
    have start : Holds f (collectEntries payload) (keptIds (packSummaryIntentFirst f s payload required).kept) keyword :=
      ⟨entry, base.keptOrder.subset kept, List.mem_map_of_mem kept, mentioned⟩
    exact @Runs.flag_iff _ _ (exchangeStep f s (exchangeOf f s payload required))
      (fun ids => Holds f (collectEntries payload) ids keyword) (LosesLast f s (exchangeOf f s payload required) keyword)
      (Restores f s (exchangeOf f s payload required) keyword) (holds_exchangeStep (exchangeOf f s payload required) keyword)
      (fun _ _ => LosesLast.not_restores) _ start (sortedAnchors f s payload)
  rw [restore_contract _ base.uncovered]
  · constructor
    · intro held
      refine ⟨fun empty => absurd empty none_, ?_⟩
      exact fun keyword mem somewhere => (flag keyword mem somewhere).1 (held keyword mem somewhere)
    · intro good keyword mem somewhere
      exact (flag keyword mem somewhere).2 (good.2 keyword mem somewhere)
  · intro entry mem structured
    apply exchanges_protected
    · simp only [exchangeOf, protectedIds, List.mem_append]
      exact .inl (.inl (.inr (List.mem_map_of_mem (List.mem_filter.2 ⟨mem, structured⟩))))
    · exact List.mem_map_of_mem (base.promotions entry mem structured)

/-- A keyword is never lost when a chunk that mentions it is kept and protected. -/
theorem madeGood_of_protected {keyword : String} {entry : Entry Score} (mem : entry ∈ collectEntries payload)
    (mentioned : mentions f keyword entry = true)
    (kept : entry.chunkId ∈ keptIds (packSummaryIntentFirst f s payload required).kept)
    (isProtected : entry.chunkId ∈ (exchangeOf f s payload required).protectedIds) : MadeGood f s payload required keyword := by
  intro before anchor after _ lost
  obtain ⟨removed, victim_, only⟩ := lost.last
  have same := only entry mem (exchanges_protected isProtected kept before) mentioned
  exact absurd (same ▸ isProtected) (victim_removable victim_)

/-- Nor when every anchor that may come in mentions it. -/
theorem madeGood_of_anchors {keyword : String} (each : ∀ anchor ∈ sortedAnchors f s payload,
      (anchor ∈ keptIds (packSummaryIntentFirst f s payload required).kept ∧
        anchor ∈ (exchangeOf f s payload required).protectedIds) ∨
      ∀ entry ∈ collectEntries payload, entry.chunkId = anchor → mentions f keyword entry = true) :
    MadeGood f s payload required keyword := by
  intro before anchor after whole lost
  have listed : anchor ∈ sortedAnchors f s payload := by
    rw [whole]
    exact List.mem_append_right _ (List.mem_cons_self ..)
  rcases each anchor listed with ⟨kept, isProtected⟩ | mentioned
  · exact absurd (.inl (exchanges_protected isProtected kept before)) lost.new
  · obtain ⟨entry, mem, same⟩ := List.mem_map.1 (not_not.1 fun unknown => lost.new (.inr unknown))
    have silent := lost.silent entry mem same
    rw [mentioned entry mem same] at silent
    cases silent

/-! ## All strategies -/

/-- The case has evidence, or no keyword asks for any. -/
def HasEvidence (f : Folding) (payload : CasePayload Score) (required : List String) (strategy : Strategy) : Prop :=
  collectEntries payload = [] →
    if strategy ≠ .routeAware ∧ payload.category = "summary" then required = []
    else ∀ keyword ∈ required, compact f keyword ≠ []

/-- A chunk that mentions the keyword is kept by the intent packer and protected, or every anchor mentions it that is not
itself kept and protected. -/
def KeepsMention (f : Folding) (s : Scores Score) (payload : CasePayload Score) (required : List String) (keyword : String) :
    Prop :=
  let kept := keptIds (packSummaryIntentFirst f s payload required).kept
  let isProtected := (exchangeOf f s payload required).protectedIds
  (∃ entry ∈ collectEntries payload, mentions f keyword entry = true ∧ entry.chunkId ∈ kept ∧ entry.chunkId ∈ isProtected) ∨
  ∀ anchor ∈ sortedAnchors f s payload, (anchor ∈ kept ∧ anchor ∈ isProtected) ∨
    ∀ entry ∈ collectEntries payload, entry.chunkId = anchor → mentions f keyword entry = true

theorem KeepsMention.madeGood {keyword : String} (h : KeepsMention f s payload required keyword) :
    MadeGood f s payload required keyword := by
  rcases h with ⟨entry, mem, mentioned, kept, isProtected⟩ | each
  · exact madeGood_of_protected mem mentioned kept isProtected
  · exact madeGood_of_anchors each

/-- Under the anchor packer every required keyword that occurs keeps a mention. -/
def KeepsMentions (f : Folding) (s : Scores Score) (payload : CasePayload Score) (required : List String) (strategy : Strategy) :
    Prop :=
  strategy = .routeAwareV4 → payload.category = "summary" → ∀ keyword ∈ required,
    (∃ entry ∈ collectEntries payload, mentions f keyword entry = true) → KeepsMention f s payload required keyword

/-- **The evidence contract of packing** needs evidence for the keywords, and this is enough where the anchor packer
keeps a mention of each. -/
theorem packCaseContext_contract (f : Folding) (s : Scores Score) (payload : CasePayload Score) (required : List String)
    (strategy : Strategy) :
    (EvidenceContract f s payload required (packCaseContext f s payload required strategy) →
      HasEvidence f payload required strategy) ∧
    (HasEvidence f payload required strategy ∧ KeepsMentions f s payload required strategy →
      EvidenceContract f s payload required (packCaseContext f s payload required strategy)) := by
  rw [packCaseContext, HasEvidence]
  by_cases summary : payload.category = "summary"
  · cases strategy with
    | routeAware =>
      rw [if_neg (by simp), if_neg (by simp), if_neg (by simp), packRouteAware_contract]
      exact ⟨id, fun h => h.1⟩
    | routeAwareV3 =>
      rw [if_pos ⟨rfl, summary⟩, if_pos ⟨by simp, summary⟩, packSummaryIntentFirst_contract]
      exact ⟨id, fun h => h.1⟩
    | routeAwareV4 =>
      rw [if_neg (by simp), if_pos ⟨rfl, summary⟩, if_pos ⟨by simp, summary⟩, packSummaryWithDirectAnchors_contract]
      refine ⟨fun h => h.1, fun ⟨evidence, keeps⟩ => ⟨evidence, fun keyword mem somewhere => ?_⟩⟩
      exact (keeps rfl summary keyword mem somewhere).madeGood
  · rw [if_neg fun h => summary h.2, if_neg fun h => summary h.2, if_neg fun h => summary h.2, packRouteAware_contract]
    exact ⟨id, fun h => h.1⟩

end Packers

end Contract

/-! ## A lost donor -/

/-- Whole numbers as scores, promoted from 10 on. -/
def wholeScores : Scores Nat where
  same a b := a == b
  above a b := b < a
  structured score := 10 ≤ score
  lowest := 0

def asciiFolding : Folding where
  lower cs := cs.map Char.toLower
  casefold cs := cs.map Char.toLower

/-- A summary case: the last of four broad chunks mentions the keyword, the chunk that opens with it has no query
word, and the chunk that opens with the query has the least score. -/
def anchoredCase : CasePayload Nat where
  category := "summary"
  queries := [⟨"supply tariff", "", "", [
    ⟨some "c1", "", some 9, "sup ply ta riff"⟩,
    ⟨some "c2", "", some 8, "sup ply ta riff"⟩,
    ⟨some "c3", "", some 7, "sup ply ta riff"⟩,
    ⟨some "c4", "", some 6, "sup ply ta riff and lithium"⟩,
    ⟨some "c5", "", some 5, "lithium"⟩,
    ⟨some "c6", "", some 4, "supply tariff"⟩]⟩]

/-- A keyword of the first chunk stays. -/
theorem packCaseContext_contract_sample : EvidenceContract asciiFolding wholeScores anchoredCase ["ply"]
    (packCaseContext asciiFolding wholeScores anchoredCase ["ply"] .routeAwareV4) := by
  have evidence : (collectEntries anchoredCase).isEmpty = false := by decide +kernel
  have stays : ((collectEntries anchoredCase).any fun entry => mentions asciiFolding "ply" entry &&
      decide (entry.chunkId ∈ keptIds (packSummaryIntentFirst asciiFolding wholeScores anchoredCase ["ply"]).kept) &&
      decide (entry.chunkId ∈ (exchangeOf asciiFolding wholeScores anchoredCase ["ply"]).protectedIds)) = true := by
    decide +kernel
  refine (packCaseContext_contract asciiFolding wholeScores anchoredCase ["ply"] .routeAwareV4).2 ⟨?_, ?_⟩
  · intro none_
    rw [none_] at evidence
    cases evidence
  · intro _ _ keyword mem _
    obtain rfl := List.mem_singleton.1 mem
    obtain ⟨entry, mem, here⟩ := List.any_eq_true.1 stays
    simp only [Bool.and_eq_true, decide_eq_true_eq] at here
    exact .inl ⟨entry, mem, here.1.1, here.1.2, here.2⟩

/-- The anchor takes the place of the only kept chunk with the keyword, while the chunk protected for it is not kept. -/
theorem anchor_loses_keyword :
    ¬ EvidenceContract asciiFolding wholeScores anchoredCase ["lithium"]
      (packCaseContext asciiFolding wholeScores anchoredCase ["lithium"] .routeAwareV4) := by
  have evaluation :
      (collectEntries anchoredCase).any (mentions asciiFolding "lithium") = true ∧
      (packCaseContext asciiFolding wholeScores anchoredCase ["lithium"] .routeAwareV4).kept.any
        (mentions asciiFolding "lithium") = false := by
    decide +kernel
  intro contract
  obtain ⟨entry, kept, mentioned⟩ := contract.coverage "lithium" List.mem_cons_self (List.any_eq_true.1 evaluation.1)
  have never := evaluation.2
  rw [List.any_eq_false] at never
  exact never entry kept mentioned

end ContextPacking
