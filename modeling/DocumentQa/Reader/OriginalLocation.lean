import DocumentQa.Lib.Sha256
import DocumentQa.Python.Errors
import DocumentQa.Python.Search

/-!
# Locating a chunk in the original sources

`src/api/original_location.py`: the projection of a text in which whitespace is folded, the
literal matches found there and mapped back, and `locate_chunk` over an inventory of
sources. The matches are the occurrences of the query up to whitespace, each once and in
order (`mem_whitespaceLiteralMatches`, `whitespaceLiteralMatches_ascending`).
-/

namespace Reader

open Python Spacing

/-! ## Folding -/

/-- The loop of `_fold_with_map`: `folded` and `mapping` as one list, the rest of the text from
`index` on. -/
def foldLoop : Nat → Nat → List Char → List (Char × Nat × Nat) → List (Char × Nat × Nat)
  | 0, _, _, folded => folded
  | _ + 1, _, [], folded => folded
  | fuel + 1, index, c :: cs, folded =>
    if isSpace c then
      let stop := index + 1 + (cs.takeWhile isSpace).length
      foldLoop fuel stop (cs.dropWhile isSpace)
        (if folded.getLast?.any fun u => u.1 != ' ' then folded ++ [(' ', index, stop)] else folded)
    else foldLoop fuel (index + 1) cs (folded ++ [(c, index, index + 1)])

/-- `_fold_with_map`. -/
def foldWithMap (value : String) : List (Char × Nat × Nat) :=
  ((foldLoop value.toList.length 0 value.toList []).reverse.dropWhile fun u => u.1 = ' ').reverse

/-- `whitespace_literal_matches`. -/
def whitespaceLiteralMatches (sourceText query : String) : List (Nat × Nat) :=
  let folded := foldWithMap sourceText
  let foldedQuery := (foldWithMap (strip query)).map Prod.fst
  if foldedQuery.isEmpty then []
  else (findAll (folded.map Prod.fst) foldedQuery (folded.length + 1) 0).map fun found =>
    ((folded.getD found default).2.1, (folded.getD (found + foldedQuery.length - 1) default).2.2)

theorem isSpace_space : isSpace ' ' = true := by decide

theorem solid_ne_space {c : Char} (h : isSpace c = false) : c ≠ ' ' := by
  rintro rfl
  rw [isSpace_space] at h
  cases h

/-- The loop appends the units of what is left, whenever it does not stand on whitespace that the
folded text cannot take. -/
theorem foldLoop_units {fuel index : Nat} {cs : List Char} {folded : List (Char × Nat × Nat)} (enough : cs.length ≤ fuel)
    (ready : (folded.getLast?.any fun u => u.1 != ' ') = true ∨ opens isSpace cs = true ∨ cs = []) :
    foldLoop fuel index cs folded = folded ++ units isSpace ' ' index cs := by
  induction fuel generalizing index cs folded with
  | zero =>
    obtain rfl : cs = [] := List.eq_nil_of_length_eq_zero (Nat.le_zero.1 enough)
    rw [foldLoop, units, List.append_nil]
  | succ fuel ih =>
    cases cs with
    | nil => rw [foldLoop, units, List.append_nil]
    | cons c cs =>
      rw [List.length_cons] at enough
      rw [foldLoop]
      split
      · next gap =>
        have open_ : (folded.getLast?.any fun u => u.1 != ' ') = true := by
          rcases ready with h | h | h
          · exact h
          · rw [opens_cons, gap] at h
            cases h
          · cases h
        have shorter : (cs.dropWhile isSpace).length ≤ fuel :=
          (List.Sublist.length_le (List.dropWhile_sublist isSpace)).trans (by omega)
        dsimp only
        rw [if_pos open_, ih shorter (.inr (dropWhile_blank cs)), units_run gap, List.append_assoc]
        rfl
      · next solid =>
        have solid := Bool.eq_false_iff.2 solid
        have kept : ((folded ++ [(c, index, index + 1)]).getLast?.any fun u => u.1 != ' ') = true := by
          simpa using solid_ne_space solid
        rw [ih (by omega) (.inl kept), units_solid solid, List.append_assoc]
        rfl

/-- **Folding** keeps the units of the text without its outer whitespace. -/
theorem foldWithMap_eq (value : String) :
    foldWithMap value = units isSpace ' ' (value.toList.takeWhile isSpace).length (stripBy isSpace value.toList) := by
  obtain ⟨trail, whole, back, -, blanks, inner⟩ := stripBy_parts isSpace value.toList
  have loop : foldLoop value.toList.length 0 value.toList [] =
      units isSpace ' ' (value.toList.takeWhile isSpace).length (value.toList.dropWhile isSpace) := by
    cases e : value.toList with
    | nil => rfl
    | cons c cs =>
      cases gap : isSpace c with
      | false =>
        rw [foldLoop_units (Nat.le_refl _) (.inr (.inl (by simp [gap]))), List.takeWhile_cons_of_neg (by simp [gap]),
          List.dropWhile_cons_of_neg (by simp [gap])]
        rfl
      | true =>
        have shorter : (cs.dropWhile isSpace).length ≤ cs.length := (List.dropWhile_sublist isSpace).length_le
        rw [List.length_cons, foldLoop, if_pos gap, List.takeWhile_cons_of_pos gap, List.dropWhile_cons_of_pos gap]
        dsimp only
        rw [if_neg (by simp), foldLoop_units shorter (.inr (dropWhile_blank cs)), List.length_cons]
        rw [show 0 + 1 + (cs.takeWhile isSpace).length = (cs.takeWhile isSpace).length + 1 by omega]
        rfl
  rw [foldWithMap, loop, back]
  rcases inner with ⟨-, close⟩ | ⟨empty, rfl⟩
  · obtain ⟨us, u, last, solid⟩ := @units_getLast _ isSpace ' ' (value.toList.takeWhile isSpace).length _ close
    have kept : ((us ++ [u]).reverse.dropWhile fun u => decide (u.1 = ' ')) = (us ++ [u]).reverse := by
      rw [List.reverse_append]
      exact List.dropWhile_cons_of_neg (by simpa using solid_ne_space solid)
    cases trail with
    | nil => rw [List.append_nil, last, kept, List.reverse_reverse]
    | cons c trail =>
      rw [units_append_blanks _ close blanks (List.cons_ne_nil _ _), List.reverse_append, last]
      rw [List.reverse_singleton, List.singleton_append, List.dropWhile_cons_of_pos (by rfl), kept, List.reverse_reverse]
  · rw [empty]
    rfl

/-! ## The matches -/

theorem foldedQuery_eq (query : String) :
    (foldWithMap (strip query)).map Prod.fst = squeeze isSpace ' ' (stripBy isSpace query.toList) := by
  rw [foldWithMap_eq, units_map_fst, strip, String.toList_ofList, stripBy_idem]

/-- **The matches are the occurrences** of the query, up to runs of whitespace, in the source. -/
theorem mem_whitespaceLiteralMatches {sourceText query : String} {s e : Nat} :
    (s, e) ∈ whitespaceLiteralMatches sourceText query ↔ Occurs isSpace sourceText.toList query.toList s e := by
  obtain ⟨queryTrail, queryWhole, -, queryFront, queryBack, queryInner⟩ := stripBy_parts isSpace query.toList
  have queryWords : words isSpace query.toList = words isSpace (stripBy isSpace query.toList) := by
    conv_lhs => rw [queryWhole]
    exact words_trim queryFront queryBack
  obtain ⟨trail, whole, -, front, back, -⟩ := stripBy_parts isSpace sourceText.toList
  have trimmed : Occurs isSpace sourceText.toList query.toList s e ↔
      ∃ s' e', s = (sourceText.toList.takeWhile isSpace).length + s' ∧ e = (sourceText.toList.takeWhile isSpace).length + e' ∧
        Occurs isSpace (stripBy isSpace sourceText.toList) query.toList s' e' := by
    conv_lhs => rw [whole]
    exact occurs_trim front back
  rw [trimmed, whitespaceLiteralMatches, foldedQuery_eq]
  rcases queryInner with ⟨open_, close⟩ | ⟨empty, -⟩
  · have openS := (opens_squeeze isSpace_space (stripBy isSpace query.toList)).trans open_
    have closeS := @closes_squeeze _ isSpace ' ' _ close
    have some_ : squeeze isSpace ' ' (stripBy isSpace query.toList) ≠ [] := by
      intro none_
      rw [none_] at openS
      cases openS
    rw [if_neg (by simpa using some_), findAll_places some_ _ _ _ (by simp), List.drop_zero, foldWithMap_eq, units_map_fst,
      List.mem_map]
    have found := fun k => found_iff (t := stripBy isSpace sourceText.toList) isSpace_space openS closeS k
    constructor
    · rintro ⟨k, at_, place⟩
      obtain ⟨x, y, split_, rfl⟩ := (mem_places some_).1 at_
      obtain ⟨pre, mid, post, parts, size, same, open', close'⟩ := (found _).1 ⟨x, y, split_, rfl⟩
      obtain ⟨⟨u, first, start⟩, v, last, stop⟩ := @units_interval _ isSpace ' '
        (sourceText.toList.takeWhile isSpace).length _ _ post open' close'
      rw [← parts, size, ← Nat.zero_add x.length] at first
      rw [← parts, size, same, ← Nat.zero_add x.length] at last
      rw [List.getD_eq_getElem?_getD, List.getD_eq_getElem?_getD, first, last] at place
      obtain ⟨rfl, rfl⟩ := Prod.mk.inj place
      refine ⟨pre.length, pre.length + mid.length, start, stop, occurs_iff.2 ⟨pre, mid, post, parts, rfl, rfl, open', close', ?_⟩⟩
      rw [queryWords, ← squeeze_eq_iff isSpace_space open' close' open_ close, same]
    · rintro ⟨s', e', rfl, rfl, occurs⟩
      obtain ⟨pre, mid, post, parts, rfl, rfl, open', close', same⟩ := occurs_iff.1 occurs
      rw [queryWords, ← squeeze_eq_iff isSpace_space open' close' open_ close] at same
      obtain ⟨x, y, split_, size⟩ := (found _).2 ⟨pre, mid, post, parts, rfl, same, open', close'⟩
      obtain ⟨⟨u, first, start⟩, v, last, stop⟩ := @units_interval _ isSpace ' '
        (sourceText.toList.takeWhile isSpace).length _ _ post open' close'
      rw [← parts] at first last
      rw [same] at last
      refine ⟨(squeeze isSpace ' ' pre).length, (mem_places some_).2 ⟨x, y, split_, by rw [size, Nat.zero_add]⟩, ?_⟩
      rw [List.getD_eq_getElem?_getD, List.getD_eq_getElem?_getD, first, last]
      exact Prod.ext start stop
  · rw [empty]
    have none_ : (squeeze isSpace ' ' ([] : List Char)).isEmpty = true := rfl
    rw [if_pos none_]
    constructor
    · intro mem
      cases mem
    · rintro ⟨s', e', -, -, occurs⟩
      have some_ := words_ne_nil occurs.closes
      rw [occurs.same, queryWords, empty] at some_
      exact absurd rfl some_

theorem whitespaceLiteralMatches_ascending (sourceText query : String) :
    (whitespaceLiteralMatches sourceText query).Pairwise fun m n => m.1 < n.1 := by
  rw [whitespaceLiteralMatches]
  split
  · exact List.Pairwise.nil
  · next some_ =>
    have some_ : (foldWithMap (strip query)).map Prod.fst ≠ [] := by simpa using some_
    have order : (foldWithMap sourceText).Pairwise fun u v => u.2.1 < v.2.1 := by
      rw [foldWithMap_eq]
      exact units_ascending _ _
    rw [findAll_places some_ _ _ _ (by simp), List.drop_zero, List.pairwise_map]
    refine (places_ascending _ _ 0).1.imp_of_mem ?_
    intro j k _ at_ before
    obtain ⟨x, y, split_, rfl⟩ := (mem_places some_).1 at_
    have size := congrArg List.length split_
    rw [List.length_map, List.length_append, List.length_append] at size
    have long := List.length_pos_of_ne_nil some_
    have inside : 0 + x.length < (foldWithMap sourceText).length := by omega
    have entry : ∀ i (h : i < (foldWithMap sourceText).length),
        (foldWithMap sourceText).getD i default = (foldWithMap sourceText)[i] := by
      intro i h
      rw [List.getD_eq_getElem?_getD, List.getElem?_eq_getElem h]
      rfl
    dsimp only
    rw [entry _ inside, entry _ (before.trans inside)]
    exact List.pairwise_iff_getElem.1 order j (0 + x.length) _ inside before

/-! ## `locate_chunk` -/

/-- The status of a source or of an inventory. -/
inductive ReaderStatus where
  | available
  | partly
  | unavailable
deriving DecidableEq, Repr

inductive LocationStatus where
  | exact
  | ambiguous
  | notFound
  | unavailable
  | stale
deriving DecidableEq, Repr

/-- `ViewerSourceSnapshot`, as far as a location reads it. -/
structure ViewerSourceSnapshot where
  sourceDocumentId : String
  status : ReaderStatus
  documentRevision : Option String
  normalizedText : Option String
deriving Repr, DecidableEq

/-- `ViewerDocumentSnapshot`. -/
structure ViewerDocumentSnapshot where
  status : ReaderStatus
  reason : Option String
  sourceSetRevision : String
  sources : List ViewerSourceSnapshot
deriving Repr, DecidableEq

structure Location where
  sourceDocumentId : String
  documentRevision : Option String
  method : String
  start : Nat
  stop : Nat
deriving Repr, DecidableEq

/-- The dictionary `locate_chunk` answers. -/
structure LocationAnswer where
  status : LocationStatus
  reason : Option String
  matchCount : Nat
  matchCountCapped : Bool
  location : Option Location
deriving Repr, DecidableEq

/-- `snapshot.reason or default`. -/
def reasonOr (reason : Option String) (default : String) : String :=
  match reason with
  | some r => if r = "" then default else r
  | none => default

/-- The matches of one source; a source without text is passed over. -/
def ViewerSourceSnapshot.matchesOf (source : ViewerSourceSnapshot) (chunkText : String) :
    List (ViewerSourceSnapshot × Nat × Nat) :=
  match source.normalizedText with
  | none => []
  | some text => (whitespaceLiteralMatches text chunkText).map fun m => (source, m)

def unavailable (reason : String) : LocationAnswer :=
  ⟨.unavailable, some reason, 0, false, none⟩

/-- The answer the matches over all sources give. The search stops at the second one. -/
def answerMatches : List (ViewerSourceSnapshot × Nat × Nat) → LocationAnswer
  | [] => ⟨.notFound, some "The full indexed chunk was not found in the admitted normalized sources.", 0, false, none⟩
  | [(source, start, stop)] =>
    ⟨.exact, none, 1, false, some ⟨source.sourceDocumentId, source.documentRevision, "full_text_whitespace", start, stop⟩⟩
  | _ :: _ :: _ => ⟨.ambiguous, some "The indexed chunk matches more than one source interval.", 2, true, none⟩

/-- `locate_chunk`. -/
def locateChunk (snapshot : ViewerDocumentSnapshot) (chunkText chunkTextHash sourceSetRevision : String) : LocationAnswer :=
  if snapshot.sourceSetRevision ≠ sourceSetRevision then unavailable "The original source set changed."
  else if Sha256.hexdigest chunkText ≠ chunkTextHash then unavailable "The indexed chunk changed."
  else if snapshot.status ≠ .available ∨ snapshot.sources.any fun source => source.status ≠ .available then
    unavailable (reasonOr snapshot.reason "The complete local source set is not available.")
  else answerMatches (snapshot.sources.flatMap fun source => source.matchesOf chunkText)

/-! ## Counting over sources -/

section Sources

variable {α β : Type} {f : α → List β} {xs : List α}

/-- One result over all sources is the only result of one of them. -/
theorem flatMap_singleton {b : β} (h : xs.flatMap f = [b]) :
    ∃ (i : Nat) (x : α), xs[i]? = some x ∧ f x = [b] ∧ ∀ (j : Nat) (y : α), xs[j]? = some y → j ≠ i → f y = [] := by
  induction xs with
  | nil => cases h
  | cons x xs ih =>
    rw [List.flatMap_cons] at h
    rcases List.append_eq_singleton_iff.1 h with ⟨none_, rest⟩ | ⟨one, rest⟩
    · obtain ⟨i, y, at_, only, others⟩ := ih rest
      refine ⟨i + 1, y, at_, only, ?_⟩
      intro j z here differ
      cases j with
      | zero =>
        cases here
        exact none_
      | succ j => exact others j z here fun same => differ (by rw [same])
    · refine ⟨0, x, rfl, one, ?_⟩
      intro j z here differ
      cases j with
      | zero => exact absurd rfl differ
      | succ j => exact List.flatMap_eq_nil_iff.1 rest z (List.mem_of_getElem? here)

/-- At least two results over all sources are two at different places. -/
theorem two_le_flatMap (nodup : ∀ x, (f x).Nodup) :
    2 ≤ (xs.flatMap f).length ↔ ∃ p q : Nat × β, p ≠ q ∧ (∃ x, xs[p.1]? = some x ∧ p.2 ∈ f x) ∧
      ∃ x, xs[q.1]? = some x ∧ q.2 ∈ f x := by
  constructor
  · intro many
    induction xs with
    | nil => simp at many
    | cons x xs ih =>
      rw [List.flatMap_cons, List.length_append] at many
      have order := nodup x
      cases e : f x with
      | nil =>
        rw [e, List.length_nil, Nat.zero_add] at many
        obtain ⟨p, q, differ, ⟨y, at_, mem⟩, z, at', mem'⟩ := ih many
        refine ⟨(p.1 + 1, p.2), (q.1 + 1, q.2), ?_, ⟨y, at_, mem⟩, z, at', mem'⟩
        intro same
        apply differ
        simpa [Prod.ext_iff] using same
      | cons b bs =>
        cases bs with
        | cons c cs =>
          rw [e] at order
          refine ⟨(0, b), (0, c), ?_, ⟨x, rfl, by rw [e]; simp⟩, x, rfl, by rw [e]; simp⟩
          intro same
          exact (List.nodup_cons.1 order).1 (by rw [(Prod.mk.inj same).2]; exact List.mem_cons_self ..)
        | nil =>
          rw [e, List.length_singleton] at many
          obtain ⟨c, rest⟩ := List.exists_mem_of_length_pos (l := xs.flatMap f) (by omega)
          obtain ⟨y, mem, mem'⟩ := List.mem_flatMap.1 rest
          obtain ⟨i, at_⟩ := List.getElem?_of_mem mem
          exact ⟨(0, b), (i + 1, c), by simp, ⟨x, rfl, by rw [e]; simp⟩, y, at_, mem'⟩
  · rintro ⟨p, q, differ, ⟨x, at_, mem⟩, y, at', mem'⟩
    by_contra few
    have left : p.2 ∈ xs.flatMap f := List.mem_flatMap.2 ⟨x, List.mem_of_getElem? at_, mem⟩
    obtain ⟨b, one⟩ : ∃ b, xs.flatMap f = [b] := by
      apply List.length_eq_one_iff.1
      have := List.length_pos_of_mem left
      omega
    obtain ⟨i, z, there, only, others⟩ := flatMap_singleton one
    have same : ∀ r : Nat × β, (∃ x, xs[r.1]? = some x ∧ r.2 ∈ f x) → r = (i, b) := by
      rintro ⟨j, c⟩ ⟨x, here, member⟩
      by_cases at_i : j = i
      · rw [at_i, there] at here
        cases here
        rw [only, List.mem_singleton] at member
        exact Prod.ext at_i member
      · rw [others j x here at_i] at member
        cases member
    exact differ ((same p ⟨x, at_, mem⟩).trans (same q ⟨y, at', mem'⟩).symm)

end Sources

/-! ## What an answer says -/

/-- The chunk stands, up to runs of whitespace, in an interval of the text with a number. -/
def Stands (texts : List String) (chunkText : String) (p : Nat × Nat × Nat) : Prop :=
  ∃ text, texts[p.1]? = some text ∧ Occurs isSpace text.toList chunkText.toList p.2.1 p.2.2

/-- The text of a source, empty when it has none. -/
def ViewerSourceSnapshot.text (source : ViewerSourceSnapshot) : String :=
  source.normalizedText.getD ""

/-- The inventory and the chunk are those asked about, and every admitted source is available. -/
structure Current (snapshot : ViewerDocumentSnapshot) (chunkText chunkTextHash sourceSetRevision : String) : Prop where
  revision : snapshot.sourceSetRevision = sourceSetRevision
  hash : Sha256.hexdigest chunkText = chunkTextHash
  status : snapshot.status = .available
  sources : ∀ source ∈ snapshot.sources, source.status = .available

theorem whitespaceLiteralMatches_nodup (sourceText query : String) : (whitespaceLiteralMatches sourceText query).Nodup :=
  (whitespaceLiteralMatches_ascending sourceText query).imp fun less same => Nat.ne_of_lt less (congrArg Prod.fst same)

/-- One match over all texts is the only place the chunk stands at. -/
theorem stands_of_singleton {texts : List String} {chunkText : String} {s e : Nat}
    (h : texts.flatMap (fun text => whitespaceLiteralMatches text chunkText) = [(s, e)]) :
    ∃ i text, texts[i]? = some text ∧ whitespaceLiteralMatches text chunkText = [(s, e)] ∧
      ∀ p, Stands texts chunkText p ↔ p = (i, s, e) := by
  obtain ⟨i, text, there, only, others⟩ := flatMap_singleton h
  refine ⟨i, text, there, only, ?_⟩
  rintro ⟨j, s', e'⟩
  constructor
  · rintro ⟨text', here, occurs⟩
    have mem := mem_whitespaceLiteralMatches.2 occurs
    by_cases same : j = i
    · rw [same, there] at here
      cases here
      rw [only, List.mem_singleton] at mem
      exact Prod.ext same mem
    · rw [others j text' here same] at mem
      cases mem
  · rintro ⟨⟩
    refine ⟨text, there, mem_whitespaceLiteralMatches.1 ?_⟩
    rw [only]
    exact List.mem_singleton_self _

/-- At least two matches over all texts are two places the chunk stands at. -/
theorem two_le_matches (texts : List String) (chunkText : String) :
    2 ≤ (texts.flatMap fun text => whitespaceLiteralMatches text chunkText).length ↔
      ∃ p q, p ≠ q ∧ Stands texts chunkText p ∧ Stands texts chunkText q := by
  have place : ∀ p : Nat × Nat × Nat, (∃ text, texts[p.1]? = some text ∧ p.2 ∈ whitespaceLiteralMatches text chunkText) ↔
      Stands texts chunkText p := by
    rintro ⟨i, s, e⟩
    simp only [Stands, mem_whitespaceLiteralMatches]
  rw [two_le_flatMap fun text => whitespaceLiteralMatches_nodup text chunkText]
  simp only [place]

theorem matchesOf_eq (source : ViewerSourceSnapshot) (chunkText : String) :
    source.matchesOf chunkText = (whitespaceLiteralMatches source.text chunkText).map fun m => (source, m) := by
  unfold ViewerSourceSnapshot.matchesOf ViewerSourceSnapshot.text
  cases source.normalizedText with
  | some text => rfl
  | none =>
    have none_ : whitespaceLiteralMatches "" chunkText = [] := by
      apply List.eq_nil_iff_forall_not_mem.2
      rintro ⟨s, e⟩ mem
      have open_ := (mem_whitespaceLiteralMatches.1 mem).opens
      rw [slice, String.toList_empty, List.take_nil, List.drop_nil] at open_
      cases open_
    rw [Option.getD_none, none_]
    rfl

/-- The matches over the inventory, without their sources. -/
theorem matches_map (sources : List ViewerSourceSnapshot) (chunkText : String) :
    (sources.flatMap fun source => source.matchesOf chunkText).map Prod.snd =
      (sources.map ViewerSourceSnapshot.text).flatMap fun text => whitespaceLiteralMatches text chunkText := by
  have inner : ∀ source : ViewerSourceSnapshot,
      (source.matchesOf chunkText).map Prod.snd = whitespaceLiteralMatches source.text chunkText := by
    intro source
    rw [matchesOf_eq, List.map_map, Function.comp_def]
    dsimp only
    rw [List.map_id']
  rw [List.map_flatMap, List.flatMap_map]
  simp only [inner]

section LocateChunk

variable {snapshot : ViewerDocumentSnapshot} {chunkText chunkTextHash sourceSetRevision : String}

/-- The answer of a current inventory is decided by the matches alone. -/
theorem locateChunk_current (c : Current snapshot chunkText chunkTextHash sourceSetRevision) :
    locateChunk snapshot chunkText chunkTextHash sourceSetRevision =
      answerMatches (snapshot.sources.flatMap fun source => source.matchesOf chunkText) := by
  have available : ¬ (snapshot.status ≠ .available ∨ (snapshot.sources.any fun source => source.status ≠ .available) = true) := by
    simpa [c.status] using c.sources
  rw [locateChunk, if_neg (not_not.2 c.revision), if_neg (not_not.2 c.hash), if_neg available]

/-- Nothing but unavailability is answered of an inventory that is not current. -/
theorem locateChunk_unavailable (stale : ¬ Current snapshot chunkText chunkTextHash sourceSetRevision) :
    (locateChunk snapshot chunkText chunkTextHash sourceSetRevision).status = .unavailable := by
  rw [locateChunk]
  split
  · rfl
  · next revision =>
    split
    · rfl
    · next hash =>
      split
      · rfl
      · next available =>
        rw [not_or] at available
        refine absurd ⟨not_not.1 revision, not_not.1 hash, not_not.1 available.1, ?_⟩ stale
        simpa using available.2

theorem answerMatches_exact {found : List (ViewerSourceSnapshot × Nat × Nat)} (h : (answerMatches found).status = .exact) :
    ∃ source s e, found = [(source, s, e)] ∧ (answerMatches found).location =
      some ⟨source.sourceDocumentId, source.documentRevision, "full_text_whitespace", s, e⟩ := by
  cases found with
  | nil => cases h
  | cons m ms =>
    cases ms with
    | nil => exact ⟨m.1, m.2.1, m.2.2, rfl, rfl⟩
    | cons m' ms => cases h

theorem answerMatches_ambiguous (found : List (ViewerSourceSnapshot × Nat × Nat)) :
    (answerMatches found).status = .ambiguous ↔ 2 ≤ found.length := by
  cases found with
  | nil => simp [answerMatches]
  | cons m ms =>
    cases ms with
    | nil => simp [answerMatches]
    | cons m' ms => simp [answerMatches]

/-- **An exact location** is the only place the chunk stands at in the sources, all available. -/
theorem locateChunk_exact (h : (locateChunk snapshot chunkText chunkTextHash sourceSetRevision).status = .exact) :
    Current snapshot chunkText chunkTextHash sourceSetRevision ∧ ∃ i source s e, snapshot.sources[i]? = some source ∧
      (locateChunk snapshot chunkText chunkTextHash sourceSetRevision).location =
        some ⟨source.sourceDocumentId, source.documentRevision, "full_text_whitespace", s, e⟩ ∧
      (∀ p, Stands (snapshot.sources.map ViewerSourceSnapshot.text) chunkText p ↔ p = (i, s, e)) ∧
      words isSpace (slice source.text.toList s e) = words isSpace chunkText.toList := by
  by_cases c : Current snapshot chunkText chunkTextHash sourceSetRevision
  · refine ⟨c, ?_⟩
    have map := matches_map snapshot.sources chunkText
    rw [locateChunk_current c] at h ⊢
    obtain ⟨source, s, e, found, location⟩ := answerMatches_exact h
    rw [found] at map
    obtain ⟨i, source', there, only, -⟩ := flatMap_singleton found
    obtain ⟨j, text, -, -, unique⟩ := stands_of_singleton map.symm
    rw [matchesOf_eq] at only
    obtain ⟨m, rest, pair⟩ := List.map_eq_singleton_iff.1 only
    obtain ⟨rfl, rfl⟩ := Prod.mk.inj pair
    have occurs : Occurs isSpace source'.text.toList chunkText.toList s e := by
      apply mem_whitespaceLiteralMatches.1
      rw [rest]
      exact List.mem_singleton_self _
    have same := (unique (i, s, e)).1 ⟨source'.text, by rw [List.getElem?_map, there]; rfl, occurs⟩
    refine ⟨i, source', s, e, there, location, ?_, occurs.same⟩
    rwa [same]
  · rw [locateChunk_unavailable c] at h
    cases h

/-- A current inventory is ambiguous exactly when the chunk stands at two places. -/
theorem locateChunk_ambiguous (c : Current snapshot chunkText chunkTextHash sourceSetRevision) :
    (locateChunk snapshot chunkText chunkTextHash sourceSetRevision).status = .ambiguous ↔
      ∃ p q, p ≠ q ∧ Stands (snapshot.sources.map ViewerSourceSnapshot.text) chunkText p ∧
        Stands (snapshot.sources.map ViewerSourceSnapshot.text) chunkText q := by
  rw [← two_le_matches, ← matches_map, List.length_map, locateChunk_current c, answerMatches_ambiguous]

end LocateChunk

end Reader
