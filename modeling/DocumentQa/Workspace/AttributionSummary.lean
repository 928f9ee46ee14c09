import DocumentQa.Workspace.Attribution

/-!
# The summary of a trace

What `record` keeps is enough for every validator that `summary` meets: the durations are
values a compensated sum stays above (`Rounding.le_sum`), the groups are few enough for the
byte bound, and the sweep measures the union of the intervals inside the root.
-/

namespace Attribution

/-- A span of the clock, shorter than the longest. -/
structure Short (startNs endNs : Nat) : Prop where
  order : startNs ≤ endNs
  shorter : endNs - startNs < maxDurationMs * 1000000

/-- What `record` keeps true of a trace. -/
structure Kept (t : Trace) : Prop where
  short : ∀ v ∈ t.records, Short v.startNs v.endNs
  length : t.records.length ≤ t.limit
  dropped : t.dropped ≤ maxOrdinal
  groups : t.groups.length ≤ maxGroups
  keys : ∀ v ∈ t.records, v.key ∈ t.groups

theorem Trace.limit_le (t : Trace) : t.limit ≤ maxRunSpans := by
  rw [Trace.limit]
  cases t.source <;> decide

section Durations

variable {R : Rounding} {v : TimingSpan}

theorem durationMs_eq (h : Short v.startNs v.endNs) :
    v.durationMs R = R.fl (((v.endNs - v.startNs : Nat) : ℚ) / 1000000) := by
  rw [TimingSpan.durationMs, Nat.cast_sub h.order]

/-- **Durations can be summed.** -/
theorem durationMs_summand (h : Short v.startNs v.endNs) : Rounding.Summand R maxDurationMs (v.durationMs R) := by
  have shorter := h.shorter
  rw [durationMs_eq h]
  generalize v.endNs - v.startNs = n at shorter
  have bound : (n : ℚ) + 1 ≤ 86400000000000 := by
    have : n + 1 ≤ 86400000000000 := shorter
    exact_mod_cast this
  have top : ((maxDurationMs : Nat) : ℚ) = 86400000 := by
    rw [maxDurationMs]
    norm_num
  have pos : (0 : ℚ) ≤ n := Nat.cast_nonneg n
  have near := R.near ((n : ℚ) / 1000000)
  rw [abs_of_nonneg (by positivity : (0 : ℚ) ≤ n / 1000000)] at near
  obtain ⟨below, above⟩ := abs_le.1 near
  refine ⟨R.idem _, ?_, ?_⟩
  · rcases Nat.eq_zero_or_pos n with rfl | some_
    · left
      rw [Nat.cast_zero, zero_div, Rounding.fl_zero]
    · right
      have one : (1 : ℚ) ≤ n := by exact_mod_cast some_
      linarith
  · rw [top]
    linarith

theorem durationMs_le (h : Short v.startNs v.endNs) : v.durationMs R ≤ maxDurationMs := by
  have := (@durationMs_summand R v h).high
  linarith

end Durations

/-! ## Groups -/

section Groups

variable {R : Rounding} {t : Trace}

theorem mem_keys {key : Phase × Operation} : key ∈ t.keys ↔ ∃ v ∈ t.records, v.key = key := by
  rw [Trace.keys, (List.perm_insertionSort _ _).mem_iff, List.mem_dedup, List.mem_map]

theorem keys_nodup (t : Trace) : t.keys.Nodup :=
  (List.perm_insertionSort _ _).nodup_iff.2 (List.nodup_dedup _)

theorem keys_length (h : Kept t) : t.keys.length ≤ maxGroups := by
  have inside : t.keys ⊆ t.groups := by
    intro key mem
    obtain ⟨v, known, rfl⟩ := mem_keys.1 mem
    exact h.keys v known
  exact ((keys_nodup t).subperm inside).length_le.trans h.groups

theorem outcomes_total (values : List TimingSpan) :
    Trace.countOutcome .completed values + Trace.countOutcome .rejected values + Trace.countOutcome .failed values +
      Trace.countOutcome .cancelled values = values.length := by
  induction values with
  | nil => rfl
  | cons v vs ih =>
    simp only [Trace.countOutcome, List.filter_cons, List.length_cons] at ih ⊢
    cases v.outcome <;> simp <;> omega

theorem countOutcome_le (o : Outcome) (values : List TimingSpan) : Trace.countOutcome o values ≤ values.length :=
  List.length_filter_le _ _

/-- **One group** passes its model. -/
theorem phaseSummary_valid {values : List TimingSpan} {key : Phase × Operation} (some_ : values ≠ [])
    (few : values.length ≤ maxRunSpans) (short : ∀ v ∈ values, Short v.startNs v.endNs) :
    (Trace.phaseSummary R key values).Valid := by
  have summands : ∀ x ∈ values.map (fun v => v.durationMs R), Rounding.Summand R maxDurationMs x := by
    intro x mem
    obtain ⟨v, known, rfl⟩ := List.mem_map.1 mem
    exact durationMs_summand (short v known)
  have count : (values.map fun v => v.durationMs R).length ≤ 512 := by
    rw [List.length_map]
    exact few
  have small : maxDurationMs ≤ 100000000 := by decide
  obtain ⟨m, largest⟩ : ∃ m, (values.map fun v => v.durationMs R).max? = some m := by
    rw [← Option.isSome_iff_exists, List.isSome_max?_iff]
    simpa using some_
  obtain ⟨mem, -⟩ := List.max?_eq_some_iff.1 largest
  have value := summands m mem
  have below := Rounding.le_sum count small summands mem
  have above := Rounding.sum_le count small summands
  have nonneg := value.nonneg
  have limit : ((values.map fun v => v.durationMs R).length : ℚ) ≤ maxRunSpans := by
    rw [List.length_map]
    exact_mod_cast few
  have pos : (0 : ℚ) ≤ maxDurationMs := Nat.cast_nonneg _
  have each := fun o => (countOutcome_le o values).trans few
  refine ⟨⟨List.length_pos_of_ne_nil some_, few⟩, ⟨nonneg.trans below, above.trans (mul_le_mul_of_nonneg_right limit pos)⟩,
    ?_, ⟨⟨each _, each _⟩, each _, each _⟩, outcomes_total values, ?_⟩
  · rw [Trace.phaseSummary, largest]
    have high := value.high
    exact ⟨nonneg, by rw [Option.getD_some]; linarith⟩
  · rw [Trace.phaseSummary, largest]
    exact below

/-- Every group of a kept trace passes its model. -/
theorem phases_valid (h : Kept t) : ∀ p ∈ t.phases R, p.Valid := by
  intro p mem
  obtain ⟨key, known, rfl⟩ := List.mem_map.1 mem
  obtain ⟨v, recorded, same⟩ := mem_keys.1 known
  apply phaseSummary_valid
  · apply List.ne_nil_of_mem
    exact List.mem_filter.2 ⟨recorded, decide_eq_true same⟩
  · exact (List.length_filter_le _ _).trans (h.length.trans t.limit_le)
  · exact fun v mem => h.short v (List.mem_of_mem_filter mem)

/-- The groups hold every record once. -/
theorem phases_count (t : Trace) : ((t.phases R).map PhaseSummary.count).foldr (· + ·) 0 = t.records.length := by
  have count (key : Phase × Operation) : (t.records.filter fun v => v.key = key).length =
      @List.count _ instBEqOfDecidableEq key (t.records.map TimingSpan.key) := by
    unfold List.count
    rw [List.countP_map, List.countP_eq_length_filter]
    apply congrArg List.length
    apply List.filter_congr
    exact fun v _ => rfl
  have counts : (t.phases R).map PhaseSummary.count =
      t.keys.map fun key => @List.count _ instBEqOfDecidableEq key (t.records.map TimingSpan.key) := by
    rw [Trace.phases, List.map_map]
    exact List.map_congr_left fun key _ => count key
  have order := (List.perm_insertionSort Trace.keyLe (t.records.map TimingSpan.key).dedup).map
    fun key => @List.count _ instBEqOfDecidableEq key (t.records.map TimingSpan.key)
  rw [counts, ← List.sum_eq_foldr, Trace.keys, order.sum_eq, List.sum_map_count_dedup_eq_length, List.length_map]

theorem phases_keys (t : Trace) : ((t.phases R).map fun p => (p.phase, p.operation)) = t.keys := by
  rw [Trace.phases, List.map_map]
  exact List.map_id' _

end Groups

/-! ## The byte bound -/

section Bytes

open Python

theorem foldl_size (cs : List Char) (n : Nat) : cs.foldl (fun n c => n + c.utf8Size) n = n + cs.foldl (fun n c => n + c.utf8Size) 0 := by
  induction cs generalizing n with
  | nil => rfl
  | cons c cs ih =>
    rw [List.foldl_cons, List.foldl_cons, ih, ih (0 + c.utf8Size)]
    omega

theorem digit_size {c : Char} (h : c.isDigit = true) : c.utf8Size = 1 := by
  rw [Char.isDigit, Bool.and_eq_true, decide_eq_true_eq, decide_eq_true_eq] at h
  have ascii : c.val ≤ 127 := UInt32.le_trans h.2 (by decide)
  exact if_pos ascii

/-- A number below a power of ten is written with that many bytes. -/
theorem number_bytes {n k : Nat} (pos : 0 < k) (h : n < 10 ^ k) : utf8Length (number n) ≤ k := by
  have digits : ∀ cs : List Char, (∀ c ∈ cs, c.isDigit = true) → cs.foldl (fun n c => n + c.utf8Size) 0 = cs.length := by
    intro cs
    induction cs with
    | nil => exact fun _ => rfl
    | cons c cs ih =>
      intro all
      rw [List.foldl_cons, foldl_size, ih fun d mem => all d (List.mem_cons_of_mem _ mem), digit_size (all c (by simp)),
        List.length_cons]
      omega
  rw [number, utf8Length, String.toList_ofList, digits _ fun c mem => JsonText.natText_isDigit mem]
  exact (Nat.length_toDigits_le_iff (by decide) pos).2 h

theorem phase_bytes (p : Phase) : utf8Length p.text ≤ 28 := by
  cases p <;> exact utf8Length_literal rfl (by decide)

theorem operation_bytes (o : Operation) : utf8Length o.text ≤ 16 := by
  cases o <;> exact utf8Length_literal rfl (by decide)

theorem source_bytes (s : Source) : utf8Length s.text ≤ 6 := by
  cases s <;> exact utf8Length_literal rfl (by decide)

/-- The sum of the sizes of some parts. -/
def bytesOf (parts : List String) : Nat :=
  (parts.map utf8Length).foldr (· + ·) 0

theorem bytesOf_cons (p : String) (ps : List String) : bytesOf (p :: ps) = utf8Length p + bytesOf ps :=
  rfl

theorem bytesOf_nil : bytesOf [] = 0 :=
  rfl

theorem bytesOf_append (a b : List String) : bytesOf (a ++ b) = bytesOf a + bytesOf b := by
  induction a with
  | nil => rw [List.nil_append, bytesOf_nil, Nat.zero_add]
  | cons p ps ih => rw [List.cons_append, bytesOf_cons, bytesOf_cons, ih, Nat.add_assoc]

/-- Parts within bounds are together within the sum of the bounds. -/
theorem bytesOf_le {parts : List String} {bounds : List Nat} (h : List.Forall₂ (fun p n => utf8Length p ≤ n) parts bounds) :
    bytesOf parts ≤ bounds.foldr (· + ·) 0 := by
  induction h with
  | nil => exact Nat.le_refl 0
  | cons first _ ih => exact Nat.add_le_add first ih

/-- The bound of each part of a phase. -/
theorem bounds_phase (F : FloatText) (p : PhaseSummary) (count : utf8Length (number p.count) ≤ 3)
    (completed : utf8Length (number p.completed) ≤ 3) (rejected : utf8Length (number p.rejected) ≤ 3)
    (failed : utf8Length (number p.failed) ≤ 3) (cancelled : utf8Length (number p.cancelled) ≤ 3) :
    List.Forall₂ (fun p n => utf8Length p ≤ n) (p.parts F)
      [10, 28, 15, 16, 10, 3, 12, 24, 10, 24, 13, 3, 12, 3, 10, 3, 13, 3, 1] :=
  .cons (utf8Length_literal rfl (by decide)) <| .cons (phase_bytes _) <|
  .cons (utf8Length_literal rfl (by decide)) <| .cons (operation_bytes _) <|
  .cons (utf8Length_literal rfl (by decide)) <| .cons count <|
  .cons (utf8Length_literal rfl (by decide)) <| .cons (F.short _) <|
  .cons (utf8Length_literal rfl (by decide)) <| .cons (F.short _) <|
  .cons (utf8Length_literal rfl (by decide)) <| .cons completed <|
  .cons (utf8Length_literal rfl (by decide)) <| .cons rejected <|
  .cons (utf8Length_literal rfl (by decide)) <| .cons failed <|
  .cons (utf8Length_literal rfl (by decide)) <| .cons cancelled <|
  .cons (utf8Length_literal rfl (by decide)) .nil

theorem phaseParts_bytes (F : FloatText) {p : PhaseSummary} (h : p.Valid) : bytesOf (p.parts F) ≤ 213 := by
  have few {n : Nat} (le : n ≤ maxRunSpans) : utf8Length (number n) ≤ 3 := by
    apply number_bytes (by decide)
    rw [maxRunSpans] at le
    omega
  apply (bytesOf_le (bounds_phase F p (few h.count.2) (few h.outcomes.1.1) (few h.outcomes.1.2) (few h.outcomes.2.1)
    (few h.outcomes.2.2))).trans
  decide

theorem separated_bytes (F : FloatText) (first : Bool) {ps : List PhaseSummary} (h : ∀ p ∈ ps, p.Valid) :
    bytesOf (separated F first ps) ≤ 214 * ps.length := by
  have comma : utf8Length "," = 1 := by decide
  induction ps generalizing first with
  | nil => exact Nat.le_refl 0
  | cons p ps ih =>
    have rest := ih false fun q mem => h q (List.mem_cons_of_mem _ mem)
    have this_ := phaseParts_bytes F (h p (by simp))
    rw [separated, bytesOf_append, bytesOf_append, List.length_cons]
    cases first
    · rw [if_neg (by decide), bytesOf_cons, bytesOf_nil, comma]
      omega
    · rw [if_pos rfl, bytesOf_nil]
      omega

theorem remainderText_bytes (F : FloatText) (x : Option ℚ) : utf8Length (remainderText F x) ≤ 24 := by
  cases x with
  | none =>
    exact utf8Length_literal rfl (by decide)
  | some x => exact F.short x

/-- **The byte bound** holds of every summary whose groups pass their model. -/
theorem summary_bytes (F : FloatText) {s : TimingSummary} (valid : ∀ p ∈ s.phases, p.Valid) (few : s.phases.length ≤ maxGroups)
    (count : s.spanCount ≤ maxRunSpans) (dropped : s.dropped ≤ maxOrdinal) : s.bytes F ≤ maxSummaryBytes := by
  have groups := separated_bytes F true valid
  have spans : utf8Length (number s.spanCount) ≤ 3 := by
    apply number_bytes (by decide)
    rw [maxRunSpans] at count
    omega
  have lost : utf8Length (number s.dropped) ≤ 7 := by
    apply number_bytes (by decide)
    rw [maxOrdinal] at dropped
    omega
  have head : bytesOf ["\x7b\"protocol\":\"obs-001-attribution-v1\",\"source\":\"", s.source.text, "\",\"span_count\":",
      number s.spanCount, ",\"dropped\":", number s.dropped, ",\"remainder_ms\":", remainderText F s.remainderMs,
      ",\"phases\":["] ≤ 140 :=
    bytesOf_le <|
      .cons (utf8Length_literal rfl (by decide) : _ ≤ 47) <| .cons (source_bytes _) <|
      .cons (utf8Length_literal rfl (by decide) : _ ≤ 15) <| .cons spans <|
      .cons (utf8Length_literal rfl (by decide) : _ ≤ 11) <| .cons lost <|
      .cons (utf8Length_literal rfl (by decide) : _ ≤ 16) <| .cons (remainderText_bytes F _) <|
      .cons (utf8Length_literal rfl (by decide) : _ ≤ 11) .nil
  have tail : bytesOf ["]\x7d"] ≤ 2 :=
    bytesOf_le (.cons (utf8Length_literal rfl (by decide) : _ ≤ 2) .nil)
  show bytesOf (s.parts F) ≤ maxSummaryBytes
  rw [maxGroups] at few
  rw [TimingSummary.parts, bytesOf_append, bytesOf_append, maxSummaryBytes]
  omega

end Bytes

/-! ## The remainder -/

section Remainder

variable {R : Rounding} {t : Trace} {root : TimingSpan} {others : List TimingSpan}

/-- The interval of a span. -/
def TimingSpan.interval (v : TimingSpan) : Nat × Nat :=
  (v.startNs, v.endNs)

theorem mem_intervals {i : Nat × Nat} :
    i ∈ Trace.intervals root others ↔
      ∃ v ∈ others, (root.startNs < v.endNs ∧ v.startNs < root.endNs) ∧ Trace.clip root v = i := by
  rw [Trace.intervals, (List.perm_insertionSort _ _).mem_iff, List.mem_map]
  simp only [List.mem_filter, Bool.and_eq_true, decide_eq_true_eq, and_assoc]

theorem intervals_sorted : (Trace.intervals root others).Pairwise fun i j => i.1 ≤ j.1 := by
  have : Std.Total Trace.intervalLe := ⟨fun i j => by unfold Trace.intervalLe; omega⟩
  have : IsTrans (Nat × Nat) Trace.intervalLe := ⟨fun i j k => by unfold Trace.intervalLe; omega⟩
  have sorted : (Trace.intervals root others).Pairwise Trace.intervalLe := List.pairwise_insertionSort _ _
  apply sorted.imp
  intro i j le
  unfold Trace.intervalLe at le
  omega

/-- Clipping keeps the points inside the root. -/
theorem union_intervals :
    Sweep.union root.startNs root.endNs (Trace.intervals root others) =
      Sweep.union root.startNs root.endNs (others.map TimingSpan.interval) := by
  ext n
  rw [Sweep.mem_union, Sweep.mem_union]
  apply and_congr_right
  rintro ⟨low, high⟩
  constructor
  · rintro ⟨i, mem, inside⟩
    obtain ⟨v, known, -, rfl⟩ := mem_intervals.1 mem
    refine ⟨v.interval, List.mem_map.2 ⟨v, known, rfl⟩, ?_⟩
    simp only [Trace.clip] at inside
    simp only [TimingSpan.interval]
    omega
  · rintro ⟨i, mem, inside⟩
    obtain ⟨v, known, rfl⟩ := List.mem_map.1 mem
    simp only [TimingSpan.interval] at inside
    refine ⟨Trace.clip root v, mem_intervals.2 ⟨v, known, ⟨by omega, by omega⟩, rfl⟩, ?_⟩
    simp only [Trace.clip]
    omega

/-- **The remainder** is the root's duration less the measure of the union of the others inside it. -/
theorem remainderMs_eq (short : Short root.startNs root.endNs) :
    Trace.remainderMs R root others =
      R.fl (((root.endNs - root.startNs - (Sweep.union root.startNs root.endNs (others.map TimingSpan.interval)).card : Nat) :
        ℚ) / 1000000) := by
  have low : ∀ i ∈ Trace.intervals root others, root.startNs ≤ i.1 := by
    intro i mem
    obtain ⟨v, -, -, rfl⟩ := mem_intervals.1 mem
    exact Nat.le_max_right ..
  have high : ∀ i ∈ Trace.intervals root others, i.2 ≤ root.endNs := by
    intro i mem
    obtain ⟨v, -, -, rfl⟩ := mem_intervals.1 mem
    exact Nat.min_le_right ..
  have less := @Sweep.union_card_le root.startNs root.endNs (others.map TimingSpan.interval)
  rw [Trace.remainderMs, Sweep.sweep_card intervals_sorted low high, union_intervals, Nat.cast_sub less,
    Nat.cast_sub short.order]

/-- What a reported remainder is. -/
structure Remains (R : Rounding) (t : Trace) (x : ℚ) : Prop where
  value : ∃ root, (t.records.filter fun v => v.phase = .apiTotal) = [root] ∧
    x = R.fl (((root.endNs - root.startNs - (Sweep.union root.startNs root.endNs
      ((t.records.filter fun v => v.phase ≠ .apiTotal).map TimingSpan.interval)).card : Nat) : ℚ) / 1000000)
  nonneg : 0 ≤ x

theorem remainder_remains (h : Kept t) {x : ℚ} (reported : t.remainder R = some x) :
    Remains R t x ∧ x ≤ maxDurationMs := by
  rw [Trace.remainder] at reported
  split at reported
  · next root only =>
    have mem : root ∈ t.records := by
      have : root ∈ t.records.filter fun v => v.phase = .apiTotal := by
        rw [only]
        exact List.mem_singleton_self root
      exact List.mem_of_mem_filter this
    have short := h.short root mem
    split at reported
    · cases reported
      rw [remainderMs_eq short]
      refine ⟨⟨⟨root, only, rfl⟩, Rounding.fl_nonneg (by positivity)⟩, ?_⟩
      have shorter := short.shorter
      have top : R.fl (maxDurationMs : ℚ) = (maxDurationMs : ℚ) := Rounding.fl_nat (by decide)
      rw [← top]
      apply R.mono
      rw [div_le_iff₀ (by norm_num)]
      have bound : root.endNs - root.startNs - (Sweep.union root.startNs root.endNs
          ((t.records.filter fun v => v.phase ≠ .apiTotal).map TimingSpan.interval)).card ≤ maxDurationMs * 1000000 := by
        omega
      exact_mod_cast bound
    · cases reported
  · cases reported

end Remainder

/-! ## The summary never raises -/

section Summary

variable {R : Rounding} {t : Trace}

theorem draft_valid (F : FloatText) (h : Kept t) : (t.draft R).Valid F := by
  have groups : (t.phases R).length ≤ maxGroups := by
    rw [Trace.phases, List.length_map]
    exact keys_length h
  have count : t.records.length ≤ maxRunSpans := h.length.trans t.limit_le
  refine ⟨count, h.dropped, ?_, groups, ?_, ?_, phases_count t, summary_bytes F (phases_valid h) groups count h.dropped⟩
  · intro x mem
    obtain ⟨remains, below⟩ := remainder_remains h mem
    exact ⟨remains.nonneg, below⟩
  · intro api
    have room := h.length
    rw [Trace.limit, show t.source = .api from api] at room
    exact room
  · show ((t.phases R).map fun p => (p.phase, p.operation)).Nodup
    rw [phases_keys]
    exact keys_nodup t

/-- **`summary` never raises** on what `record` keeps. -/
theorem summary_some (F : FloatText) (h : Kept t) : t.summary R F = some (t.draft R) := by
  rw [Trace.summary, if_pos ⟨phases_valid h, draft_valid F h⟩]

end Summary

end Attribution
