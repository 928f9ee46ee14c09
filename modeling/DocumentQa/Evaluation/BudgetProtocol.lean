import DocumentQa.Evaluation.ProviderBudget

/-!
# The protocol of the provider budget

A lawful log grows by reservations of operations that have no completed slot and no slot with
an unknown outcome, and by terminal records of reserved slots that have none. `_read` accepts a
lawful log, and every operation of every campaign, whatever the requests do and wherever a
process dies, takes a lawful log to a lawful log.
-/

namespace Budget

open Python JsonText Ledger

variable {round : Round}

/-! ## Lawful logs -/

def Entry.isReserved (e : Entry) : Bool :=
  e.event = .reserved

/-- The reservations of a log. -/
def reserves (log : List Entry) : List Entry :=
  log.filter Entry.isReserved

/-- The terminal records of a log. -/
def terminals (log : List Entry) : List Entry :=
  log.filter fun e => !e.isReserved

/-- The records are of one operation of one campaign. -/
def Owner.samePair (o o' : Owner) : Prop :=
  o.campaignId = o'.campaignId ∧ o.operation = o'.operation

/-- Another slot may be reserved for the owner: the request is the recorded one, no slot is
completed and none is without an outcome. -/
def MayReserve (log : List Entry) (o : Owner) : Prop :=
  ∀ e ∈ log, e.owner.samePair o → e.owner = o ∧ e.event ≠ .completed ∧
    (e.isReserved = true → ∃ t ∈ terminals log, t.slot = e.slot)

/-- The logs of a ledger. -/
inductive Lawful (round : Round) : List Entry → Prop where
  | nil : Lawful round []
  | reserve {log : List Entry} (h : Lawful round log) (o : Owner) (may : MayReserve log o)
      (room : (reserves log).length < round.limit) : Lawful round (log ++ [⟨.reserved, (reserves log).length + 1, o, none⟩])
  | finish {log : List Entry} (h : Lawful round log) (e : Entry) (terminal : e.isReserved = false)
      (own : ⟨.reserved, e.slot, e.owner, none⟩ ∈ log) (unfinished : ∀ t ∈ terminals log, t.slot ≠ e.slot) :
      Lawful round (log ++ [e])

section Append

variable (log : List Entry) (e : Entry)

theorem reserves_append : reserves (log ++ [e]) = reserves log ++ if e.isReserved then [e] else [] := by
  rw [reserves, List.filter_append, List.filter_singleton]
  cases h : e.isReserved <;> rfl

theorem terminals_append : terminals (log ++ [e]) = terminals log ++ if e.isReserved then [] else [e] := by
  rw [terminals, List.filter_append, List.filter_singleton]
  cases h : e.isReserved <;> rfl

end Append

namespace Lawful

variable {log : List Entry}

/-- Slots count up from one. -/
theorem slots (h : Lawful round log) :
    (reserves log).map Entry.slot = (List.range' 1 (reserves log).length).map fun n : Nat => (n : Int) := by
  induction h with
  | nil => rfl
  | @reserve log _ o _ _ ih =>
    have one : reserves (log ++ [⟨.reserved, (reserves log).length + 1, o, none⟩]) =
        reserves log ++ [⟨.reserved, (reserves log).length + 1, o, none⟩] := reserves_append _ _
    rw [one, List.map_append, ih, List.length_append, List.length_singleton, List.range'_concat, List.map_append]
    congr 1
    simp only [List.map_cons, List.map_nil, List.cons.injEq, and_true]
    omega
  | @finish log _ e terminal _ _ ih =>
    have none_ : reserves (log ++ [e]) = reserves log := by rw [reserves_append, terminal]; exact List.append_nil _
    rw [none_, ih]

theorem limit (h : Lawful round log) : (reserves log).length ≤ round.limit := by
  induction h with
  | nil => exact Nat.zero_le _
  | reserve _ _ _ room =>
    rw [reserves_append, List.length_append]
    exact room
  | finish _ e terminal _ _ ih =>
    rw [reserves_append, terminal, List.length_append]
    exact ih

/-- A terminal record belongs to a reservation. -/
theorem reserved (h : Lawful round log) : ∀ t ∈ terminals log, ⟨.reserved, t.slot, t.owner, none⟩ ∈ reserves log := by
  induction h with
  | nil => nofun
  | reserve _ _ _ _ ih =>
    intro t ht
    rw [terminals_append] at ht
    rw [reserves_append]
    exact List.mem_append_left _ (ih t (by simpa [Entry.isReserved] using ht))
  | finish _ e terminal own _ ih =>
    intro t ht
    rw [terminals_append, terminal] at ht
    rw [reserves_append]
    apply List.mem_append_left
    rcases List.mem_append.1 ht with ht | ht
    · exact ih t ht
    · obtain rfl := List.mem_singleton.1 ht
      exact List.mem_filter.2 ⟨own, rfl⟩

/-- A reservation holds nothing but its slot and its owner. -/
theorem plain (h : Lawful round log) {e : Entry} (he : e ∈ reserves log) : e = ⟨.reserved, e.slot, e.owner, none⟩ := by
  induction h with
  | nil => cases he
  | reserve _ _ _ _ ih =>
    rw [reserves_append] at he
    rcases List.mem_append.1 he with he | he
    · exact ih he
    · obtain rfl := List.mem_singleton.1 he
      rfl
  | finish _ e' terminal _ _ ih =>
    rw [reserves_append, terminal] at he
    exact ih (by simpa using he)

/-- A slot has at most one terminal record. -/
theorem once (h : Lawful round log) : ((terminals log).map Entry.slot).Nodup := by
  induction h with
  | nil => exact List.nodup_nil
  | reserve _ _ _ _ ih =>
    rw [terminals_append]
    simpa [Entry.isReserved] using ih
  | finish _ e terminal _ unfinished ih =>
    rw [terminals_append, terminal, List.map_append]
    refine List.nodup_append.2 ⟨ih, List.nodup_singleton _, ?_⟩
    intro slot hslot other hother
    obtain ⟨t, ht, rfl⟩ := List.mem_map.1 hslot
    obtain rfl := List.mem_singleton.1 hother
    exact unfinished t ht

theorem slot_at (h : Lawful round log) {k : Nat} (hk : k < (reserves log).length) : ((reserves log)[k]).slot = k + 1 := by
  have here : ((reserves log).map Entry.slot)[k]? = some ((reserves log)[k]).slot := by
    rw [List.getElem?_map, List.getElem?_eq_getElem hk]
    rfl
  rw [h.slots, List.getElem?_map, List.getElem?_range' hk, Option.map_some, Option.some.injEq] at here
  omega

/-- A reservation stands at the place of its slot. -/
theorem at_slot (h : Lawful round log) {e : Entry} (he : e ∈ reserves log) :
    1 ≤ e.slot ∧ e.slot ≤ (reserves log).length ∧ (reserves log)[e.slot.toNat - 1]? = some e := by
  obtain ⟨k, hk, rfl⟩ := List.mem_iff_getElem.1 he
  rw [h.slot_at hk]
  refine ⟨by omega, by omega, ?_⟩
  rw [show ((k : Int) + 1).toNat - 1 = k by omega, List.getElem?_eq_getElem hk]

theorem reserve_unique (h : Lawful round log) {a b : Entry} (ha : a ∈ reserves log) (hb : b ∈ reserves log)
    (same : a.slot = b.slot) : a = b := by
  have left := (h.at_slot ha).2.2
  rw [same, (h.at_slot hb).2.2] at left
  exact (Option.some.inj left).symm

end Lawful

/-! ## Records -/

section Record

variable (round) (e : Entry)

@[simp] theorem record_round : (e.record round).get? "round_id" = some (.str round.id) :=
  rfl

@[simp] theorem record_limit : (e.record round).get? "limit" = some (.int round.limit) :=
  rfl

@[simp] theorem record_slot : (e.record round).get? "slot" = some (.int e.slot) :=
  rfl

@[simp] theorem record_campaign : (e.record round).get? "campaign_id" = some (.str e.owner.campaignId) :=
  rfl

@[simp] theorem record_operation : (e.record round).get? "operation" = some (.str e.owner.operation) :=
  rfl

@[simp] theorem record_request : (e.record round).get? "request_sha256" = some (.str e.owner.requestSha256) :=
  rfl

theorem record_identity {key : String} (h : key ∈ identityKeys) : (e.record round).get? key = e.owner.text key := by
  simp only [identityKeys, List.mem_cons, List.not_mem_nil, or_false] at h
  rcases h with rfl | rfl | rfl <;> rfl

@[simp] theorem isEvent_reserved : isEvent "reserved" (e.record round) = e.isReserved := by
  obtain ⟨event, slot, owner, errorType⟩ := e
  cases event <;> rfl

@[simp] theorem isEvent_completed : isEvent "completed" (e.record round) = decide (e.event = .completed) := by
  obtain ⟨event, slot, owner, errorType⟩ := e
  cases event <;> rfl

@[simp] theorem isTerminal_record : isTerminal (e.record round) = !e.isReserved := by
  obtain ⟨event, slot, owner, errorType⟩ := e
  cases event <;> rfl

@[simp] theorem holdsInt_slot (n : Int) : (e.record round).holdsInt "slot" n = decide (e.slot = n) :=
  rfl

end Record

theorem filter_reserved (log : List Entry) :
    (log.map (Entry.record round)).filter (isEvent "reserved") = (reserves log).map (Entry.record round) := by
  rw [List.filter_map]
  congr 1
  exact List.filter_congr fun e _ => isEvent_reserved round e

theorem checkRows_records {log : List Entry} (h : Lawful round log) (rest : List Entry) (seen : List Int)
    (members : ∀ e ∈ terminals rest, e ∈ terminals log) (fresh : ∀ e ∈ terminals rest, e.slot ∉ seen)
    (once : ((terminals rest).map Entry.slot).Nodup) :
    checkRows ((reserves log).map (Entry.record round)) seen (rest.map (Entry.record round)) = .ok () := by
  induction rest generalizing seen with
  | nil => rfl
  | cons e rest ih =>
    have hashable : requireHashable ((e.record round).value "event").json = .ok () := by
      obtain ⟨event, slot, owner, errorType⟩ := e
      cases event <;> rfl
    have known : isEvent "reserved" (e.record round) = true ∨ isTerminal (e.record round) = true := by
      rw [isEvent_reserved, isTerminal_record]
      cases e.isReserved <;> simp
    rw [List.map_cons, checkRows, Checked.bind_eq_ok]
    refine ⟨(), hashable, ?_⟩
    rw [Checked.bind_eq_ok]
    refine ⟨(), Checked.require_eq_ok.2 known, ?_⟩
    rw [isEvent_reserved]
    cases reserved : e.isReserved with
    | true =>
      have same : terminals (e :: rest) = terminals rest := by
        rw [terminals, List.filter_cons, reserved]
        rfl
      rw [same] at members fresh once
      rw [if_pos rfl, Checked.bind_eq_ok]
      exact ⟨(), Checked.require_eq_ok.2 ⟨rfl, rfl⟩, ih seen members fresh once⟩
    | false =>
      have same : terminals (e :: rest) = e :: terminals rest := by
        rw [terminals, List.filter_cons, reserved]
        rfl
      rw [same] at members fresh once
      have own := h.reserved e (members e (by simp))
      obtain ⟨positive, -, original⟩ := h.at_slot own
      have slot : terminalSlot seen (e.record round) = .ok e.slot := by
        simp only [terminalSlot, record_slot, Checked.bind_eq_ok, Checked.require_eq_ok, Checked.pure_eq_ok]
        exact ⟨(), ⟨positive, fresh e (by simp)⟩, trivial⟩
      rw [if_neg Bool.false_ne_true, Checked.bind_eq_ok]
      refine ⟨_, slot, ?_⟩
      rw [Checked.bind_eq_ok]
      refine ⟨Entry.record round ⟨.reserved, e.slot, e.owner, none⟩, ?_, ?_⟩
      · rw [Checked.orRaise_eq_ok, List.getElem?_map, original]
        rfl
      · rw [Checked.bind_eq_ok]
        refine ⟨(), Checked.require_eq_ok.2 ?_, ?_⟩
        · intro key hkey
          rw [record_identity round _ hkey, record_identity round _ hkey]
        · rw [List.map_cons, List.nodup_cons] at once
          refine ih _ (fun a ha => members a (List.mem_cons_of_mem _ ha)) ?_ once.2
          intro a ha
          simp only [List.mem_cons, not_or]
          refine ⟨fun same => once.1 (List.mem_map.2 ⟨a, ha, same⟩), fresh a (List.mem_cons_of_mem _ ha)⟩

/-! ## The file -/

/-- The file is the records of the log, one a line, and the log is lawful. -/
structure Holds (round : Round) (text : List Char) (log : List Entry) : Prop where
  text_eq : text = (log.map fun e => spacedPrinter.text (e.record round).json).flatMap (· ++ ['\n'])
  writable : ∀ e ∈ log, Writable (e.record round)
  lawful : Lawful round log

/-- **`_read` accepts the file of a lawful log** and returns its records. -/
theorem Holds.read {text : List Char} {log : List Entry} (h : Holds round text log) :
    read round text = .ok (log.map (Entry.record round)) := by
  have rows : readRecords text = some (log.map (Entry.record round)) := by
    have writable : ∀ row ∈ log.map (Entry.record round), Writable row := by
      intro row hrow
      obtain ⟨e, he, rfl⟩ := List.mem_map.1 hrow
      exact h.writable e he
    rw [h.text_eq, ← readRecords_lines writable, List.map_map]
    rfl
  simp only [Budget.read, rows, Checked.bind_eq_ok, Checked.require_eq_ok, Checked.orRaise_eq_ok, Checked.pure_eq_ok]
  refine ⟨_, rfl, (), ?_, (), ?_, (), ?_, (), ?_, rfl⟩
  · intro row hrow
    obtain ⟨e, -, rfl⟩ := List.mem_map.1 hrow
    exact ⟨record_round round e, by simp [JsonObject.holdsInt, equalsInt]⟩
  · rw [filter_reserved]
    rintro ⟨row, k⟩ hp
    obtain ⟨le, lt, row⟩ := List.mem_zipIdx hp
    rw [List.length_map] at lt
    dsimp only
    rw [row, List.getElem_map, holdsInt_slot, decide_eq_true_eq]
    rw [h.lawful.slot_at (by omega)]
    omega
  · rw [filter_reserved, List.length_map]
    exact h.lawful.limit
  · rw [filter_reserved]
    exact checkRows_records h.lawful log [] (fun _ he => he) (fun _ _ => by simp) h.lawful.once

/-- A record that can be written, as one line, of a log that stays lawful. -/
theorem Holds.append {text : List Char} {log : List Entry} {e : Entry} (h : Holds round text log)
    (writable : Writable (e.record round)) (lawful : Lawful round (log ++ [e])) :
    Holds round (text ++ (spacedPrinter.text (e.record round).json ++ ['\n'])) (log ++ [e]) where
  text_eq := by
    rw [h.text_eq]
    simp
  writable a ha := by
    rcases List.mem_append.1 ha with ha | ha
    · exact h.writable a ha
    · obtain rfl := List.mem_singleton.1 ha
      exact writable
  lawful := lawful

/-! ## What an operation appends -/

theorem appendLocked_spec {α : Type} (check : Except PyError (Entry × α)) (dies : Bool) (w : World) :
    ((appendLocked round check dies w).1 = w ∧ ∃ e, (appendLocked round check dies w).2 = .raised e) ∨
      w.locked = false ∧ ∃ e a, check = .ok (e, a) ∧ (e.record round).json.finite = true ∧ printable (e.record round).json = true ∧
        (appendLocked round check dies w).1 =
          { w with text := w.text ++ (spacedPrinter.text (e.record round).json ++ ['\n']), locked := dies } ∧
        ((appendLocked round check dies w).2 = .killed ∨ (appendLocked round check dies w).2 = .returned a) := by
  unfold appendLocked
  split
  · exact .inl ⟨rfl, _, rfl⟩
  · next unlocked =>
    split
    · exact .inl ⟨rfl, _, rfl⟩
    · next e a =>
      split
      · exact .inl ⟨rfl, _, rfl⟩
      · next line hl =>
        obtain ⟨finite, print, rfl⟩ := recordLine_eq_ok.1 hl
        refine .inr ⟨Bool.eq_false_iff.2 unlocked, e, a, rfl, finite, print, ?_⟩
        cases dies with
        | true => exact ⟨rfl, .inl rfl⟩
        | false => exact ⟨rfl, .inr rfl⟩

theorem mem_matching {o : Owner} {log : List Entry} {e : Entry} :
    e.record round ∈ matching o (log.map (Entry.record round)) ↔
      (∃ a ∈ log, a.record round = e.record round) ∧ e.owner.samePair o := by
  rw [matching, List.mem_filter, List.mem_map]
  simp only [record_campaign, record_operation, Option.some.injEq, Json.str.injEq, Bool.and_eq_true, decide_eq_true_eq]
  rfl

/-- **A reservation** is made for an operation without a completed slot and without an open one. -/
theorem planReserve_spec {text : List Char} {log : List Entry} (h : Holds round text log) {o : Owner} {e : Entry} {slot : Int}
    (ok : planReserve round o text = .ok (e, slot)) :
    e = ⟨.reserved, slot, o, none⟩ ∧ Lawful round (log ++ [e]) := by
  simp only [planReserve, h.read, Checked.bind_eq_ok, Checked.require_eq_ok, Checked.pure_eq_ok, Except.ok.injEq,
    exists_eq_left', Prod.mk.injEq] at ok
  obtain ⟨_, inputs, _, known, _, open_, _, room, rfl, rfl⟩ := ok
  rw [filter_reserved, List.length_map] at room ⊢
  refine ⟨rfl, h.lawful.reserve o ?_ room⟩
  intro a ha pair
  have own : a.record round ∈ matching o (log.map (Entry.record round)) := mem_matching.2 ⟨⟨a, ha, rfl⟩, pair⟩
  have request := inputs _ own
  rw [record_request, Option.some.injEq, Json.str.injEq] at request
  have notCompleted := open_ _ own
  rw [isEvent_completed, decide_eq_false_iff_not] at notCompleted
  refine ⟨?_, notCompleted, fun reserved => ?_⟩
  · obtain ⟨event, slot, ⟨campaign, operation, hash⟩, errorType⟩ := a
    obtain ⟨rfl, rfl⟩ := pair
    exact congrArg (Owner.mk _ _) request
  · obtain ⟨row, hrow, terminal, ends⟩ := known _ own (by rw [isEvent_reserved, reserved])
    obtain ⟨t, ht, rfl⟩ := List.mem_map.1 (List.mem_filter.1 hrow).1
    rw [isTerminal_record] at terminal
    refine ⟨t, List.mem_filter.2 ⟨ht, terminal⟩, ?_⟩
    simp only [endsSlot, record_slot, holdsInt_slot, decide_eq_true_eq] at ends
    exact ends.symm

/-- **A terminal record** is appended for a reserved slot of this owner that has none. -/
theorem planFinish_spec {text : List Char} {log : List Entry} (h : Holds round text log) {slot : Int} {o : Owner}
    {event : EventKind} {errorType : Option String} (terminal : event ≠ .reserved) {e : Entry} {u : Unit}
    (ok : planFinish round slot o event errorType text = .ok (e, u)) :
    e = ⟨event, slot, o, errorType⟩ ∧ Lawful round (log ++ [e]) := by
  simp only [planFinish, h.read, Checked.bind_eq_ok, Checked.require_eq_ok, Checked.pure_eq_ok, Except.ok.injEq,
    exists_eq_left', Checked.orRaise_eq_ok, Prod.mk.injEq] at ok
  obtain ⟨row, found, _, identity, _, unfinished, rfl, -⟩ := ok
  obtain ⟨a, ha, rfl⟩ := List.mem_map.1 (List.mem_of_find?_eq_some found)
  have here := List.find?_some found
  simp only [isEvent_reserved, holdsInt_slot, Bool.and_eq_true, decide_eq_true_eq] at here
  obtain ⟨reserved, same⟩ := here
  have owner : a.owner = o := by
    have text : ∀ key ∈ identityKeys, a.owner.text key = o.text key := by
      intro key hkey
      rw [← record_identity round a hkey]
      exact identity key hkey
    have campaign := text "campaign_id" (by decide)
    have operation := text "operation" (by decide)
    have hash := text "request_sha256" (by decide)
    obtain ⟨c, op, sha⟩ := o
    obtain ⟨event', slot', ⟨c', op', sha'⟩, errorType'⟩ := a
    cases campaign
    cases operation
    cases hash
    rfl
  have plain : ⟨.reserved, slot, o, none⟩ ∈ log := by
    have mem : a ∈ reserves log := List.mem_filter.2 ⟨ha, reserved⟩
    rw [← same, ← owner, ← h.lawful.plain mem]
    exact ha
  refine ⟨rfl, h.lawful.finish _ ?_ plain ?_⟩
  · simpa [Entry.isReserved] using terminal
  · intro t ht closed
    have row := unfinished (t.record round) (List.mem_map_of_mem (List.mem_filter.1 ht).1)
      (by rw [holdsInt_slot, closed]; exact decide_eq_true rfl)
    rw [isEvent_reserved] at row
    have terminal' := (List.mem_filter.1 ht).2
    rw [row] at terminal'
    cases terminal'

/-! ## Moves -/

/-- The text holds none of the line breaks that JSON text keeps. -/
def Fits (s : String) : Prop :=
  fitsLine (.str s) = true

def Owner.Fits (o : Owner) : Prop :=
  Budget.Fits o.campaignId ∧ Budget.Fits o.operation ∧ Budget.Fits o.requestSha256

/-- The texts of a record fit a line. -/
def Entry.Fits (round : Round) (e : Entry) : Prop :=
  Budget.Fits round.id ∧ e.owner.Fits ∧ ∀ text ∈ e.errorType, Budget.Fits text

/-- The record that `appendLocked` appends, if the ledger is not locked and the check passes. -/
def World.admits {α : Type} (w : World) (check : Except PyError (Entry × α)) : Option Entry :=
  if w.locked then none else check.toOption.map Prod.fst

def World.finishes (round : Round) (w : World) (slot : Int) (o : Owner) (event : String) (errorType : Option String) :
    Option Entry :=
  match terminalEvent event with
  | .ok event => w.admits (planFinish round slot o event errorType w.text)
  | .error _ => none

/-- The record that a move appends to the file. -/
def Move.appends (round : Round) (w : World) : Move → Option Entry
  | .reserve o _ | .beginCall o _ => w.admits (planReserve round o w.text)
  | .finish slot o event errorType _ => w.finishes round slot o event errorType
  | .endCall k _ =>
    match w.calls[k]? with
    | some ⟨o, slot, some .returned⟩ => w.finishes round slot o "completed" none
    | some ⟨o, slot, some (.failed typeName)⟩ => w.finishes round slot o "error" (some typeName)
    | _ => none
  | .sendCall _ _ | .unlock => none

/-- The texts that a move writes to the file fit their line. -/
def Move.Fits (round : Round) (w : World) (m : Move) : Prop :=
  ∀ e ∈ m.appends round w, e.Fits round

instance : DecidablePred Fits :=
  fun s => inferInstanceAs (Decidable (fitsLine (.str s) = true))

instance (o : Owner) : Decidable o.Fits :=
  inferInstanceAs (Decidable (_ ∧ _ ∧ _))

instance (e : Entry) : Decidable (e.Fits round) :=
  inferInstanceAs (Decidable (_ ∧ _ ∧ _))

instance (w : World) (m : Move) : Decidable (m.Fits round w) :=
  inferInstanceAs (Decidable (∀ e ∈ m.appends round w, e.Fits round))

theorem line_record {e : Entry} (fits : e.Fits round) : fitsLine (e.record round).json = true := by
  obtain ⟨id, owner, errorType⟩ := fits
  refine fitsLine_obj.2 ?_
  have key : ∀ k ∈ ["event", "round_id", "limit", "slot", "campaign_id", "operation", "request_sha256", "error_type"],
      fitsLine (.str k) = true := by decide
  have name : fitsLine (.str e.event.name) = true := by cases e.event <;> decide
  intro f hf
  rcases List.mem_append.1 hf with hf | hf
  · simp only [List.mem_cons, List.not_mem_nil, or_false] at hf
    rcases hf with rfl | rfl | rfl | rfl | rfl | rfl | rfl
    · exact ⟨key _ (by simp), name⟩
    · exact ⟨key _ (by simp), id⟩
    · exact ⟨key _ (by simp), rfl⟩
    · exact ⟨key _ (by simp), rfl⟩
    · exact ⟨key _ (by simp), owner.1⟩
    · exact ⟨key _ (by simp), owner.2.1⟩
    · exact ⟨key _ (by simp), owner.2.2⟩
  · rcases errorFields_cases e.errorType with none_ | ⟨text, some_, one⟩
    · rw [none_] at hf
      cases hf
    · rw [one] at hf
      obtain rfl := List.mem_singleton.1 hf
      exact ⟨key _ (by simp), errorType text some_⟩

/-- What holds of a ledger between two moves. -/
structure Valid (round : Round) (w : World) (log : List Entry) : Prop where
  holds : Holds round w.text log
  reserved : ∀ c ∈ w.calls, ∃ e ∈ reserves log, e.slot = c.slot
  distinct : (w.calls.map InFlight.slot).Nodup
  sent : w.sends.Nodup
  within : ∀ slot ∈ w.sends, ∃ e ∈ reserves log, e.slot = slot
  unsent : ∀ c ∈ w.calls, c.outcome = none → c.slot ∉ w.sends

theorem Valid.empty : Valid round .empty [] :=
  ⟨⟨rfl, nofun, .nil⟩, nofun, List.nodup_nil, List.nodup_nil, nofun, nofun⟩

/-- Slots that were reserved stay reserved. -/
theorem reserves_mono {log log' : List Entry} (h : log <+: log') {slot : Int} (hs : ∃ e ∈ reserves log, e.slot = slot) :
    ∃ e ∈ reserves log', e.slot = slot := by
  obtain ⟨e, he, same⟩ := hs
  exact ⟨e, (h.sublist.filter _).subset he, same⟩

/-- A world with the calls and requests of `w` over a longer log. -/
theorem Valid.extend {w : World} {log : List Entry} (h : Valid round w log) {text : List Char} {locked : Bool} {log' : List Entry}
    (longer : log <+: log') (holds : Holds round text log') : Valid round { w with text, locked } log' where
  holds := holds
  reserved c hc := reserves_mono longer (h.reserved c hc)
  distinct := h.distinct
  sent := h.sent
  within slot hs := reserves_mono longer (h.within slot hs)
  unsent := h.unsent

/-- An operation that appends at most one record, which fits its line. -/
theorem appendLocked_valid {α : Type} (check : Except PyError (Entry × α)) (dies : Bool) {w : World} {log : List Entry}
    (h : Valid round w log) (fits : ∀ e ∈ w.admits check, e.Fits round)
    (lawful : ∀ e a, check = .ok (e, a) → Lawful round (log ++ [e])) :
    ∃ log', log <+: log' ∧ Valid round (appendLocked round check dies w).1 log' ∧
      ((appendLocked round check dies w).1.calls = w.calls ∧ (appendLocked round check dies w).1.sends = w.sends) ∧
      ∀ a, (appendLocked round check dies w).2 = .returned a → ∃ e, check = .ok (e, a) ∧ log' = log ++ [e] := by
  rcases @appendLocked_spec round _ check dies w with ⟨same, e, raised⟩ | ⟨unlocked, e, a, ok, finite, print, grown, ending⟩
  · refine ⟨log, List.prefix_rfl, by rwa [same], by rw [same]; exact ⟨rfl, rfl⟩, ?_⟩
    intro a returned
    rw [raised] at returned
    cases returned
  · refine ⟨log ++ [e], List.prefix_append _ _, ?_, by rw [grown]; exact ⟨rfl, rfl⟩, ?_⟩
    · have line := line_record (fits e (by rw [World.admits, if_neg (by simp [unlocked]), ok]; rfl))
      rw [grown]
      exact h.extend (List.prefix_append _ _) (h.holds.append ⟨finite, print, line⟩ (lawful e a ok))
    · intro b returned
      rcases ending with killed | returned'
      · rw [killed] at returned
        cases returned
      · rw [returned'] at returned
        cases returned
        exact ⟨e, ok, rfl⟩

theorem reserve_valid {o : Owner} (dies : Bool) {w : World} {log : List Entry} (h : Valid round w log)
    (fits : ∀ e ∈ w.admits (planReserve round o w.text), e.Fits round) :
    ∃ log', log <+: log' ∧ Valid round (reserve round o dies w).1 log' ∧
      ((reserve round o dies w).1.calls = w.calls ∧ (reserve round o dies w).1.sends = w.sends) ∧
      ∀ slot, (reserve round o dies w).2 = .returned slot →
        log' = log ++ [⟨.reserved, slot, o, none⟩] := by
  obtain ⟨log', longer, valid, same, returned⟩ := appendLocked_valid (planReserve round o w.text) dies h fits
    fun e slot ok => (planReserve_spec h.holds ok).2
  refine ⟨log', longer, valid, same, fun slot hs => ?_⟩
  obtain ⟨e, ok, rfl⟩ := returned slot hs
  rw [(planReserve_spec h.holds ok).1]

theorem finish_valid {slot : Int} {o : Owner} {event : String} {errorType : Option String} {dies : Bool} {w : World}
    {log : List Entry} (h : Valid round w log) (fits : ∀ e ∈ w.finishes round slot o event errorType, e.Fits round) :
    ∃ log', log <+: log' ∧ Valid round (finish round slot o event errorType dies w).1 log' := by
  unfold finish
  split
  · exact ⟨log, List.prefix_rfl, h⟩
  · next event' he =>
    rw [World.finishes, he] at fits
    have terminal : event' ≠ .reserved := by
      rintro rfl
      unfold terminalEvent at he
      split_ifs at he <;> cases he
    obtain ⟨log', longer, valid, -⟩ := appendLocked_valid
      (planFinish round slot o event' errorType w.text) dies h fits
      fun e u ok => (planFinish_spec h.holds terminal ok).2
    exact ⟨log', longer, valid⟩

/-- A slot reserved now was not reserved before. -/
theorem Lawful.fresh {log : List Entry} {slot : Int} {o : Owner}
    (lawful : Lawful round (log ++ [⟨.reserved, slot, o, none⟩])) : ¬∃ e ∈ reserves log, e.slot = slot := by
  rintro ⟨e, he, same⟩
  have slots := lawful.slots
  have one : reserves (log ++ [⟨.reserved, slot, o, none⟩]) = reserves log ++ [⟨.reserved, slot, o, none⟩] := reserves_append _ _
  have distinct : ((reserves log ++ [Entry.mk .reserved slot o none]).map Entry.slot).Nodup := by
    rw [← one, slots]
    refine List.Nodup.map ?_ List.nodup_range'
    exact fun _ _ h => Int.natCast_inj.1 h
  rw [List.map_append, List.nodup_append] at distinct
  exact distinct.2.2 slot (List.mem_map.2 ⟨e, he, same⟩) slot (by simp) rfl

theorem beginCall_valid {o : Owner} {dies : Bool} {w : World} {log : List Entry} (h : Valid round w log)
    (fits : ∀ e ∈ w.admits (planReserve round o w.text), e.Fits round) :
    ∃ log', log <+: log' ∧ Valid round (beginCall round o dies w) log' := by
  obtain ⟨log', longer, valid, ⟨calls, sends⟩, returned⟩ := reserve_valid dies h fits
  unfold beginCall
  generalize hr : reserve round o dies w = r at valid returned calls sends
  obtain ⟨w', ending⟩ := r
  cases ending with
  | raised e => exact ⟨log', longer, valid⟩
  | killed => exact ⟨log', longer, valid⟩
  | returned slot =>
    obtain rfl := returned slot rfl
    have new : ¬∃ e ∈ reserves log, e.slot = slot := valid.holds.lawful.fresh
    have here : ∃ e ∈ reserves (log ++ [⟨.reserved, slot, o, none⟩]), e.slot = slot :=
      ⟨⟨.reserved, slot, o, none⟩, List.mem_filter.2 ⟨by simp, rfl⟩, rfl⟩
    dsimp only at calls sends valid ⊢
    refine ⟨_, longer, valid.holds, ?_, ?_, valid.sent, valid.within, ?_⟩
    · intro c hc
      rcases List.mem_append.1 hc with hc | hc
      · exact valid.reserved c hc
      · obtain rfl := List.mem_singleton.1 hc
        exact here
    · dsimp only
      rw [List.map_append, List.nodup_append]
      refine ⟨valid.distinct, List.nodup_singleton _, ?_⟩
      rintro _ ha _ hb rfl
      obtain rfl := List.mem_singleton.1 hb
      obtain ⟨c, hc, same⟩ := List.mem_map.1 ha
      rw [calls] at hc
      obtain ⟨e, he, es⟩ := h.reserved c hc
      exact new ⟨e, he, es.trans same⟩
    · intro c hc unsent
      rcases List.mem_append.1 hc with hc | hc
      · exact valid.unsent c hc unsent
      · obtain rfl := List.mem_singleton.1 hc
        dsimp only
        rw [sends]
        exact fun sent => new (h.within slot sent)

theorem sendCall_valid {k : Nat} {outcome : SendOutcome} {w : World} {log : List Entry} (h : Valid round w log) :
    Valid round (sendCall k outcome w) log := by
  unfold sendCall
  split
  · next o slot hk =>
    have mem : ⟨o, slot, none⟩ ∈ w.calls := List.mem_of_getElem? hk
    have unsent := h.unsent _ mem rfl
    have slots : (w.calls.set k ⟨o, slot, some outcome⟩).map InFlight.slot = w.calls.map InFlight.slot := by
      have here : (w.calls.map InFlight.slot)[k]? = some slot := by rw [List.getElem?_map, hk]; rfl
      rw [List.map_set]
      apply List.ext_getElem?
      intro j
      rw [List.getElem?_set]
      split
      · next same =>
        subst same
        rw [here, if_pos (List.getElem?_eq_some_iff.1 here).1]
      · rfl
    refine ⟨h.holds, ?_, ?_, ?_, ?_, ?_⟩
    · intro c hc
      rcases List.mem_or_eq_of_mem_set hc with hc | rfl
      · exact h.reserved c hc
      · exact h.reserved ⟨o, slot, none⟩ mem
    · dsimp only
      rw [slots]
      exact h.distinct
    · refine List.nodup_append.2 ⟨h.sent, List.nodup_singleton _, ?_⟩
      rintro _ ha _ hb rfl
      obtain rfl := List.mem_singleton.1 hb
      exact unsent ha
    · intro s hs
      rcases List.mem_append.1 hs with hs | hs
      · exact h.within s hs
      · obtain rfl := List.mem_singleton.1 hs
        exact h.reserved ⟨o, s, none⟩ mem
    · intro c hc open_ sent
      obtain ⟨j, hj, rfl⟩ := List.mem_iff_getElem.1 hc
      rw [List.getElem_set] at open_ sent
      split at open_
      · cases open_
      · next other =>
        rw [if_neg other] at sent
        rw [List.length_set] at hj
        rcases List.mem_append.1 sent with sent | sent
        · exact h.unsent _ (List.getElem_mem hj) open_ sent
        · -- two calls under way have different slots
          have same : (w.calls.map InFlight.slot)[j]? = (w.calls.map InFlight.slot)[k]? := by
            rw [List.getElem?_map, List.getElem?_map, hk, List.getElem?_eq_getElem hj]
            exact congrArg some (List.mem_singleton.1 sent)
          exact other ((List.getElem?_inj (by rwa [List.length_map]) h.distinct).1 same).symm
  · exact h

theorem endCall_valid {k : Nat} {dies : Bool} {w : World} {log : List Entry} (h : Valid round w log)
    (fits : (Move.endCall k dies).Fits round w) : ∃ log', log <+: log' ∧ Valid round (endCall round k dies w) log' := by
  have erased : Valid round { w with calls := w.calls.eraseIdx k } log := by
    have sub := List.eraseIdx_sublist w.calls k
    exact ⟨h.holds, fun c hc => h.reserved c (sub.subset hc), h.distinct.sublist (sub.map _), h.sent, h.within,
      fun c hc => h.unsent c (sub.subset hc)⟩
  rw [Move.Fits, Move.appends] at fits
  unfold endCall
  split
  · next o slot outcome hk =>
    rw [hk] at fits
    cases outcome with
    | returned => exact finish_valid erased fits
    | failed typeName => exact finish_valid erased fits
  · exact ⟨log, List.prefix_rfl, h⟩

/-- **Every move** that writes texts that fit keeps a ledger valid and its log. -/
theorem step_valid {m : Move} {w : World} {log : List Entry} (h : Valid round w log) (fits : m.Fits round w) :
    ∃ log', log <+: log' ∧ Valid round (step round w m) log' := by
  cases m with
  | reserve o dies =>
    obtain ⟨log', longer, valid, -⟩ := reserve_valid dies h fits
    exact ⟨log', longer, valid⟩
  | finish slot o event errorType dies => exact finish_valid h fits
  | beginCall o dies => exact beginCall_valid h fits
  | sendCall k outcome => exact ⟨log, List.prefix_rfl, sendCall_valid h⟩
  | endCall k dies => exact endCall_valid h fits
  | unlock => exact ⟨log, List.prefix_rfl, h.extend List.prefix_rfl h.holds⟩

theorem run_valid {moves : List Move} {w : World} {log : List Entry} (h : Valid round w log)
    (fits : Runs.Along (step round) (Move.Fits round) w moves) :
    ∃ log', log <+: log' ∧ Valid round (Runs.run (step round) w moves) log' := by
  induction moves generalizing w log with
  | nil => exact ⟨log, List.prefix_rfl, h⟩
  | cons m moves ih =>
    obtain ⟨log₁, longer, valid⟩ := step_valid h fits.1
    obtain ⟨log₂, longer', valid'⟩ := ih valid fits.2
    exact ⟨log₂, longer.trans longer', valid'⟩

/-! ## What the log of an operation says -/

/-- Before a reservation stands no completed slot of its operation and no slot without an
outcome, and all records of the operation have its request. -/
theorem Lawful.before {log : List Entry} (h : Lawful round log) {before after : List Entry} {e : Entry}
    (cut : log = before ++ e :: after) (reserved : e.isReserved = true) : MayReserve before e.owner := by
  induction h generalizing before after with
  | nil => simp at cut
  | @reserve log h o may room ih =>
    rcases List.eq_nil_or_concat after with rfl | ⟨after, last, rfl⟩
    · obtain ⟨rfl, one⟩ := List.append_inj' cut rfl
      obtain rfl := List.singleton_inj.1 one
      exact may
    · rw [List.concat_eq_append, ← List.cons_append, ← List.append_assoc] at cut
      exact ih (List.append_inj' cut rfl).1
  | @finish log h t terminal own unfinished ih =>
    rcases List.eq_nil_or_concat after with rfl | ⟨after, last, rfl⟩
    · obtain ⟨-, one⟩ := List.append_inj' cut rfl
      obtain rfl := List.singleton_inj.1 one
      rw [terminal] at reserved
      cases reserved
    · rw [List.concat_eq_append, ← List.cons_append, ← List.append_assoc] at cut
      exact ih (List.append_inj' cut rfl).1

/-- Records of one operation have one owner. -/
theorem Lawful.one_owner {log : List Entry} (h : Lawful round log) (a b : Entry) (ha : a ∈ log) (hb : b ∈ log)
    (pair : a.owner.samePair b.owner) : a.owner = b.owner := by
  induction h generalizing a b with
  | nil => cases ha
  | reserve _ o may _ ih =>
    rcases List.mem_append.1 ha with ha | ha <;> rcases List.mem_append.1 hb with hb | hb
    · exact ih a b ha hb pair
    · obtain rfl := List.mem_singleton.1 hb
      exact (may a ha pair).1
    · obtain rfl := List.mem_singleton.1 ha
      exact ((may b hb ⟨pair.1.symm, pair.2.symm⟩).1).symm
    · rw [List.mem_singleton.1 ha, List.mem_singleton.1 hb]
  | finish _ e _ own _ ih =>
    rcases List.mem_append.1 ha with ma | ma <;> rcases List.mem_append.1 hb with mb | mb
    · exact ih a b ma mb pair
    · obtain rfl := List.mem_singleton.1 mb
      exact ih a ⟨.reserved, b.slot, b.owner, none⟩ ma own pair
    · obtain rfl := List.mem_singleton.1 ma
      exact ih ⟨.reserved, a.slot, a.owner, none⟩ b own mb pair
    · rw [List.mem_singleton.1 ma, List.mem_singleton.1 mb]

/-- The slot has no terminal record or a completed one. -/
def Final (log : List Entry) (slot : Int) : Prop :=
  (∀ t ∈ terminals log, t.slot ≠ slot) ∨ ∃ t ∈ log, t.event = .completed ∧ t.slot = slot

theorem mem_terminals {log : List Entry} {t : Entry} (h : t ∈ log) (completed : t.event = .completed) : t ∈ terminals log := by
  refine List.mem_filter.2 ⟨h, ?_⟩
  rw [Entry.isReserved, completed]
  rfl

/-- An operation has at most one slot that is open or completed. -/
theorem Lawful.one_final {log : List Entry} (h : Lawful round log) {a b : Entry} (ha : a ∈ reserves log) (hb : b ∈ reserves log)
    (pair : a.owner.samePair b.owner) (finalA : Final log a.slot) (finalB : Final log b.slot) : a.slot = b.slot := by
  induction h generalizing a b with
  | nil => cases ha
  | @reserve log h o may room ih =>
    have same : terminals (log ++ [⟨.reserved, (reserves log).length + 1, o, none⟩]) = terminals log := by
      rw [terminals_append]
      exact List.append_nil _
    have earlier : ∀ {slot}, Final (log ++ [⟨.reserved, (reserves log).length + 1, o, none⟩]) slot → Final log slot := by
      rintro slot (open_ | ⟨t, ht, completed, closed⟩)
      · rw [same] at open_
        exact .inl open_
      · rcases List.mem_append.1 ht with ht | ht
        · exact .inr ⟨t, ht, completed, closed⟩
        · rw [List.mem_singleton.1 ht] at completed
          cases completed
    -- a reservation of the operation before the new one is neither open nor completed
    have settled : ∀ c ∈ reserves log, c.owner.samePair o → ¬Final log c.slot := by
      rintro c hc pair (open_ | ⟨t, ht, completed, closed⟩)
      · obtain ⟨mem, reserved⟩ := List.mem_filter.1 hc
        obtain ⟨t, ht, closed⟩ := (may c mem pair).2.2 reserved
        exact open_ t ht closed
      · have own := h.reserved t (mem_terminals ht completed)
        have one := h.reserve_unique hc own closed.symm
        refine (may t ht ?_).2.1 completed
        rw [one] at pair
        exact pair
    rw [reserves_append] at ha hb
    rcases List.mem_append.1 ha with ha | ha <;> rcases List.mem_append.1 hb with hb | hb
    · exact ih ha hb pair (earlier finalA) (earlier finalB)
    · rw [List.mem_singleton.1 hb] at pair
      exact absurd (earlier finalA) (settled a ha pair)
    · rw [List.mem_singleton.1 ha] at pair
      exact absurd (earlier finalB) (settled b hb ⟨pair.1.symm, pair.2.symm⟩)
    · rw [List.mem_singleton.1 ha, List.mem_singleton.1 hb]
  | @finish log h e terminal own unfinished ih =>
    have earlier : ∀ {slot}, Final (log ++ [e]) slot → Final log slot := by
      rintro slot (open_ | ⟨t, ht, completed, closed⟩)
      · refine .inl fun t ht => open_ t ?_
        rw [terminals_append]
        exact List.mem_append_left _ ht
      · rcases List.mem_append.1 ht with ht | ht
        · exact .inr ⟨t, ht, completed, closed⟩
        · obtain rfl := List.mem_singleton.1 ht
          rw [← closed]
          exact .inl unfinished
    rw [reserves_append, terminal] at ha hb
    exact ih (by simpa using ha) (by simpa using hb) pair (earlier finalA) (earlier finalB)

/-! ## The protocol -/

/-- The rows are of one operation of one campaign. -/
def SamePair (a b : JsonObject) : Prop :=
  a.get? "campaign_id" = b.get? "campaign_id" ∧ a.get? "operation" = b.get? "operation"

/-- A reservation without a terminal record among the rows. -/
def IsOpen (rows : List JsonObject) (row : JsonObject) : Prop :=
  isEvent "reserved" row = true ∧ ∀ other ∈ rows, isTerminal other = true → other.get? "slot" ≠ row.get? "slot"

theorem samePair_record {a b : Entry} (h : SamePair (a.record round) (b.record round)) : a.owner.samePair b.owner := by
  simp only [SamePair, record_campaign, record_operation, Option.some.injEq, Json.str.injEq] at h
  exact h

theorem isOpen_record {log : List Entry} {e : Entry} (h : IsOpen (log.map (Entry.record round)) (e.record round)) :
    e.isReserved = true ∧ ∀ t ∈ terminals log, t.slot ≠ e.slot := by
  obtain ⟨reserved, open_⟩ := h
  rw [isEvent_reserved] at reserved
  refine ⟨reserved, fun t ht same => ?_⟩
  obtain ⟨mem, terminal⟩ := List.mem_filter.1 ht
  refine open_ _ (List.mem_map_of_mem mem) (by rw [isTerminal_record]; exact terminal) ?_
  rw [record_slot, record_slot, same]

/-- **The provider budget.** Whatever requests do and wherever processes die, as long as the
texts of the records that are written fit their lines: the file is accepted; its slots are 1..n with n within
the limit, none is taken back, and no more requests were sent than slots reserved; the rows of
an operation of a campaign have one request, at most one open slot and at most one completed
one; and before a reservation of it stands no completed and no open slot. -/
theorem provider_budget_protocol {moves : List Move} (fits : Runs.Along (step round) (Move.Fits round) .empty moves) :
    let w := Runs.run (step round) .empty moves
    ∃ rows n, read round w.text = .ok rows ∧
      (rows.filter (isEvent "reserved")).map (fun row => row.get? "slot") =
        (List.range' 1 n).map (fun slot : Nat => some (.int slot)) ∧
      n ≤ round.limit ∧ w.sends.length ≤ n ∧
      (∀ a ∈ rows, ∀ b ∈ rows, SamePair a b → a.get? "request_sha256" = b.get? "request_sha256") ∧
      (∀ a ∈ rows, ∀ b ∈ rows, SamePair a b → IsOpen rows a → IsOpen rows b → a.get? "slot" = b.get? "slot") ∧
      (∀ a ∈ rows, ∀ b ∈ rows, SamePair a b → isEvent "completed" a = true → isEvent "completed" b = true →
        a.get? "slot" = b.get? "slot") ∧
      (∀ before row after, rows = before ++ row :: after → isEvent "reserved" row = true →
        ∀ other ∈ before, SamePair other row → isEvent "completed" other = false ∧ ¬IsOpen before other) ∧
      ∀ more, Runs.Along (step round) (Move.Fits round) w more →
        ∃ added, read round (Runs.run (step round) w more).text = .ok (rows ++ added) := by
  intro w
  obtain ⟨log, -, valid⟩ := run_valid Valid.empty fits
  have lawful := valid.holds.lawful
  refine ⟨_, (reserves log).length, valid.holds.read, ?_, lawful.limit, ?_, ?_, ?_, ?_, ?_, ?_⟩
  · have slots := congrArg (List.map fun slot : Int => some (Json.int slot)) lawful.slots
    rw [filter_reserved, List.map_map]
    rwa [List.map_map, List.map_map] at slots
  · have sub : w.sends ⊆ (reserves log).map Entry.slot := by
      intro slot hs
      obtain ⟨e, he, rfl⟩ := valid.within slot hs
      exact List.mem_map_of_mem he
    have short := valid.sent.length_le_of_subset sub
    rwa [List.length_map] at short
  · intro a ha b hb pair
    obtain ⟨a, ma, rfl⟩ := List.mem_map.1 ha
    obtain ⟨b, mb, rfl⟩ := List.mem_map.1 hb
    rw [record_request, record_request, lawful.one_owner a b ma mb (samePair_record pair)]
  · intro a ha b hb pair openA openB
    obtain ⟨a, ma, rfl⟩ := List.mem_map.1 ha
    obtain ⟨b, mb, rfl⟩ := List.mem_map.1 hb
    obtain ⟨reservedA, unknownA⟩ := isOpen_record openA
    obtain ⟨reservedB, unknownB⟩ := isOpen_record openB
    rw [record_slot, record_slot, lawful.one_final (List.mem_filter.2 ⟨ma, reservedA⟩)
      (List.mem_filter.2 ⟨mb, reservedB⟩) (samePair_record pair) (.inl unknownA) (.inl unknownB)]
  · intro a ha b hb pair completedA completedB
    obtain ⟨a, ma, rfl⟩ := List.mem_map.1 ha
    obtain ⟨b, mb, rfl⟩ := List.mem_map.1 hb
    rw [isEvent_completed, decide_eq_true_eq] at completedA completedB
    have same := lawful.one_final (lawful.reserved a (mem_terminals ma completedA))
      (lawful.reserved b (mem_terminals mb completedB)) (samePair_record pair) (.inr ⟨a, ma, completedA, rfl⟩)
      (.inr ⟨b, mb, completedB, rfl⟩)
    rw [record_slot, record_slot]
    exact congrArg (fun slot => some (Json.int slot)) same
  · intro before row after cut reserved other hother pair
    obtain ⟨front, back, rfl, rfl, tail⟩ := List.map_eq_append_iff.1 cut
    obtain ⟨e, rest, rfl, rfl, rfl⟩ := List.map_eq_cons_iff.1 tail
    rw [isEvent_reserved] at reserved
    obtain ⟨o, ho, rfl⟩ := List.mem_map.1 hother
    have may := lawful.before rfl reserved o ho (samePair_record pair)
    refine ⟨by rw [isEvent_completed]; exact decide_eq_false may.2.1, fun open_ => ?_⟩
    obtain ⟨reservedO, unknown⟩ := isOpen_record open_
    obtain ⟨t, ht, same⟩ := may.2.2 reservedO
    exact unknown t ht same
  · intro more moreFits
    obtain ⟨log', ⟨added, rfl⟩, valid'⟩ := run_valid valid moreFits
    refine ⟨added.map (Entry.record round), ?_⟩
    rw [valid'.holds.read, List.map_append]

/-! ## Samples -/

def sampleRound : Round :=
  ⟨"round", 2, by decide⟩

def sampleOwner (operation : String) : Owner :=
  ⟨"campaign", operation, "hash"⟩

/-- A call that fails, and a reservation of the same operation behind it. -/
def sampleMoves (operation : String) : List Move :=
  [.beginCall (sampleOwner operation) false, .sendCall 0 (.failed "TimeoutError"), .endCall 0 false,
    .reserve (sampleOwner operation) true]

theorem provider_budget_sample :
    ∃ rows n, read sampleRound (Runs.run (step sampleRound) .empty (sampleMoves "op")).text = .ok rows ∧
      n ≤ 2 ∧ (Runs.run (step sampleRound) .empty (sampleMoves "op")).sends.length ≤ n := by
  have fits : Runs.Along (step sampleRound) (Move.Fits sampleRound) .empty (sampleMoves "op") := by
    decide +kernel
  obtain ⟨rows, n, accepted, -, within, sends, -⟩ := provider_budget_protocol fits
  exact ⟨rows, n, accepted, within, sends⟩

/-- A reservation of an operation with a line separator in its name leaves a file that is not
accepted. -/
theorem separator_rejected :
    (read sampleRound (Runs.run (step sampleRound) .empty [.reserve (sampleOwner "\u2028") false]).text).isOk = false := by
  decide +kernel

end Budget
