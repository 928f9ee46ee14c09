import DocumentQa.Evaluation.LedgerRecords

/-!
# The protocol of the request ledger

The records of one operation tell a `Tale`: a reservation, its outcome, and after a retryable
error the same once more. Whatever the requests do and wherever the process dies, a call
takes an orderly ledger to an orderly ledger in which every operation still tells its tale.
What the phase of its tale rules out for an operation, it rules out for the rest of the run.
-/

namespace Ledger

open Python JsonText

variable {campaign : Campaign}

/-! ## Tales -/

/-- Where an operation stands. -/
inductive Phase where
  | fresh
  | pending (r : Reservation)
  | failed (attempt : Nat) (retryable : Bool)
  | done (response : JsonObject)

/-- The attempt an operation may make next. -/
def Phase.next : Phase → Option Nat
  | .fresh => some 1
  | .failed 1 true => some 2
  | _ => none

/-- The records of the operation of a request, oldest first, and where they leave it. -/
inductive Tale (request : Request) : List Entry → Phase → Prop where
  | fresh : Tale request [] .fresh
  | pending (s : Nat) : Tale request [⟨⟨request, s, 1⟩, .reserved⟩] (.pending ⟨request, s, 1⟩)
  | done (s : Nat) (response : JsonObject) :
      Tale request [⟨⟨request, s, 1⟩, .reserved⟩, ⟨⟨request, s, 1⟩, .completed response⟩] (.done response)
  | failed (s : Nat) (e : SendError) (flag : JsonValue) :
      Tale request [⟨⟨request, s, 1⟩, .reserved⟩, ⟨⟨request, s, 1⟩, .error e flag⟩] (.failed 1 (truthy flag.json))
  | again (s : Nat) (e : SendError) (flag : JsonValue) (retry : truthy flag.json = true) (t : Nat) :
      Tale request [⟨⟨request, s, 1⟩, .reserved⟩, ⟨⟨request, s, 1⟩, .error e flag⟩, ⟨⟨request, t, 2⟩, .reserved⟩]
        (.pending ⟨request, t, 2⟩)
  | doneAgain (s : Nat) (e : SendError) (flag : JsonValue) (retry : truthy flag.json = true) (t : Nat)
      (response : JsonObject) :
      Tale request [⟨⟨request, s, 1⟩, .reserved⟩, ⟨⟨request, s, 1⟩, .error e flag⟩, ⟨⟨request, t, 2⟩, .reserved⟩,
        ⟨⟨request, t, 2⟩, .completed response⟩] (.done response)
  | failedAgain (s : Nat) (e : SendError) (flag : JsonValue) (retry : truthy flag.json = true) (t : Nat)
      (e' : SendError) (flag' : JsonValue) :
      Tale request [⟨⟨request, s, 1⟩, .reserved⟩, ⟨⟨request, s, 1⟩, .error e flag⟩, ⟨⟨request, t, 2⟩, .reserved⟩,
        ⟨⟨request, t, 2⟩, .error e' flag'⟩] (.failed 2 (truthy flag'.json))

namespace Tale

variable {request : Request} {log : List Entry} {p : Phase}

/-- A reservation for the attempt that may come next. -/
theorem reserve (h : Tale request log p) {a : Nat} (next : p.next = some a) (s : Nat) :
    Tale request (log ++ [⟨⟨request, s, a⟩, .reserved⟩]) (.pending ⟨request, s, a⟩) := by
  cases h with
  | fresh =>
    cases next
    exact .pending s
  | failed s₁ e flag =>
    cases retry : truthy flag.json with
    | true =>
      rw [retry] at next
      cases next
      exact .again s₁ e flag retry s
    | false =>
      rw [retry] at next
      cases next
  | pending | done | again | doneAgain => cases next
  | failedAgain _ _ _ _ _ _ flag' => cases retry : truthy flag'.json <;> rw [retry] at next <;> cases next

theorem complete {r : Reservation} (h : Tale request log (.pending r)) (response : JsonObject) :
    Tale request (log ++ [⟨r, .completed response⟩]) (.done response) := by
  cases h with
  | pending s => exact .done s response
  | again s e flag retry t => exact .doneAgain s e flag retry t response

theorem fail {r : Reservation} (h : Tale request log (.pending r)) (e : SendError) (flag : JsonValue) :
    Tale request (log ++ [⟨r, .error e flag⟩]) (.failed r.attempt (truthy flag.json)) := by
  cases h with
  | pending s => exact .failed s e flag
  | again s e₁ flag₁ retry t => exact .failedAgain s e₁ flag₁ retry t e flag

/-- All records are of the one request. -/
theorem own (h : Tale request log p) : ∀ e ∈ log, e.reservation.request = request := by
  cases h <;> simp

/-- At most two reservations. -/
theorem two (h : Tale request log p) : (reservations log).length ≤ 2 := by
  cases h <;> simp [reservations, Mark.isReserved]

/-- A pending reservation is recorded and has no outcome. -/
theorem open_ {r : Reservation} (h : Tale request log (.pending r)) :
    r ∈ reservations log ∧ ∀ e ∈ outcomes log, e.reservation ≠ r := by
  cases h with
  | pending s => simp [reservations, outcomes, Mark.isReserved]
  | again s e flag retry t => simp [reservations, outcomes, Mark.isReserved]

/-- An operation that may go on has neither a final outcome nor a reservation without one. -/
theorem unsettled (h : Tale request log p) (next : p.next.isSome = true) :
    ∀ e ∈ log, e.mark.isCompleted = false ∧ (∀ error flag, e.mark = .error error flag → truthy flag.json = true) ∧
      ∃ o ∈ outcomes log, o.reservation = e.reservation := by
  cases h with
  | fresh => nofun
  | failed s e flag =>
    cases retry : truthy flag.json with
    | true => simp [outcomes, Mark.isReserved, Mark.isCompleted, retry]
    | false =>
      rw [retry] at next
      cases next
  | pending | done | again | doneAgain => cases next
  | failedAgain _ _ _ _ _ _ flag' => cases retry : truthy flag'.json <;> rw [retry] at next <;> cases next

/-- A record is a reservation of an operation that may go on, or the outcome of its open reservation. -/
theorem last {e : Entry} (h : Tale request (log ++ [e]) p) : ∃ q, Tale request log q ∧
    (if e.mark.isReserved then q.next.isSome = true else q = .pending e.reservation) := by
  generalize whole : log ++ [e] = records at h
  have apart (front : List Entry) {o : Entry} (same : log ++ [e] = front ++ [o]) : log = front ∧ e = o := by
    obtain ⟨rfl, one⟩ := List.append_inj' same rfl
    exact ⟨rfl, List.singleton_inj.1 one⟩
  cases h with
  | fresh => exact absurd whole (List.append_ne_nil_of_right_ne_nil _ (List.cons_ne_nil _ _))
  | pending s =>
    obtain ⟨rfl, rfl⟩ := apart [] whole
    exact ⟨_, .fresh, rfl⟩
  | done s response =>
    obtain ⟨rfl, rfl⟩ := apart [_] whole
    exact ⟨_, .pending s, rfl⟩
  | failed s error flag =>
    obtain ⟨rfl, rfl⟩ := apart [_] whole
    exact ⟨_, .pending s, rfl⟩
  | again s error flag retry t =>
    obtain ⟨rfl, rfl⟩ := apart [_, _] whole
    refine ⟨_, .failed s error flag, ?_⟩
    rw [retry]
    rfl
  | doneAgain s error flag retry t response =>
    obtain ⟨rfl, rfl⟩ := apart [_, _, _] whole
    exact ⟨_, .again s error flag retry t, rfl⟩
  | failedAgain s error flag retry t error' flag' =>
    obtain ⟨rfl, rfl⟩ := apart [_, _, _] whole
    exact ⟨_, .again s error flag retry t, rfl⟩

/-- What stands before any of its records is a tale too. -/
theorem cut {front back : List Entry} {e : Entry} (h : Tale request (front ++ e :: back) p) : ∃ q, Tale request front q ∧
    (if e.mark.isReserved then q.next.isSome = true else q = .pending e.reservation) := by
  induction back using List.reverseRecOn generalizing p with
  | nil => exact h.last
  | append_singleton back o ih =>
    rw [← List.cons_append, ← List.append_assoc] at h
    obtain ⟨q, before, -⟩ := h.last
    exact ih before

/-- A pending operation has no final outcome. -/
theorem retried {r : Reservation} (h : Tale request log (.pending r)) :
    ∀ e ∈ log, e.mark.isCompleted = false ∧ ∀ error flag, e.mark = .error error flag → truthy flag.json = true := by
  cases h with
  | pending s => simp [Mark.isCompleted]
  | again s e flag retry t => simp [Mark.isCompleted, retry]

/-- The completed record of a finished operation. -/
theorem completed (h : Tale request log p) {e : Entry} (mem : e ∈ log) {response : JsonObject}
    (mark : e.mark = .completed response) : p = .done response ∧ log.filter (fun e => e.mark.isCompleted) = [e] := by
  obtain ⟨r, m⟩ := e
  cases mark
  cases h <;> simp at mem
  · obtain ⟨rfl, rfl⟩ := mem
    exact ⟨rfl, rfl⟩
  · obtain ⟨rfl, rfl⟩ := mem
    exact ⟨rfl, rfl⟩

end Tale

/-! ## Growing a ledger -/

/-- The records of one operation. -/
def recordsOf (operation : String) (log : List Entry) : List Entry :=
  log.filter fun e => e.reservation.request.operation = operation

theorem reservations_append (log log' : List Entry) : reservations (log ++ log') = reservations log ++ reservations log' := by
  rw [reservations, List.filter_append, List.map_append]
  rfl

theorem outcomes_append (log log' : List Entry) : outcomes (log ++ log') = outcomes log ++ outcomes log' :=
  List.filter_append ..

/-- Taking the next slot. -/
theorem Orderly.reserve {log : List Entry} (h : Orderly campaign log) (room : (reservations log).length < campaign.limit)
    {r : Reservation} (slot : r.slot = (reservations log).length + 1) (attempt : r.attempt = 1 ∨ r.attempt = 2) :
    Orderly campaign (log ++ [⟨r, .reserved⟩]) := by
  have same : reservations (log ++ [⟨r, .reserved⟩]) = reservations log ++ [r] := reservations_append ..
  have kept : Ledger.outcomes (log ++ [⟨r, .reserved⟩]) = Ledger.outcomes log := by
    rw [outcomes_append]
    exact List.append_nil _
  constructor
  · rw [same, List.map_append, h.slots, List.length_append, List.length_singleton, List.range'_concat]
    simp [slot, Nat.add_comm]
  · rw [same, List.length_append]
    exact room
  · intro a ha
    rw [same] at ha
    rcases List.mem_append.1 ha with ha | ha
    · exact h.attempts a ha
    · obtain rfl := List.mem_singleton.1 ha
      exact attempt
  · intro e he
    rw [kept] at he
    rw [same]
    exact List.mem_append_left _ (h.outcomes e he)
  · rw [kept]
    exact h.once

/-- The first outcome of a slot. -/
theorem Orderly.settle {log : List Entry} (h : Orderly campaign log) {e : Entry} (outcome : e.mark.isReserved = false)
    (reserved : e.reservation ∈ reservations log) (fresh : ∀ o ∈ Ledger.outcomes log, o.reservation ≠ e.reservation) :
    Orderly campaign (log ++ [e]) := by
  have same : reservations (log ++ [e]) = reservations log := by
    rw [reservations_append]
    simp [reservations, outcome]
  have grown : Ledger.outcomes (log ++ [e]) = Ledger.outcomes log ++ [e] := by
    rw [outcomes_append]
    simp [Ledger.outcomes, outcome]
  constructor
  · rw [same]
    exact h.slots
  · rw [same]
    exact h.limit
  · rw [same]
    exact h.attempts
  · intro o ho
    rw [grown] at ho
    rw [same]
    rcases List.mem_append.1 ho with ho | ho
    · exact h.outcomes o ho
    · obtain rfl := List.mem_singleton.1 ho
      exact reserved
  · rw [grown, List.map_append, List.nodup_append]
    refine ⟨h.once, by simp, ?_⟩
    rintro s hs _ ht rfl
    obtain ⟨o, ho, slot⟩ := List.mem_map.1 hs
    obtain rfl : e.reservation.slot = s := (List.mem_singleton.1 ht).symm
    have one := (h.at_slot (h.outcomes o ho)).2
    have two := (h.at_slot reserved).2
    rw [slot, two] at one
    exact fresh o ho (Option.some.inj one).symm

/-- The file says `log`, which `_read` accepts; every operation tells its tale; nothing was sent
without a reservation. -/
structure Valid (campaign : Campaign) (w : World) (log : List Entry) : Prop where
  holds : Holds campaign w.text log
  orderly : Orderly campaign log
  tales : ∀ operation, ∃ request p, request.operation = operation ∧ Tale request (recordsOf operation log) p
  sends : w.sends.Sublist (reservations log)

theorem Valid.empty : Valid campaign .empty [] where
  holds := .empty
  orderly := ⟨rfl, Nat.zero_le _, nofun, nofun, .nil⟩
  tales operation := ⟨⟨operation, "", ""⟩, .fresh, rfl, .fresh⟩
  sends := .slnil

theorem Valid.read {w : World} {log : List Entry} (h : Valid campaign w log) :
    read campaign w.text = .ok (log.map (Entry.record campaign)) :=
  h.holds.read h.orderly

theorem Valid.used {w : World} {log : List Entry} (h : Valid campaign w log) :
    used campaign w.text = .ok (reservations log).length := by
  simp only [Ledger.used, h.read, Checked.ok_bind, filter_record, List.length_map]
  rfl

theorem recordsOf_append (operation : String) (log log' : List Entry) :
    recordsOf operation (log ++ log') = recordsOf operation log ++ recordsOf operation log' :=
  List.filter_append ..

theorem recordsOf_own {request : Request} {new : List Entry} (own : ∀ e ∈ new, e.reservation.request = request) :
    recordsOf request.operation new = new :=
  List.filter_eq_self.2 fun e he => decide_eq_true (by rw [own e he])

theorem recordsOf_other {request : Request} {new : List Entry} (own : ∀ e ∈ new, e.reservation.request = request)
    {operation : String} (ne : operation ≠ request.operation) : recordsOf operation new = [] :=
  List.filter_eq_nil_iff.2 fun e he => by
    rw [own e he, decide_eq_true_eq]
    exact ne.symm

theorem recordsOf_one {request : Request} {e : Entry} (own : e.reservation.request = request) :
    recordsOf request.operation [e] = [e] :=
  recordsOf_own fun _ ha => (List.mem_singleton.1 ha) ▸ own

/-- The tales after one more record of an operation. -/
theorem tales_append {log : List Entry} {e : Entry} {p : Phase} {request : Request} (own : e.reservation.request = request)
    (tales : ∀ operation, ∃ request p, request.operation = operation ∧ Tale request (recordsOf operation log) p)
    (tale : Tale request (recordsOf request.operation log ++ [e]) p) :
    ∀ operation, ∃ request p, request.operation = operation ∧ Tale request (recordsOf operation (log ++ [e])) p := by
  have only : ∀ a ∈ [e], a.reservation.request = request := by
    intro a ha
    obtain rfl := List.mem_singleton.1 ha
    exact own
  intro operation
  by_cases same : operation = request.operation
  · subst same
    refine ⟨request, p, rfl, ?_⟩
    rw [recordsOf_append, recordsOf_one own]
    exact tale
  · rw [recordsOf_append, recordsOf_other only same, List.append_nil]
    exact tales operation

/-! ## One call -/

/-- No text of a request would break a line. -/
def Request.fits (request : Request) : Bool :=
  [request.operation, request.runId, request.requestSha256].all fun s => fitsLine (.str s)

def SendError.fits (e : SendError) : Bool :=
  fitsLine (.str e.typeName) &&
    [e.statusCode, e.retryable, e.providerErrorType, e.providerMetadata].all fun v =>
      fitsLine ((v.map JsonValue.json).getD .null)

def SendOutcome.fits : SendOutcome → Bool
  | .returned response => fitsLine response.json
  | .failed e => e.fits
  | _ => true

/-- A move that writes to the file writes what fits a line each. -/
def Move.Fits (campaign : Campaign) (w : World) : Move → Prop
  | .call request env => (Ledger.call campaign request env w).1.text ≠ w.text →
      fitsLine (.str campaign.id) = true ∧ request.fits = true ∧ ∀ k, (env k).send.fits = true
  | .unlock => True

/-- A record fits a line when what it says does. -/
theorem record_fitsLine {e : Entry} (id : fitsLine (.str campaign.id) = true) (request : e.reservation.request.fits = true)
    (mark : fitsLine (.obj e.mark.fields) = true) : fitsLine (e.record campaign).json = true := by
  simp only [Request.fits, List.all_cons, List.all_nil, Bool.and_true, Bool.and_eq_true] at request
  change fitsLine (.obj (e.fields campaign)) = true
  rw [fitsLine_obj] at mark ⊢
  intro f hf
  rcases List.mem_append.1 hf with hf | hf
  · have keys : (["campaign_id", "limit", "operation", "run_id", "request_sha256", "slot", "attempt"].all
        fun key => fitsLine (.str key)) = true := by decide
    simp only [List.all_cons, List.all_nil, Bool.and_true, Bool.and_eq_true] at keys
    obtain ⟨k₁, k₂, k₃, k₄, k₅, k₆, k₇⟩ := keys
    revert hf
    simp only [identityFields, List.mem_cons, List.not_mem_nil, or_false]
    rintro (rfl | rfl | rfl | rfl | rfl | rfl | rfl)
    · exact ⟨k₁, id⟩
    · exact ⟨k₂, rfl⟩
    · exact ⟨k₃, request.1⟩
    · exact ⟨k₄, request.2.1⟩
    · exact ⟨k₅, request.2.2⟩
    · exact ⟨k₆, rfl⟩
    · exact ⟨k₇, rfl⟩
  · exact mark f hf

theorem reserved_fitsLine : fitsLine (.obj Mark.reserved.fields) = true := by
  decide

theorem completed_fitsLine {response : JsonObject} (h : fitsLine response.json = true) :
    fitsLine (.obj (Mark.completed response).fields) = true := by
  simp only [fitsLine_obj, Mark.fields, List.forall_mem_cons]
  exact ⟨⟨by decide, by decide⟩, ⟨by decide, h⟩, by simp⟩

theorem error_fitsLine {e : SendError} {flag : JsonValue} (h : e.fits = true) (known : e.retryFlag = .ok flag) :
    fitsLine (.obj (Mark.error e flag).fields) = true := by
  simp only [SendError.fits, List.all_cons, List.all_nil, Bool.and_true, Bool.and_eq_true] at h
  obtain ⟨name, status, retryable, type, metadata⟩ := h
  have given : ∀ {v : Option JsonValue} {default : JsonValue}, fitsLine ((v.map JsonValue.json).getD .null) = true →
      fitsLine default.json = true → fitsLine (v.getD default).json = true := by
    rintro (_ | v) default ok ok'
    · exact ok'
    · exact ok
  have flagFits : fitsLine flag.json = true := by
    simp only [SendError.retryFlag] at known
    split at known
    · simp only [Checked.bind_eq_ok, Checked.pure_eq_ok] at known
      obtain ⟨_, -, rfl⟩ := known
      rfl
    · rw [Checked.pure_eq_ok] at known
      subst known
      exact given retryable rfl
  simp only [fitsLine_obj, Mark.fields, SendError.fields, List.cons_append, List.nil_append, List.forall_mem_cons]
  refine ⟨⟨by decide, by decide⟩, ⟨by decide, given type name⟩, ⟨by decide, given status rfl⟩, ⟨by decide, flagFits⟩, ?_⟩
  unfold SendError.providerFields
  split
  · next o object =>
    intro f hf
    obtain rfl := List.mem_singleton.1 hf
    obtain ⟨v, given, object⟩ := Option.bind_eq_some_iff.1 object
    rw [given] at metadata
    have whole : fitsLine o.json = true := by
      rw [← JsonValue.object?_eq_some.1 object]
      exact metadata
    have key : fitsLine (.str "provider") = true := by decide
    refine ⟨key, ?_⟩
    rw [fitsLine_obj]
    exact fun f hf => fitsLine_obj.1 whole f (List.mem_of_mem_filter hf)
  · intro f hf
    cases hf

/-- What `append` does with a record that fits a line. -/
theorem append_cases {e : Entry} (fits : fitsLine (e.record campaign).json = true) (dies : Bool) (w : World)
    (next : World → World × Ending) :
    (∃ error, append campaign e dies w next = (w, .raised error)) ∨
      (e.Fits campaign ∧ (append campaign e dies w next = ({ w with text := w.text ++ (e.line campaign ++ ['\n']) }, .killed) ∨
        append campaign e dies w next = next { w with text := w.text ++ (e.line campaign ++ ['\n']) })) := by
  unfold append
  cases written : recordLine (e.record campaign) with
  | error error => exact .inl ⟨error, rfl⟩
  | ok line =>
    obtain ⟨finite, print, rfl⟩ := recordLine_eq_ok.1 written
    refine .inr ⟨⟨finite, print, fits⟩, ?_⟩
    cases dies with
    | true => exact .inl rfl
    | false => exact .inr rfl

/-- What a call of a request adds: records of its own, and requests of its own. -/
structure Grows (request : Request) (w w' : World) (log log' : List Entry) : Prop where
  log : ∃ new, log' = log ++ new ∧ ∀ e ∈ new, e.reservation.request = request
  sends : ∃ sent, w'.sends = w.sends ++ sent ∧ ∀ r ∈ sent, r.request = request

theorem Grows.refl (request : Request) (w : World) (log : List Entry) : Grows request w w log log :=
  ⟨⟨[], by simp⟩, ⟨[], by simp⟩⟩

theorem Grows.trans {request : Request} {a b c : World} {log₁ log₂ log₃ : List Entry} (h : Grows request a b log₁ log₂)
    (h' : Grows request b c log₂ log₃) : Grows request a c log₁ log₃ := by
  obtain ⟨⟨new, rfl, own⟩, ⟨sent, sends, ownSends⟩⟩ := h
  obtain ⟨⟨new', rfl, own'⟩, ⟨sent', sends', ownSends'⟩⟩ := h'
  refine ⟨⟨new ++ new', by simp, ?_⟩, ⟨sent ++ sent', by rw [sends', sends, List.append_assoc], ?_⟩⟩
  · intro e he
    exact (List.mem_append.1 he).elim (own e) (own' e)
  · intro r hr
    exact (List.mem_append.1 hr).elim (ownSends r) (ownSends' r)

/-- The ledger stays valid, and what is new in it is of the request. -/
def Keeps (campaign : Campaign) (request : Request) (w w' : World) (log : List Entry) : Prop :=
  ∃ log', Valid campaign w' log' ∧ Grows request w w' log log'

theorem Valid.keeps {w : World} {log : List Entry} (h : Valid campaign w log) (request : Request) :
    Keeps campaign request w w log :=
  ⟨log, h, .refl request w log⟩

section Call

variable {request : Request} {w : World} {log : List Entry} {p : Phase}

/-- The ledger after a reservation, whether its request was sent or not. -/
theorem Valid.reserve (h : Valid campaign w log) (tale : Tale request (recordsOf request.operation log) p) {a : Nat}
    (next : p.next = some a) (room : (reservations log).length < campaign.limit) {r : Reservation}
    (hr : r = ⟨request, (reservations log).length + 1, a⟩) (fits : (Entry.mk r .reserved).Fits campaign)
    {sent : List Reservation} (one : sent = [] ∨ sent = [r]) :
    Valid campaign ⟨w.text ++ ((Entry.mk r .reserved).line campaign ++ ['\n']), w.locked, w.sends ++ sent⟩
        (log ++ [⟨r, .reserved⟩]) ∧
      Tale request (recordsOf request.operation (log ++ [⟨r, .reserved⟩])) (.pending r) := by
  subst hr
  have attempt : a = 1 ∨ a = 2 := by
    revert next
    unfold Phase.next
    split <;> rintro ⟨⟩
    · exact .inl rfl
    · exact .inr rfl
  have told := tale.reserve next ((reservations log).length + 1)
  refine ⟨⟨h.holds.append fits, h.orderly.reserve room rfl attempt, tales_append rfl h.tales told, ?_⟩, ?_⟩
  · rw [reservations_append]
    refine h.sends.append ?_
    rcases one with rfl | rfl
    · exact List.nil_sublist _
    · exact List.Sublist.refl _
  · rw [recordsOf_append,
      recordsOf_one (show (Entry.mk ⟨request, _, a⟩ .reserved).reservation.request = request from rfl)]
    exact told

/-- The ledger after the outcome of a pending reservation. -/
theorem Valid.settle (h : Valid campaign w log) {r : Reservation}
    (tale : Tale request (recordsOf request.operation log) (.pending r)) {m : Mark} (outcome : m.isReserved = false)
    (fits : (Entry.mk r m).Fits campaign)
    (told : Tale request (recordsOf request.operation log ++ [⟨r, m⟩]) p) :
    Valid campaign { w with text := w.text ++ ((Entry.mk r m).line campaign ++ ['\n']) } (log ++ [⟨r, m⟩]) ∧
      Tale request (recordsOf request.operation (log ++ [⟨r, m⟩])) p := by
  obtain ⟨open_, alone⟩ := tale.open_
  have own : r.request = request := told.own ⟨r, m⟩ (by simp)
  have mem : r ∈ reservations log := by
    obtain ⟨e, he, rfl⟩ := List.mem_map.1 open_
    rw [List.mem_filter, recordsOf, List.mem_filter] at he
    exact List.mem_map_of_mem (List.mem_filter.2 ⟨he.1.1, he.2⟩)
  have fresh : ∀ o ∈ outcomes log, o.reservation ≠ r := by
    intro o ho same
    rw [outcomes, List.mem_filter] at ho
    refine alone o ?_ same
    rw [outcomes, recordsOf, List.mem_filter, List.mem_filter]
    exact ⟨⟨ho.1, decide_eq_true (by rw [same, own])⟩, ho.2⟩
  have kept : reservations (log ++ [⟨r, m⟩]) = reservations log := by
    rw [reservations_append]
    simp [reservations, outcome]
  refine ⟨⟨h.holds.append fits, h.orderly.settle outcome mem fresh, tales_append own h.tales told, ?_⟩, ?_⟩
  · rw [kept]
    exact h.sends
  · rw [recordsOf_append, recordsOf_one own]
    exact told

variable (id : fitsLine (.str campaign.id) = true) (requestFits : request.fits = true)

include id requestFits

/-- Sending and recording the outcome keep the ledger valid, if going on after an error does. -/
theorem sendOnce_keeps {r : Reservation} (h : Valid campaign { w with sends := w.sends ++ [r] } log)
    (tale : Tale request (recordsOf request.operation log) (.pending r)) (attempt : Attempt) (fits : attempt.send.fits = true)
    (again : World → World × Ending)
    (goOn : ∀ w' log', Valid campaign w' log' → Tale request (recordsOf request.operation log') (.failed r.attempt true) →
      r.attempt ≠ 2 → Keeps campaign request w' (again w').1 log') :
    Keeps campaign request { w with sends := w.sends ++ [r] } (sendOnce campaign r attempt w again).1 log := by
  have own : r.request = request := by
    obtain ⟨e, he, rfl⟩ := List.mem_map.1 tale.open_.1
    exact tale.own e (List.mem_of_mem_filter he)
  have rFits : r.request.fits = true := by
    rw [own]
    exact requestFits
  have grows : ∀ m : Mark, Grows request { w with sends := w.sends ++ [r] }
      { w with text := w.text ++ ((Entry.mk r m).line campaign ++ ['\n']), sends := w.sends ++ [r] } log (log ++ [⟨r, m⟩]) :=
    fun m => ⟨⟨[⟨r, m⟩], rfl, by simpa using own⟩, ⟨[], by simp⟩⟩
  unfold sendOnce
  dsimp only
  split
  · exact h.keeps request
  · exact h.keeps request
  · next e send =>
    rw [send] at fits
    unfold recordError
    split
    · exact h.keeps request
    · next flag known =>
      have line := record_fitsLine (e := ⟨r, .error e flag⟩) id rFits (error_fitsLine fits known)
      have told := tale.fail e flag
      rcases append_cases line attempt.diesRecorded { w with sends := w.sends ++ [r] }
        (fun w => if !truthy flag.json ∨ r.attempt = 2 then (w, .raised e.failure) else again w) with
        ⟨_, raised⟩ | ⟨record, died | next⟩
      · rw [raised]
        exact h.keeps request
      · rw [died]
        exact ⟨_, (h.settle tale rfl record told).1, grows _⟩
      · rw [next]
        obtain ⟨valid, after⟩ := h.settle tale rfl record told
        dsimp only
        split
        · exact ⟨_, valid, grows _⟩
        · next more =>
          simp only [Bool.not_eq_true', not_or, Bool.not_eq_false] at more
          rw [more.1] at after
          obtain ⟨log', valid', grows'⟩ := goOn _ _ valid after more.2
          exact ⟨log', valid', (grows _).trans grows'⟩
  · next response send =>
    rw [send] at fits
    have line := record_fitsLine (e := ⟨r, .completed response⟩) id rFits (completed_fitsLine fits)
    have told := tale.complete response
    rcases append_cases line attempt.diesRecorded { w with sends := w.sends ++ [r] }
      (fun w => (w, .returned response.json)) with ⟨_, raised⟩ | ⟨record, died | next⟩
    · rw [raised]
      exact h.keeps request
    · rw [died]
      exact ⟨_, (h.settle tale rfl record told).1, grows _⟩
    · rw [next]
      exact ⟨_, (h.settle tale rfl record told).1, grows _⟩

/-- One attempt keeps the ledger valid, if the attempts behind it do. -/
theorem attempts_cons_keeps (h : Valid campaign w log) (tale : Tale request (recordsOf request.operation log) p) {a : Nat}
    (next : p.next = some a) (env : Nat → Attempt) (fits : ∀ k, (env k).send.fits = true) (rest : List Nat)
    (goOn : ∀ w' log', Valid campaign w' log' → Tale request (recordsOf request.operation log') (.failed a true) →
      a ≠ 2 → Keeps campaign request w' (attempts campaign request env rest w').1 log') :
    Keeps campaign request w (attempts campaign request env (a :: rest) w).1 log := by
  rw [attempts, h.used]
  dsimp only
  split
  · exact h.keeps request
  · next room =>
    have line := record_fitsLine (e := ⟨⟨request, (reservations log).length + 1, a⟩, .reserved⟩) id requestFits reserved_fitsLine
    generalize hr : (⟨request, (reservations log).length + 1, a⟩ : Reservation) = r at line
    have grows : ∀ sent, sent = [] ∨ sent = [r] → Grows request w
        ⟨w.text ++ ((Entry.mk r .reserved).line campaign ++ ['\n']), w.locked, w.sends ++ sent⟩ log
        (log ++ [⟨r, .reserved⟩]) := by
      intro sent one
      subst hr
      refine ⟨⟨[⟨⟨request, _, a⟩, .reserved⟩], rfl, by simp⟩, ⟨sent, rfl, ?_⟩⟩
      rcases one with rfl | rfl <;> simp
    rcases append_cases line (env a).diesReserved w (fun w =>
      sendOnce campaign r (env a) w (attempts campaign request env rest)) with ⟨_, raised⟩ | ⟨record, died | next'⟩
    · rw [raised]
      exact h.keeps request
    · rw [died]
      have valid := (h.reserve tale next (Nat.lt_of_not_le room) hr.symm record (.inl rfl)).1
      have grown := grows [] (.inl rfl)
      rw [List.append_nil] at valid grown
      exact ⟨_, valid, grown⟩
    · rw [next']
      obtain ⟨valid, told⟩ := h.reserve tale next (Nat.lt_of_not_le room) hr.symm record (.inr rfl)
      have attempt : r.attempt = a := by rw [← hr]
      obtain ⟨log', valid', grows'⟩ := sendOnce_keeps id requestFits
        (w := { w with text := w.text ++ ((Entry.mk r .reserved).line campaign ++ ['\n']) }) valid told (env a) (fits a)
        (attempts campaign request env rest) (by rw [attempt]; exact goOn)
      exact ⟨log', valid', (grows [r] (.inr rfl)).trans grows'⟩

/-- **The loop keeps the ledger valid**, from the attempt that may come next. -/
theorem attempts_keeps (h : Valid campaign w log) (tale : Tale request (recordsOf request.operation log) p) {a : Nat}
    (next : p.next = some a) (env : Nat → Attempt) (fits : ∀ k, (env k).send.fits = true) :
    Keeps campaign request w (attempts campaign request env (List.range' a (3 - a)) w).1 log := by
  have second : ∀ w' log', Valid campaign w' log' → Tale request (recordsOf request.operation log') (.failed 1 true) →
      Keeps campaign request w' (attempts campaign request env [2] w').1 log' :=
    fun w' log' valid told => attempts_cons_keeps id requestFits valid told rfl env fits [] fun _ _ _ _ ne => absurd rfl ne
  have attempt : a = 1 ∨ a = 2 := by
    revert next
    unfold Phase.next
    split <;> rintro ⟨⟩
    · exact .inl rfl
    · exact .inr rfl
  rcases attempt with rfl | rfl
  · exact attempts_cons_keeps id requestFits h tale next env fits [2] fun w' log' valid told _ => second w' log' valid told
  · exact attempts_cons_keeps id requestFits h tale next env fits [] fun _ _ _ _ ne => absurd rfl ne

end Call

/-! ## What a call finds -/

theorem matching_records (operation : String) (log : List Entry) :
    ((log.map (Entry.record campaign)).filter fun row => row.get? "operation" = some (.str operation)) =
      (recordsOf operation log).map (Entry.record campaign) := by
  rw [List.filter_map, recordsOf]
  congr 1
  refine List.filter_congr fun e _ => ?_
  simp only [Function.comp_apply, record_operation, Option.some.injEq, Json.str.injEq]

theorem record_response {r : Reservation} (response : JsonObject) :
    recordedResponse (Entry.record campaign ⟨r, .completed response⟩) = .returned response.json :=
  rfl

theorem record_retryable {r : Reservation} (e : SendError) (flag : JsonValue) :
    ((Entry.record campaign ⟨r, .error e flag⟩).value "retryable").json = flag.json :=
  rfl

/-- **What a call does in each phase**: go on with the attempt that may come next, return the
recorded response, or leave everything as it is. -/
theorem callLocked_tale {request : Request} {w : World} {log : List Entry} {p : Phase} (h : Valid campaign w log)
    (tale : Tale request (recordsOf request.operation log) p) (env : Nat → Attempt) :
    (∀ a, p.next = some a → callLocked campaign request env w = attempts campaign request env (List.range' a (3 - a)) w) ∧
      (∀ response, p = .done response → callLocked campaign request env w = (w, .returned response.json)) ∧
      (p.next = none → (callLocked campaign request env w).1 = w) := by
  unfold callLocked
  rw [h.read]
  simp only [matching_records]
  generalize recordsOf request.operation log = records at tale
  cases tale with
  | fresh => simp [Phase.next]
  | pending s => simp [Phase.next, Mark.isReserved, Mark.isCompleted, Mark.isError]
  | done s response => simp [Phase.next, Mark.isCompleted, record_response]
  | failed s e flag =>
    cases retry : truthy flag.json <;>
      simp [Phase.next, Mark.isReserved, Mark.isCompleted, Mark.isError, record_retryable, retry]
  | again s e flag retry t => simp [Phase.next, Mark.isReserved, Mark.isCompleted, Mark.isError]
  | doneAgain s e flag retry t response =>
    simp [Phase.next, Mark.isCompleted, record_response]
  | failedAgain s e flag retry t e' flag' =>
    cases retry' : truthy flag'.json <;>
      simp [Phase.next, Mark.isReserved, Mark.isCompleted, Mark.isError, record_retryable, retry']

/-- A call with other inputs than the recorded ones leaves everything as it is. -/
theorem callLocked_changed {request other : Request} {w : World} {log : List Entry} (h : Valid campaign w log)
    (own : ∀ e ∈ recordsOf request.operation log, e.reservation.request = other) (ne : other ≠ request)
    (operation : other.operation = request.operation) (some_ : recordsOf request.operation log ≠ []) (env : Nat → Attempt) :
    (callLocked campaign request env w).1 = w := by
  obtain ⟨e, rest, records⟩ := List.exists_cons_of_ne_nil some_
  have changed : ((recordsOf request.operation log).map (Entry.record campaign)).any (fun row =>
      decide (row.get? "run_id" ≠ some (.str request.runId)) ||
        decide (row.get? "request_sha256" ≠ some (.str request.requestSha256))) = true := by
    rw [records, List.map_cons, List.any_cons]
    have differs : e.reservation.request.runId ≠ request.runId ∨ e.reservation.request.requestSha256 ≠ request.requestSha256 := by
      rw [own e (by rw [records]; simp)]
      by_contra same
      rw [not_or, not_not, not_not] at same
      apply ne
      cases other
      cases request
      simp_all
    rcases differs with d | d <;> simp [d]
  unfold callLocked
  rw [h.read]
  simp only [matching_records]
  rw [if_pos changed]

/-! ## Runs -/

theorem Valid.relock {w : World} {log : List Entry} (h : Valid campaign w log) (locked : Bool) :
    Valid campaign { w with locked } log :=
  ⟨h.holds, h.orderly, h.tales, h.sends⟩

/-- The world a call leaves is that of `_call_locked`, but for the lock file. -/
theorem call_world (campaign : Campaign) (request : Request) (env : Nat → Attempt) (w : World) :
    (call campaign request env w).1 = w ∨
      ∃ locked, (call campaign request env w).1 = { (callLocked campaign request env w).1 with locked } := by
  unfold call
  split
  · exact .inl rfl
  · cases h : callLocked campaign request env w with
    | mk w' ending => cases ending <;> exact .inr ⟨_, rfl⟩

theorem call_locked {request : Request} {env : Nat → Attempt} {w : World} (locked : w.locked = true) :
    call campaign request env w =
      (w, .raised (campaignIncomplete "ledger is locked; inspect the previous writer before resuming")) :=
  if_pos locked

/-- A call that finds its response: the lock file alone can keep it back. -/
theorem call_found {request : Request} {env : Nat → Attempt} {w : World} {response : Json}
    (found : callLocked campaign request env w = (w, .returned response)) :
    call campaign request env w = if w.locked
      then (w, .raised (campaignIncomplete "ledger is locked; inspect the previous writer before resuming"))
      else (w, .returned response) := by
  obtain ⟨text, locked, sends⟩ := w
  cases locked with
  | true => rfl
  | false => rw [call, found]

/-- The tale of an operation is one of the request, or of another one with the same name. -/
theorem Valid.tale {w : World} {log : List Entry} (h : Valid campaign w log) (request : Request) :
    (∃ p, Tale request (recordsOf request.operation log) p) ∨
      ∃ other, other ≠ request ∧ other.operation = request.operation ∧ recordsOf request.operation log ≠ [] ∧
        ∀ e ∈ recordsOf request.operation log, e.reservation.request = other := by
  obtain ⟨other, p, operation, tale⟩ := h.tales request.operation
  by_cases same : other = request
  · subst same
    exact .inl ⟨p, tale⟩
  · by_cases none_ : recordsOf request.operation log = []
    · refine .inl ⟨.fresh, ?_⟩
      rw [none_]
      exact .fresh
    · exact .inr ⟨other, same, operation, none_, tale.own⟩

theorem callLocked_keeps {request : Request} {w : World} {log : List Entry} (h : Valid campaign w log)
    (id : fitsLine (.str campaign.id) = true) (requestFits : request.fits = true) (env : Nat → Attempt)
    (fits : ∀ k, (env k).send.fits = true) : Keeps campaign request w (callLocked campaign request env w).1 log := by
  rcases h.tale request with ⟨p, tale⟩ | ⟨other, ne, operation, some_, own⟩
  · obtain ⟨goOn, -, stay⟩ := callLocked_tale h tale env
    cases next : p.next with
    | none =>
      rw [stay next]
      exact h.keeps request
    | some a =>
      rw [goOn a next]
      exact attempts_keeps id requestFits h tale next env fits
  · rw [callLocked_changed h own ne operation some_ env]
    exact h.keeps request

/-! ## What is written -/

section Writes

variable {request : Request} {env : Nat → Attempt} {w : World}

/-- An append writes at least a line break, or nothing happens. -/
theorem append_writes (e : Entry) (dies : Bool) (w : World) (next : World → World × Ending) :
    (append campaign e dies w next).1 = w ∨ ∃ line ≠ [],
      (append campaign e dies w next).1 = { w with text := w.text ++ line } ∨
        append campaign e dies w next = next { w with text := w.text ++ line } := by
  unfold append
  cases written : recordLine (e.record campaign) with
  | error error => exact .inl rfl
  | ok line =>
    obtain ⟨-, -, rfl⟩ := recordLine_eq_ok.1 written
    refine .inr ⟨spacedPrinter.text (e.record campaign).json ++ ['\n'], by simp, ?_⟩
    cases dies with
    | true => exact .inl rfl
    | false => exact .inr rfl

theorem append_grows {e : Entry} {dies : Bool} {next : World → World × Ending}
    (grows : ∀ w, w.text <+: (next w).1.text) : w.text <+: (append campaign e dies w next).1.text := by
  rcases append_writes e dies w next with idle | ⟨line, -, died | next'⟩
  · rw [idle]
  · rw [died]
    exact List.prefix_append _ _
  · rw [next']
    exact (List.prefix_append w.text line).trans (grows { w with text := w.text ++ line })

theorem sendOnce_grows {r : Reservation} {attempt : Attempt} {again : World → World × Ending}
    (grows : ∀ w, w.text <+: (again w).1.text) (w : World) : w.text <+: (sendOnce campaign r attempt w again).1.text := by
  unfold sendOnce
  dsimp only
  split
  · exact List.prefix_rfl
  · exact List.prefix_rfl
  · next e send =>
    unfold recordError
    split
    · exact List.prefix_rfl
    · refine @append_grows _ { w with sends := w.sends ++ [r] } _ _ _ fun w' => ?_
      split
      · exact List.prefix_rfl
      · exact grows w'
  · exact @append_grows _ { w with sends := w.sends ++ [r] } _ _ _ fun _ => List.prefix_rfl

/-- The file only grows. -/
theorem attempts_grows (numbers : List Nat) (w : World) : w.text <+: (attempts campaign request env numbers w).1.text := by
  induction numbers generalizing w with
  | nil => exact List.prefix_rfl
  | cons a rest ih =>
    rw [attempts]
    split
    · exact List.prefix_rfl
    · dsimp only
      split
      · exact List.prefix_rfl
      · exact append_grows fun w' => sendOnce_grows ih w'

theorem append_idle {e : Entry} {dies : Bool} {next : World → World × Ending} (grows : ∀ w, w.text <+: (next w).1.text)
    (same : (append campaign e dies w next).1.text = w.text) : (append campaign e dies w next).1 = w := by
  have longer : ∀ line ≠ [], ¬ w.text ++ line <+: (append campaign e dies w next).1.text := by
    intro line some_ longer
    have short := longer.length_le
    rw [same, List.length_append] at short
    exact some_ (List.eq_nil_of_length_eq_zero (by omega))
  rcases append_writes e dies w next with idle | ⟨line, some_, died | next'⟩
  · exact idle
  · exact absurd (by rw [died]) (longer line some_)
  · exact absurd (by rw [next']; exact grows { w with text := w.text ++ line }) (longer line some_)

theorem attempts_idle {numbers : List Nat} (same : (attempts campaign request env numbers w).1.text = w.text) :
    (attempts campaign request env numbers w).1 = w := by
  cases numbers with
  | nil => rfl
  | cons a rest =>
    rw [attempts] at same ⊢
    split at same
    · rfl
    · dsimp only at same ⊢
      split at same
      · next full => rw [if_pos full]
      · next room =>
        rw [if_neg room]
        exact append_idle (fun w' => sendOnce_grows (attempts_grows rest) w') same

/-- **A call that writes nothing** does nothing. -/
theorem callLocked_idle {log : List Entry} (h : Valid campaign w log)
    (same : (callLocked campaign request env w).1.text = w.text) : (callLocked campaign request env w).1 = w := by
  rcases h.tale request with ⟨p, tale⟩ | ⟨other, ne, operation, some_, own⟩
  · obtain ⟨goOn, -, stay⟩ := callLocked_tale h tale env
    cases next : p.next with
    | none => exact stay next
    | some a =>
      rw [goOn a next] at same ⊢
      exact attempts_idle same
  · exact callLocked_changed h own ne operation some_ env

end Writes

/-! ## Whole runs -/

/-- The requests sent for an operation. -/
def sendsOf (operation : String) (w : World) : List Reservation :=
  w.sends.filter fun r => r.request.operation = operation

/-- No further request of the operation may be made. -/
def Frozen (operation : String) (log : List Entry) : Prop :=
  ∃ request p, request.operation = operation ∧ Tale request (recordsOf operation log) p ∧ p.next = none

/-- A frozen operation stays as it is. -/
def Stays (operation : String) (w w' : World) (log log' : List Entry) : Prop :=
  Frozen operation log → recordsOf operation log' = recordsOf operation log ∧ sendsOf operation w' = sendsOf operation w

/-- A call neither adds to a frozen operation nor sends its request. -/
theorem callLocked_stays {request : Request} {w : World} {log : List Entry} (h : Valid campaign w log)
    (env : Nat → Attempt) {operation : String} (frozen : Frozen operation log) :
    (callLocked campaign request env w).1 = w ∨ operation ≠ request.operation := by
  obtain ⟨own, p, rfl, tale, next⟩ := frozen
  by_cases same : own.operation = request.operation
  · left
    by_cases eq : own = request
    · subst eq
      exact (callLocked_tale h tale env).2.2 next
    · refine callLocked_changed h ?_ eq same ?_ env
      · rw [← same]
        exact tale.own
      · rw [← same]
        intro none_
        rw [none_] at tale
        cases tale
        cases next
  · exact .inr same

/-- **One move**: the ledger stays valid and frozen operations stay as they are. -/
theorem step_valid {w : World} {log : List Entry} (h : Valid campaign w log) {m : Move} (fits : m.Fits campaign w) :
    ∃ log', Valid campaign (step campaign w m) log' ∧ ∀ operation, Stays operation w (step campaign w m) log log' := by
  cases m with
  | unlock => exact ⟨log, h.relock false, fun _ _ => ⟨rfl, rfl⟩⟩
  | call request env =>
    rw [Move.Fits] at fits
    rcases call_world campaign request env w with same | ⟨locked, same⟩
    · rw [step, same]
      exact ⟨log, h, fun _ _ => ⟨rfl, rfl⟩⟩
    · rw [step, same]
      rw [same] at fits
      by_cases idle : (callLocked campaign request env w).1 = w
      · rw [idle]
        exact ⟨log, h.relock locked, fun _ _ => ⟨rfl, rfl⟩⟩
      · obtain ⟨id, requestFits, sendFits⟩ := fits fun unwritten => idle (callLocked_idle h unwritten)
        obtain ⟨log', valid, ⟨new, rfl, own⟩, sent, sends, ownSends⟩ := callLocked_keeps h id requestFits env sendFits
        refine ⟨log ++ new, valid.relock locked, fun operation frozen => ?_⟩
        have ne := (callLocked_stays h env frozen).resolve_left idle
        constructor
        · rw [recordsOf_append, recordsOf_other own ne, List.append_nil]
        · have none_ : (sent.filter fun r => r.request.operation = operation) = [] := by
            rw [List.filter_eq_nil_iff]
            intro r hr
            rw [ownSends r hr, decide_eq_true_eq]
            exact ne.symm
          change (List.filter _ (callLocked campaign request env w).1.sends) = _
          rw [sends, List.filter_append, none_, List.append_nil]
          rfl

/-- **Whole runs.** -/
theorem run_valid {w : World} {log : List Entry} (h : Valid campaign w log) {moves : List Move}
    (fits : Runs.Along (step campaign) (Move.Fits campaign) w moves) :
    ∃ log', Valid campaign (Runs.run (step campaign) w moves) log' ∧
      ∀ operation, Stays operation w (Runs.run (step campaign) w moves) log log' := by
  induction moves generalizing w log with
  | nil => exact ⟨log, h, fun _ _ => ⟨rfl, rfl⟩⟩
  | cons m moves ih =>
    obtain ⟨log₁, valid, stays⟩ := step_valid h fits.1
    obtain ⟨log', valid', stays'⟩ := ih valid fits.2
    refine ⟨log', valid', fun operation frozen => ?_⟩
    obtain ⟨records, sends⟩ := stays operation frozen
    have frozen₁ : Frozen operation log₁ := by
      rw [Frozen, records]
      exact frozen
    obtain ⟨records', sends'⟩ := stays' operation frozen₁
    exact ⟨records'.trans records, sends'.trans sends⟩

/-! ## The protocol -/

/-- The row is a final outcome: a completed one, or an error that is not retryable. -/
def Final (row : JsonObject) : Prop :=
  isEvent "completed" row = true ∨ (isEvent "error" row = true ∧ truthy (row.value "retryable").json = false)

/-- A row of the file rules out a further request of the operation: a final outcome, or a
reservation without an outcome. -/
def Settled (rows : List JsonObject) (operation : String) : Prop :=
  ∃ row ∈ rows, row.get? "operation" = some (.str operation) ∧
    (Final row ∨ (isEvent "reserved" row = true ∧
      ∀ other ∈ rows, isEvent "reserved" other = false → other.get? "slot" ≠ row.get? "slot"))

/-- The row is a completed outcome of the request. -/
def Completes (row : JsonObject) (request : Request) : Prop :=
  isEvent "completed" row = true ∧ row.get? "operation" = some (.str request.operation) ∧
    row.get? "run_id" = some (.str request.runId) ∧ row.get? "request_sha256" = some (.str request.requestSha256)

/-- No record of the entry is final. -/
theorem not_final {e : Entry} (going : e.mark.isCompleted = false)
    (retryable : ∀ error flag, e.mark = .error error flag → truthy flag.json = true) : ¬ Final (e.record campaign) := by
  rintro (completed | ⟨error, flag⟩)
  · rw [isEvent_completed, going] at completed
    cases completed
  · rw [isEvent_error] at error
    obtain ⟨r, m⟩ := e
    cases m with
    | error raised flag' =>
      rw [record_retryable, retryable raised flag' rfl] at flag
      cases flag
    | reserved => cases error
    | completed => cases error

/-- The rows of an operation that may go on do not settle it. -/
theorem Tale.not_settled {log : List Entry} {operation : String} {request : Request} {p : Phase}
    (tale : Tale request (recordsOf operation log) p) (next : p.next.isSome = true) :
    ¬ Settled (log.map (Entry.record campaign)) operation := by
  rintro ⟨row, hrow, op, final⟩
  obtain ⟨e, he, rfl⟩ := List.mem_map.1 hrow
  rw [record_operation, Option.some.injEq, Json.str.injEq] at op
  have mem : e ∈ recordsOf operation log := List.mem_filter.2 ⟨he, decide_eq_true op⟩
  obtain ⟨going, retryable, o, ho, same⟩ := tale.unsettled next e mem
  rcases final with final | ⟨-, alone⟩
  · exact not_final going retryable final
  · rw [outcomes, List.mem_filter, recordsOf, List.mem_filter] at ho
    refine alone (o.record campaign) (List.mem_map_of_mem ho.1.1) ?_ ?_
    · rw [isEvent_reserved]
      simpa using ho.2
    · rw [record_slot, record_slot, same]

theorem Settled.frozen {w : World} {log : List Entry} (h : Valid campaign w log) {operation : String}
    (settled : Settled (log.map (Entry.record campaign)) operation) : Frozen operation log := by
  obtain ⟨request, p, own, tale⟩ := h.tales operation
  refine ⟨request, p, own, tale, ?_⟩
  by_contra some_
  exact tale.not_settled (Option.isSome_iff_ne_none.2 some_) settled

/-- **The order of the rows** of an operation: a reservation stands where nothing settles it, and no row behind a final outcome. -/
theorem Valid.ordered {w : World} {log before after : List Entry} {e : Entry} (h : Valid campaign w log)
    (cut : log = before ++ e :: after) :
    (e.mark.isReserved = true → ¬ Settled (before.map (Entry.record campaign)) e.reservation.request.operation) ∧
      ∀ o ∈ before, o.reservation.request.operation = e.reservation.request.operation → ¬ Final (o.record campaign) := by
  obtain ⟨request, p, -, tale⟩ := h.tales e.reservation.request.operation
  have here : recordsOf e.reservation.request.operation log =
      recordsOf e.reservation.request.operation before ++ e :: recordsOf e.reservation.request.operation after := by
    rw [cut, recordsOf_append, recordsOf, recordsOf, recordsOf, List.filter_cons_of_pos]
    exact decide_eq_true rfl
  rw [here] at tale
  obtain ⟨q, earlier, place⟩ := tale.cut
  have mine {o : Entry} (ho : o ∈ before) (same : o.reservation.request.operation = e.reservation.request.operation) :
      o ∈ recordsOf e.reservation.request.operation before :=
    List.mem_filter.2 ⟨ho, decide_eq_true same⟩
  cases reserved : e.mark.isReserved with
  | true =>
    rw [reserved, if_pos rfl] at place
    refine ⟨fun _ => earlier.not_settled place, fun o ho same => ?_⟩
    obtain ⟨going, retryable, -⟩ := earlier.unsettled place o (mine ho same)
    exact not_final going retryable
  | false =>
    rw [reserved, if_neg Bool.false_ne_true] at place
    subst place
    refine ⟨nofun, fun o ho same => ?_⟩
    obtain ⟨going, retryable⟩ := earlier.retried o (mine ho same)
    exact not_final going retryable

/-- The operation and the slot of a row. -/
def place (row : JsonObject) : Option Json × Option Json :=
  (row.get? "operation", row.get? "slot")

/-- **The request ledger.** Whatever requests do and wherever the process dies, as long as the
texts of the records that are written fit their lines: the file is accepted; its slots are 1..n with n within
the limit, and the requests were sent in the order of their reserved rows, each for one of its own; a
reservation of an operation stands where no final outcome and no open reservation of it stands
before, and no row of it behind a final outcome; no operation was sent more than
twice, and one with a final outcome or without an outcome is not sent again; and a call of a
completed request returns the recorded response and changes nothing, unless it finds the lock
file a dead process left, in which case it raises and changes nothing. -/
theorem request_ledger_protocol {moves : List Move} (fits : Runs.Along (step campaign) (Move.Fits campaign) .empty moves) :
    let w := Runs.run (step campaign) .empty moves
    ∃ rows n, read campaign w.text = .ok rows ∧
      (rows.filter (isEvent "reserved")).map (fun row => row.get? "slot") =
        (List.range' 1 n).map (fun slot => some (.int slot)) ∧
      (w.sends.map fun r => (some (Json.str r.request.operation), some (Json.int r.slot))).Sublist
        ((rows.filter (isEvent "reserved")).map place) ∧
      w.sends.length ≤ n ∧ n ≤ campaign.limit ∧
      (∀ before row after, rows = before ++ row :: after → ∀ operation, row.get? "operation" = some (.str operation) →
        (isEvent "reserved" row = true → ¬ Settled before operation) ∧
        ∀ other ∈ before, other.get? "operation" = some (.str operation) → ¬ Final other) ∧
      (∀ operation, (sendsOf operation w).length ≤ 2) ∧
      ∀ more, Runs.Along (step campaign) (Move.Fits campaign) w more →
        let later := Runs.run (step campaign) w more
        (∀ operation, Settled rows operation → sendsOf operation later = sendsOf operation w) ∧
        ∀ row ∈ rows, ∀ request, Completes row request → ∀ env, ∃ response, row.get? "response" = some response ∧
          call campaign request env later = if later.locked
            then (later, .raised (campaignIncomplete "ledger is locked; inspect the previous writer before resuming"))
            else (later, .returned response) := by
  intro w
  obtain ⟨log, valid, -⟩ := run_valid Valid.empty fits
  refine ⟨_, (reservations log).length, valid.read, ?_, ?_, valid.sends.length_le, valid.orderly.limit, ?_, ?_, ?_⟩
  · rw [filter_record, List.map_map, ← valid.orderly.slots, List.map_map]
    rfl
  · rw [filter_record, List.map_map]
    exact valid.sends.map _
  · intro before row after cut operation own
    obtain ⟨front, back, rfl, rfl, tail⟩ := List.map_eq_append_iff.1 cut
    obtain ⟨e, rest, rfl, rfl, rfl⟩ := List.map_eq_cons_iff.1 tail
    rw [record_operation, Option.some.injEq, Json.str.injEq] at own
    subst own
    obtain ⟨free, open_⟩ := valid.ordered rfl
    refine ⟨fun reserved => free (by rwa [isEvent_reserved] at reserved), fun other hother same => ?_⟩
    obtain ⟨o, ho, rfl⟩ := List.mem_map.1 hother
    rw [record_operation, Option.some.injEq, Json.str.injEq] at same
    exact open_ o ho same
  · intro operation
    obtain ⟨request, p, -, tale⟩ := valid.tales operation
    calc (sendsOf operation w).length ≤ ((reservations log).filter fun r => r.request.operation = operation).length :=
          (valid.sends.filter _).length_le
      _ = (reservations (recordsOf operation log)).length := by
          rw [reservations, reservations, recordsOf, List.filter_map, List.length_map, List.length_map, List.filter_comm]
          rfl
      _ ≤ 2 := tale.two
  · intro more moreFits later
    obtain ⟨log', valid', stays⟩ := run_valid valid moreFits
    refine ⟨fun operation settled => (stays operation (settled.frozen valid)).2, ?_⟩
    rintro row hrow request ⟨completed, operation, runId, sha⟩ env
    obtain ⟨⟨r, m⟩, he, rfl⟩ := List.mem_map.1 hrow
    cases m with
    | reserved => cases completed
    | error => cases completed
    | completed response =>
      simp only [record_operation, record_runId, record_requestSha256, Option.some.injEq, Json.str.injEq] at operation runId sha
      have own : r.request = request := by
        obtain ⟨op, run, hash⟩ := request
        obtain ⟨rfl, rfl, rfl⟩ := And.intro operation (And.intro runId sha)
        rfl
      refine ⟨response.json, rfl, ?_⟩
      have mem : (⟨r, .completed response⟩ : Entry) ∈ recordsOf request.operation log :=
        List.mem_filter.2 ⟨he, decide_eq_true operation⟩
      have settled : Settled (log.map (Entry.record campaign)) request.operation :=
        ⟨_, hrow, by rw [record_operation, operation], .inl (.inl completed)⟩
      have same := (stays _ (settled.frozen valid)).1
      obtain ⟨request', p, -, tale⟩ := valid'.tales request.operation
      rw [← same] at mem
      obtain rfl : request' = request := (tale.own _ mem).symm.trans own
      have done := (tale.completed mem rfl).1
      have found := (callLocked_tale valid' tale env).2.1 response done
      exact call_found found

/-! ## Samples -/

def sampleCampaign : Campaign :=
  ⟨"campaign", 2, by decide⟩

def sampleRequest : Request :=
  ⟨"op", "run", "hash"⟩

/-- A request that returns an object with one text. -/
def sampleAnswer (text : String) (dies : Bool) : Attempt :=
  ⟨false, .returned ⟨[("content", .str text)], rfl⟩, dies⟩

/-- A first call that completes, and dies behind the record if `dies`. -/
def sampleWorld (text : String) (dies : Bool) : World :=
  step sampleCampaign .empty (.call sampleRequest fun _ => sampleAnswer text dies)

/-- The records of a first call that completes. -/
def sampleRows : List JsonObject :=
  [⟨⟨sampleRequest, 1, 1⟩, .reserved⟩, ⟨⟨sampleRequest, 1, 1⟩, .completed ⟨[("content", .str "ok")], rfl⟩⟩].map
    (Entry.record sampleCampaign)

/-- The process that dies behind a completed outcome leaves a lock file no later call gets
past, so a call with the recorded inputs raises where the response is in the file. -/
theorem response_withheld :
    read sampleCampaign (sampleWorld "ok" true).text = .ok sampleRows ∧
      (∃ row ∈ sampleRows, Completes row sampleRequest ∧ (row.get? "response").isSome = true) ∧
      ∃ e, call sampleCampaign sampleRequest (fun _ => sampleAnswer "ok" false) (sampleWorld "ok" true) =
        (sampleWorld "ok" true, .raised e) := by
  refine ⟨by decide +kernel, ?_, ?_⟩
  · refine ⟨_, List.mem_cons_of_mem _ (List.mem_singleton_self _), ⟨rfl, rfl, rfl, rfl⟩, rfl⟩
  · exact ⟨_, call_locked (by decide +kernel)⟩

/-- A response with a line separator in it leaves a file no later call can read. -/
theorem separator_unreadable : (read sampleCampaign (sampleWorld "\u2028" false).text).isOk = false := by
  decide +kernel

/-- The moves of one call that completes. -/
def sampleMoves : List Move :=
  [.call sampleRequest fun _ => sampleAnswer "ok" false]

theorem request_ledger_sample :
    ∃ rows n, read sampleCampaign (Runs.run (step sampleCampaign) .empty sampleMoves).text = .ok rows ∧
      (Runs.run (step sampleCampaign) .empty sampleMoves).sends.length ≤ n ∧ n ≤ 2 := by
  have fits : Runs.Along (step sampleCampaign) (Move.Fits sampleCampaign) .empty sampleMoves := by
    have answer : (sampleAnswer "ok" false).send.fits = true := by decide
    exact ⟨fun _ => ⟨by decide, by decide, fun _ => answer⟩, trivial⟩
  obtain ⟨rows, n, accepted, -, -, sends, within, -⟩ := request_ledger_protocol fits
  exact ⟨rows, n, accepted, sends, within⟩

end Ledger
