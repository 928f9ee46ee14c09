import DocumentQa.Lib.Checked
import DocumentQa.Lib.Runs

/-!
# Interleaved programs

A program of one actor is a tree of atomic steps over a shared state. A step rewrites the state;
how the actor goes on depends on the state it found and on an answer from outside. Actors are
interleaved in any order, and any of them can stop for good at any point.

A `Protocol` names what holds in every state and, for each actor, what the steps of the others
do not take back. A program is `Safe` when its own steps keep to the protocol, whatever the
others did since its last step. Programs that are safe alone are safe together
(`Pool.run_inv`).
-/

namespace Interleaving

/-- What an actor has left to do: return, raise, or one more atomic step. -/
inductive Program (σ α ε β : Type) where
  | done (b : β)
  | fail (e : ε)
  | step (effect : σ → α → σ) (next : σ → α → Program σ α ε β)

namespace Program

variable {σ α ε ε' β γ : Type}

def bind (k : β → Program σ α ε γ) : Program σ α ε β → Program σ α ε γ
  | done b => k b
  | fail e => fail e
  | step effect next => step effect fun s a => bind k (next s a)

/-- Go on with `h` where the program raises. -/
def handle (h : ε → Program σ α ε' β) : Program σ α ε β → Program σ α ε' β
  | done b => done b
  | fail e => h e
  | step effect next => step effect fun s a => handle h (next s a)

instance : Monad (Program σ α ε) where
  pure := done
  bind p k := bind k p

/-- Go on with the outcome of a computation that may raise. -/
def ofExcept : Except ε β → Program σ α ε β
  | .ok b => done b
  | .error e => fail e

/-- One transaction: it commits what `f` leaves or, where `f` raises, nothing. -/
def transact (f : α → σ → Except ε (σ × β)) : Program σ α ε β :=
  step (fun s a => Checked.commit (f a s) s) fun s a => ofExcept ((f a s).map Prod.snd)

/-- One atomic look at the state and at the answer. -/
def look (f : α → σ → Except ε β) : Program σ α ε β :=
  step (fun s _ => s) fun s a => ofExcept (f a s)

/-- A loop over the items that hands a value from round to round. -/
def fold (f : γ → β → Program σ α ε γ) : γ → List β → Program σ α ε γ
  | c, [] => done c
  | c, b :: bs => bind (fun c => fold f c bs) (f c b)

end Program

/-- What holds in every state, and what no step of another actor takes back from an actor. -/
structure Protocol (σ κ : Type) where
  inv : σ → Prop
  rely : κ → σ → σ → Prop
  refl : ∀ k s, rely k s s
  trans : ∀ k s t u, rely k s t → rely k t u → rely k s u

section Safe

variable {σ α ε ε' β γ κ : Type} (P : Protocol σ κ) (k : κ)

/-- From `s` on, the state its last step left, the program of the actor `k` keeps to the
protocol; what it returns satisfies `Q` and what it raises satisfies `E`. -/
def Safe (Q : σ → β → Prop) (E : σ → ε → Prop) : Program σ α ε β → σ → Prop
  | .done b, s => Q s b
  | .fail e, s => E s e
  | .step effect next, s => ∀ t a, P.inv t → P.rely k s t →
    P.inv (effect t a) ∧ (∀ j, j ≠ k → P.rely j t (effect t a)) ∧ Safe Q E (next t a) (effect t a)

variable {P k} {Q Q' : σ → β → Prop} {E E' : σ → ε → Prop}

theorem Safe.mono (returns : ∀ s b, Q s b → Q' s b) (raises : ∀ s e, E s e → E' s e) {p : Program σ α ε β} {s : σ}
    (h : Safe P k Q E p s) : Safe P k Q' E' p s := by
  induction p generalizing s with
  | done b => exact returns s b h
  | fail e => exact raises s e h
  | step effect next ih =>
    intro t a inv since
    obtain ⟨kept, others, rest⟩ := h t a inv since
    exact ⟨kept, others, ih t a rest⟩

/-- **Sequencing**: what the first part returns is what the second starts from. -/
theorem Safe.bind {f : β → Program σ α ε γ} {Q' : σ → γ → Prop} {p : Program σ α ε β} {s : σ}
    (h : Safe P k (fun s b => Safe P k Q' E (f b) s) E p s) : Safe P k Q' E (p.bind f) s := by
  induction p generalizing s with
  | done b => exact h
  | fail e => exact h
  | step effect next ih =>
    intro t a inv since
    obtain ⟨kept, others, rest⟩ := h t a inv since
    exact ⟨kept, others, ih t a rest⟩

/-- **Catching**: what the program raises is what the handler starts from. -/
theorem Safe.handle {h : ε → Program σ α ε' β} {E' : σ → ε' → Prop} {p : Program σ α ε β} {s : σ}
    (safe : Safe P k Q (fun s e => Safe P k Q E' (h e) s) p s) : Safe P k Q E' (p.handle h) s := by
  induction p generalizing s with
  | done b => exact safe
  | fail e => exact safe
  | step effect next ih =>
    intro t a inv since
    obtain ⟨kept, others, rest⟩ := safe t a inv since
    exact ⟨kept, others, ih t a rest⟩

theorem Safe.ofExcept {x : Except ε β} {s : σ} (returns : ∀ b, x = .ok b → Q s b) (raises : ∀ e, x = .error e → E s e) :
    Safe P k Q E (.ofExcept x : Program σ α ε β) s := by
  cases x with
  | ok b => exact returns b rfl
  | error e => exact raises e rfl

/-- **One transaction**: a commit keeps to the protocol, and a rollback leaves what was found. -/
theorem Safe.transact {f : α → σ → Except ε (σ × β)} {s : σ}
    (commits : ∀ t a t' b, P.inv t → P.rely k s t → f a t = .ok (t', b) →
      P.inv t' ∧ (∀ j, j ≠ k → P.rely j t t') ∧ Q t' b)
    (raises : ∀ t a e, P.inv t → P.rely k s t → f a t = .error e → E t e) : Safe P k Q E (.transact f) s := by
  intro t a inv since
  show P.inv (Checked.commit (f a t) t) ∧ (∀ j, j ≠ k → P.rely j t (Checked.commit (f a t) t)) ∧
    Safe P k Q E (.ofExcept ((f a t).map Prod.snd)) (Checked.commit (f a t) t)
  cases outcome : f a t with
  | ok result =>
    obtain ⟨t', b⟩ := result
    exact commits t a t' b inv since outcome
  | error e => exact ⟨inv, fun j _ => P.refl j t, raises t a e inv since outcome⟩

theorem Safe.look {f : α → σ → Except ε β} {s : σ}
    (returns : ∀ t a b, P.inv t → P.rely k s t → f a t = .ok b → Q t b)
    (raises : ∀ t a e, P.inv t → P.rely k s t → f a t = .error e → E t e) : Safe P k Q E (.look f) s := by
  intro t a inv since
  exact ⟨inv, fun j _ => P.refl j t, .ofExcept (fun b => returns t a b inv since) fun e => raises t a e inv since⟩

/-- **Loops**: what holds before an item and is left by its round holds in the end. -/
theorem Safe.fold {f : γ → β → Program σ α ε γ} {J : List β → γ → σ → Prop}
    (round : ∀ b bs c s, J (b :: bs) c s → Safe P k (fun s c => J bs c s) E (f c b) s) {bs : List β} {c : γ} {s : σ}
    (start : J bs c s) : Safe P k (fun s c => J [] c s) E (.fold f c bs) s := by
  induction bs generalizing c s with
  | nil => exact start
  | cons b bs ih =>
    apply Safe.bind
    exact (round b bs c s start).mono (fun _ _ => ih) fun _ _ => id

/-- **Frames**: what neither the others nor a step of its own takes back still holds in the end. -/
theorem Safe.frame {F : σ → Prop} (others : ∀ s t, P.rely k s t → F s → F t)
    (own : ∀ s t, (∀ j, j ≠ k → P.rely j s t) → F s → F t) {p : Program σ α ε β} {s : σ} (h : Safe P k Q E p s)
    (start : F s) : Safe P k (fun s b => Q s b ∧ F s) E p s := by
  induction p generalizing s with
  | done b => exact ⟨h, start⟩
  | fail e => exact h
  | step effect next ih =>
    intro t a inv since
    obtain ⟨kept, guarantee, rest⟩ := h t a inv since
    exact ⟨kept, guarantee, ih t a rest (own t _ guarantee (others s t since start))⟩

end Safe

/-! ## Actors together -/

/-- A state and what each actor has left to do. -/
structure Pool (σ α ε κ : Type) where
  state : σ
  actor : κ → Program σ α ε Unit

/-- What happens in a pool: an actor is started on a request, takes its next step, or stops. -/
inductive PoolEvent (α κ ρ : Type) where
  | start (k : κ) (request : ρ)
  | turn (k : κ) (answer : α)
  | stop (k : κ)

namespace Pool

variable {σ α ε κ ρ : Type}

/-- No actor has anything to do. -/
def idle (s : σ) : Pool σ α ε κ :=
  ⟨s, fun _ => .done ()⟩

/-- Whatever happens to a program in the end. -/
def Safely (P : Protocol σ κ) (k : κ) (p : Program σ α ε Unit) (s : σ) : Prop :=
  Safe P k (fun _ _ => True) (fun _ _ => True) p s

/-- The state is good, and what each actor has left is safe since its last step. -/
structure Sound (P : Protocol σ κ) (p : Pool σ α ε κ) : Prop where
  inv : P.inv p.state
  safe : ∀ k, ∃ s, P.rely k s p.state ∧ Safely P k (p.actor k) s

variable {P : Protocol σ κ} {p : Pool σ α ε κ}

theorem Sound.idle {s : σ} (inv : P.inv s) : Sound P (idle s : Pool σ α ε κ) :=
  ⟨inv, fun k => ⟨s, P.refl k s, trivial⟩⟩

variable [DecidableEq κ]

def set (p : Pool σ α ε κ) (k : κ) (program : Program σ α ε Unit) : Pool σ α ε κ :=
  { p with actor := fun j => if j = k then program else p.actor j }

@[simp] theorem set_own (p : Pool σ α ε κ) (k : κ) (program : Program σ α ε Unit) : (p.set k program).actor k = program :=
  if_pos rfl

@[simp] theorem set_other (p : Pool σ α ε κ) {k j : κ} (other : j ≠ k) (program : Program σ α ε Unit) :
    (p.set k program).actor j = p.actor j :=
  if_neg other

/-- One step of the actor's program. -/
def advance (p : Pool σ α ε κ) (k : κ) (answer : α) : Program σ α ε Unit → Pool σ α ε κ
  | .done _ => p
  | .fail _ => p
  | .step effect next => { p.set k (next p.state answer) with state := effect p.state answer }

/-- One event; a request is served by `program`. -/
def act (program : κ → ρ → Program σ α ε Unit) (p : Pool σ α ε κ) : PoolEvent α κ ρ → Pool σ α ε κ
  | .start k request => p.set k (program k request)
  | .turn k answer => p.advance k answer (p.actor k)
  | .stop k => p.set k (.done ())

theorem Sound.set (h : Sound P p) {k : κ} {program : Program σ α ε Unit} (safe : Safely P k program p.state) :
    Sound P (p.set k program) := by
  refine ⟨h.inv, fun j => ?_⟩
  by_cases own : j = k
  · subst own
    rw [set_own]
    exact ⟨p.state, P.refl j p.state, safe⟩
  · rw [set_other p own]
    exact h.safe j

/-- **A turn** keeps the pool sound: the actor was safe, and the others lose nothing. -/
theorem Sound.turn (h : Sound P p) (k : κ) (answer : α) : Sound P (p.advance k answer (p.actor k)) := by
  obtain ⟨s, since, safe⟩ := h.safe k
  cases left : p.actor k with
  | done b => exact h
  | fail e => exact h
  | step effect next =>
    rw [left] at safe
    obtain ⟨kept, others, rest⟩ := safe p.state answer h.inv since
    refine ⟨kept, fun j => ?_⟩
    by_cases own : j = k
    · subst own
      refine ⟨effect p.state answer, P.refl j _, ?_⟩
      show Safely P j ((p.set j (next p.state answer)).actor j) _
      rw [set_own]
      exact rest
    · obtain ⟨s', since', safe'⟩ := h.safe j
      refine ⟨s', P.trans j _ _ _ since' (others j own), ?_⟩
      show Safely P j ((p.set k (next p.state answer)).actor j) _
      rw [set_other p own]
      exact safe'

variable {program : κ → ρ → Program σ α ε Unit}

theorem act_sound (served : ∀ k request s, P.inv s → Safely P k (program k request) s) (h : Sound P p)
    (event : PoolEvent α κ ρ) : Sound P (act program p event) := by
  cases event with
  | start k request => exact h.set (served k request p.state h.inv)
  | turn k answer => exact h.turn k answer
  | stop k => exact h.set trivial

/-- **Safe alone, safe together**: the invariant holds after any events. -/
theorem run_inv (served : ∀ k request s, P.inv s → Safely P k (program k request) s) {s : σ} (start : P.inv s)
    (events : List (PoolEvent α κ ρ)) : P.inv (Runs.run (act program) (idle s) events).state := by
  have reaches : Runs.Reaches (act program) (idle s) (Runs.run (act program) (idle s) events) := ⟨events, rfl⟩
  exact (reaches.invariant (Sound.idle start) fun _ event h => act_sound served h event).inv

end Pool

end Interleaving
