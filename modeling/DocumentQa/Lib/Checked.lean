import Mathlib.Algebra.BigOperators.Group.List.Lemmas
import Mathlib.Data.List.Dedup
import Mathlib.Data.List.Forall2
import Mathlib.Data.List.Perm.Basic
import Mathlib.Data.List.Sort
import Mathlib.Data.List.TakeWhile
import Mathlib.Data.Rat.Floor
import Mathlib.Data.String.Basic

/-!
# Computations that may raise

A function of the source that may raise is a value of `Except ε`. A call returns
exactly when each of its parts does (`bind_eq_ok`), a guard exactly when its test
holds (`require_eq_ok`), and a loop over a list exactly when every round does
(`each_eq_ok`, `collect_eq_ok`). A transaction commits what a body returns and
keeps the old state when the body raises.
-/

namespace Checked

variable {ε α β σ : Type}

@[simp] theorem bind_eq_ok {x : Except ε α} {f : α → Except ε β} {b : β} :
    (x >>= f) = .ok b ↔ ∃ a, x = .ok a ∧ f a = .ok b := by
  cases x <;> simp [bind, Except.bind]

@[simp] theorem pure_eq_ok {a b : α} : (pure a : Except ε α) = .ok b ↔ a = b := by
  simp [pure, Except.pure]

@[simp] theorem throw_ne_ok {e : ε} {a : α} : (throw e : Except ε α) = .ok a ↔ False := by
  simp [throw, throwThe, MonadExceptOf.throw]

@[simp] theorem map_eq_ok {x : Except ε α} {f : α → β} {b : β} :
    (f <$> x) = .ok b ↔ ∃ a, x = .ok a ∧ f a = b := by
  cases x <;> simp [Functor.map, Except.map]

@[simp] theorem ok_bind (a : α) (f : α → Except ε β) : ((Except.ok a : Except ε α) >>= f) = f a :=
  rfl

@[simp] theorem error_bind (e : ε) (f : α → Except ε β) :
    ((Except.error e : Except ε α) >>= f) = .error e :=
  rfl

/-- Raise `e` unless `c` holds. -/
def require (c : Prop) [Decidable c] (e : ε) : Except ε Unit :=
  if c then .ok () else .error e

@[simp] theorem require_eq_ok {c : Prop} [Decidable c] {e : ε} {u : Unit} :
    require c e = .ok u ↔ c := by
  unfold require
  split <;> simp_all

/-- Turn an absent value into the exception `e`. -/
def orRaise (x : Option α) (e : ε) : Except ε α :=
  match x with
  | some a => .ok a
  | none => .error e

@[simp] theorem orRaise_eq_ok {x : Option α} {e : ε} {a : α} : orRaise x e = .ok a ↔ x = some a := by
  cases x <;> simp [orRaise]

/-- Run a check on every element, in order. -/
def each (f : α → Except ε Unit) : List α → Except ε Unit
  | [] => .ok ()
  | a :: as => do
    f a
    each f as

@[simp] theorem each_eq_ok {f : α → Except ε Unit} {as : List α} {u : Unit} :
    each f as = .ok u ↔ ∀ a ∈ as, f a = .ok () := by
  induction as with
  | nil => simp [each]
  | cons a as ih =>
    simp only [each, bind_eq_ok, ih, List.mem_cons, forall_eq_or_imp]
    constructor
    · rintro ⟨_, h, hs⟩
      exact ⟨h, hs⟩
    · rintro ⟨h, hs⟩
      exact ⟨(), h, hs⟩

theorem bind_eq_error {x : Except ε α} {f : α → Except ε β} {e : ε} :
    (x >>= f) = .error e ↔ x = .error e ∨ ∃ a, x = .ok a ∧ f a = .error e := by
  cases x <;> simp [bind, Except.bind]

theorem require_eq_error {c : Prop} [Decidable c] {e e' : ε} : require c e = .error e' ↔ ¬c ∧ e = e' := by
  unfold require
  split <;> simp_all

theorem orRaise_eq_error {x : Option α} {e e' : ε} : orRaise x e = .error e' ↔ x = none ∧ e = e' := by
  cases x <;> simp [orRaise]

/-- Where a loop raises, one of its rounds does. -/
theorem each_eq_error {f : α → Except ε Unit} {as : List α} {e : ε} (h : each f as = .error e) :
    ∃ a ∈ as, f a = .error e := by
  induction as with
  | nil => cases h
  | cons a as ih =>
    rw [each, bind_eq_error] at h
    rcases h with raised | ⟨_, -, raised⟩
    · exact ⟨a, List.mem_cons_self, raised⟩
    · obtain ⟨b, mem, raised⟩ := ih raised
      exact ⟨b, List.mem_cons_of_mem _ mem, raised⟩

/-- Compute a result for every element, in order. -/
def collect (f : α → Except ε β) : List α → Except ε (List β)
  | [] => .ok []
  | a :: as => do
    let b ← f a
    let bs ← collect f as
    pure (b :: bs)

theorem collect_eq_ok {f : α → Except ε β} {as : List α} {bs : List β} :
    collect f as = .ok bs ↔ List.Forall₂ (fun a b => f a = .ok b) as bs := by
  induction as generalizing bs with
  | nil => cases bs <;> simp [collect]
  | cons a as ih =>
    cases bs with
    | nil => simp [collect]
    | cons b bs => simp [collect, ih]

/-- A function that returns `g a` where `P a` holds, and raises elsewhere, over a list. -/
theorem collect_partial {f : α → Except ε β} {P : α → Prop} {g : α → β} (each : ∀ a b, f a = .ok b ↔ P a ∧ g a = b)
    {as : List α} {bs : List β} : collect f as = .ok bs ↔ (∀ a ∈ as, P a) ∧ as.map g = bs := by
  induction as generalizing bs with
  | nil => simp [collect, eq_comm]
  | cons a as ih =>
    simp only [collect, bind_eq_ok, pure_eq_ok, each, ih, List.forall_mem_cons, List.map_cons]
    constructor
    · rintro ⟨_, ⟨first, rfl⟩, _, ⟨others, rfl⟩, rfl⟩
      exact ⟨⟨first, others⟩, rfl⟩
    · rintro ⟨⟨first, others⟩, rfl⟩
      exact ⟨_, ⟨first, rfl⟩, _, ⟨others, rfl⟩, rfl⟩

/-- Every element has its result among the results. -/
theorem collect_mem {f : α → Except ε β} {as : List α} {bs : List β} (h : collect f as = .ok bs) {a : α}
    (ha : a ∈ as) : ∃ b ∈ bs, f a = .ok b := by
  induction collect_eq_ok.1 h with
  | nil => cases ha
  | cons hb _ ih =>
    rename_i bs' _
    rcases List.mem_cons.1 ha with rfl | ha
    · exact ⟨_, by simp, hb⟩
    · obtain ⟨b, hmem, e⟩ := ih (collect_eq_ok.2 ‹_›) ha
      exact ⟨b, List.mem_cons_of_mem _ hmem, e⟩

/-- An element of a related list is related to one of the other. -/
theorem forall₂_source {R : α → β → Prop} {as : List α} {bs : List β} (h : List.Forall₂ R as bs) {b : β} (hb : b ∈ bs) :
    ∃ a ∈ as, R a b := by
  induction h with
  | nil => cases hb
  | cons head _ ih =>
    rcases List.mem_cons.1 hb with rfl | later
    · exact ⟨_, by simp, head⟩
    · obtain ⟨a, mem, related⟩ := ih later
      exact ⟨a, List.mem_cons_of_mem _ mem, related⟩

/-- Every result of a collection comes from an element. -/
theorem collect_source {f : α → Except ε β} {as : List α} {bs : List β} (h : collect f as = .ok bs) {b : β}
    (hb : b ∈ bs) : ∃ a ∈ as, f a = .ok b :=
  forall₂_source (collect_eq_ok.1 h) hb

/-- A collection whose every element has a result has one. -/
theorem collect_exists {f : α → Except ε β} {as : List α} (each : ∀ a ∈ as, ∃ b, f a = .ok b) :
    ∃ bs, collect f as = .ok bs := by
  induction as with
  | nil => exact ⟨[], rfl⟩
  | cons a as ih =>
    obtain ⟨b, hb⟩ := each a (by simp)
    obtain ⟨bs, hbs⟩ := ih fun a' mem => each a' (List.mem_cons_of_mem _ mem)
    refine ⟨b :: bs, ?_⟩
    rw [collect, hb, hbs]
    rfl

/-- The results of the elements in another order are the results in another order. -/
theorem collect_perm {f : α → Except ε β} {as as' : List α} {bs : List β} (same : as.Perm as')
    (h : collect f as = .ok bs) : ∃ bs', collect f as' = .ok bs' ∧ bs.Perm bs' := by
  obtain ⟨bs', related, perm⟩ := List.perm_comp_forall₂ same.symm (collect_eq_ok.1 h)
  exact ⟨bs', collect_eq_ok.2 related, perm.symm⟩

/-- A collection whose every result has a counterpart collects the counterparts. -/
theorem collect_map {f : α → Except ε β} {g : α → Except ε γ} {k : β → γ} {as : List α} {bs : List β}
    (h : collect f as = .ok bs) (each : ∀ a ∈ as, ∀ b, f a = .ok b → g a = .ok (k b)) : collect g as = .ok (bs.map k) := by
  rw [collect_eq_ok] at h ⊢
  induction h with
  | nil => exact .nil
  | cons one _ ih =>
    exact .cons (each _ (List.mem_cons_self ..) _ one) (ih fun a mem => each a (List.mem_cons_of_mem _ mem))

/-- What is computed from two lists side by side, seen from the second. -/
theorem collect_beside {f : β → α → Except ε γ} {as : List α} {bs : List β} {cs : List γ} (length : as.length = bs.length)
    (h : collect (fun pair => f pair.2 pair.1) (as.zip bs) = .ok cs) :
    List.Forall₂ (fun b c => ∃ a ∈ as, f b a = .ok c) bs cs := by
  induction bs generalizing as cs with
  | nil =>
    obtain rfl := List.eq_nil_of_length_eq_zero length
    cases h
    exact .nil
  | cons b bs ih =>
    cases as with
    | nil => cases length
    | cons a as =>
      simp only [List.zip_cons_cons, collect, bind_eq_ok, pure_eq_ok] at h
      obtain ⟨c, one, cs', rest, rfl⟩ := h
      refine .cons ⟨a, List.mem_cons_self .., one⟩ ((ih (Nat.succ.inj length) rest).imp ?_)
      rintro b c ⟨a', mem, read⟩
      exact ⟨a', List.mem_cons_of_mem _ mem, read⟩

/-- Pairing each element with its value collects the pairs. -/
theorem collect_zip {f : α → Except ε (α × β)} {as : List α} {bs : List β} (length : as.length = bs.length)
    (each : ∀ a b, (a, b) ∈ as.zip bs → f a = .ok (a, b)) : collect f as = .ok (as.zip bs) := by
  induction as generalizing bs with
  | nil => rfl
  | cons a as ih =>
    cases bs with
    | nil => cases length
    | cons b bs =>
      rw [List.zip_cons_cons, collect, each a b (by simp), ih (Nat.succ.inj length)]
      · rfl
      · intro a' b' mem
        exact each a' b' (List.mem_cons_of_mem _ mem)

/-! ## Options -/

theorem mapM_eq_some {f : α → Option β} {as : List α} {bs : List β} :
    as.mapM f = some bs ↔ List.Forall₂ (fun a b => f a = some b) as bs := by
  induction as generalizing bs with
  | nil => cases bs <;> simp
  | cons a as ih =>
    rw [List.mapM_cons, Option.bind_eq_bind, Option.bind_eq_some_iff]
    constructor
    · rintro ⟨b, first, h⟩
      rw [Option.bind_eq_bind, Option.bind_eq_some_iff] at h
      obtain ⟨rest, others, h⟩ := h
      cases h
      exact .cons first (ih.1 others)
    · intro h
      cases h with
      | cons first others =>
        refine ⟨_, first, ?_⟩
        rw [ih.2 others]
        rfl

/-- A list whose every element has a value has a list of values. -/
theorem mapM_exists {f : α → Option β} {as : List α} (each : ∀ a ∈ as, ∃ b, f a = some b) : ∃ bs, as.mapM f = some bs := by
  induction as with
  | nil => exact ⟨[], rfl⟩
  | cons a as ih =>
    obtain ⟨b, first⟩ := each a List.mem_cons_self
    obtain ⟨bs, rest⟩ := ih fun a mem => each a (List.mem_cons_of_mem _ mem)
    refine ⟨b :: bs, ?_⟩
    rw [List.mapM_cons, first, rest]
    rfl

/-- Related lists have the same image when related elements have. -/
theorem map_of_forall₂ {R : α → β → Prop} {g : α → γ} {k : β → γ} {as : List α} {bs : List β} (h : List.Forall₂ R as bs)
    (same : ∀ a b, R a b → k b = g a) : bs.map k = as.map g := by
  induction h with
  | nil => rfl
  | cons head _ ih => rw [List.map_cons, List.map_cons, same _ _ head, ih]

/-- The state after a transaction: the body's state when it returns, else the old one. -/
def commit (body : Except ε (σ × α)) (old : σ) : σ :=
  match body with
  | .ok (new, _) => new
  | .error _ => old

@[simp] theorem commit_ok (new old : σ) (a : α) : commit (ε := ε) (.ok (new, a)) old = new :=
  rfl

@[simp] theorem commit_error (e : ε) (old : σ) : commit (α := α) (.error e) old = old :=
  rfl

/-- A transaction either commits a returned state or changes nothing. -/
theorem commit_cases (body : Except ε (σ × α)) (old : σ) :
    (∃ new a, body = .ok (new, a) ∧ commit body old = new) ∨ commit body old = old := by
  cases body with
  | ok r => exact .inl ⟨r.1, r.2, rfl, rfl⟩
  | error e => exact .inr rfl

/-- A check that evaluates to success has a value. -/
theorem exists_ok {ε α : Type} {x : Except ε α} (h : x.isOk = true) : ∃ a, x = .ok a := by
  cases x with
  | ok a => exact ⟨a, rfl⟩
  | error e => cases h

end Checked
