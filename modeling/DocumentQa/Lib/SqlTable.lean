import Mathlib.Data.List.Basic
import Mathlib.Data.List.Pairwise

/-!
# Tables with uniqueness constraints

A table is a list of rows in insertion order whose declared constraints hold: no two
rows clash on the columns the primary key and the unique indexes read. The constraint
is a field of the table, so a table that violates one cannot be built; `INSERT` answers
`none` where the engine raises an integrity error, and `UPDATE` takes a proof that it
leaves the constrained columns alone.
-/

namespace SqlTable

/-- The columns that the uniqueness constraints of `ρ` read, and when two of them clash. -/
class Row (ρ : Type) where
  Identity : Type
  identity : ρ → Identity
  clash : Identity → Identity → Bool
  clash_comm : ∀ a b, clash a b = clash b a

variable {ρ : Type} [Row ρ]

/-- Two rows that may not be in one table together. -/
def clashes (a b : ρ) : Bool :=
  Row.clash (Row.identity a) (Row.identity b)

theorem clashes_comm (a b : ρ) : clashes a b = clashes b a :=
  Row.clash_comm _ _

variable (ρ) in
/-- The rows of a table, none clashing with another. -/
structure Table where
  rows : List ρ
  lawful : rows.Pairwise fun a b => clashes a b = false

namespace Table

/-- The table a `CREATE TABLE` leaves. -/
def empty : Table ρ :=
  ⟨[], .nil⟩

/-- `INSERT`: `none` is an integrity error. -/
def insert? (t : Table ρ) (r : ρ) : Option (Table ρ) :=
  if h : t.rows.any (clashes r) = true then none
  else some ⟨t.rows ++ [r], by
    refine List.pairwise_append.2 ⟨t.lawful, List.pairwise_singleton _ _, ?_⟩
    intro a ha b hb
    obtain rfl := List.mem_singleton.1 hb
    rw [clashes_comm]
    simpa using fun hc => h (List.any_eq_true.2 ⟨a, ha, hc⟩)⟩

/-- `UPDATE`: apply `f` to the rows `p` selects. -/
def update (t : Table ρ) (p : ρ → Bool) (f : ρ → ρ) (keep : ∀ r, Row.identity (f r) = Row.identity r) :
    Table ρ :=
  ⟨t.rows.map fun r => if p r then f r else r, by
    refine List.pairwise_map.2 (t.lawful.imp ?_)
    intro a b h
    have same : ∀ r : ρ, Row.identity (if p r then f r else r) = Row.identity r := by
      intro r
      split
      · exact keep r
      · rfl
    simpa only [clashes, same] using h⟩

/-- `DELETE` of the rows `p` selects. -/
def delete (t : Table ρ) (p : ρ → Bool) : Table ρ :=
  ⟨t.rows.filter fun r => !p r, t.lawful.filter _⟩

/-- `INSERT ... ON CONFLICT DO UPDATE`: rewrite the clashing row by `f`, or insert `r`. -/
def upsert (t : Table ρ) (r : ρ) (f : ρ → ρ) (keep : ∀ r, Row.identity (f r) = Row.identity r) : Table ρ :=
  match t.insert? r with
  | some t' => t'
  | none => t.update (clashes r) f keep

/-- `SELECT` of the first row that `p` accepts. -/
def find? (t : Table ρ) (p : ρ → Bool) : Option ρ :=
  t.rows.find? p

/-- `SELECT` of every row that `p` accepts. -/
def select (t : Table ρ) (p : ρ → Bool) : List ρ :=
  t.rows.filter p

@[simp] theorem rows_empty : (empty : Table ρ).rows = [] :=
  rfl

@[simp] theorem rows_update (t : Table ρ) (p : ρ → Bool) (f : ρ → ρ) (keep) :
    (t.update p f keep).rows = t.rows.map fun r => if p r then f r else r :=
  rfl

@[simp] theorem rows_delete (t : Table ρ) (p : ρ → Bool) : (t.delete p).rows = t.rows.filter fun r => !p r :=
  rfl

theorem insert?_eq_some {t t' : Table ρ} {r : ρ} :
    t.insert? r = some t' ↔ (∀ a ∈ t.rows, clashes r a = false) ∧ t'.rows = t.rows ++ [r] := by
  unfold insert?
  split
  · next h =>
    obtain ⟨a, ha, hc⟩ := List.any_eq_true.1 h
    simp only [reduceCtorEq, false_iff, not_and]
    intro none_
    rw [none_ a ha] at hc
    cases hc
  · next h =>
    have free : ∀ a ∈ t.rows, clashes r a = false := by
      intro a ha
      simpa using fun hc => h (List.any_eq_true.2 ⟨a, ha, hc⟩)
    constructor
    · rintro ⟨⟩
      exact ⟨free, rfl⟩
    · rintro ⟨-, hr⟩
      cases t'
      simp only at hr
      subst hr
      rfl

theorem insert?_rows {t t' : Table ρ} {r : ρ} (h : t.insert? r = some t') : t'.rows = t.rows ++ [r] :=
  (insert?_eq_some.1 h).2

theorem find?_mem {t : Table ρ} {p : ρ → Bool} {r : ρ} (h : t.find? p = some r) : r ∈ t.rows :=
  List.mem_of_find?_eq_some h

theorem find?_holds {t : Table ρ} {p : ρ → Bool} {r : ρ} (h : t.find? p = some r) : p r = true :=
  List.find?_some h

theorem find?_eq_none {t : Table ρ} {p : ρ → Bool} : t.find? p = none ↔ ∀ r ∈ t.rows, p r = false := by
  simp [find?]

/-- Two clashing rows of one table are one row. -/
theorem eq_of_clashes {t : Table ρ} {a b : ρ} (ha : a ∈ t.rows) (hb : b ∈ t.rows) (hc : clashes a b = true) :
    a = b := by
  have : Std.Symm fun a b : ρ => clashes a b = false := ⟨fun a b h => by rwa [clashes_comm]⟩
  by_contra ne
  rw [t.lawful.forall ha hb ne] at hc
  cases hc

/-- When `p` accepts only rows that clash with each other, a row it accepts is the one found. -/
theorem find?_eq_some_of_mem {t : Table ρ} {p : ρ → Bool} {r : ρ} (hr : r ∈ t.rows) (hp : p r = true)
    (one : ∀ a b, p a = true → p b = true → clashes a b = true) : t.find? p = some r := by
  cases h : t.find? p with
  | none => exact absurd hp (by simp [find?_eq_none.1 h r hr])
  | some a => rw [eq_of_clashes (find?_mem h) hr (one a r (find?_holds h) hp)]

theorem mem_update {t : Table ρ} {p : ρ → Bool} {f : ρ → ρ} {keep} {r : ρ} :
    r ∈ (t.update p f keep).rows ↔ ∃ a ∈ t.rows, (if p a then f a else a) = r := by
  simp

theorem mem_delete {t : Table ρ} {p : ρ → Bool} {r : ρ} : r ∈ (t.delete p).rows ↔ r ∈ t.rows ∧ p r = false := by
  simp

/-- An upsert leaves the inserted row, or the clashing row rewritten, and every other row. -/
theorem mem_upsert {t : Table ρ} {r x : ρ} {f : ρ → ρ} {keep} :
    x ∈ (t.upsert r f keep).rows ↔
      (x ∈ t.rows ∧ clashes r x = false) ∨ ((∀ a ∈ t.rows, clashes r a = false) ∧ x = r) ∨
        ∃ a ∈ t.rows, clashes r a = true ∧ x = f a := by
  unfold upsert
  cases h : t.insert? r with
  | some t' =>
    obtain ⟨free, hr⟩ := insert?_eq_some.1 h
    simp only [hr, List.mem_append, List.mem_singleton]
    constructor
    · rintro (hx | rfl)
      · exact .inl ⟨hx, free x hx⟩
      · exact .inr (.inl ⟨free, rfl⟩)
    · rintro (⟨hx, -⟩ | ⟨-, rfl⟩ | ⟨a, ha, hc, -⟩)
      · exact .inl hx
      · exact .inr rfl
      · rw [free a ha] at hc
        cases hc
  | none =>
    have taken : ∃ a ∈ t.rows, clashes r a = true := by
      by_contra none_
      have free : ∀ a ∈ t.rows, clashes r a = false := by
        intro a ha
        simpa using fun hc => none_ ⟨a, ha, hc⟩
      have some_ : ∃ t', t.insert? r = some t' := by
        unfold insert?
        split
        · next hany =>
          obtain ⟨a, ha, hc⟩ := List.any_eq_true.1 hany
          rw [free a ha] at hc
          cases hc
        · exact ⟨_, rfl⟩
      obtain ⟨t', ht⟩ := some_
      rw [h] at ht
      cases ht
    simp only [rows_update, List.mem_map]
    constructor
    · rintro ⟨a, ha, rfl⟩
      by_cases hc : clashes r a = true
      · exact .inr (.inr ⟨a, ha, hc, by simp [hc]⟩)
      · have hc' : clashes r a = false := by simpa using hc
        exact .inl (by simp [hc', ha])
    · rintro (⟨hx, hc⟩ | ⟨free, rfl⟩ | ⟨a, ha, hc, rfl⟩)
      · exact ⟨x, hx, by simp [hc]⟩
      · obtain ⟨a, ha, hc⟩ := taken
        rw [free a ha] at hc
        cases hc
      · exact ⟨a, ha, by simp [hc]⟩

end Table

end SqlTable
