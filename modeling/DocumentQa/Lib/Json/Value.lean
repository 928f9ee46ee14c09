import Mathlib.Data.List.Sort
import Mathlib.Data.String.Basic

/-!
# JSON values with separate integers and floats

The values a dynamically typed runtime decodes JSON text into: integers are exact,
floats are given by their shortest decimal digits, objects keep their fields in
insertion order. `Json.rebuild` is the one traversal all reorderings and number
conversions are instances of, and `Json.all` the one all structural checks are.
-/

namespace JsonText

/-- A finite nonzero float `± sig · 10 ^ exp`, by its shortest decimal digits. -/
structure Decimal where
  neg : Bool
  sig : Nat
  exp : Int
  normal : sig % 10 ≠ 0
deriving DecidableEq, Repr

theorem Decimal.sig_pos (d : Decimal) : 0 < d.sig := by
  have := d.normal
  omega

/-- A double, its finite nonzero values by their shortest round-trip digits. -/
inductive Double where
  | nan
  | inf (neg : Bool)
  | zero (neg : Bool)
  | finite (d : Decimal)
deriving DecidableEq, Repr

/-- `math.isfinite`. -/
def Double.isFinite : Double → Bool
  | .nan | .inf _ => false
  | .zero _ | .finite _ => true

inductive Json where
  | null
  | bool (b : Bool)
  | int (i : Int)
  | float (x : Double)
  | str (s : String)
  | arr (items : List Json)
  | obj (fields : List (String × Json))

namespace Json

/-- Induction over a value: the hypothesis holds of every item of an array and of every
field of an object. -/
@[induction_eliminator]
theorem induct {P : Json → Prop} (null : P .null) (bool : ∀ b, P (.bool b)) (int : ∀ i, P (.int i))
    (float : ∀ x, P (.float x)) (str : ∀ s, P (.str s)) (arr : ∀ items, (∀ j ∈ items, P j) → P (.arr items))
    (obj : ∀ fields, (∀ f ∈ fields, P f.2) → P (.obj fields)) : ∀ j, P j
  | .null => null
  | .bool b => bool b
  | .int i => int i
  | .float x => float x
  | .str s => str s
  | .arr items => arr items fun j _ => induct null bool int float str arr obj j
  | .obj fields => obj fields fun f _ => induct null bool int float str arr obj f.2
termination_by j => sizeOf j
decreasing_by
  · have := List.sizeOf_lt_of_mem ‹_ ∈ items›
    simp only [Json.arr.sizeOf_spec]
    omega
  · have := List.sizeOf_lt_of_mem ‹_ ∈ fields›
    have : sizeOf f = 1 + sizeOf f.1 + sizeOf f.2 := rfl
    simp only [Json.obj.sizeOf_spec]
    omega

mutual

/-- Equality of values: kinds, order of fields and float signs included. -/
def beq : Json → Json → Bool
  | .null, .null => true
  | .bool a, .bool b => a == b
  | .int a, .int b => a == b
  | .float a, .float b => a == b
  | .str a, .str b => a == b
  | .arr a, .arr b => beqItems a b
  | .obj a, .obj b => beqFields a b
  | _, _ => false

def beqItems : List Json → List Json → Bool
  | [], [] => true
  | a :: as, b :: bs => beq a b && beqItems as bs
  | _, _ => false

def beqFields : List (String × Json) → List (String × Json) → Bool
  | [], [] => true
  | (k, a) :: as, (l, b) :: bs => k == l && beq a b && beqFields as bs
  | _, _ => false

end

theorem beqItems_iff {as bs : List Json} (h : ∀ a ∈ as, ∀ b, beq a b = true ↔ a = b) :
    beqItems as bs = true ↔ as = bs := by
  induction as generalizing bs with
  | nil => cases bs <;> simp [beqItems]
  | cons a as ih =>
    cases bs with
    | nil => simp [beqItems]
    | cons b bs => simp [beqItems, h a (by simp), ih fun x hx => h x (List.mem_cons_of_mem _ hx)]

theorem beqFields_iff {as bs : List (String × Json)} (h : ∀ a ∈ as, ∀ b, beq a.2 b = true ↔ a.2 = b) :
    beqFields as bs = true ↔ as = bs := by
  induction as generalizing bs with
  | nil => cases bs <;> simp [beqFields]
  | cons a as ih =>
    cases bs with
    | nil => simp [beqFields]
    | cons b bs =>
      simp [beqFields, h a (by simp), ih fun x hx => h x (List.mem_cons_of_mem _ hx), Prod.ext_iff]

theorem beq_iff {a b : Json} : beq a b = true ↔ a = b := by
  induction a generalizing b with
  | arr items ih => cases b <;> simp [beq, beqItems_iff fun a ha b => ih a ha]
  | obj fields ih => cases b <;> simp [beq, beqFields_iff fun a ha b => ih a ha]
  | _ => cases b <;> simp [beq]

instance : DecidableEq Json := fun a b =>
  decidable_of_iff (beq a b = true) beq_iff

mutual

/-- Rebuild a value bottom up: `leaf` on the scalars, `order` on the fields of each object. -/
def rebuild (leaf : Json → Json) (order : List (String × Json) → List (String × Json)) : Json → Json
  | .arr items => .arr (rebuildItems leaf order items)
  | .obj fields => .obj (order (rebuildFields leaf order fields))
  | j => leaf j

def rebuildItems (leaf : Json → Json) (order : List (String × Json) → List (String × Json)) :
    List Json → List Json
  | [] => []
  | j :: js => rebuild leaf order j :: rebuildItems leaf order js

def rebuildFields (leaf : Json → Json) (order : List (String × Json) → List (String × Json)) :
    List (String × Json) → List (String × Json)
  | [] => []
  | (k, j) :: fs => (k, rebuild leaf order j) :: rebuildFields leaf order fs

end

section Rebuild

variable (leaf : Json → Json) (order : List (String × Json) → List (String × Json))

@[simp] theorem rebuildItems_eq (items : List Json) : rebuildItems leaf order items = items.map (rebuild leaf order) := by
  induction items with
  | nil => rfl
  | cons j js ih => simp [rebuildItems, ih]

@[simp] theorem rebuildFields_eq (fields : List (String × Json)) :
    rebuildFields leaf order fields = fields.map fun f => (f.1, rebuild leaf order f.2) := by
  induction fields with
  | nil => rfl
  | cons f fs ih => simp [rebuildFields, ih]

theorem rebuild_arr (items : List Json) : rebuild leaf order (.arr items) = .arr (items.map (rebuild leaf order)) := by
  simp [rebuild]

theorem rebuild_obj (fields : List (String × Json)) :
    rebuild leaf order (.obj fields) = .obj (order (fields.map fun f => (f.1, rebuild leaf order f.2))) := by
  simp [rebuild]

end Rebuild

mutual

/-- `p` holds of the value and of everything inside it. -/
def all (p : Json → Bool) : Json → Bool
  | .arr items => p (.arr items) && allItems p items
  | .obj fields => p (.obj fields) && allFields p fields
  | j => p j

def allItems (p : Json → Bool) : List Json → Bool
  | [] => true
  | j :: js => all p j && allItems p js

def allFields (p : Json → Bool) : List (String × Json) → Bool
  | [] => true
  | (_, j) :: fs => all p j && allFields p fs

end

section All

variable (p : Json → Bool)

@[simp] theorem allItems_iff (items : List Json) : allItems p items = true ↔ ∀ j ∈ items, all p j = true := by
  induction items with
  | nil => simp [allItems]
  | cons j js ih => simp [allItems, ih]

@[simp] theorem allFields_iff (fields : List (String × Json)) :
    allFields p fields = true ↔ ∀ f ∈ fields, all p f.2 = true := by
  induction fields with
  | nil => simp [allFields]
  | cons f fs ih => simp only [allFields, Bool.and_eq_true, ih, List.mem_cons, forall_eq_or_imp]

theorem all_arr (items : List Json) : all p (.arr items) = true ↔ p (.arr items) = true ∧ ∀ j ∈ items, all p j = true := by
  simp [all]

theorem all_obj (fields : List (String × Json)) :
    all p (.obj fields) = true ↔ p (.obj fields) = true ∧ ∀ f ∈ fields, all p f.2 = true := by
  simp only [all, Bool.and_eq_true, allFields_iff]

theorem all_self {p : Json → Bool} {j : Json} (h : all p j = true) : p j = true := by
  cases j <;> simp_all [all]

theorem all_imp {p q : Json → Bool} (hpq : ∀ j, p j = true → q j = true) {j : Json} (h : all p j = true) :
    all q j = true := by
  induction j with
  | arr items ih =>
    obtain ⟨own, inner⟩ := (all_arr p items).1 h
    exact (all_arr q items).2 ⟨hpq _ own, fun j hj => ih j hj (inner j hj)⟩
  | obj fields ih =>
    obtain ⟨own, inner⟩ := (all_obj p fields).1 h
    exact (all_obj q fields).2 ⟨hpq _ own, fun f hf => ih f hf (inner f hf)⟩
  | _ => exact hpq _ (all_self h)

end All

/-- A check that reads kinds and keys only holds of a rebuilt value when the rebuilt
leaves pass it and the reordering keeps it. -/
theorem all_rebuild {p q : Json → Bool} {leaf : Json → Json} {order : List (String × Json) → List (String × Json)}
    (hleaf : ∀ j, p j = true → (∀ xs, j ≠ .arr xs) → (∀ fs, j ≠ .obj fs) → all q (leaf j) = true)
    (harr : ∀ items, p (.arr items) = true → q (.arr (items.map (rebuild leaf order))) = true)
    (hobj : ∀ fields, p (.obj fields) = true →
      q (.obj (order (fields.map fun f => (f.1, rebuild leaf order f.2)))) = true)
    (hmem : ∀ fs f, f ∈ order fs → f ∈ fs) {j : Json} (h : all p j = true) :
    all q (rebuild leaf order j) = true := by
  induction j with
  | arr items ih =>
    obtain ⟨hp, hs⟩ := (all_arr p items).1 h
    rw [rebuild_arr, all_arr]
    refine ⟨harr items hp, ?_⟩
    intro j hj
    obtain ⟨a, ha, rfl⟩ := List.mem_map.1 hj
    exact ih a ha (hs a ha)
  | obj fields ih =>
    obtain ⟨hp, hs⟩ := (all_obj p fields).1 h
    rw [rebuild_obj, all_obj]
    refine ⟨hobj fields hp, ?_⟩
    intro f hf
    obtain ⟨a, ha, rfl⟩ := List.mem_map.1 (hmem _ f hf)
    exact ih a ha (hs a ha)
  | _ => exact hleaf _ (all_self h) (by simp) (by simp)

mutual

/-- How many values are inside, the value itself included. -/
def size : Json → Nat
  | .arr items => sizeItems items + 1
  | .obj fields => sizeFields fields + 1
  | _ => 1

def sizeItems : List Json → Nat
  | [] => 0
  | j :: js => size j + sizeItems js

def sizeFields : List (String × Json) → Nat
  | [] => 0
  | (_, j) :: fs => size j + sizeFields fs

end

mutual

/-- How deep values are nested: a scalar or an empty container has height zero. -/
def height : Json → Nat
  | .arr items => heightItems items
  | .obj fields => heightFields fields
  | _ => 0

/-- One more than the height of the highest item, zero without items. -/
def heightItems : List Json → Nat
  | [] => 0
  | j :: js => max (height j + 1) (heightItems js)

def heightFields : List (String × Json) → Nat
  | [] => 0
  | (_, j) :: fs => max (height j + 1) (heightFields fs)

end

/-! ## Fields -/

/-- `d.get(key)` on the fields of an object. -/
def lookup (key : String) : List (String × Json) → Option Json
  | [] => none
  | (k, j) :: fs => if k = key then some j else lookup key fs

theorem lookup_eq_none {key : String} {fields : List (String × Json)} :
    lookup key fields = none ↔ key ∉ fields.map Prod.fst := by
  induction fields with
  | nil => simp [lookup]
  | cons f fs ih =>
    obtain ⟨k, j⟩ := f
    by_cases hk : k = key
    · simp [lookup, hk]
    · simp [lookup, hk, ih, Ne.symm hk]

theorem lookup_mem {key : String} {fields : List (String × Json)} {j : Json} (h : lookup key fields = some j) :
    (key, j) ∈ fields := by
  induction fields with
  | nil => simp [lookup] at h
  | cons f fs ih =>
    obtain ⟨k, x⟩ := f
    by_cases hk : k = key
    · simp only [lookup, hk, if_true, Option.some.injEq] at h
      simp [hk, h]
    · simp only [lookup, hk, if_false] at h
      exact List.mem_cons_of_mem _ (ih h)

theorem lookup_of_mem {key : String} {fields : List (String × Json)} {j : Json}
    (distinct : (fields.map Prod.fst).Nodup) (h : (key, j) ∈ fields) : lookup key fields = some j := by
  induction fields with
  | nil => cases h
  | cons f fs ih =>
    obtain ⟨k, x⟩ := f
    simp only [List.map_cons, List.nodup_cons] at distinct
    rcases List.mem_cons.1 h with hk | hk
    · cases hk
      simp [lookup]
    · have ne : k ≠ key := by
        rintro rfl
        exact distinct.1 (List.mem_map_of_mem hk)
      simp [lookup, ne, ih distinct.2 hk]

/-- Looking a key up reads the same value in any order of distinct keys. -/
theorem lookup_perm {key : String} {as bs : List (String × Json)} (distinct : (as.map Prod.fst).Nodup)
    (h : as.Perm bs) : lookup key as = lookup key bs := by
  have distinct' : (bs.map Prod.fst).Nodup := (h.map _).nodup_iff.1 distinct
  cases hb : lookup key bs with
  | none =>
    rw [lookup_eq_none] at hb ⊢
    exact fun hm => hb ((h.map _).mem_iff.1 hm)
  | some j => exact lookup_of_mem distinct (h.mem_iff.2 (lookup_mem hb))

theorem lookup_map {key : String} {fields : List (String × Json)} (g : Json → Json) :
    lookup key (fields.map fun f => (f.1, g f.2)) = (lookup key fields).map g := by
  induction fields with
  | nil => rfl
  | cons f fs ih =>
    obtain ⟨k, x⟩ := f
    by_cases hk : k = key
    · simp [lookup, hk]
    · simpa [lookup, hk] using ih

/-- `d[key] = value`: an existing key keeps its place. -/
def setField (key : String) (value : Json) : List (String × Json) → List (String × Json)
  | [] => [(key, value)]
  | (k, j) :: fs => if k = key then (key, value) :: fs else (k, j) :: setField key value fs

/-- The object a decoder builds from pairs: a repeated key keeps its first place and its last value. -/
def ofPairs (pairs : List (String × Json)) : List (String × Json) :=
  pairs.foldl (fun fs f => setField f.1 f.2 fs) []

theorem setField_fresh {key : String} {value : Json} {fields : List (String × Json)}
    (h : key ∉ fields.map Prod.fst) : setField key value fields = fields ++ [(key, value)] := by
  induction fields with
  | nil => rfl
  | cons f fs ih =>
    obtain ⟨k, j⟩ := f
    simp only [List.map_cons, List.mem_cons, not_or] at h
    simp [setField, Ne.symm h.1, ih h.2]

theorem ofPairs_distinct {pairs : List (String × Json)} (h : (pairs.map Prod.fst).Nodup) : ofPairs pairs = pairs := by
  have go : ∀ (rest done : List (String × Json)), ((done ++ rest).map Prod.fst).Nodup →
      rest.foldl (fun fs f => setField f.1 f.2 fs) done = done ++ rest := by
    intro rest
    induction rest with
    | nil => simp
    | cons f fs ih =>
      intro done distinct
      have fresh : f.1 ∉ done.map Prod.fst := by
        simp only [List.map_append, List.map_cons, List.nodup_append, List.mem_cons] at distinct
        exact fun hm => distinct.2.2 _ hm _ (.inl rfl) rfl
      rw [List.foldl_cons, setField_fresh fresh, ih (done ++ [f]) (by simpa using distinct)]
      simp
  exact (go pairs [] (by simpa using h)).trans (List.nil_append _)

/-- The keys of every object are distinct, as in any decoded object. -/
def distinctKeys : Json → Bool :=
  all fun
    | .obj fields => decide (fields.map Prod.fst).Nodup
    | _ => true

/-- Every float is finite. -/
def finite : Json → Bool :=
  all fun
    | .float x => x.isFinite
    | _ => true

@[simp] theorem distinctKeys_arr (items : List Json) :
    distinctKeys (.arr items) = true ↔ ∀ j ∈ items, distinctKeys j = true := by
  simp [distinctKeys, all_arr]

@[simp] theorem distinctKeys_obj (fields : List (String × Json)) :
    distinctKeys (.obj fields) = true ↔ (fields.map Prod.fst).Nodup ∧ ∀ f ∈ fields, distinctKeys f.2 = true := by
  simp [distinctKeys, all_obj]

@[simp] theorem finite_arr (items : List Json) : finite (.arr items) = true ↔ ∀ j ∈ items, finite j = true := by
  simp [finite, all_arr]

@[simp] theorem finite_obj (fields : List (String × Json)) :
    finite (.obj fields) = true ↔ ∀ f ∈ fields, finite f.2 = true := by
  simp [finite, all_obj]

@[simp] theorem finite_float (x : Double) : finite (.float x) = x.isFinite :=
  rfl

/-! ## Sorting keys -/

/-- `sorted(d)`: the fields in code point order of their keys. -/
def sortFields (fields : List (String × Json)) : List (String × Json) :=
  fields.insertionSort fun a b => a.1 ≤ b.1

theorem sortFields_perm (fields : List (String × Json)) : (sortFields fields).Perm fields :=
  List.perm_insertionSort _ fields

@[simp] theorem mem_sortFields {f : String × Json} {fields : List (String × Json)} : f ∈ sortFields fields ↔ f ∈ fields :=
  (sortFields_perm fields).mem_iff

theorem sortFields_sorted (fields : List (String × Json)) : (sortFields fields).Pairwise fun a b => a.1 ≤ b.1 := by
  have : Std.Total fun a b : String × Json => a.1 ≤ b.1 := ⟨fun a b => le_total a.1 b.1⟩
  have : IsTrans (String × Json) fun a b => a.1 ≤ b.1 := ⟨fun _ _ _ => le_trans⟩
  exact List.pairwise_insertionSort _ fields

theorem sortFields_map (g : Json → Json) (fields : List (String × Json)) :
    sortFields (fields.map fun f => (f.1, g f.2)) = (sortFields fields).map fun f => (f.1, g f.2) :=
  (List.map_insertionSort (fun a b : String × Json => a.1 ≤ b.1) (fun a b : String × Json => a.1 ≤ b.1)
    (fun f : String × Json => (f.1, g f.2)) fields fun _ _ _ _ => Iff.rfl).symm

/-- Sorted fields with distinct keys are determined by what they contain. -/
theorem sortFields_congr {as bs : List (String × Json)} (distinct : (as.map Prod.fst).Nodup) (h : as.Perm bs) :
    sortFields as = sortFields bs := by
  have strict : ∀ {fs : List (String × Json)}, (fs.map Prod.fst).Nodup →
      (sortFields fs).Pairwise fun a b => a.1 < b.1 := by
    intro fs hd
    have nodup : ((sortFields fs).map Prod.fst).Nodup := ((sortFields_perm fs).map _).nodup_iff.2 hd
    exact ((sortFields_sorted fs).and (List.pairwise_map.1 nodup)).imp fun hab => lt_of_le_of_ne hab.1 hab.2
  have distinct' : (bs.map Prod.fst).Nodup := (h.map _).nodup_iff.1 distinct
  have same : (sortFields as).Perm (sortFields bs) := (sortFields_perm as).trans (h.trans (sortFields_perm bs).symm)
  refine same.eq_of_pairwise ?_ (strict distinct) (strict distinct')
  intro a b _ _ hab hba
  exact absurd hba (lt_asymm hab)

/-- The value with the keys of every object sorted. -/
def sorted (j : Json) : Json :=
  j.rebuild id sortFields

theorem sorted_arr (items : List Json) : (Json.arr items).sorted = .arr (items.map sorted) :=
  rebuild_arr _ _ _

theorem sorted_obj (fields : List (String × Json)) :
    (Json.obj fields).sorted = .obj (sortFields (fields.map fun f => (f.1, f.2.sorted))) :=
  rebuild_obj _ _ _

/-- The keys after rebuilding the values of an object and sorting it are the keys before. -/
theorem sortFields_keys (g : Json → Json) (fields : List (String × Json)) :
    ((sortFields (fields.map fun f => (f.1, g f.2))).map Prod.fst).Perm (fields.map Prod.fst) := by
  refine ((sortFields_perm _).map _).trans ?_
  simp only [List.map_map, Function.comp_def]
  exact .refl _

/-- A check of leaves and of the keys of objects, whatever their order, holds of the
sorted value exactly when it holds of the value. -/
theorem all_sorted_iff {p : Json → Bool} (harr : ∀ items items', p (.arr items) = p (.arr items'))
    (hobj : ∀ fields fields', (fields.map Prod.fst).Perm (fields'.map Prod.fst) → p (.obj fields) = p (.obj fields'))
    {j : Json} : all p j.sorted = true ↔ all p j = true := by
  induction j with
  | arr items ih =>
    rw [sorted_arr, all_arr, all_arr, harr _ items]
    refine and_congr_right fun _ => ?_
    simp only [List.mem_map, forall_exists_index, and_imp, forall_apply_eq_imp_iff₂]
    exact forall₂_congr ih
  | obj fields ih =>
    rw [sorted_obj, all_obj, all_obj, hobj _ fields (sortFields_keys _ fields)]
    refine and_congr_right fun _ => ?_
    simp only [mem_sortFields, List.mem_map, forall_exists_index, and_imp, forall_apply_eq_imp_iff₂]
    exact forall₂_congr ih
  | _ => rfl

theorem all_sorted {p : Json → Bool} (harr : ∀ items items', p (.arr items) = p (.arr items'))
    (hobj : ∀ fields fields', (fields.map Prod.fst).Perm (fields'.map Prod.fst) → p (.obj fields) = p (.obj fields'))
    {j : Json} (h : all p j = true) : all p j.sorted = true :=
  (all_sorted_iff harr hobj).2 h

theorem sorted_distinctKeys {j : Json} (h : j.distinctKeys = true) : j.sorted.distinctKeys = true := by
  refine all_sorted (fun _ _ => rfl) ?_ h
  intro fields fields' hp
  simp [hp.nodup_iff]

theorem sorted_finite {j : Json} (h : j.finite = true) : j.sorted.finite = true :=
  all_sorted (fun _ _ => rfl) (fun _ _ _ => rfl) h

/-- Sorting what is sorted changes nothing. -/
theorem sortFields_of_sorted {fields : List (String × Json)} (h : fields.Pairwise fun a b => a.1 ≤ b.1) :
    sortFields fields = fields := by
  have : Std.Total fun a b : String × Json => a.1 ≤ b.1 := ⟨fun a b => le_total a.1 b.1⟩
  have : IsTrans (String × Json) fun a b => a.1 ≤ b.1 := ⟨fun _ _ _ => le_trans⟩
  exact h.insertionSort_eq

/-- Every object lists its keys in strictly ascending order. -/
def orderly : Json → Bool :=
  all fun
    | .obj fields => decide ((fields.map Prod.fst).Pairwise (· < ·))
    | _ => true

@[simp] theorem orderly_arr (items : List Json) : orderly (.arr items) = true ↔ ∀ j ∈ items, orderly j = true := by
  simp [orderly, all_arr]

@[simp] theorem orderly_obj (fields : List (String × Json)) :
    orderly (.obj fields) = true ↔ (fields.map Prod.fst).Pairwise (· < ·) ∧ ∀ f ∈ fields, orderly f.2 = true := by
  simp [orderly, all_obj]

theorem orderly_distinctKeys {j : Json} (h : j.orderly = true) : j.distinctKeys = true := by
  refine all_imp ?_ h
  intro j own
  cases j with
  | obj fields =>
    rw [decide_eq_true_eq] at own ⊢
    exact own.imp ne_of_lt
  | _ => rfl

/-- Sorting the keys of an orderly value changes nothing. -/
theorem sorted_of_orderly {j : Json} (h : j.orderly = true) : j.sorted = j := by
  induction j with
  | arr items ih =>
    rw [orderly_arr] at h
    rw [sorted_arr]
    congr 1
    exact (List.map_congr_left fun j hj => ih j hj (h j hj)).trans (List.map_id _)
  | obj fields ih =>
    rw [orderly_obj] at h
    have same : (fields.map fun f => (f.1, f.2.sorted)) = fields := by
      refine (List.map_congr_left ?_).trans (List.map_id _)
      intro f hf
      rw [ih f hf (h.2 f hf)]
      rfl
    have ascending : fields.Pairwise fun a b => a.1 ≤ b.1 := (List.pairwise_map.1 h.1).imp le_of_lt
    rw [sorted_obj, same, sortFields_of_sorted ascending]
  | _ => rfl

end Json

end JsonText
