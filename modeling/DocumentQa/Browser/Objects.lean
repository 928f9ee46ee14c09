import DocumentQa.Lib.Json.RoundTrip

/-!
# ECMAScript objects

A value of the browser is a `Json` whose numbers are floats; an object is the list of its
own properties in the order they were created. Enumeration does not follow that order:
the array indices come first, by number (`ownEntries`). Assignment adds or replaces a
property, except that `__proto__` goes to the setter on `Object.prototype` and leaves the
own properties as they are (`assign`).
-/

namespace Browser

open JsonText

/-- A value as `JSON.parse` reads it: an integer in the safe range is the number itself. -/
def jsNumber : Json → Json
  | .int i => .float (.ofInt i)
  | j => j

def jsValue (j : Json) : Json :=
  j.rebuild jsNumber id

/-- The number of a property name that is an array index. -/
def arrayIndex? (key : String) : Option Nat :=
  let n := Nat.ofDigitChars 10 key.toList 0
  if key.toList = natText n ∧ n < 4294967295 then some n else none

def isIndex (f : String × Json) : Bool :=
  (arrayIndex? f.1).isSome

def indexOf (f : String × Json) : Nat :=
  (arrayIndex? f.1).getD 0

/-- The own properties in the order of enumeration: the array indices ascending, then the
other names in the order of their creation. -/
def ownEntries (fields : List (String × Json)) : List (String × Json) :=
  (fields.filter isIndex).insertionSort (fun a b => indexOf a ≤ indexOf b) ++ fields.filter fun f => !isIndex f

/-- `result[key] = value`. -/
def assign (result : List (String × Json)) (key : String) (value : Json) : List (String × Json) :=
  if key = "__proto__" then result else Json.setField key value result

/-- `JSON.stringify`. -/
def stringify (j : Json) : List Char :=
  ecmaPrinter.text (j.rebuild id ownEntries)

/-! ## Enumeration -/

/-- No name is enumerated before one that `a` comes before: `a` is an index whenever `b`
is one, and not a larger one. -/
def enumeratesBefore (a b : String) : Bool :=
  match arrayIndex? a, arrayIndex? b with
  | _, none => true
  | none, some _ => false
  | some m, some n => m ≤ n

theorem ownEntries_perm (fields : List (String × Json)) : (ownEntries fields).Perm fields := by
  refine ((List.perm_insertionSort _ _).append_right _).trans ?_
  exact List.filter_append_perm _ _

theorem ownEntries_map (g : Json → Json) (fields : List (String × Json)) :
    ownEntries (fields.map fun f => (f.1, g f.2)) = (ownEntries fields).map fun f => (f.1, g f.2) := by
  unfold ownEntries
  rw [List.map_append, List.filter_map, List.filter_map]
  congr 1
  exact (List.map_insertionSort (fun a b : String × Json => indexOf a ≤ indexOf b)
    (fun a b : String × Json => indexOf a ≤ indexOf b) (fun f : String × Json => (f.1, g f.2))
    (fields.filter isIndex) fun _ _ _ _ => Iff.rfl).symm

theorem enumeratesBefore_index {a b : String × Json} (ha : isIndex a = true) (hb : isIndex b = true) :
    enumeratesBefore a.1 b.1 = true ↔ indexOf a ≤ indexOf b := by
  obtain ⟨m, hm⟩ := Option.isSome_iff_exists.1 ha
  obtain ⟨n, hn⟩ := Option.isSome_iff_exists.1 hb
  simp [enumeratesBefore, indexOf, hm, hn]

theorem enumeratesBefore_name {a b : String × Json} (hb : isIndex b = false) : enumeratesBefore a.1 b.1 = true := by
  have none_ : arrayIndex? b.1 = none := Option.isSome_eq_false_iff.1 hb |> Option.isNone_iff_eq_none.1
  unfold enumeratesBefore
  rw [none_]

theorem not_enumeratesBefore {a b : String × Json} (ha : isIndex a = false) (hb : isIndex b = true) :
    enumeratesBefore a.1 b.1 = false := by
  have none_ : arrayIndex? a.1 = none := Option.isSome_eq_false_iff.1 ha |> Option.isNone_iff_eq_none.1
  obtain ⟨n, hn⟩ := Option.isSome_iff_exists.1 hb
  simp [enumeratesBefore, none_, hn]

/-- Enumerated properties are in the order of enumeration. -/
theorem ownEntries_ordered (fields : List (String × Json)) :
    (ownEntries fields).Pairwise fun a b => enumeratesBefore a.1 b.1 = true := by
  have : Std.Total fun a b : String × Json => indexOf a ≤ indexOf b := ⟨fun a b => le_total (indexOf a) (indexOf b)⟩
  have : IsTrans (String × Json) fun a b => indexOf a ≤ indexOf b := ⟨fun _ _ _ => le_trans⟩
  have indices : ∀ f ∈ (fields.filter isIndex).insertionSort fun a b => indexOf a ≤ indexOf b, isIndex f = true := by
    intro f hf
    exact (List.mem_filter.1 ((List.perm_insertionSort _ _).mem_iff.1 hf)).2
  have names : ∀ f ∈ fields.filter fun f => !isIndex f, isIndex f = false := by
    intro f hf
    simpa using (List.mem_filter.1 hf).2
  rw [ownEntries, List.pairwise_append]
  refine ⟨?_, ?_, fun a _ b hb => enumeratesBefore_name (names b hb)⟩
  · refine (List.pairwise_insertionSort (fun a b : String × Json => indexOf a ≤ indexOf b) _).imp_of_mem ?_
    intro a b ha hb le
    exact (enumeratesBefore_index (indices a ha) (indices b hb)).2 le
  · exact List.pairwise_of_forall_mem_list fun a _ b hb => enumeratesBefore_name (names b hb)

/-- Properties in the order of enumeration are enumerated as they are. -/
theorem ownEntries_of_ordered {fields : List (String × Json)}
    (h : fields.Pairwise fun a b => enumeratesBefore a.1 b.1 = true) : ownEntries fields = fields := by
  have : Std.Total fun a b : String × Json => indexOf a ≤ indexOf b := ⟨fun a b => le_total (indexOf a) (indexOf b)⟩
  have : IsTrans (String × Json) fun a b => indexOf a ≤ indexOf b := ⟨fun _ _ _ => le_trans⟩
  have indices : (fields.filter isIndex).Pairwise fun a b => indexOf a ≤ indexOf b := by
    refine (h.filter isIndex).imp_of_mem ?_
    intro a b ha hb before
    exact (enumeratesBefore_index (List.mem_filter.1 ha).2 (List.mem_filter.1 hb).2).1 before
  rw [ownEntries, indices.insertionSort_eq]
  clear indices
  induction fields with
  | nil => rfl
  | cons f fs ih =>
    obtain ⟨first, rest⟩ := List.pairwise_cons.1 h
    cases hf : isIndex f with
    | true =>
      rw [List.filter_cons_of_pos hf, List.filter_cons_of_neg (by simp [hf]), List.cons_append, ih rest]
    | false =>
      have names : ∀ g ∈ fs, isIndex g = false := by
        intro g hg
        by_contra index
        have before := first g hg
        rw [not_enumeratesBefore hf (by simpa using index)] at before
        cases before
      have noIndex : (f :: fs).filter isIndex = [] := by
        rw [List.filter_eq_nil_iff]
        simpa [hf] using names
      have all : (f :: fs).filter (fun f => !isIndex f) = f :: fs := by
        rw [List.filter_eq_self]
        simpa [hf] using names
      rw [noIndex, all, List.nil_append]

end Browser
