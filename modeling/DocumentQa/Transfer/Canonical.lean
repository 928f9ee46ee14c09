import DocumentQa.Transfer.NumberText
import DocumentQa.Lib.Json.RoundTrip
import DocumentQa.Lib.Json.Walk
import DocumentQa.Lib.Sha256
import DocumentQa.Python.Errors
import DocumentQa.Python.Json

/-!
# Canonical JSON and the portable tree

`_canonical_json` prints a value with sorted keys and ECMAScript's numbers
(`canonicalJson_eq`); `_validate_json_tree` admits a tree exactly when its size and height
are within the limits and every node passes its own check (`validateJsonTree_eq_ok`).
-/

namespace Transfer

open Python JsonText

def transferError (message : String) : PyError :=
  ⟨.workspaceTransfer, message⟩

def maxTextLength : Nat := 1000000
def maxJsonDepth : Nat := 40
def maxJsonNodes : Nat := 250000

/-- `2 ** 53 - 1`. -/
def maxSafeInteger : Nat := 9007199254740991

/-! ## Emission -/

/-- `str(value)` of an integer, `none` where it raises. -/
def strInt (i : Int) : Option (List Char) :=
  if i.natAbs < 10 ^ maxStrDigits then some (intText i) else none

/-- `sorted(value)` on emitted fields. -/
def sortTexts (fields : List (String × List Char)) : List (String × List Char) :=
  fields.insertionSort fun a b => a.1 ≤ b.1

mutual

/-- `_emit_canonical`: the parts joined, `none` where it raises. -/
def emitCanonical : Json → Option (List Char)
  | .null => some "null".toList
  | .bool true => some "true".toList
  | .bool false => some "false".toList
  | .int i => strInt i
  | .float x => jsNumberText x
  | .str s => some (quote s)
  | .arr items => (emitItems items).map fun parts => '[' :: (joined [','] parts ++ [']'])
  | .obj fields => (emitFields fields).map fun parts =>
    '{' :: (joined [','] ((sortTexts parts).map fun f => quote f.1 ++ ':' :: f.2) ++ ['}'])

def emitItems : List Json → Option (List (List Char))
  | [] => some []
  | j :: js => do
    let part ← emitCanonical j
    let parts ← emitItems js
    some (part :: parts)

def emitFields : List (String × Json) → Option (List (String × List Char))
  | [] => some []
  | (key, j) :: fs => do
    let part ← emitCanonical j
    let parts ← emitFields fs
    some ((key, part) :: parts)

end

/-- `_canonical_json`. -/
def canonicalJson (j : Json) : Option String :=
  (emitCanonical j).map String.ofList

/-- **The canonical form** is the value with sorted keys as `JSON.stringify` prints it. -/
theorem emitCanonical_eq {j : Json} (hf : j.finite = true) (hp : printable j = true) :
    emitCanonical j = some (ecmaPrinter.text j.sorted) := by
  induction j with
  | null => rfl
  | bool b => cases b <;> rfl
  | int i =>
    have small : i.natAbs < 10 ^ maxStrDigits := by simpa [printable, Json.all] using hp
    rw [emitCanonical, strInt, if_pos small]
    rfl
  | float x =>
    have finite : x.isFinite = true := hf
    rw [emitCanonical, jsNumberText_eq finite, Json.sorted]
    simp only [Json.rebuild, id, Printer.text, ecmaPrinter, stringifyNumber, finite, if_true]
  | str s => rfl
  | arr items ih =>
    rw [Json.finite_arr] at hf
    rw [printable, Json.all_arr] at hp
    have parts : ∀ js : List Json, (∀ j ∈ js, emitCanonical j = some (ecmaPrinter.text j.sorted)) →
        emitItems js = some ((js.map Json.sorted).map ecmaPrinter.text) := by
      intro js
      induction js with
      | nil => exact fun _ => rfl
      | cons j js step =>
        intro h
        have rest := step fun a ha => h a (List.mem_cons_of_mem _ ha)
        simp only [emitItems, h j (by simp), rest, Option.bind_eq_bind, Option.bind_some, List.map_cons]
    rw [emitCanonical, parts items fun j hj => ih j hj (hf j hj) (hp.2 j hj), Json.sorted_arr, Printer.text,
      Printer.textItems_eq]
    rfl
  | obj fields ih =>
    rw [Json.finite_obj] at hf
    rw [printable, Json.all_obj] at hp
    have parts : ∀ fs : List (String × Json), (∀ f ∈ fs, emitCanonical f.2 = some (ecmaPrinter.text f.2.sorted)) →
        emitFields fs = some ((fs.map fun f => (f.1, f.2.sorted)).map fun f => (f.1, ecmaPrinter.text f.2)) := by
      intro fs
      induction fs with
      | nil => exact fun _ => rfl
      | cons f fs step =>
        intro h
        have rest := step fun a ha => h a (List.mem_cons_of_mem _ ha)
        simp only [emitFields, h f (by simp), rest, Option.bind_eq_bind, Option.bind_some, List.map_cons]
    have commute : sortTexts ((fields.map fun f => (f.1, f.2.sorted)).map fun f => (f.1, ecmaPrinter.text f.2)) =
        (Json.sortFields (fields.map fun f => (f.1, f.2.sorted))).map fun f => (f.1, ecmaPrinter.text f.2) :=
      (List.map_insertionSort (fun a b : String × Json => a.1 ≤ b.1) (fun a b : String × List Char => a.1 ≤ b.1)
        (fun f : String × Json => (f.1, ecmaPrinter.text f.2)) _ fun _ _ _ _ => Iff.rfl).symm
    rw [emitCanonical, parts fields fun f hm => ih f hm (hf f hm) (hp.2 f hm), Option.map_some, commute,
      Json.sorted_obj, Printer.text, Printer.textFields_eq, List.map_map]
    have field : ((fun f : String × List Char => quote f.1 ++ ':' :: f.2) ∘ fun f : String × Json =>
        (f.1, ecmaPrinter.text f.2)) = fun f => ecmaPrinter.fieldText f.1 (ecmaPrinter.text f.2) := by
      funext f
      simp [Printer.fieldText, ecmaPrinter]
    rw [field]
    rfl

theorem canonicalJson_eq {j : Json} (hf : j.finite = true) (hp : printable j = true) :
    canonicalJson j = some (String.ofList (ecmaPrinter.text j.sorted)) := by
  rw [canonicalJson, emitCanonical_eq hf hp]
  rfl

/-! ## The portable tree -/

/-- `_SECRET_KEYS`. -/
def secretKeys : List (List Char) :=
  ["authorization", "api_key", "apikey", "password", "secret", "token", "access_token", "refresh_token",
    "local_workspace_token", "groq_api_key", "qdrant_api_key"].map String.toList

/-- `key.casefold().replace("-", "_")`. -/
def normalizedKey (key : String) : List Char :=
  (casefold key.toList).map fun c => if c = '-' then '_' else c

/-- `abs(current) > 9007199254740991` of a finite float. -/
def exceedsSafe : Double → Bool
  | .finite d =>
    if 0 ≤ d.exp then maxSafeInteger < d.sig * 10 ^ d.exp.toNat
    else maxSafeInteger * 10 ^ (-d.exp).toNat < d.sig
  | _ => false

def unsafeInteger : PyError :=
  transferError "backup contains an integer outside the safe cross-runtime range"

/-- The check of a field name. -/
def visitKey (key : String) : Except PyError Unit := do
  Checked.require (key.length ≤ 256) (transferError "backup contains an invalid JSON field")
  Checked.require (normalizedKey key ∉ secretKeys) (transferError "backup contains a credential field")

/-- The check of a scalar. -/
def visitScalar (secrets : List String) : Json → Except PyError Unit
  | .int i => Checked.require (i.natAbs ≤ maxSafeInteger) unsafeInteger
  | .float x => do
    Checked.require (x.isFinite = true) (transferError "backup JSON must contain finite numbers")
    Checked.require (exceedsSafe x = false) unsafeInteger
  | .str s => do
    Checked.require (s.length ≤ maxTextLength) (transferError "backup contains text exceeding the size limit")
    Checked.require ((secrets.any fun secret => isInfix secret.toList s.toList) = false)
      (transferError "backup contains a configured credential value")
  | _ => pure ()

/-- `_validate_json_tree` as a walk. -/
def portableTree (secrets : List String) : Json.Walk PyError :=
  ⟨visitKey, visitScalar secrets, maxJsonNodes, maxJsonDepth, transferError "backup JSON exceeds structural limits"⟩

/-- `_validate_json_tree`. -/
def validateJsonTree (secrets : List String) (j : Json) : Except PyError Unit :=
  (portableTree secrets).check j

/-- The numbers of a portable tree are finite and printed as they are. -/
theorem validateJsonTree_numbers {secrets : List String} {j : Json} (h : validateJsonTree secrets j = .ok ()) :
    j.finite = true ∧ printable j = true := by
  obtain ⟨nodes, -⟩ := Json.Walk.check_eq_ok.1 h
  constructor
  · refine Json.all_imp ?_ nodes
    intro j passes
    cases j with
    | float x =>
      have ok := Json.isOk_iff.1 passes
      simp only [portableTree, visitScalar, Checked.bind_eq_ok, Checked.require_eq_ok] at ok
      obtain ⟨-, finite, -⟩ := ok
      exact finite
    | _ => rfl
  · refine Json.all_imp ?_ nodes
    intro j passes
    cases j with
    | int i =>
      have ok := Json.isOk_iff.1 passes
      simp only [portableTree, visitScalar, Checked.require_eq_ok] at ok
      rw [decide_eq_true_eq]
      calc i.natAbs ≤ maxSafeInteger := ok
        _ < 10 ^ 16 := by decide
        _ ≤ 10 ^ maxStrDigits := Nat.pow_le_pow_right (by decide) (by decide)
    | _ => rfl

end Transfer
