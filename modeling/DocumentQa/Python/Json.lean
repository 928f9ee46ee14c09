import DocumentQa.Lib.Json.RoundTrip
import DocumentQa.Python.Text

/-!
# The `json` module

`dumps` with sorted keys and compact separators, `loads`, and the objects that pass
through them. A stored object text decodes to the object with sorted keys
(`loads_dumps`), and serialising that again yields the same text (`dumps_sorted`).
-/

namespace Python

open JsonText

/-- Integers longer than this have no text: `sys.get_int_max_str_digits()`. -/
def maxStrDigits : Nat :=
  4300

/-- Every integer inside has a text. -/
def printable : Json → Bool :=
  Json.all fun
    | .int i => i.natAbs < 10 ^ maxStrDigits
    | _ => true

/-- `json.dumps(value, ensure_ascii=False, sort_keys=True, separators=(",", ":"))`,
`none` where it raises. -/
def dumps (j : Json) : Option String :=
  if printable j then some (String.ofList (pythonPrinter.text j.sorted)) else none

/-- The same with `allow_nan=False`. -/
def dumpsFinite (j : Json) : Option String :=
  if j.finite then dumps j else none

/-- `json.loads(text)`, `none` where it raises. -/
def loads (text : String) : Option Json :=
  match JsonText.loads text.toList with
  | some j => if printable j then some j else none
  | none => none

theorem sorted_printable {j : Json} (h : printable j = true) : printable j.sorted = true :=
  Json.all_sorted (fun _ _ => rfl) (fun _ _ _ => rfl) h

theorem loads_distinctKeys {text : String} {j : Json} (h : loads text = some j) : j.distinctKeys = true := by
  unfold loads at h
  split at h
  · next v hv =>
    split at h
    · cases h
      exact JsonText.loads_distinctKeys hv
    · cases h
  · cases h

theorem dumpsFinite_eq_some {j : Json} {text : String} :
    dumpsFinite j = some text ↔
      j.finite = true ∧ printable j = true ∧ text = String.ofList (pythonPrinter.text j.sorted) := by
  unfold dumpsFinite dumps
  split
  · next hf =>
    split
    · next hp => simp [hf, hp, eq_comm]
    · next hp => simp [hp]
  · next hf => simp [hf]

/-- **A stored text decodes to its value**, with sorted keys. -/
theorem loads_dumps {j : Json} {text : String} (hk : j.distinctKeys = true) (h : dumpsFinite j = some text) :
    loads text = some j.sorted := by
  obtain ⟨hf, hp, rfl⟩ := dumpsFinite_eq_some.1 h
  have back := loads_python (Json.sorted_distinctKeys hk) (Json.sorted_finite hf)
  simp only [loads, String.toList_ofList, back, sorted_printable hp, if_true]

/-- `dict` with `str` keys and JSON values. -/
structure JsonObject where
  fields : List (String × Json)
  distinct : (Json.obj fields).distinctKeys = true
deriving DecidableEq

namespace JsonObject

theorem distinct_nil : (Json.obj []).distinctKeys = true := by decide

def json (o : JsonObject) : Json :=
  .obj o.fields

/-- `d.get(key)`. -/
def get? (o : JsonObject) (key : String) : Option Json :=
  Json.lookup key o.fields

/-- `set(d)`. -/
def keys (o : JsonObject) : List String :=
  o.fields.map Prod.fst

/-- The object with sorted keys. -/
def sorted (o : JsonObject) : JsonObject where
  fields := Json.sortFields (o.fields.map fun f => (f.1, f.2.sorted))
  distinct := by
    have := Json.sorted_distinctKeys o.distinct
    rwa [Json.sorted_obj] at this

theorem json_sorted (o : JsonObject) : o.sorted.json = o.json.sorted :=
  (Json.sorted_obj _).symm

theorem json_injective {a b : JsonObject} (h : a.json = b.json) : a = b := by
  cases a
  cases b
  cases h
  rfl

end JsonObject

/-- `json.loads(text)` when it is an object. -/
def loadsObject (text : String) : Option JsonObject :=
  match h : loads text with
  | some (.obj fields) => some ⟨fields, loads_distinctKeys h⟩
  | _ => none

theorem loadsObject_eq_some {text : String} {o : JsonObject} :
    loadsObject text = some o ↔ loads text = some o.json := by
  unfold loadsObject
  split
  · next fields h =>
    constructor
    · rintro ⟨⟩
      exact h
    · intro e
      have same : Json.obj fields = o.json := Option.some.inj (h.symm.trans e)
      cases o
      cases same
      rfl
  · next h =>
    simp only [reduceCtorEq, false_iff]
    exact fun e => h _ e

theorem loadsObject_dumps {o : JsonObject} {text : String} (h : dumpsFinite o.json = some text) :
    loadsObject text = some o.sorted := by
  rw [loadsObject_eq_some, loads_dumps o.distinct h, JsonObject.json_sorted]
  rfl

/-- A JSON value of Python: every `dict` inside has distinct keys. -/
structure JsonValue where
  json : Json
  distinct : json.distinctKeys = true
deriving DecidableEq

/-- The value when it is a `dict`. -/
def JsonValue.object? (v : JsonValue) : Option JsonObject :=
  match v with
  | ⟨.obj fields, h⟩ => some ⟨fields, h⟩
  | _ => none

theorem JsonValue.object?_eq_some {v : JsonValue} {o : JsonObject} : v.object? = some o ↔ v.json = o.json := by
  unfold JsonValue.object?
  split
  · next fields h =>
    constructor
    · rintro ⟨⟩
      rfl
    · intro e
      cases o
      cases e
      rfl
  · next h =>
    simp only [reduceCtorEq, false_iff]
    intro e
    obtain ⟨j, distinct⟩ := v
    simp only at e
    subst e
    exact h _ distinct rfl

/-- `d.get(key)` as a value, `None` when the key is missing. -/
def JsonObject.value (o : JsonObject) (key : String) : JsonValue :=
  ⟨(o.get? key).getD .null, by
    cases h : o.get? key with
    | none => rfl
    | some j => exact ((Json.distinctKeys_obj _).1 o.distinct).2 _ (Json.lookup_mem h)⟩

/-- The items of the value when it is a `list`. -/
def JsonValue.items? (v : JsonValue) : Option (List JsonValue) :=
  match v with
  | ⟨.arr items, h⟩ => some (items.attach.map fun j => ⟨j.1, (Json.distinctKeys_arr _).1 h j.1 j.2⟩)
  | _ => none

theorem JsonValue.items?_eq_some {v : JsonValue} {vs : List JsonValue} :
    v.items? = some vs ↔ v.json = .arr (vs.map JsonValue.json) := by
  unfold JsonValue.items?
  split
  · next items h =>
    rw [Option.some.injEq, Json.arr.injEq]
    constructor
    · rintro rfl
      rw [List.map_map]
      exact (List.attach_map_subtype_val items).symm
    · rintro rfl
      refine List.ext_getElem (by simp) ?_
      intro k _ _
      simp
  · next h =>
    simp only [reduceCtorEq, false_iff]
    intro e
    obtain ⟨j, distinct⟩ := v
    simp only at e
    subst e
    exact h _ distinct rfl

/-! ## Values as Python sees them -/

/-- `value == n` for an integer `n` that a float holds exactly. -/
def equalsInt (n : Int) : Json → Bool
  | .int i => i = n
  | .bool b => (if b then 1 else 0) = n
  | .float (.zero _) => n = 0
  | .float (.finite d) => 0 ≤ d.exp && (if d.neg then -1 else 1) * (d.sig * 10 ^ d.exp.toNat : Nat) = n
  | _ => false

/-- `d.get(key) == n`. -/
def JsonObject.holdsInt (o : JsonObject) (key : String) (n : Int) : Bool :=
  match o.get? key with
  | some j => equalsInt n j
  | none => false

/-- `isinstance(d.get(key), str)`. -/
def JsonObject.holdsText (o : JsonObject) (key : String) : Bool :=
  match o.get? key with
  | some (.str _) => true
  | _ => false

/-- `bool(value)`. -/
def truthy : Json → Bool
  | .null | .bool false | .float (.zero _) => false
  | .int i => i ≠ 0
  | .str s => s ≠ ""
  | .arr items => !items.isEmpty
  | .obj fields => !fields.isEmpty
  | _ => true

/-- `value or default`. -/
def orElse (value : Option Json) (default : Json) : Json :=
  match value with
  | some j => if truthy j then j else default
  | none => default

/-- The characters of `repr` of a string between its quotes, given which characters are
printable. -/
def reprChar (isPrintable : Char → Bool) (mark c : Char) : List Char :=
  if c = mark ∨ c = '\\' then ['\\', c]
  else if c = '\n' then ['\\', 'n']
  else if c = '\r' then ['\\', 'r']
  else if c = '\t' then ['\\', 't']
  else if isPrintable c then [c]
  else
    let hex := fun (width : Nat) => (List.range width).reverse.map fun k => hexDigit ((c.toNat >>> (4 * k)) % 16)
    if c.toNat < 0x100 then '\\' :: 'x' :: hex 2
    else if c.toNat < 0x10000 then '\\' :: 'u' :: hex 4
    else '\\' :: 'U' :: hex 8

def reprText (isPrintable : Char → Bool) (s : String) : List Char :=
  let mark := if '\'' ∈ s.toList ∧ '"' ∉ s.toList then '"' else '\''
  mark :: (s.toList.flatMap (reprChar isPrintable mark) ++ [mark])

mutual

/-- `repr(value)`. -/
def repr (isPrintable : Char → Bool) : Json → List Char
  | .null => "None".toList
  | .bool true => "True".toList
  | .bool false => "False".toList
  | .int i => intText i
  | .float x => floatRepr x
  | .str s => reprText isPrintable s
  | .arr items => '[' :: (joined [',', ' '] (reprItems isPrintable items) ++ [']'])
  | .obj fields => '{' :: (joined [',', ' '] (reprFields isPrintable fields) ++ ['}'])

def reprItems (isPrintable : Char → Bool) : List Json → List (List Char)
  | [] => []
  | j :: js => repr isPrintable j :: reprItems isPrintable js

def reprFields (isPrintable : Char → Bool) : List (String × Json) → List (List Char)
  | [] => []
  | (key, j) :: fs => (reprText isPrintable key ++ ':' :: ' ' :: repr isPrintable j) :: reprFields isPrintable fs

end

/-- `str(value)`. -/
def str (isPrintable : Char → Bool) : Json → String
  | .str s => s
  | j => String.ofList (repr isPrintable j)

end Python
