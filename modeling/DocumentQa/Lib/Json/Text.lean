import DocumentQa.Lib.Json.Number

/-!
# Printing JSON

One printer, with two parameters: how a float is written and what follows a separator.
Strings are quoted as both `json.dumps(..., ensure_ascii=False)` and `JSON.stringify`
quote them: the quote, the backslash and the characters below the space are escaped,
everything else stands for itself.
-/

namespace JsonText

/-- How a runtime writes numbers and what it puts behind a comma or a colon. -/
structure Printer where
  number : Double → List Char
  gap : List Char

def hexDigit (n : Nat) : Char :=
  if n < 10 then Char.ofNat (48 + n) else Char.ofNat (87 + n)

/-- One character inside a quoted string. -/
def escapeChar (c : Char) : List Char :=
  if c = '"' then ['\\', '"']
  else if c = '\\' then ['\\', '\\']
  else if c = '\n' then ['\\', 'n']
  else if c = '\r' then ['\\', 'r']
  else if c = '\t' then ['\\', 't']
  else if c.toNat = 8 then ['\\', 'b']
  else if c.toNat = 12 then ['\\', 'f']
  else if c.toNat < 32 then ['\\', 'u', '0', '0', hexDigit (c.toNat / 16), hexDigit (c.toNat % 16)]
  else [c]

def escape (cs : List Char) : List Char :=
  cs.flatMap escapeChar

def quote (s : String) : List Char :=
  '"' :: (escape s.toList ++ ['"'])

namespace Printer

mutual

/-- The text of a value. -/
def text (p : Printer) : Json → List Char
  | .null => "null".toList
  | .bool true => "true".toList
  | .bool false => "false".toList
  | .int i => intText i
  | .float x => p.number x
  | .str s => quote s
  | .arr items => '[' :: (p.textItems items ++ [']'])
  | .obj fields => '{' :: (p.textFields fields ++ ['}'])

def textItems (p : Printer) : List Json → List Char
  | [] => []
  | [j] => p.text j
  | j :: j' :: js => p.text j ++ (',' :: p.gap) ++ p.textItems (j' :: js)

def textFields (p : Printer) : List (String × Json) → List Char
  | [] => []
  | [(k, j)] => quote k ++ (':' :: p.gap) ++ p.text j
  | (k, j) :: f :: fs => quote k ++ (':' :: p.gap) ++ p.text j ++ (',' :: p.gap) ++ p.textFields (f :: fs)

end

end Printer

/-- Texts with a separator between them. -/
def joined (sep : List Char) : List (List Char) → List Char
  | [] => []
  | [t] => t
  | t :: t' :: ts => t ++ sep ++ joined sep (t' :: ts)

/-- The text of one field. -/
def Printer.fieldText (p : Printer) (key : String) (value : List Char) : List Char :=
  quote key ++ (':' :: p.gap) ++ value

theorem Printer.textItems_eq (p : Printer) (items : List Json) :
    p.textItems items = joined (',' :: p.gap) (items.map p.text) := by
  induction items with
  | nil => rfl
  | cons j js ih =>
    cases js with
    | nil => rfl
    | cons j' js => rw [textItems, ih]; rfl

theorem Printer.textFields_eq (p : Printer) (fields : List (String × Json)) :
    p.textFields fields = joined (',' :: p.gap) (fields.map fun f => p.fieldText f.1 (p.text f.2)) := by
  induction fields with
  | nil => rfl
  | cons f fs ih =>
    cases fs with
    | nil => rfl
    | cons f' fs => rw [textFields, ih]; rfl

/-- A character that ends a number, as every one a printer writes behind a value does. -/
def closes (rest : List Char) : Prop :=
  rest = [] ∨ ∃ c r, rest = c :: r ∧ (c = ',' ∨ c = ']' ∨ c = '}')

theorem closes.stops {rest : List Char} (h : closes rest) : Stops rest := by
  rcases h with rfl | ⟨c, r, rfl, rfl | rfl | rfl⟩
  · exact .nil
  all_goals exact .cons (by decide)

end JsonText
