import Mathlib.Data.List.Basic

/-!
# Python text

The operations on `str` that the validators call: identifier patterns, `casefold` and
`strip` as far as they decide a check, the credential pattern and absolute paths. They
work on the code points of a string; a `str` with an unpaired surrogate has no counterpart.
-/

namespace Python

/-- Texts and optional names are compared by equality. -/
instance lawfulChars : LawfulBEq (List Char) :=
  inferInstance

instance lawfulOptionString : LawfulBEq (Option String) :=
  inferInstance

/-- `[A-Za-z0-9]`. -/
def isAlnum (c : Char) : Bool :=
  ('A' ≤ c && c ≤ 'Z') || ('a' ≤ c && c ≤ 'z') || ('0' ≤ c && c ≤ '9')

/-- `[a-z0-9]`. -/
def isLowerAlnum (c : Char) : Bool :=
  ('a' ≤ c && c ≤ 'z') || ('0' ≤ c && c ≤ '9')

/-- `[a-z]`. -/
def isLower (c : Char) : Bool :=
  'a' ≤ c && c ≤ 'z'

/-- A pattern of one leading character class and a bounded number of characters of another. -/
structure NamePattern where
  first : Char → Bool
  rest : Char → Bool
  maximum : Nat

/-- `pattern.fullmatch(value)`. -/
def NamePattern.fullmatch (p : NamePattern) (value : String) : Bool :=
  match value.toList with
  | [] => false
  | c :: cs => p.first c && cs.all p.rest && cs.length < p.maximum

/-- `^[a-f0-9]{64}$`. -/
def isSha256Text (value : String) : Bool :=
  value.toList.length = 64 && value.toList.all fun c => ('a' ≤ c && c ≤ 'f') || ('0' ≤ c && c ≤ '9')

/-- `str.isspace` of one character. -/
def isSpace (c : Char) : Bool :=
  let n := c.toNat
  (9 ≤ n && n ≤ 13) || (28 ≤ n && n ≤ 32) || n = 0x85 || n = 0xA0 || n = 0x1680 || (0x2000 ≤ n && n ≤ 0x200A) ||
    n = 0x2028 || n = 0x2029 || n = 0x202F || n = 0x205F || n = 0x3000

/-- Drop the characters `p` accepts at both ends. -/
def stripBy (p : Char → Bool) (cs : List Char) : List Char :=
  ((cs.dropWhile p).reverse.dropWhile p).reverse

/-- `value.strip()`. -/
def strip (value : String) : String :=
  String.ofList (stripBy isSpace value.toList)

/-- `len(value.encode("utf-8"))`. -/
def utf8Length (value : String) : Nat :=
  value.toList.foldl (fun n c => n + c.utf8Size) 0

/-- The bytes of a literal, counted on its characters. -/
theorem utf8Length_literal {value : String} {cs : List Char} {n : Nat} (written : value = String.ofList cs)
    (bound : cs.foldl (fun n c => n + c.utf8Size) 0 ≤ n) : utf8Length value ≤ n := by
  rw [utf8Length, written, String.toList_ofList]
  exact bound

theorem utf8Length_le (cs : List Char) : utf8Length (String.ofList cs) ≤ 4 * cs.length := by
  have all : ∀ (cs : List Char) (n : Nat), cs.foldl (fun n c => n + c.utf8Size) n ≤ n + 4 * cs.length := by
    intro cs
    induction cs with
    | nil => exact fun n => Nat.le_refl n
    | cons c cs ih =>
      intro n
      have rest := ih (n + c.utf8Size)
      have size := c.utf8Size_le_four
      rw [List.foldl_cons, List.length_cons]
      omega
  have whole := all cs 0
  rw [utf8Length, String.toList_ofList]
  omega

/-- `needle in haystack`. -/
def isInfix (needle : List Char) : List Char → Bool
  | [] => needle.isEmpty
  | c :: cs => needle.isPrefixOf (c :: cs) || isInfix needle cs

/-- `value.endswith(suffix)`. -/
def endsWith (value suffix : List Char) : Bool :=
  suffix.isSuffixOf value

/-! ## Casefolding -/

/-- The characters beyond ASCII whose `casefold` contains an ASCII letter, with those letters
and a `~` for each other character. -/
def foldedSpecials : List (Nat × List Char) :=
  [(0xDF, ['s', 's']), (0x130, ['i', '~']), (0x149, ['~', 'n']), (0x17F, ['s']), (0x1F0, ['j', '~']),
    (0x1E96, ['h', '~']), (0x1E97, ['t', '~']), (0x1E98, ['w', '~']), (0x1E99, ['y', '~']), (0x1E9A, ['a', '~']),
    (0x1E9E, ['s', 's']), (0x212A, ['k']), (0xFB00, ['f', 'f']), (0xFB01, ['f', 'i']), (0xFB02, ['f', 'l']),
    (0xFB03, ['f', 'f', 'i']), (0xFB04, ['f', 'f', 'l']), (0xFB05, ['s', 't']), (0xFB06, ['s', 't'])]

/-- `casefold` of one character, up to which character beyond ASCII it yields. -/
def casefoldChar (c : Char) : List Char :=
  if 'A' ≤ c ∧ c ≤ 'Z' then [Char.ofNat (c.toNat + 32)]
  else match foldedSpecials.find? fun s => s.1 = c.toNat with
    | some s => s.2
    | none => [c]

def casefold (cs : List Char) : List Char :=
  cs.flatMap casefoldChar

/-- `re.sub(r"[^a-z0-9]+", "_", text)`: each run of other characters becomes one underscore. -/
def underscored : List Char → List Char
  | [] => []
  | c :: cs =>
    if isLowerAlnum c then c :: underscored cs
    else match underscored cs with
      | '_' :: r => '_' :: r
      | r => '_' :: r

/-- `re.sub(r"[^a-z0-9]+", "_", key.casefold()).strip("_")`. -/
def normalKey (key : String) : List Char :=
  stripBy (· = '_') (underscored (casefold key.toList))

/-- `text.replace("_", "")`. -/
def withoutUnderscores (cs : List Char) : List Char :=
  cs.filter (· ≠ '_')

/-! ## Absolute paths -/

/-- `PurePosixPath(value).is_absolute()`. -/
def isPosixAbsolute (cs : List Char) : Bool :=
  match cs with
  | '/' :: _ => true
  | _ => false

/-- `text.split(sep)`. -/
def splitOn (sep : Char) : List Char → List (List Char)
  | [] => [[]]
  | c :: cs =>
    if c = sep then [] :: splitOn sep cs
    else match splitOn sep cs with
      | [] => [[c]]
      | part :: parts => (c :: part) :: parts

/-- `ntpath.splitroot` of a path with backslashes only: its drive and its root. -/
def splitRoot (cs : List Char) : List Char × List Char :=
  match cs with
  | '\\' :: '\\' :: _ =>
    -- a UNC share or a device: the drive ends at the second separator behind the prefix
    let unc := ((cs.take 8).flatMap casefoldChar) = "\\\\?\\unc\\".toList
    let start := if unc then 8 else 2
    let server := (cs.drop start).takeWhile (· ≠ '\\')
    match (cs.drop start).dropWhile (· ≠ '\\') with
    | [] => (cs, [])
    | _ :: r =>
      match r.dropWhile (· ≠ '\\') with
      | [] => (cs, [])
      | _ :: _ => (cs.take (start + server.length + 1 + (r.takeWhile (· ≠ '\\')).length), ['\\'])
  | '\\' :: _ => ([], ['\\'])
  | c :: ':' :: '\\' :: _ => ([c, ':'], ['\\'])
  | c :: ':' :: _ => ([c, ':'], [])
  | _ => ([], [])

/-- `PureWindowsPath(value).is_absolute()`: both a drive and a root. -/
def isWindowsAbsolute (cs : List Char) : Bool :=
  let path := cs.map fun c => if c = '/' then '\\' else c
  let (drive, root) := splitRoot path
  if root ≠ [] then drive ≠ []
  else
    -- a share named without anything behind it is still a root
    let parts := splitOn '\\' drive
    drive.head? = some '\\' && drive.getLast? ≠ some '\\' &&
      (parts.length = 6 || (parts.length = 4 && !isInfix (parts.getD 2 []) ['?', '.']))

/-- `PurePosixPath(value).is_absolute() or PureWindowsPath(value).is_absolute()`. -/
def looksAbsolutePath (value : String) : Bool :=
  isPosixAbsolute value.toList || isWindowsAbsolute value.toList

/-! ## Credential text -/

/-- A letter of a pattern compiled with `re.IGNORECASE` against a character of the text. -/
def matchesIgnoringCase (letter c : Char) : Bool :=
  c = letter || c.toNat + 32 = letter.toNat || (letter = 'i' && (c.toNat = 0x130 || c.toNat = 0x131)) ||
    (letter = 'k' && c.toNat = 0x212A) || (letter = 's' && c.toNat = 0x17F)

/-- The text behind a word at its head, ignoring case. -/
def dropWord : List Char → List Char → Option (List Char)
  | [], cs => some cs
  | w :: ws, c :: cs => if matchesIgnoringCase w c then dropWord ws cs else none
  | _ :: _, [] => none

/-- `api[ _-]?key` at the head of the text. -/
def dropApiKey (cs : List Char) : Option (List Char) :=
  match dropWord "api".toList cs with
  | some (c :: r) => dropWord "key".toList (if c = ' ' ∨ c = '_' ∨ c = '-' then r else c :: r)
  | _ => none

/-- `(?:authorization|bearer|api[ _-]?key|password|secret|token)\s*[:=]` at the head of the text. -/
def isAssignment (cs : List Char) : Bool :=
  let words := [dropWord "authorization".toList cs, dropWord "bearer".toList cs, dropApiKey cs,
    dropWord "password".toList cs, dropWord "secret".toList cs, dropWord "token".toList cs]
  words.any fun
    | some r =>
      match r.dropWhile isSpace with
      | c :: _ => c = ':' || c = '='
      | [] => false
    | none => false

/-- `_CREDENTIAL_TEXT.search(value)`. -/
def mentionsCredential (value : String) : Bool :=
  value.toList.tails.any isAssignment

end Python
