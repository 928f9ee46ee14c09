import DocumentQa.Lib.Json.Parse
import DocumentQa.Python.Text

/-!
# Rendered evidence

Chunks are rendered into one text of numbered source blocks, and the validators and the
evaluation read the blocks back with one regular expression: a block is a header at the start
of a line, the rest of that line, and everything up to the next line that starts with a header.
-/

namespace Evidence

open Python JsonText

/-- `value.rstrip()`. -/
def rstrip (cs : List Char) : List Char :=
  (cs.reverse.dropWhile isSpace).reverse

/-! ## The regular expression -/

/-- The zeros of the decimal digits `\d` matches. -/
def decimalZeros : List Nat :=
  [0x30, 0x660, 0x6F0, 0x7C0, 0x966, 0x9E6, 0xA66, 0xAE6, 0xB66, 0xBE6, 0xC66, 0xCE6, 0xD66, 0xDE6, 0xE50, 0xED0, 0xF20,
    0x1040, 0x1090, 0x17E0, 0x1810, 0x1946, 0x19D0, 0x1A80, 0x1A90, 0x1B50, 0x1BB0, 0x1C40, 0x1C50, 0xA620, 0xA8D0,
    0xA900, 0xA9D0, 0xA9F0, 0xAA50, 0xABF0, 0xFF10, 0x104A0, 0x10D30, 0x11066, 0x110F0, 0x11136, 0x111D0, 0x112F0,
    0x11450, 0x114D0, 0x11650, 0x116C0, 0x11730, 0x118E0, 0x11950, 0x11C50, 0x11D50, 0x11DA0, 0x11F50, 0x16A60, 0x16AC0,
    0x16B50, 0x1D7CE, 0x1D7D8, 0x1D7E2, 0x1D7EC, 0x1D7F6, 0x1E140, 0x1E2F0, 0x1E4F0, 0x1E950, 0x1FBF0]

/-- The value of a character `\d` matches. -/
def decimal? (c : Char) : Option Nat :=
  (decimalZeros.find? fun first => first ≤ c.toNat && c.toNat < first + 10).map fun first => c.toNat - first

def isDecimal (c : Char) : Bool :=
  (decimal? c).isSome

/-- `[Source ` and `] `. -/
def opening : List Char :=
  ['[', 'S', 'o', 'u', 'r', 'c', 'e', ' ']

def closing : List Char :=
  [']', ' ']

/-- `\[Source \d+\] ` at the head of the text: the digits and what follows. -/
def header? (cs : List Char) : Option (List Char × List Char) :=
  match word opening cs with
  | none => none
  | some rest =>
    match rest.takeWhile isDecimal, word closing (rest.dropWhile isDecimal) with
    | d :: ds, some rest => some (d :: ds, rest)
    | _, _ => none

/-- `(?P<text>.*?)(?=^\[Source \d+\] |\Z)`: the text, and what it stops before. `lineStart`
says whether the text stands at the start of a line. -/
def textUpTo : Bool → List Char → List Char × List Char
  | _, [] => ([], [])
  | lineStart, c :: cs =>
    if lineStart && (header? (c :: cs)).isSome then ([], c :: cs)
    else
      let (text, rest) := textUpTo (c = '\n') cs
      (c :: text, rest)

/-- The groups of a match. -/
structure Block where
  number : List Char
  citation : List Char
  text : List Char

/-- A match at the start of a line, and what follows it. -/
def block? (cs : List Char) : Option (Block × List Char) :=
  match header? cs with
  | none => none
  | some (number, rest) =>
    match rest.dropWhile (· ≠ '\n') with
    | [] => none
    | _ :: body => some (⟨number, rest.takeWhile (· ≠ '\n'), (textUpTo true body).1⟩, (textUpTo true body).2)

/-- `finditer`. A match stops at the end or before a header at the start of a line. -/
def blocks : Nat → Bool → List Char → List Block
  | fuel + 1, lineStart, c :: cs =>
    match (if lineStart then block? (c :: cs) else none) with
    | some (b, rest) => b :: blocks fuel true rest
    | none => blocks fuel (c = '\n') cs
  | _, _, _ => []

/-- The matches with a text. -/
def solidBlocks (context : String) : List Block :=
  (blocks context.toList.length true context.toList).filter fun b => b.text.any fun c => !isSpace c

/-! ## Reading -/

structure EvidenceSource where
  number : Nat
  citation : String
  text : String
deriving DecidableEq

/-- `int(...)` of decimal digits, however many. -/
def intValue (digits : List Char) : Nat :=
  digits.foldl (fun n c => 10 * n + (decimal? c).getD 0) 0

/-- `parse_evidence_sources`. -/
def parseEvidenceSources (context : String) : List EvidenceSource :=
  (solidBlocks context).map fun b => ⟨intValue b.number, String.ofList b.citation, String.ofList (rstrip b.text)⟩

/-- A source as `parse_evidence_context` has it. -/
structure ContextSource where
  number : String
  citation : String
  text : String
deriving DecidableEq

/-- `parse_evidence_context`. -/
def parseEvidenceContext (context : String) : List ContextSource :=
  (solidBlocks context).map fun b => ⟨String.ofList b.number, String.ofList b.citation, String.ofList (rstrip b.text)⟩

/-! ## Rendering -/

structure Chunk where
  chunkId : Option String
  citation : String
  text : String
deriving DecidableEq

/-- The chunks `render_chunk_evidence` renders: one for an id, and every one without an id. -/
def rendered : List String → List Chunk → List Chunk
  | _, [] => []
  | seen, c :: cs =>
    match c.chunkId with
    | some id => if id ∈ seen then rendered seen cs else c :: rendered (id :: seen) cs
    | none => c :: rendered seen cs

/-- `[Source N] `. -/
def headerText (number : Nat) : List Char :=
  opening ++ natText number ++ closing

/-- One block. -/
def renderBlock (number : Nat) (c : Chunk) : List Char :=
  headerText number ++ (c.citation.toList ++ '\n' :: rstrip c.text.toList)

def renderBlocks : Nat → List Chunk → List (List Char)
  | _, [] => []
  | number, c :: cs => renderBlock number c :: renderBlocks (number + 1) cs

/-- `render_chunk_evidence`. -/
def renderChunkEvidence (chunks : List Chunk) : String :=
  String.ofList (joined ['\n', '\n'] (renderBlocks 1 (rendered [] chunks)))

/-- The chunks of a frozen case, by query; the first of every id, no id counting as one. -/
def firstOfId : List (Option String) → List Chunk → List Chunk
  | _, [] => []
  | seen, c :: cs => if c.chunkId ∈ seen then firstOfId seen cs else c :: firstOfId (c.chunkId :: seen) cs

/-- `build_evidence_context`. -/
def buildEvidenceContext (queries : List (List Chunk)) : String :=
  renderChunkEvidence (firstOfId [] queries.flatten)

/-- `render_source_texts`. -/
def renderSourceTexts (queries : List (List Chunk)) : List String :=
  (firstOfId [] queries.flatten).map Chunk.text

end Evidence
