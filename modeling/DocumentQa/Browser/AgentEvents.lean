import DocumentQa.Browser.EventStream
import DocumentQa.Python.Datetime

/-!
# The event client of the agent workspace

`parseAgentSseBatch` of `agentApi.ts`: a response body is cut into frames at the blank lines, the
fields of a frame are collected line by line, and its data is taken as an event when the event
names its run and its place, which must be behind the event before.
-/

namespace Browser

open JsonText Utf8

/-- `Number.MAX_SAFE_INTEGER`. -/
def maxSafeInteger : Nat := 9007199254740991

/-- `Date.parse` reads the times the server writes. -/
structure DateParser where
  /-- `Number.isFinite(Date.parse(text))`. -/
  isFinite : String → Bool
  reads : ∀ m < Python.maxMicros, isFinite (Python.isoText true m) = true

/-- A parser of the server's times and no others. -/
def DateParser.iso : DateParser where
  isFinite text := (Python.parseIso text).isSome
  reads m h := by rw [Python.parseIso_isoText true h]; rfl

/-- An event that was accepted: its number and the object it came as. -/
structure AgentEvent where
  sequence : Nat
  raw : List (String × Json)

/-- `body.replace(/\r\n/g, "\n")`. -/
def unixLines : List Char → List Char
  | [] => []
  | '\r' :: '\n' :: cs => '\n' :: unixLines cs
  | c :: cs => c :: unixLines cs

/-- The variables of the loop over the lines of a frame. -/
structure SseFields where
  id : List Char
  data : List (List Char)

def idField : List Char := "id:".toList

def dataLine : List Char := "data:".toList

/-- One line of a frame. -/
def SseFields.line (f : SseFields) (line : List Char) : SseFields :=
  if idField.isPrefixOf line then { f with id := trim (line.drop 3) }
  else if dataLine.isPrefixOf line then { f with data := f.data ++ [(line.drop 5).dropWhile isTrimmed] }
  else f

def frameFields (frame : List Char) : SseFields :=
  (Python.splitOn '\n' frame).foldl SseFields.line ⟨[], []⟩

/-- `/^[1-9][0-9]*$/.test(id)`. -/
def isSequenceText (id : List Char) : Bool :=
  id.head?.any (fun c => '1' ≤ c && c ≤ '9') && id.all Char.isDigit

/-- `typeof value === "string"`. -/
def isText : Option Json → Bool
  | some (.str _) => true
  | _ => false

section Client

variable (dates : DateParser) (runId : String)

/-- `typeof raw.occurred_at === "string"` and `Number.isFinite(Date.parse(raw.occurred_at))`. -/
def isDate : Option Json → Bool
  | some (.str text) => dates.isFinite text
  | _ => false

/-- The event is the one its frame announces. -/
def announced (previous : Nat) (id : List Char) (raw : List (String × Json)) : Bool :=
  let sequence := Nat.ofDigitChars 10 id 0
  isSequenceText id && sequence ≤ maxSafeInteger && previous < sequence &&
    Json.lookup "sequence" raw = some (.float (.ofInt sequence)) && Json.lookup "run_id" raw = some (.str runId) &&
    isText (Json.lookup "event_id" raw) && isText (Json.lookup "event_type" raw) && isDate dates (Json.lookup "occurred_at" raw)

/-- What a frame with data is taken as; an error is the status of the `AgentApiError`. -/
def acceptEvent (previous : Nat) (fields : SseFields) : Except Nat AgentEvent :=
  match jsonParse (['\n'].intercalate fields.data) with
  | some (.obj raw) => do
    Checked.require (announced dates runId previous fields.id raw = true) 502
    pure ⟨Nat.ofDigitChars 10 fields.id 0, raw⟩
  | _ => throw 502

/-- The loop over the frames. -/
def parseFrames : Nat → List (List Char) → Except Nat (List AgentEvent)
  | _, [] => pure []
  | previous, frame :: rest =>
    if trim frame = [] ∨ (frameFields frame).data = [] then parseFrames previous rest
    else do
      let event ← acceptEvent dates runId previous (frameFields frame)
      let events ← parseFrames event.sequence rest
      pure (event :: events)

/-- `parseAgentSseBatch`. -/
def parseAgentSseBatch (body : List Char) (afterSequence : Nat) : Except Nat (List AgentEvent) := do
  Checked.require (afterSequence ≤ maxSafeInteger) 422
  parseFrames dates runId afterSequence (Python.splitText "\n\n".toList 0 (unixLines body))

end Client

/-! ## Frames of three lines -/

/-- A frame as the server writes it. -/
def sseFrame (id type data : List Char) : List Char :=
  "id: ".toList ++ id ++ '\n' :: ("event: ".toList ++ type ++ '\n' :: ("data: ".toList ++ data))

/-- A text that opens with a character `trim` keeps is not blank. -/
theorem trim_ne_nil {c : Char} {cs : List Char} (kept : isTrimmed c = false) : trim (c :: cs) ≠ [] := by
  intro empty
  obtain ⟨trail, -, behind, -, -, inner⟩ := Python.stripBy_parts isTrimmed (c :: cs)
  have blank : Python.stripBy isTrimmed (c :: cs) = [] := empty
  rw [blank, List.dropWhile_cons_of_neg (by rw [kept]; exact Bool.false_ne_true), List.nil_append] at behind
  rcases inner with ⟨open_, -⟩ | ⟨-, none_⟩
  · rw [blank] at open_
    cases open_
  · rw [none_] at behind
    cases behind

/-- A text without blank lines that does not end a line. -/
def Solid (t : List Char) : Prop :=
  ∀ a b, t = a ++ '\n' :: b → ∃ c d, b = c :: d ∧ c ≠ '\n'

theorem Solid.of_line {t : List Char} (line : '\n' ∉ t) : Solid t := by
  rintro a b rfl
  exact absurd (by simp) line

theorem Solid.tail {c : Char} {t : List Char} (h : Solid (c :: t)) : Solid t :=
  fun a b e => h (c :: a) b (by rw [e]; rfl)

/-- A line in front of a text that opens with another one. -/
theorem Solid.line {t : List Char} {c : Char} {cs : List Char} (line : '\n' ∉ t) (other : c ≠ '\n') (rest : Solid (c :: cs)) :
    Solid (t ++ '\n' :: c :: cs) := by
  induction t with
  | nil =>
    intro a b e
    cases a with
    | nil =>
      obtain rfl := (List.cons.inj e).2
      exact ⟨c, cs, rfl, other⟩
    | cons x a => exact rest a b (List.cons.inj e).2
  | cons x t ih =>
    rw [List.mem_cons, not_or] at line
    intro a b e
    cases a with
    | nil => exact absurd (List.cons.inj e).1.symm line.1
    | cons y a => exact ih line.2 a b (List.cons.inj e).2

/-- The text in front of a blank line is the first part. -/
theorem splitText_blank {t : List Char} (solid : Solid t) (rest : List Char) :
    Python.splitText "\n\n".toList 0 (t ++ ('\n' :: '\n' :: rest)) = t :: Python.splitText "\n\n".toList 0 rest := by
  induction t with
  | nil => rfl
  | cons c t ih =>
    have apart : "\n\n".toList.isPrefixOf (c :: (t ++ '\n' :: '\n' :: rest)) = false := by
      by_cases newline : c = '\n'
      · obtain ⟨d, t', rfl, other⟩ := solid [] t (by rw [newline]; rfl)
        show (('\n' == c) && (('\n' == d) && _)) = false
        rw [beq_eq_false_iff_ne.2 (Ne.symm other), Bool.false_and, Bool.and_false]
      · show (('\n' == c) && _) = false
        rw [beq_eq_false_iff_ne.2 (Ne.symm newline), Bool.false_and]
    rw [List.cons_append, Python.splitText, if_neg (by rw [apart]; exact Bool.false_ne_true), ih solid.tail]

theorem unixLines_plain {cs : List Char} (plain : '\r' ∉ cs) : unixLines cs = cs := by
  induction cs with
  | nil => rfl
  | cons c cs ih =>
    rw [List.mem_cons, not_or] at plain
    rw [unixLines, ih plain.2]
    rintro - rfl
    exact absurd rfl plain.1

section Frame

variable {id type data : List Char}

theorem sseFrame_solid (hid : '\n' ∉ id) (htype : '\n' ∉ type) (hdata : '\n' ∉ data) : Solid (sseFrame id type data) := by
  have last : Solid ("data: ".toList ++ data) := by
    refine Solid.of_line ?_
    rw [List.mem_append, not_or]
    exact ⟨by decide, hdata⟩
  have middle : Solid ("event: ".toList ++ type ++ '\n' :: ("data: ".toList ++ data)) := by
    refine Solid.line ?_ (by decide) last
    rw [List.mem_append, not_or]
    exact ⟨by decide, htype⟩
  refine Solid.line ?_ (by decide) middle
  rw [List.mem_append, not_or]
  exact ⟨by decide, hid⟩

/-- **The fields of a frame.** -/
theorem frameFields_sseFrame (hid : '\n' ∉ id) (htype : '\n' ∉ type) (hdata : '\n' ∉ data) :
    frameFields (sseFrame id type data) = ⟨trim (' ' :: id), [(' ' :: data).dropWhile isTrimmed]⟩ := by
  have first : '\n' ∉ "id: ".toList ++ id := by
    rw [List.mem_append, not_or]
    exact ⟨by decide, hid⟩
  have second : '\n' ∉ "event: ".toList ++ type := by
    rw [List.mem_append, not_or]
    exact ⟨by decide, htype⟩
  have third : '\n' ∉ "data: ".toList ++ data := by
    rw [List.mem_append, not_or]
    exact ⟨by decide, hdata⟩
  rw [frameFields, sseFrame, Python.splitOn_line first, Python.splitOn_line second, Python.splitOn_whole third]
  rfl

end Frame

end Browser
