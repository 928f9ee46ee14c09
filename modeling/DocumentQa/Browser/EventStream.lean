import DocumentQa.Lib.Checked
import DocumentQa.Lib.Utf8
import DocumentQa.Lib.Json.Ends
import DocumentQa.Browser.Objects
import DocumentQa.Python.Search

/-!
# The stream clients

`streamQuery` and `streamDecomposedQuery` of `api.ts` read a response body chunk by chunk:
each chunk is decoded behind the ones before it, the complete lines are handled and the
last, incomplete one waits in the buffer. The two loops are written separately. Both come
down to the lines of the decoded stream (`Client.Follows`), so neither depends on how the
network cut it.
-/

namespace Browser

open JsonText Utf8

/-! ## `TextDecoder` in stream mode -/

structure TextDecoder where
  bytes : Utf8.State
  bomSeen : Bool

/-- `new TextDecoder("utf-8")`. -/
def TextDecoder.new : TextDecoder :=
  ⟨.start, false⟩

/-- U+FEFF. -/
def byteOrderMark : Char :=
  Char.ofNat 0xFEFF

/-- The text behind a byte order mark, which is dropped at the start of the stream only. -/
def serialize (bomSeen : Bool) : List Char → Bool × List Char
  | [] => (bomSeen, [])
  | c :: cs => (true, if bomSeen = false ∧ c = byteOrderMark then cs else c :: cs)

/-- `decoder.decode(value, { stream: true })`. -/
def TextDecoder.decode (d : TextDecoder) (value : List UInt8) : TextDecoder × List Char :=
  let (bytes, out) := feed decodeByte d.bytes value
  let (bomSeen, text) := serialize d.bomSeen out
  (⟨bytes, bomSeen⟩, text)

theorem serialize_append (seen : Bool) (a b : List Char) :
    serialize seen (a ++ b) =
      ((serialize (serialize seen a).1 b).1, (serialize seen a).2 ++ (serialize (serialize seen a).1 b).2) := by
  cases a with
  | nil => rfl
  | cons c cs =>
    have after : serialize true b = (true, b) := by
      cases b with
      | nil => rfl
      | cons c cs => simp [serialize]
    simp only [List.cons_append, serialize.eq_2, after]
    split <;> rfl

theorem TextDecoder.decode_append (d : TextDecoder) (a b : List UInt8) :
    d.decode (a ++ b) = (((d.decode a).1.decode b).1, (d.decode a).2 ++ ((d.decode a).1.decode b).2) := by
  simp only [decode, feed_append, serialize_append]

/-- A text that does not begin with the mark is decoded from its encoding. -/
theorem TextDecoder.decode_encode {text : List Char} (plain : text.head? ≠ some byteOrderMark) :
    (TextDecoder.new.decode (encode text)).2 = text := by
  simp only [decode, TextDecoder.new, feed_encode]
  cases text with
  | nil => rfl
  | cons c cs =>
    have other : c ≠ byteOrderMark := by
      rintro rfl
      exact plain rfl
    simp only [serialize, other, and_false, if_false]

/-! ## Lines -/

/-- The whitespace and line terminators `String.prototype.trim` removes. -/
def isTrimmed (c : Char) : Bool :=
  let n := c.toNat
  (9 ≤ n && n ≤ 13) || n = 32 || n = 0xA0 || n = 0x1680 || (0x2000 ≤ n && n ≤ 0x200A) || n = 0x2028 || n = 0x2029 ||
    n = 0x202F || n = 0x205F || n = 0x3000 || n = 0xFEFF

/-- `line.trim()`. -/
def trim (line : List Char) : List Char :=
  Python.stripBy isTrimmed line

/-- `"data: "`. -/
def dataField : List Char :=
  "data: ".toList

/-- `JSON.parse(text)`, `none` where it throws: the text is one value between blanks. -/
def jsonParse (text : List Char) : Option Json :=
  (loadsWith { Hooks.plain with constants := false } (Python.stripBy isBlank text)).map jsValue

section Clients

variable {ε : Type} (parse : List Char → Option ε)

/-- One line in the loop of `streamQuery`: the events it hands to `onEvent`. -/
def handleLine (line : List Char) : List ε :=
  let trimmed := trim line
  if trimmed = [] then []
  else if dataField.isPrefixOf trimmed then (parse (trimmed.drop 6)).toList
  else []

/-- What `streamQuery` does with the text left in the buffer. -/
def handleRemaining (buffer : List Char) : List ε :=
  if buffer = [] then []
  else if dataField.isPrefixOf (trim buffer) then (parse ((trim buffer).drop 6)).toList
  else []

/-- `consume` of `streamDecomposedQuery`. -/
def consume (line : List Char) : List ε :=
  if dataField.isPrefixOf (trim line) then (parse ((trim line).drop 6)).toList else []

/-- The variables of the reading loop, and the events handed to `onEvent` so far. -/
structure Client (ε : Type) where
  decoder : TextDecoder
  buffer : List Char
  delivered : List ε

def Client.start : Client ε :=
  ⟨.new, [], []⟩

/-- One turn of the loop: `buffer += decode(value)`, split at the newlines, keep the last
piece and handle the others. -/
def Client.receive (handle : List Char → List ε) (s : Client ε) (value : List UInt8) : Client ε :=
  let (decoder, text) := s.decoder.decode value
  let lines := Python.splitOn '\n' (s.buffer ++ text)
  ⟨decoder, lines.getLastD [], s.delivered ++ lines.dropLast.flatMap handle⟩

/-- The `onEvent` calls of `streamQuery` over a body that arrives in these chunks. -/
def streamQuery (chunks : List (List UInt8)) : List ε :=
  let s := chunks.foldl (Client.receive (handleLine parse)) .start
  s.delivered ++ handleRemaining parse s.buffer

/-- The `onEvent` calls of `streamDecomposedQuery`. -/
def streamDecomposedQuery (chunks : List (List UInt8)) : List ε :=
  let s := chunks.foldl (Client.receive (consume parse)) .start
  s.delivered ++ if trim s.buffer = [] then [] else consume parse s.buffer

end Clients

/-! ## The lines of a stream -/

/-- A text cut anywhere: the last piece of the first part is continued by the second. -/
theorem splitOn_append (sep : Char) (a b : List Char) :
    Python.splitOn sep (a ++ b) =
      (Python.splitOn sep a).dropLast ++ Python.splitOn sep ((Python.splitOn sep a).getLastD [] ++ b) := by
  induction a with
  | nil => rfl
  | cons c cs ih =>
    obtain ⟨part, parts, e⟩ := List.exists_cons_of_ne_nil (Python.splitOn_ne_nil sep cs)
    rw [List.cons_append, Python.splitOn, Python.splitOn, ih, e]
    by_cases newline : c = sep
    · simp only [newline, if_true]
      rfl
    · simp only [newline, if_false]
      cases parts with
      | nil =>
        simp only [List.dropLast_singleton, List.nil_append, List.getLastD_cons, List.getLastD_nil, List.cons_append]
        rw [Python.splitOn, if_neg newline]
      | cons q qs => rfl

theorem getLastD_append {lines : List (List Char)} (before : List (List Char)) (some_ : lines ≠ []) :
    (before ++ lines).getLastD [] = lines.getLastD [] := by
  simp only [List.getLastD_eq_getLast?, List.getLast?_append_of_ne_nil before some_]

section Clients

variable {ε : Type} {handle : List Char → List ε}

/-- The client has decoded `text`: its complete lines are handled, the last one waits. -/
structure Client.Follows (handle : List Char → List ε) (decoder : TextDecoder) (text : List Char) (s : Client ε) :
    Prop where
  decoder : s.decoder = decoder
  buffer : s.buffer = (Python.splitOn '\n' text).getLastD []
  delivered : s.delivered = (Python.splitOn '\n' text).dropLast.flatMap handle

theorem Client.follows_start : Client.Follows handle .new [] (Client.start : Client ε) :=
  ⟨rfl, rfl, rfl⟩

/-- **One chunk.** -/
theorem Client.Follows.receive {decoder : TextDecoder} {text : List Char} {s : Client ε}
    (h : Client.Follows handle decoder text s) (value : List UInt8) :
    Client.Follows handle (decoder.decode value).1 (text ++ (decoder.decode value).2) (s.receive handle value) := by
  have some_ := Python.splitOn_ne_nil '\n' ((Python.splitOn '\n' text).getLastD [] ++ (decoder.decode value).2)
  constructor
  · show (s.decoder.decode value).1 = _
    rw [h.decoder]
  · show (Python.splitOn '\n' (s.buffer ++ (s.decoder.decode value).2)).getLastD [] = _
    rw [h.decoder, h.buffer, splitOn_append '\n' text]
    exact (getLastD_append _ some_).symm
  · show s.delivered ++ (Python.splitOn '\n' (s.buffer ++ (s.decoder.decode value).2)).dropLast.flatMap handle = _
    rw [h.decoder, h.buffer, h.delivered, splitOn_append '\n' text, List.dropLast_append_of_ne_nil some_,
      List.flatMap_append]

/-- **All chunks.** -/
theorem Client.Follows.receiveAll {decoder : TextDecoder} {text : List Char} {s : Client ε}
    (h : Client.Follows handle decoder text s) (chunks : List (List UInt8)) :
    ∃ decoder', Client.Follows handle decoder' (text ++ (decoder.decode chunks.flatten).2)
      (chunks.foldl (Client.receive handle) s) := by
  induction chunks generalizing decoder text s with
  | nil =>
    refine ⟨decoder, ?_⟩
    have nothing : (decoder.decode []).2 = [] := rfl
    rw [List.flatten_nil, nothing, List.append_nil]
    exact h
  | cons value chunks ih =>
    obtain ⟨decoder', follows⟩ := ih (h.receive value)
    refine ⟨decoder', ?_⟩
    rw [List.flatten_cons, TextDecoder.decode_append]
    rw [List.append_assoc] at follows
    exact follows

variable (parse : List Char → Option ε)

/-- A line without a `data: ` field hands nothing over in either loop. -/
theorem handleLine_eq (line : List Char) : handleLine parse line = consume parse line := by
  rw [handleLine, consume]
  split
  · next blank =>
    rw [blank]
    rfl
  · rfl

theorem handleRemaining_eq (buffer : List Char) : handleRemaining parse buffer = consume parse buffer := by
  rw [handleRemaining, consume]
  split
  · next empty =>
    rw [empty]
    rfl
  · rfl

theorem consume_blank {line : List Char} (blank : trim line = []) : consume parse line = [] := by
  rw [consume, blank]
  rfl

/-- The text of a stream. -/
def decoded (bytes : List UInt8) : List Char :=
  (TextDecoder.new.decode bytes).2

theorem flatMap_lines (lines : List (List Char)) (some_ : lines ≠ []) :
    lines.dropLast.flatMap handle ++ handle (lines.getLastD []) = lines.flatMap handle := by
  have last : lines.dropLast ++ [lines.getLastD []] = lines := by
    rw [List.getLastD_eq_getLast?, List.getLast?_eq_getLast_of_ne_nil some_]
    exact List.dropLast_append_getLast some_
  calc lines.dropLast.flatMap handle ++ handle (lines.getLastD [])
      = (lines.dropLast ++ [lines.getLastD []]).flatMap handle := by
        rw [List.flatMap_append, List.flatMap_singleton]
    _ = lines.flatMap handle := by rw [last]

/-- **What `streamQuery` delivers** is in the lines of the decoded stream. -/
theorem streamQuery_lines (chunks : List (List UInt8)) :
    streamQuery parse chunks = (Python.splitOn '\n' (decoded chunks.flatten)).flatMap (consume parse) := by
  have same : handleLine parse = consume parse := funext (handleLine_eq parse)
  obtain ⟨-, -, buffer, delivered⟩ := (@Client.follows_start _ (consume parse)).receiveAll chunks
  rw [streamQuery, same, handleRemaining_eq, buffer, delivered]
  exact flatMap_lines _ (Python.splitOn_ne_nil _ _)

/-- **What `streamDecomposedQuery` delivers** is in the same lines. -/
theorem streamDecomposedQuery_lines (chunks : List (List UInt8)) :
    streamDecomposedQuery parse chunks = (Python.splitOn '\n' (decoded chunks.flatten)).flatMap (consume parse) := by
  obtain ⟨-, -, buffer, delivered⟩ := (@Client.follows_start _ (consume parse)).receiveAll chunks
  have residue (cs : List Char) : (if trim cs = [] then [] else consume parse cs) = consume parse cs := by
    split
    · next blank => exact (consume_blank parse blank).symm
    · rfl
  rw [streamDecomposedQuery, residue, buffer, delivered]
  exact flatMap_lines _ (Python.splitOn_ne_nil _ _)

end Clients

/-! ## Framed events -/

/-- `data: ` and the text of an event, and a blank line. -/
def eventFrame (t : List Char) : List Char :=
  dataField ++ (t ++ ['\n', '\n'])

theorem isTrimmed_visible {c : Char} (low : 32 < c.toNat) (high : c.toNat < 127) : isTrimmed c = false := by
  unfold isTrimmed
  simp only [Bool.or_eq_false_iff, Bool.and_eq_false_iff, decide_eq_false_iff_not]
  omega

theorem isBlank_trimmed {c : Char} (h : isBlank c = true) : isTrimmed c = true := by
  simp only [isBlank, Bool.or_eq_true, decide_eq_true_eq] at h
  rcases h with ((rfl | rfl) | rfl) | rfl <;> rfl

/-- **One framed event.** Trimming the line cuts nothing off the event's value. -/
theorem consume_event {t : List Char} {v : Json} (parses : jsonParse t = some v) :
    consume jsonParse (dataField ++ t) = [v] := by
  obtain ⟨j, read, -⟩ := Option.map_eq_some_iff.1 parses
  obtain ⟨trail, e, -, front, back, ends⟩ := Python.stripBy_parts isBlank t
  generalize t.takeWhile isBlank = lead at e front
  generalize Python.stripBy isBlank t = s at *
  obtain ⟨p, c, b, e', low, high, blank⟩ := loadsWith_ends read
  have solid : s ≠ [] := by
    rw [e']
    simp
  obtain ⟨open_, close⟩ := ends.resolve_right fun empty => solid empty.1
  have visible : s = p ++ [c] := by
    obtain ⟨s', d, e'', last⟩ := Spacing.closes_iff.1 close
    rcases List.eq_nil_or_concat' b with rfl | ⟨b', x, rfl⟩
    · exact e'
    · have same : d = x := by
        have tails : s' ++ [d] = (p ++ c :: b') ++ [x] := by
          rw [← e'', e']
          simp
        exact List.singleton_inj.1 (List.append_inj_right' tails rfl)
      have all := List.all_eq_true.1 blank x (by simp)
      rw [← same, last] at all
      cases all
  have trimmed : trim (dataField ++ t) = dataField ++ (lead ++ s) := by
    have whole : dataField ++ t = [] ++ ((dataField ++ (lead ++ s)) ++ trail) := by
      rw [e]
      simp
    rw [trim, whole]
    refine Python.stripBy_between ?_ ?_ rfl ?_
    · intro c mem
      cases mem
    · intro c mem
      exact isBlank_trimmed (back c mem)
    · refine Spacing.closes_iff.2 ⟨dataField ++ (lead ++ p), c, ?_, isTrimmed_visible low high⟩
      rw [visible]
      simp
  have field : dataField.isPrefixOf (dataField ++ (lead ++ s)) = true :=
    List.isPrefixOf_iff_prefix.2 (List.prefix_append _ _)
  have behind : (dataField ++ (lead ++ s)).drop 6 = lead ++ s := rfl
  have same : jsonParse (lead ++ s) = jsonParse t := by
    have cut : Python.stripBy isBlank (lead ++ s) = s := by
      have := @Python.stripBy_between isBlank lead s [] front (by simp) open_ close
      rwa [List.append_nil] at this
    have cut' : Python.stripBy isBlank t = s := by
      rw [e]
      exact Python.stripBy_between front back open_ close
    rw [jsonParse, jsonParse, cut, cut']
  rw [consume, trimmed, if_pos field, behind, same, parses]
  rfl

theorem splitOn_event {t : List Char} (line : '\n' ∉ t) (rest : List Char) :
    Python.splitOn '\n' (eventFrame t ++ rest) = (dataField ++ t) :: [] :: Python.splitOn '\n' rest := by
  have whole : '\n' ∉ dataField ++ t := by
    rw [List.mem_append, not_or]
    exact ⟨by decide, line⟩
  have framed : eventFrame t ++ rest = (dataField ++ t) ++ '\n' :: ([] ++ '\n' :: rest) := by
    rw [eventFrame]
    simp
  rw [framed, Python.splitOn_line whole, Python.splitOn_line List.not_mem_nil]

/-- The lines of framed events carry the events. -/
theorem lines_events {texts : List (List Char)} {values : List Json} (lines : ∀ t ∈ texts, '\n' ∉ t)
    (parse : texts.map jsonParse = values.map some) :
    (Python.splitOn '\n' (texts.flatMap eventFrame)).flatMap (consume jsonParse) = values := by
  induction texts generalizing values with
  | nil =>
    cases values with
    | nil => rfl
    | cons v vs => cases parse
  | cons t ts ih =>
    cases values with
    | nil => cases parse
    | cons v vs =>
      obtain ⟨first, rest⟩ := List.cons.inj parse
      rw [List.flatMap_cons, splitOn_event (lines t (by simp)), List.flatMap_cons, List.flatMap_cons,
        consume_event first, ih (fun t mem => lines t (by simp [mem])) rest]
      rfl

/-- **The stream clients do not depend on how the stream is cut.** Both hand over the events
they would for the whole stream in one chunk, and events framed by the server arrive once
each and in order. -/
theorem stream_chunks :
    (∀ {ε : Type} (parse : List Char → Option ε) (chunks : List (List UInt8)),
      streamQuery parse chunks = streamQuery parse [chunks.flatten] ∧
        streamDecomposedQuery parse chunks = streamQuery parse [chunks.flatten]) ∧
    ∀ (texts : List (List Char)) (values : List Json) (chunks : List (List UInt8)),
      (∀ t ∈ texts, '\n' ∉ t) → texts.map jsonParse = values.map some →
        chunks.flatten = encode (texts.flatMap eventFrame) →
          streamQuery jsonParse chunks = values ∧ streamDecomposedQuery jsonParse chunks = values := by
  refine ⟨fun parse chunks => ?_, fun texts values chunks lines parse bytes => ?_⟩
  · have whole : [chunks.flatten].flatten = chunks.flatten := by
      rw [List.flatten_singleton]
    rw [streamQuery_lines, streamQuery_lines, streamDecomposedQuery_lines, whole]
    exact ⟨rfl, rfl⟩
  · have plain : (texts.flatMap eventFrame).head? ≠ some byteOrderMark := by
      cases texts with
      | nil => simp
      | cons t ts =>
        show some 'd' ≠ some byteOrderMark
        decide
    have text : decoded chunks.flatten = texts.flatMap eventFrame := by
      rw [decoded, bytes]
      exact TextDecoder.decode_encode plain
    rw [streamQuery_lines, streamDecomposedQuery_lines, text, lines_events lines parse]
    exact ⟨rfl, rfl⟩

/-- Two events, cut inside a character, inside a value and before the last newline. -/
def sampleStream : List (List UInt8) :=
  let bytes := encode ("data: \"é\"\n\ndata: [1]\n\n".toList)
  [bytes.take 8, (bytes.drop 8).take 12, bytes.drop 20]

theorem stream_chunks_sample :
    streamQuery jsonParse sampleStream = [.str "é", jsValue (.arr [.int 1])] ∧
      streamDecomposedQuery jsonParse sampleStream = [.str "é", jsValue (.arr [.int 1])] :=
  stream_chunks.2 ["\"é\"".toList, "[1]".toList] _ _ (by decide +kernel) (by decide +kernel) (by decide +kernel)

end Browser
