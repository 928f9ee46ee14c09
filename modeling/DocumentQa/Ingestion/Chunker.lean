import DocumentQa.Lib.Checked
import DocumentQa.Lib.Packing
import DocumentQa.Lib.Utf8
import DocumentQa.Python.Search

/-!
# Chunks of a section

A section is split at separators until its pieces are short enough, and the pieces are packed
into chunks that overlap. `Covered` says what the chunks should be. They are so only when no
piece is split into several sentences and no window of tokens ends inside a character, and then
indeed when every blank window has room for the unit behind it (`chunkText_covers`): the sentence
separator has a full stop, which the split drops. The tokenizer is a parameter.
-/

namespace Ingestion

open Python Spacing

/-- A tokenizer: tokens stand for bytes, a text is encoded by tokens for its own bytes, and neither
stripping a text nor decoding a slice of tokens makes it longer. -/
structure Tokenizer where
  Token : Type
  /-- `ENCODING.encode` -/
  encode : List Char → List Token
  bytes : Token → List UInt8
  bytes_some : ∀ token, bytes token ≠ []
  encode_bytes : ∀ text, (encode text).flatMap bytes = Utf8.encode text
  strip_le : ∀ text, (encode (stripBy isSpace text)).length ≤ (encode text).length
  slice_le : ∀ text slice, slice <:+: encode text → (encode (Utf8.decode (slice.flatMap bytes))).length ≤ slice.length

variable (k : Tokenizer)

/-- `ENCODING.decode`. -/
def Tokenizer.decode (tokens : List k.Token) : List Char :=
  Utf8.decode (tokens.flatMap k.bytes)

def countTokens (text : List Char) : Nat :=
  (k.encode text).length

/-! ## Splitting -/

def separators : List (List Char) :=
  [['\n', '\n'], ['\n'], ['.', ' '], [' ']]

def chunkJoinSeparator : List Char :=
  ['\n', '\n']

/-- `_split_by_separator`. -/
def splitBySeparator (text separator : List Char) : List (List Char) :=
  ((splitText separator 0 text).map (stripBy isSpace)).filter fun part => !part.isEmpty

/-- `tokens[i:i + n] for i in range(0, len(tokens), n)`, in at most so many windows. -/
def windows {α : Type} (n : Nat) : Nat → List α → List (List α)
  | 0, _ => []
  | fuel + 1, tokens => if tokens.isEmpty then [] else tokens.take n :: windows n fuel (tokens.drop n)

/-- The windows of the tokens of a text. -/
def tokenWindows (maxTokens : Nat) (text : List Char) : List (List k.Token) :=
  windows maxTokens (k.encode text).length (k.encode text)

/-- `_recursive_split`. -/
def recursiveSplit (maxTokens : Nat) : List (List Char) → List Char → List (List Char)
  | [], text =>
    if countTokens k text ≤ maxTokens then [stripBy isSpace text]
    else (tokenWindows k maxTokens text).map fun window => stripBy isSpace (k.decode window)
  | separator :: rest, text =>
    if countTokens k text ≤ maxTokens then [stripBy isSpace text]
    else
      let parts := splitBySeparator text separator
      if parts.length = 1 then recursiveSplit maxTokens rest text else parts.flatMap (recursiveSplit maxTokens rest)

/-! ## Packing -/

/-- `CHUNK_JOIN_SEPARATOR.join(units)`. -/
def joinUnits (units : List (List Char)) : List Char :=
  chunkJoinSeparator.intercalate units

/-- The loop over `reversed(current)`. -/
def keepLast (overlap : Nat) : List (List Char) → List (List Char) → List (List Char)
  | [], kept => kept
  | previous :: earlier, kept =>
    if overlap < countTokens k (joinUnits (previous :: kept)) then kept else keepLast overlap earlier (previous :: kept)

/-- `kept` behind the loop, when it leaves room for the unit. -/
def keptUnits (chunkSize overlap : Nat) (current : List (List Char)) (unit : List Char) : List (List Char) :=
  let kept := keepLast k overlap current.reverse []
  if kept ≠ [] ∧ chunkSize < countTokens k (joinUnits (kept ++ [unit])) then [] else kept

/-- One unit of the loop of `chunk_text`: the chunks and the units of the current one. -/
def chunkUnit (chunkSize overlap : Nat) (s : List (List Char) × List (List Char)) (unit : List Char) :
    List (List Char) × List (List Char) :=
  if s.2 ≠ [] ∧ chunkSize < countTokens k (joinUnits (s.2 ++ [unit])) then
    (s.1 ++ [joinUnits s.2], keptUnits k chunkSize overlap s.2 unit ++ [unit])
  else (s.1, s.2 ++ [unit])

/-- `chunk_text`. -/
def chunkText (text : List Char) (chunkSize overlap : Nat) : Except String (List (List Char)) :=
  if chunkSize ≤ overlap then .error "overlap must be smaller than chunk_size"
  else
    let units := recursiveSplit k chunkSize separators text
    let (chunks, current) := units.foldl (chunkUnit k chunkSize overlap) ([], [])
    .ok (if current ≠ [] then chunks ++ [joinUnits current] else chunks)

/-! ## What the chunks should be -/

/-- The text without its blanks. -/
def solid (text : List Char) : List Char :=
  text.filter fun c => !isSpace c

/-- The units of the text in groups, those carried over kept apart. -/
def chunkGroups (text : List Char) (chunkSize overlap : Nat) : List (Packing.Group (List Char)) :=
  Packing.pack (fun units => decide (countTokens k (joinUnits units) ≤ chunkSize)) (keptUnits k chunkSize overlap)
    (recursiveSplit k chunkSize separators text)

/-- The chunk of a group without the prefix that was carried over. -/
def freshText (g : Packing.Group (List Char)) : List Char :=
  (joinUnits g.all).drop (joinUnits g.carried).length

/-- Every chunk has some text and no more tokens than allowed; it is a prefix carried over and fresh
text, the fresh texts in order are the text up to blanks, and each prefix is a suffix of the chunk
before, of no more tokens than the overlap. -/
structure Covered (text : List Char) (chunkSize overlap : Nat) : Prop where
  chunks : chunkText k text chunkSize overlap = .ok ((chunkGroups k text chunkSize overlap).map fun g => joinUnits g.all)
  bounded : ∀ g ∈ chunkGroups k text chunkSize overlap,
    joinUnits g.all ≠ [] ∧ countTokens k (joinUnits g.all) ≤ chunkSize ∧ joinUnits g.all = joinUnits g.carried ++ freshText g
  whole : solid ((chunkGroups k text chunkSize overlap).flatMap freshText) = solid text
  first : ∀ g ∈ (chunkGroups k text chunkSize overlap).head?, joinUnits g.carried = []
  overlaps : (chunkGroups k text chunkSize overlap).IsChain fun g h =>
    joinUnits h.carried <:+ joinUnits g.all ∧ countTokens k (joinUnits h.carried) ≤ overlap

/-- No piece that is too long is split by a separator that is not blank. -/
def KeepsSentences (maxTokens : Nat) : List (List Char) → List Char → Prop
  | [], _ => True
  | separator :: rest, text => maxTokens < countTokens k text →
    if (splitBySeparator text separator).length = 1 then KeepsSentences maxTokens rest text
    else (∀ c ∈ separator, isSpace c = true) ∧ ∀ part ∈ splitBySeparator text separator, KeepsSentences maxTokens rest part

/-- No window of tokens ends inside a character. -/
def KeepsCharacters (maxTokens : Nat) : List (List Char) → List Char → Prop
  | [], text => maxTokens < countTokens k text →
    Utf8.Aligned ((tokenWindows k maxTokens text).map fun window => window.flatMap k.bytes)
  | separator :: rest, text => maxTokens < countTokens k text →
    if (splitBySeparator text separator).length = 1 then KeepsCharacters maxTokens rest text
    else ∀ part ∈ splitBySeparator text separator, KeepsCharacters maxTokens rest part

/-- Behind a unit that is empty, as a window of blanks is, stands a unit that fits into a chunk with it. -/
def BlanksFit (chunkSize : Nat) (units : List (List Char)) : Prop :=
  ∀ before behind, units = before ++ [] :: behind →
    ∃ unit ∈ behind.head?, countTokens k (joinUnits [[], unit]) ≤ chunkSize

variable {k}

/-! ## Blanks -/

theorem solid_append (s t : List Char) : solid (s ++ t) = solid s ++ solid t :=
  List.filter_append ..

theorem solid_blank {t : List Char} (h : ∀ c ∈ t, isSpace c = true) : solid t = [] := by
  apply List.filter_eq_nil_iff.2
  intro c mem
  simp [h c mem]

theorem solid_strip (text : List Char) : solid (stripBy isSpace text) = solid text := by
  obtain ⟨trail, whole, -, lead, behind, -⟩ := stripBy_parts isSpace text
  have parts := congrArg solid whole
  rw [solid_append, solid_append, solid_blank lead, solid_blank behind, List.nil_append, List.append_nil] at parts
  exact parts.symm

theorem solid_flatten (parts : List (List Char)) : solid parts.flatten = parts.flatMap solid := by
  induction parts with
  | nil => rfl
  | cons part parts ih => rw [List.flatten_cons, solid_append, ih, List.flatMap_cons]

theorem solid_intercalate {separator : List Char} (blank : ∀ c ∈ separator, isSpace c = true) (parts : List (List Char)) :
    solid (separator.intercalate parts) = parts.flatMap solid := by
  induction parts with
  | nil => rfl
  | cons part parts ih =>
    cases parts with
    | nil => simp [List.intercalate_singleton]
    | cons next parts =>
      rw [List.intercalate_cons_cons, solid_append, solid_append, solid_blank blank, List.append_nil, ih,
        @List.flatMap_cons _ _ part]

theorem solid_joinUnits (units : List (List Char)) : solid (joinUnits units) = units.flatMap solid := by
  apply solid_intercalate
  intro c mem
  have all : chunkJoinSeparator.all isSpace = true := by decide
  exact List.all_eq_true.1 all c mem

/-- Stripped parts have the solid characters of the parts. -/
theorem solid_split (text separator : List Char) :
    (splitBySeparator text separator).flatMap solid = (splitText separator 0 text).flatMap solid := by
  rw [splitBySeparator]
  induction splitText separator 0 text with
  | nil => rfl
  | cons part parts ih =>
    rw [List.map_cons, List.filter_cons, List.flatMap_cons]
    split
    · rw [List.flatMap_cons, solid_strip, ih]
    · next empty =>
      have none_ : stripBy isSpace part = [] := by simpa using empty
      rw [ih, ← solid_strip part, none_]
      rfl

/-- A character that is no blank is counted among the solid ones. -/
theorem count_solid {d : Char} (h : isSpace d = false) (text : List Char) : (solid text).count d = text.count d :=
  List.count_filter (by rw [h]; rfl)

/-! ## Windows -/

section Windows

variable {α : Type} {n : Nat}

theorem windows_flatten (some_ : 0 < n) (fuel : Nat) (tokens : List α) (enough : tokens.length ≤ fuel) :
    (windows n fuel tokens).flatten = tokens := by
  induction fuel generalizing tokens with
  | zero =>
    rw [List.length_eq_zero_iff.1 (Nat.le_zero.1 enough)]
    rfl
  | succ fuel ih =>
    rw [windows]
    split
    · next empty =>
      rw [List.isEmpty_iff.1 empty]
      rfl
    · next more =>
      have long : 0 < tokens.length := List.length_pos_iff.2 fun none_ => more (by rw [none_]; rfl)
      rw [List.flatten_cons, ih _ (by rw [List.length_drop]; omega), List.take_append_drop]

theorem mem_windows {fuel : Nat} {tokens window : List α} (mem : window ∈ windows n fuel tokens) :
    window <:+: tokens ∧ window.length ≤ n := by
  induction fuel generalizing tokens with
  | zero => cases mem
  | succ fuel ih =>
    rw [windows] at mem
    split at mem
    · cases mem
    · rcases List.mem_cons.1 mem with rfl | mem
      · refine ⟨(List.take_prefix _ _).isInfix, ?_⟩
        rw [List.length_take]
        exact Nat.min_le_left _ _
      · obtain ⟨part, short⟩ := ih mem
        exact ⟨part.trans (List.drop_suffix _ _).isInfix, short⟩

end Windows

/-- The bytes of the windows are those of the text. -/
theorem tokenWindows_pieces {maxTokens : Nat} (some_ : 0 < maxTokens) (text : List Char) :
    Utf8.Pieces ((tokenWindows k maxTokens text).map fun window => window.flatMap k.bytes) [] text := by
  apply Utf8.pieces_of_flatten
  have whole := windows_flatten some_ _ (k.encode text) (Nat.le_refl _)
  rw [List.nil_append, ← k.encode_bytes, ← List.flatMap_def, tokenWindows]
  conv_rhs => rw [← whole]
  rw [List.flatten_eq_flatMap, List.flatMap_assoc]
  rfl

/-! ## Units -/

theorem countTokens_nil : countTokens k [] = 0 := by
  have none_ := k.encode_bytes []
  rw [countTokens]
  cases parts : k.encode [] with
  | nil => rfl
  | cons token tokens =>
    rw [parts, List.flatMap_cons] at none_
    exact absurd (List.append_eq_nil_iff.1 none_).1 (k.bytes_some token)

/-- Every unit is short enough. -/
theorem recursiveSplit_short {maxTokens : Nat} {seps : List (List Char)} {text unit : List Char}
    (mem : unit ∈ recursiveSplit k maxTokens seps text) : countTokens k unit ≤ maxTokens := by
  have whole : ∀ text : List Char, countTokens k text ≤ maxTokens → unit ∈ [stripBy isSpace text] →
      countTokens k unit ≤ maxTokens := by
    intro text short mem
    rw [List.mem_singleton.1 mem]
    exact Nat.le_trans (k.strip_le text) short
  induction seps generalizing text with
  | nil =>
    rw [recursiveSplit] at mem
    split at mem
    · next short => exact whole text short mem
    · obtain ⟨window, known, rfl⟩ := List.mem_map.1 mem
      obtain ⟨part, short⟩ := mem_windows known
      exact Nat.le_trans (k.strip_le _) (Nat.le_trans (k.slice_le text window part) short)
  | cons separator rest ih =>
    rw [recursiveSplit] at mem
    dsimp only at mem
    split at mem
    · next short => exact whole text short mem
    · split at mem
      · exact ih mem
      · obtain ⟨part, -, inside⟩ := List.mem_flatMap.1 mem
        exact ih inside

/-! ## What splitting keeps -/

/-- Sums of counts that are no larger one by one. -/
theorem flatMap_countP_le {α β : Type} {P : β → Bool} {l : List α} {f g : α → List β}
    (each : ∀ a ∈ l, (f a).countP P ≤ (g a).countP P) :
    (l.flatMap f).countP P ≤ (l.flatMap g).countP P ∧
      ((l.flatMap f).countP P = (l.flatMap g).countP P → ∀ a ∈ l, (f a).countP P = (g a).countP P) := by
  induction l with
  | nil => exact ⟨Nat.le_refl _, fun _ a mem => absurd mem List.not_mem_nil⟩
  | cons b l ih =>
    obtain ⟨bound, equal⟩ := ih fun a mem => each a (List.mem_cons_of_mem _ mem)
    have first := each b (List.mem_cons_self ..)
    rw [List.flatMap_cons, List.flatMap_cons, List.countP_append, List.countP_append]
    refine ⟨by omega, ?_⟩
    intro same a mem
    rcases List.mem_cons.1 mem with rfl | mem
    · omega
    · exact equal (by omega) a mem

theorem count_intercalate (d : Char) (separator : List Char) {parts : List (List Char)} (some_ : parts ≠ []) :
    (separator.intercalate parts).count d + separator.count d =
      (parts.flatMap id).count d + parts.length * separator.count d := by
  induction parts with
  | nil => exact absurd rfl some_
  | cons part parts ih =>
    cases parts with
    | nil => simp [List.intercalate_singleton]
    | cons next parts =>
      have rest := ih (List.cons_ne_nil _ _)
      rw [List.intercalate_cons_cons, @List.flatMap_cons _ _ part, List.count_append, List.count_append, List.count_append,
        List.length_cons, Nat.succ_mul]
      simp only [id] at rest ⊢
      omega

/-- A split drops its separators. -/
theorem count_split {separator : List Char} (some_ : separator ≠ []) (text : List Char) :
    (solid text).count '.' + separator.count '.' =
      ((splitBySeparator text separator).flatMap solid).count '.' + (splitText separator 0 text).length * separator.count '.' := by
  have whole := splitText_intercalate some_ 0 text
  have counted := count_intercalate '.' separator (splitText_ne_nil separator 0 text)
  rw [whole, List.drop_zero, ← count_solid rfl text] at counted
  have solids : ((splitText separator 0 text).flatMap id).count '.' = ((splitText separator 0 text).flatMap solid).count '.' := by
    rw [← solid_flatten, count_solid rfl, List.flatMap_id]
  rw [counted, solids, solid_split]

/-- A part that is left is not blank. -/
theorem split_part_solid {text separator part : List Char} (mem : part ∈ splitBySeparator text separator) : solid part ≠ [] := by
  obtain ⟨known, some_⟩ := List.mem_filter.1 mem
  obtain ⟨raw, -, rfl⟩ := List.mem_map.1 known
  obtain ⟨-, -, -, -, -, ⟨open_, -⟩ | ⟨empty, -⟩⟩ := stripBy_parts isSpace raw
  · obtain ⟨c, rest, parts, visible⟩ := opens_iff.1 open_
    rw [parts]
    apply List.ne_nil_of_mem (a := c)
    exact List.mem_filter.2 ⟨List.mem_cons_self .., by rw [visible]; rfl⟩
  · rw [empty] at some_
    cases some_

/-- A text that is not split is its own part. -/
theorem split_one {separator text : List Char} (some_ : separator ≠ []) (visible : solid text ≠ [])
    (one : (splitText separator 0 text).length = 1) : (splitBySeparator text separator).length = 1 := by
  obtain ⟨raw, parts⟩ := List.length_eq_one_iff.1 one
  have whole := splitText_intercalate some_ 0 text
  rw [parts, List.intercalate_singleton, List.drop_zero] at whole
  subst whole
  have kept : (!(stripBy isSpace raw).isEmpty) = true := by
    cases stripped : stripBy isSpace raw with
    | nil =>
      rw [← solid_strip, stripped] at visible
      exact absurd rfl visible
    | cons c cs => rfl
  rw [splitBySeparator, parts, List.map_singleton, List.filter_cons, if_pos kept]
  rfl

/-- The units of the windows have the solid characters of the decoded windows. -/
theorem window_units (maxTokens : Nat) (text : List Char) :
    ((tokenWindows k maxTokens text).map fun window => stripBy isSpace (k.decode window)).flatMap solid =
      solid (((tokenWindows k maxTokens text).map fun window => window.flatMap k.bytes).flatMap Utf8.decode) := by
  induction tokenWindows k maxTokens text with
  | nil => rfl
  | cons window rest ih =>
    rw [List.map_cons, List.flatMap_cons, List.map_cons, List.flatMap_cons, solid_append, solid_strip, ih]
    rfl

/-- A separator is blank or holds a full stop. -/
def Separates (separator : List Char) : Prop :=
  separator ≠ [] ∧ ((∀ c ∈ separator, isSpace c = true) ∨ 0 < separator.count '.')

theorem separators_separate : ∀ separator ∈ separators, Separates separator := by
  have all : separators.all (fun s => !s.isEmpty && (s.all isSpace || decide (0 < s.count '.'))) = true := by decide
  intro separator mem
  have kind := List.all_eq_true.1 all separator mem
  simp only [Bool.and_eq_true, Bool.or_eq_true, decide_eq_true_eq, List.all_eq_true] at kind
  exact ⟨by simpa using kind.1, kind.2⟩

/-- A text that is short enough is a unit. -/
theorem solid_alone (text : List Char) : [stripBy isSpace text].flatMap solid = solid text := by
  rw [List.flatMap_singleton, solid_strip]

/-- **No full stop is gained, and none is lost only if no sentences were split.** -/
theorem split_stops {maxTokens : Nat} (some_ : 0 < maxTokens) {seps : List (List Char)}
    (separate : ∀ separator ∈ seps, Separates separator) {text : List Char} (visible : solid text ≠ []) :
    ((recursiveSplit k maxTokens seps text).flatMap solid).count '.' ≤ (solid text).count '.' ∧
      (((recursiveSplit k maxTokens seps text).flatMap solid).count '.' = (solid text).count '.' →
        KeepsSentences k maxTokens seps text) := by
  induction seps generalizing text with
  | nil =>
    rw [recursiveSplit]
    refine ⟨?_, fun _ => trivial⟩
    split
    · rw [solid_alone]
    · have same := @Utf8.pieces_count '.' rfl (by decide) _ _ _ (@tokenWindows_pieces k maxTokens some_ text)
        fun b mem => absurd mem List.not_mem_nil
      rw [window_units, count_solid rfl, same, count_solid rfl]
  | cons separator rest ih =>
    have restSeparate : ∀ sep ∈ rest, Separates sep := fun sep mem => separate sep (List.mem_cons_of_mem _ mem)
    rw [recursiveSplit, KeepsSentences]
    dsimp only
    split
    · next short =>
      rw [solid_alone]
      exact ⟨Nat.le_refl _, fun _ long => absurd short (Nat.not_le_of_lt long)⟩
    · split
      · obtain ⟨bound, keeps⟩ := ih restSeparate visible
        exact ⟨bound, fun same _ => keeps same⟩
      · next more =>
        obtain ⟨nonempty, kind⟩ := separate separator (List.mem_cons_self ..)
        have parts : ∀ part ∈ splitBySeparator text separator, _ :=
          fun part mem => ih restSeparate (split_part_solid mem)
        obtain ⟨bound, equal⟩ := flatMap_countP_le fun part mem => (parts part mem).1
        have dropped := count_split nonempty text
        have some' := List.length_pos_of_ne_nil (splitText_ne_nil separator 0 text)
        obtain ⟨n, size⟩ := Nat.exists_eq_add_of_le' some'
        rw [size, Nat.succ_mul] at dropped
        rw [List.flatMap_assoc]
        simp only [List.count] at bound equal dropped ⊢
        refine ⟨by omega, ?_⟩
        intro same _
        have none_ : n * separator.countP (· == '.') = 0 := by omega
        refine ⟨?_, fun part mem => (parts part mem).2 (equal (by omega) part mem)⟩
        rcases kind with blank | stop
        · exact blank
        · have one : n = 0 := (Nat.mul_eq_zero.1 none_).resolve_right (Nat.ne_of_gt stop)
          exact absurd (split_one nonempty visible (by omega)) more

theorem solid_length (text : List Char) : (solid text).length = text.countP fun c => !isSpace c :=
  List.countP_eq_length_filter.symm

/-- **Without a split of sentences no character is lost, and none is gained only if no window of tokens
ends inside a character.** -/
theorem split_length {maxTokens : Nat} (some_ : 0 < maxTokens) {seps : List (List Char)}
    (separate : ∀ separator ∈ seps, Separates separator) {text : List Char}
    (keeps : KeepsSentences k maxTokens seps text) :
    (solid text).length ≤ ((recursiveSplit k maxTokens seps text).flatMap solid).length ∧
      ((solid text).length = ((recursiveSplit k maxTokens seps text).flatMap solid).length →
        KeepsCharacters k maxTokens seps text) := by
  induction seps generalizing text with
  | nil =>
    rw [recursiveSplit, KeepsCharacters]
    split
    · next short =>
      rw [solid_alone]
      exact ⟨Nat.le_refl _, fun _ long => absurd short (Nat.not_le_of_lt long)⟩
    · obtain ⟨bound, aligned⟩ := @Utf8.pieces_countP (fun c => !isSpace c) (by decide) _ _ _
        (@tokenWindows_pieces k maxTokens some_ text) fun b mem => absurd mem List.not_mem_nil
      rw [List.length_nil, Nat.zero_add] at bound
      rw [window_units, solid_length, solid_length]
      exact ⟨bound, fun same _ => aligned rfl same.symm⟩
  | cons separator rest ih =>
    have restSeparate : ∀ sep ∈ rest, Separates sep := fun sep mem => separate sep (List.mem_cons_of_mem _ mem)
    rw [KeepsSentences] at keeps
    rw [recursiveSplit, KeepsCharacters]
    dsimp only
    split
    · next short =>
      rw [solid_alone]
      exact ⟨Nat.le_refl _, fun _ long => absurd short (Nat.not_le_of_lt long)⟩
    · next long =>
      replace keeps := keeps (Nat.lt_of_not_le long)
      split at keeps
      · next one =>
        rw [if_pos one, if_pos one]
        obtain ⟨bound, characters⟩ := ih restSeparate keeps
        exact ⟨bound, fun same _ => characters same⟩
      · next more =>
        rw [if_neg more, if_neg more]
        obtain ⟨blank, sentences⟩ := keeps
        have parts : ∀ part ∈ splitBySeparator text separator, _ :=
          fun part mem => ih restSeparate (sentences part mem)
        have whole := splitText_intercalate (separate separator (List.mem_cons_self ..)).1 0 text
        have same := solid_intercalate blank (splitText separator 0 text)
        rw [whole, List.drop_zero, ← solid_split] at same
        obtain ⟨bound, equal⟩ := @flatMap_countP_le _ _ (fun _ => true) (splitBySeparator text separator) solid
          (fun part => (recursiveSplit k maxTokens rest part).flatMap solid) fun part mem => by
            simpa only [List.countP_true] using (parts part mem).1
        simp only [List.countP_true] at bound equal
        rw [List.flatMap_assoc, same]
        exact ⟨bound, fun even _ part mem => (parts part mem).2 (equal even part mem)⟩

/-- **Then the units are the text up to blanks.** -/
theorem split_solid {maxTokens : Nat} (some_ : 0 < maxTokens) {seps : List (List Char)}
    (separate : ∀ separator ∈ seps, Separates separator) {text : List Char}
    (sentences : KeepsSentences k maxTokens seps text) (characters : KeepsCharacters k maxTokens seps text) :
    (recursiveSplit k maxTokens seps text).flatMap solid = solid text := by
  induction seps generalizing text with
  | nil =>
    rw [KeepsCharacters] at characters
    rw [recursiveSplit]
    split
    · exact solid_alone text
    · next long =>
      have aligned := characters (Nat.lt_of_not_le long)
      have bytes : ((tokenWindows k maxTokens text).map fun window => window.flatMap k.bytes).flatten = Utf8.encode text := by
        have whole := windows_flatten some_ _ (k.encode text) (Nat.le_refl _)
        rw [← k.encode_bytes, ← List.flatMap_def, tokenWindows]
        conv_rhs => rw [← whole]
        rw [List.flatten_eq_flatMap, List.flatMap_assoc]
        rfl
      rw [window_units, aligned.decode bytes]
  | cons separator rest ih =>
    have restSeparate : ∀ sep ∈ rest, Separates sep := fun sep mem => separate sep (List.mem_cons_of_mem _ mem)
    rw [KeepsSentences] at sentences
    rw [KeepsCharacters] at characters
    rw [recursiveSplit]
    dsimp only
    split
    · exact solid_alone text
    · next long =>
      replace sentences := sentences (Nat.lt_of_not_le long)
      replace characters := characters (Nat.lt_of_not_le long)
      split at sentences
      · next one =>
        rw [if_pos one] at characters ⊢
        exact ih restSeparate sentences characters
      · next more =>
        rw [if_neg more] at characters ⊢
        have whole := splitText_intercalate (separate separator (List.mem_cons_self ..)).1 0 text
        have same := solid_intercalate sentences.1 (splitText separator 0 text)
        rw [whole, List.drop_zero, ← solid_split] at same
        rw [List.flatMap_assoc, same]
        exact List.flatMap_congr fun part mem => ih restSeparate (sentences.2 part mem) (characters part mem)

/-! ## Packing -/

/-- What is carried over ends the chunk, is no longer than the overlap and leaves room for the unit. -/
theorem keepLast_spec (overlap : Nat) (earlier kept : List (List Char)) :
    keepLast k overlap earlier kept <:+ earlier.reverse ++ kept ∧
      (countTokens k (joinUnits kept) ≤ overlap → countTokens k (joinUnits (keepLast k overlap earlier kept)) ≤ overlap) := by
  induction earlier generalizing kept with
  | nil => exact ⟨List.suffix_refl _, fun short => short⟩
  | cons previous earlier ih =>
    rw [keepLast]
    split
    · exact ⟨List.suffix_append _ _, fun short => short⟩
    · next short =>
      obtain ⟨suffix, bound⟩ := ih (previous :: kept)
      rw [List.reverse_cons, List.append_assoc]
      exact ⟨suffix, fun _ => bound (Nat.le_of_not_lt short)⟩

theorem keptUnits_spec {chunkSize : Nat} (overlap : Nat) (current : List (List Char)) {unit : List Char}
    (short : countTokens k unit ≤ chunkSize) :
    countTokens k (joinUnits (keptUnits k chunkSize overlap current unit ++ [unit])) ≤ chunkSize ∧
      keptUnits k chunkSize overlap current unit <:+ current ∧
      countTokens k (joinUnits (keptUnits k chunkSize overlap current unit)) ≤ overlap := by
  have none_ : countTokens k (joinUnits []) = 0 := countTokens_nil
  have single : countTokens k (joinUnits [unit]) ≤ chunkSize := by
    rwa [joinUnits, List.intercalate_singleton]
  obtain ⟨suffix, bound⟩ := @keepLast_spec k overlap current.reverse []
  rw [List.reverse_reverse, List.append_nil] at suffix
  rw [keptUnits]
  split
  · exact ⟨single, List.nil_suffix, by omega⟩
  · next room =>
    refine ⟨?_, suffix, bound (by omega)⟩
    by_cases empty : keepLast k overlap current.reverse [] = []
    · rw [empty]
      exact single
    · by_contra tight
      exact room ⟨empty, Nat.lt_of_not_le tight⟩

/-- The loop of `chunk_text` packs its units into groups. -/
theorem chunkUnit_step (chunkSize overlap : Nat) (s : List (Packing.Group (List Char)) × Packing.Group (List Char))
    (unit : List Char) :
    chunkUnit k chunkSize overlap (s.1.map fun g => joinUnits g.all, s.2.all) unit =
      ((Packing.step (fun units => decide (countTokens k (joinUnits units) ≤ chunkSize)) (keptUnits k chunkSize overlap)
        s unit).1.map fun g => joinUnits g.all,
        (Packing.step (fun units => decide (countTokens k (joinUnits units) ≤ chunkSize)) (keptUnits k chunkSize overlap)
          s unit).2.all) := by
  have same : (s.2.all ≠ [] ∧ chunkSize < countTokens k (joinUnits (s.2.all ++ [unit]))) =
      (s.2.all ≠ [] ∧ decide (countTokens k (joinUnits (s.2.all ++ [unit])) ≤ chunkSize) = false) := by
    rw [decide_eq_false_iff_not, Nat.not_le]
  rw [chunkUnit, Packing.step]
  dsimp only
  simp only [same]
  split
  · rw [List.map_append]
    rfl
  · rw [Packing.Group.add_all]

theorem chunkText_eq {text : List Char} {chunkSize overlap : Nat} (order : overlap < chunkSize) :
    chunkText k text chunkSize overlap = .ok ((chunkGroups k text chunkSize overlap).map fun g => joinUnits g.all) := by
  have run : ∀ (units : List (List Char)) (s : List (Packing.Group (List Char)) × Packing.Group (List Char)),
      units.foldl (chunkUnit k chunkSize overlap) (s.1.map fun g => joinUnits g.all, s.2.all) =
        ((units.foldl (Packing.step (fun units => decide (countTokens k (joinUnits units) ≤ chunkSize))
          (keptUnits k chunkSize overlap)) s).1.map fun g => joinUnits g.all,
          (units.foldl (Packing.step (fun units => decide (countTokens k (joinUnits units) ≤ chunkSize))
            (keptUnits k chunkSize overlap)) s).2.all) := by
    intro units
    induction units with
    | nil => exact fun s => rfl
    | cons unit units ih =>
      intro s
      rw [List.foldl_cons, List.foldl_cons, chunkUnit_step, ih]
  rw [chunkText, if_neg (Nat.not_le_of_lt order)]
  have whole := run (recursiveSplit k chunkSize separators text) ([], ⟨[], []⟩)
  replace whole : (recursiveSplit k chunkSize separators text).foldl (chunkUnit k chunkSize overlap) ([], []) = _ := whole
  dsimp only
  rw [whole, chunkGroups, Packing.pack, Packing.close]
  generalize (recursiveSplit k chunkSize separators text).foldl _ _ = s
  dsimp only
  by_cases empty : s.2.all = []
  · rw [if_neg (not_not.2 empty), if_pos empty]
  · rw [if_pos empty, if_neg empty, List.map_append, List.map_singleton]

/-! ## Chunks -/

theorem joinUnits_cons (unit next : List Char) (units : List (List Char)) :
    joinUnits (unit :: next :: units) = unit ++ chunkJoinSeparator ++ joinUnits (next :: units) :=
  List.intercalate_cons_cons

theorem joinUnits_prefix (a b : List (List Char)) : joinUnits a <+: joinUnits (a ++ b) := by
  induction a with
  | nil => exact List.nil_prefix
  | cons unit a ih =>
    cases a with
    | nil =>
      cases b with
      | nil => exact List.prefix_refl _
      | cons next b =>
        rw [List.singleton_append, joinUnits_cons, joinUnits, List.intercalate_singleton, List.append_assoc]
        exact List.prefix_append _ _
    | cons next a =>
      rw [List.cons_append, List.cons_append, joinUnits_cons, joinUnits_cons]
      exact (List.prefix_append_right_inj _).2 ih

theorem joinUnits_suffix {a b : List (List Char)} (h : a <:+ b) : joinUnits a <:+ joinUnits b := by
  obtain ⟨front, rfl⟩ := h
  induction front with
  | nil => exact List.suffix_refl _
  | cons unit front ih =>
    apply ih.trans
    cases rest : front ++ a with
    | nil => exact List.nil_suffix
    | cons next units =>
      rw [List.cons_append, rest, joinUnits_cons]
      exact List.suffix_append _ _

theorem joinUnits_eq_nil {units : List (List Char)} (some_ : units ≠ []) : joinUnits units = [] ↔ units = [[]] := by
  cases units with
  | nil => exact absurd rfl some_
  | cons unit units =>
    cases units with
    | nil => rw [joinUnits, List.intercalate_singleton, List.cons_eq_cons, and_iff_left rfl]
    | cons next units =>
      rw [joinUnits_cons]
      constructor
      · intro empty
        have none_ := (List.append_eq_nil_iff.1 (List.append_eq_nil_iff.1 empty).1).2
        cases none_
      · rintro ⟨⟩

/-- A chunk is what was carried over and the fresh text. -/
theorem freshText_eq (g : Packing.Group (List Char)) : joinUnits g.all = joinUnits g.carried ++ freshText g := by
  obtain ⟨rest, whole⟩ := joinUnits_prefix g.carried g.fresh
  rw [freshText, Packing.Group.all, ← whole, List.drop_left]

theorem solid_freshText (g : Packing.Group (List Char)) : solid (freshText g) = g.fresh.flatMap solid := by
  have whole := congrArg solid (freshText_eq g)
  rw [solid_append, solid_joinUnits, solid_joinUnits, Packing.Group.all, List.flatMap_append] at whole
  exact (List.append_cancel_left whole).symm

theorem chunkGroups_spec (text : List Char) (chunkSize overlap : Nat) :
    (chunkGroups k text chunkSize overlap).flatMap Packing.Group.fresh = recursiveSplit k chunkSize separators text ∧
      (∀ g ∈ chunkGroups k text chunkSize overlap, g.fresh ≠ [] ∧ countTokens k (joinUnits g.all) ≤ chunkSize) ∧
      (∀ g ∈ (chunkGroups k text chunkSize overlap).head?, g.carried = []) ∧
      (chunkGroups k text chunkSize overlap).IsChain
        (Packing.Carries fun kept => countTokens k (joinUnits kept) ≤ overlap) ∧
      (chunkGroups k text chunkSize overlap).IsChain
        (Packing.Closes fun units => decide (countTokens k (joinUnits units) ≤ chunkSize)) := by
  have spec := @Packing.pack_spec _ (fun units => decide (countTokens k (joinUnits units) ≤ chunkSize))
    (keptUnits k chunkSize overlap) (fun kept => countTokens k (joinUnits kept) ≤ overlap)
    (recursiveSplit k chunkSize separators text)
    (by
      intro unit mem
      rw [joinUnits, List.intercalate_singleton]
      exact decide_eq_true (recursiveSplit_short mem))
    (by
      intro unit mem all
      obtain ⟨room, suffix, short⟩ := keptUnits_spec overlap all (recursiveSplit_short mem)
      exact ⟨decide_eq_true room, suffix, short⟩)
  simp only [decide_eq_true_eq] at spec
  exact spec

theorem fresh_solid (text : List Char) (chunkSize overlap : Nat) :
    solid ((chunkGroups k text chunkSize overlap).flatMap freshText) =
      (recursiveSplit k chunkSize separators text).flatMap solid := by
  rw [← (chunkGroups_spec text chunkSize overlap).1, List.flatMap_assoc, List.flatMap_def, solid_flatten, List.flatMap_map]
  exact List.flatMap_congr fun g _ => solid_freshText g

/-- **No chunk is blank** where every empty unit fits with the one behind it. -/
theorem chunk_some {text : List Char} {chunkSize overlap : Nat}
    (fit : BlanksFit k chunkSize (recursiveSplit k chunkSize separators text)) {g : Packing.Group (List Char)}
    (mem : g ∈ chunkGroups k text chunkSize overlap) : joinUnits g.all ≠ [] := by
  obtain ⟨fresh, filled, -, -, closes⟩ := @chunkGroups_spec k text chunkSize overlap
  intro empty
  have blank : g.all = [[]] := (joinUnits_eq_nil (List.append_ne_nil_of_right_ne_nil _ (filled g mem).1)).1 empty
  have alone : g.fresh = [[]] := by
    rcases List.append_eq_singleton_iff.1 blank with ⟨-, one⟩ | ⟨-, none_⟩
    · exact one
    · exact absurd none_ (filled g mem).1
  obtain ⟨before, behind, groups⟩ := List.append_of_mem mem
  have units : recursiveSplit k chunkSize separators text =
      before.flatMap Packing.Group.fresh ++ [] :: behind.flatMap Packing.Group.fresh := by
    rw [← fresh, groups, List.flatMap_append, List.flatMap_cons, alone]
    rfl
  obtain ⟨unit, next, room⟩ := fit _ _ units
  -- the unit behind is the first of the next group, so it did not fit
  cases behind with
  | nil => cases next
  | cons h behind =>
    rw [groups, List.isChain_append, List.isChain_cons_cons] at closes
    obtain ⟨first, rest, head, tight⟩ := closes.2.1.1
    rw [List.flatMap_cons, head] at next
    obtain rfl : first = unit := Option.some.inj next
    simp only [blank, decide_eq_false_iff_not] at tight
    exact tight room

/-- **Chunks cover the text** only if no piece is split into sentences and no window of tokens ends
inside a character, and then indeed if every blank window fits with the unit behind it. -/
theorem chunkText_covers (k : Tokenizer) {text : List Char} (visible : ∃ c ∈ text, isSpace c = false)
    {chunkSize overlap : Nat} (order : overlap < chunkSize) :
    (Covered k text chunkSize overlap → KeepsSentences k chunkSize separators text ∧ KeepsCharacters k chunkSize separators text) ∧
    (KeepsSentences k chunkSize separators text ∧ KeepsCharacters k chunkSize separators text ∧
      BlanksFit k chunkSize (recursiveSplit k chunkSize separators text) → Covered k text chunkSize overlap) := by
  have some_ : 0 < chunkSize := Nat.lt_of_le_of_lt (Nat.zero_le _) order
  have solid_ : solid text ≠ [] := by
    obtain ⟨c, mem, shown⟩ := visible
    exact List.ne_nil_of_mem (List.mem_filter.2 ⟨mem, by rw [shown]; rfl⟩)
  obtain ⟨-, filled, first, chain, -⟩ := @chunkGroups_spec k text chunkSize overlap
  constructor
  · intro h
    have same := h.whole
    rw [fresh_solid] at same
    have sentences := (split_stops some_ separators_separate solid_).2 (congrArg _ same)
    exact ⟨sentences, (split_length some_ separators_separate sentences).2 (congrArg _ same.symm)⟩
  · rintro ⟨sentences, characters, fit⟩
    refine ⟨chunkText_eq order, ?_, ?_, ?_, ?_⟩
    · intro g mem
      exact ⟨chunk_some fit mem, (filled g mem).2, freshText_eq g⟩
    · rw [fresh_solid, split_solid some_ separators_separate sentences characters]
    · intro g mem
      rw [first g mem]
      rfl
    · exact chain.imp fun g h carries => ⟨joinUnits_suffix carries.1, carries.2⟩

/-! ## A tokenizer of characters -/

theorem stripBy_length_le (text : List Char) : (stripBy isSpace text).length ≤ text.length := by
  rw [stripBy, List.length_reverse]
  apply Nat.le_trans (List.dropWhile_sublist _).length_le
  rw [List.length_reverse]
  exact (List.dropWhile_sublist _).length_le

theorem charSlice_le (slice : List Char) : (Utf8.decode (slice.flatMap Utf8.encodeChar)).length ≤ slice.length := by
  rw [show slice.flatMap Utf8.encodeChar = Utf8.encode slice from rfl, Utf8.decode_encode]

theorem encodeChar_some (c : Char) : Utf8.encodeChar c ≠ [] := by
  intro none_
  have back := Utf8.feed_encodeChar c
  rw [none_] at back
  cases back

/-- Every character is a token, as in a text of single digits, stops and blanks. -/
def charTokenizer : Tokenizer where
  Token := Char
  encode text := text
  bytes := Utf8.encodeChar
  bytes_some := encodeChar_some
  encode_bytes _ := rfl
  strip_le := stripBy_length_le
  slice_le _ slice _ := charSlice_le slice

theorem chunkText_covers_sample : Covered charTokenizer ['1', '\n', '2'] 2 0 := by
  have lines : splitBySeparator ['1', '\n', '2'] ['\n'] = [['1'], ['2']] := by decide
  have whole : (splitBySeparator ['1', '\n', '2'] ['\n', '\n']).length = 1 := by decide
  have short : ∀ part ∈ [['1'], ['2']], ¬ 2 < countTokens charTokenizer part := by decide
  refine (chunkText_covers charTokenizer ⟨'1', by decide, by decide⟩ (by decide)).2 ⟨?_, ?_, ?_⟩
  · intro _
    rw [if_pos whole]
    intro _
    rw [lines, if_neg (by decide)]
    exact ⟨List.forall_mem_singleton.2 (by decide), fun part mem long => absurd long (short part mem)⟩
  · intro _
    rw [if_pos whole]
    intro _
    rw [lines, if_neg (by decide)]
    exact fun part mem long => absurd long (short part mem)
  · intro before behind units
    have some_ : [] ∉ recursiveSplit charTokenizer 2 separators ['1', '\n', '2'] := by decide
    exact absurd (units ▸ List.mem_append_right before (List.mem_cons_self ..)) some_

/-- A blank window with no room for the next unit is a chunk without text. -/
example : chunkText charTokenizer ['\t', '\t', '1'] 2 0 = .ok [[], ['1']] := by decide +kernel

/-- Two sentences are split and the full stop between them is lost. -/
theorem full_stop_lost : ∃ text, (∃ c ∈ text, isSpace c = false) ∧ ¬ Covered charTokenizer text 2 0 := by
  refine ⟨['1', '.', ' ', '2'], ⟨'1', by decide, by decide⟩, ?_⟩
  intro covered
  have whole := covered.whole
  revert whole
  decide +kernel

end Ingestion
