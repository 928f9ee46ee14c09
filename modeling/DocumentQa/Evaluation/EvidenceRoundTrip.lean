import Mathlib.Data.List.TakeWhile
import DocumentQa.Evaluation.Evidence

/-!
# Evidence that reads back

What the expression reads never has a line feed in a citation, a blank text, or a header at the
start of a line of a text. Chunks of this form, and no others, read back as they were rendered.
-/

namespace Evidence

open Python JsonText

theorem dropWhile_head {p : Char → Bool} {cs rest : List Char} {c : Char} (h : cs.dropWhile p = c :: rest) : p c = false := by
  have head := List.head_dropWhile_not p (l := cs) (by rw [h]; exact List.cons_ne_nil _ _)
  simpa [h] using head

/-! ## Headers -/

/-- A line of the text starts with a header. -/
def hasHeader : Bool → List Char → Bool
  | _, [] => false
  | lineStart, c :: cs => (lineStart && (header? (c :: cs)).isSome) || hasHeader (c = '\n') cs

theorem word_append {w cs rest more : List Char} (h : word w cs = some rest) : word w (cs ++ more) = some (rest ++ more) := by
  induction w generalizing cs with
  | nil =>
    cases h
    rfl
  | cons d ds ih =>
    cases cs with
    | nil => cases h
    | cons c cs =>
      simp only [List.cons_append, word] at h ⊢
      split at h
      · next same => rw [if_pos same, ih h]
      · cases h

theorem word_self (w rest : List Char) : word w (w ++ rest) = some rest := by
  induction w with
  | nil => rfl
  | cons d ds ih => rw [List.cons_append, word, if_pos rfl, ih]

/-- A literal without a line feed is matched before the next one. -/
theorem word_before {w cs more rest : List Char} (plain : '\n' ∉ w) (h : word w (cs ++ '\n' :: more) = some rest) :
    ∃ rest', word w cs = some rest' ∧ rest = rest' ++ '\n' :: more := by
  induction w generalizing cs with
  | nil =>
    cases h
    exact ⟨cs, rfl, rfl⟩
  | cons d ds ih =>
    simp only [List.mem_cons, not_or] at plain
    cases cs with
    | nil =>
      simp only [List.nil_append, word] at h
      split at h
      · next same => exact absurd same.symm plain.1
      · cases h
    | cons c cs =>
      simp only [List.cons_append, word] at h ⊢
      split at h
      · next same =>
        rw [if_pos same]
        exact ih plain.2 h
      · cases h

theorem newline_not_decimal : isDecimal '\n' = false := by
  decide

/-- A header stays a header in front of more text. -/
theorem header?_append {cs digits rest : List Char} (more : List Char) (h : header? cs = some (digits, rest)) :
    header? (cs ++ more) = some (digits, rest ++ more) := by
  unfold header? at h ⊢
  cases ho : word opening cs with
  | none =>
    rw [ho] at h
    cases h
  | some open_ =>
    rw [ho] at h
    rw [word_append ho]
    dsimp only at h ⊢
    split at h
    · next d ds behind hd hc =>
      cases h
      -- the digits end before the bracket, so more text does not prolong them
      have stop : ∃ c cs', open_.dropWhile isDecimal = c :: cs' ∧ isDecimal c = false := by
        cases hw : open_.dropWhile isDecimal with
        | nil =>
          rw [hw] at hc
          cases hc
        | cons c cs' => exact ⟨c, cs', rfl, dropWhile_head hw⟩
      obtain ⟨c, cs', hw, notDigit⟩ := stop
      have cut : open_ ++ more = open_.takeWhile isDecimal ++ c :: (cs' ++ more) := by
        rw [← List.cons_append, ← List.append_assoc, ← hw, List.takeWhile_append_dropWhile]
      have digits : ∀ a ∈ open_.takeWhile isDecimal, isDecimal a = true := fun a ha => List.mem_takeWhile_imp ha
      have take : (open_ ++ more).takeWhile isDecimal = open_.takeWhile isDecimal := by
        rw [cut, List.takeWhile_append_of_pos digits, List.takeWhile_cons_of_neg (by simp [notDigit]), List.append_nil]
      have drop : (open_ ++ more).dropWhile isDecimal = c :: (cs' ++ more) := by
        rw [cut, List.dropWhile_append_of_pos digits, List.dropWhile_cons_of_neg (by simp [notDigit])]
      rw [take, drop, hd, ← List.cons_append, ← hw, word_append hc]
    · cases h

/-- A header in front of a line feed stands before it. -/
theorem header?_before {cs more : List Char} (h : (header? (cs ++ '\n' :: more)).isSome = true) : (header? cs).isSome = true := by
  unfold header? at h ⊢
  cases ho : word opening (cs ++ '\n' :: more) with
  | none =>
    rw [ho] at h
    cases h
  | some open_ =>
    obtain ⟨front, hf, rfl⟩ := word_before (by decide) ho
    rw [ho] at h
    rw [hf]
    dsimp only at h ⊢
    have split_ : front = front.takeWhile isDecimal ++ front.dropWhile isDecimal := List.takeWhile_append_dropWhile.symm
    have digits : ∀ a ∈ front.takeWhile isDecimal, isDecimal a = true := fun a ha => List.mem_takeWhile_imp ha
    have stop : (front.dropWhile isDecimal ++ '\n' :: more).takeWhile isDecimal = [] ∧
        (front.dropWhile isDecimal ++ '\n' :: more).dropWhile isDecimal = front.dropWhile isDecimal ++ '\n' :: more := by
      cases hw : front.dropWhile isDecimal with
      | nil => exact ⟨List.takeWhile_cons_of_neg (by simp [newline_not_decimal]), List.dropWhile_cons_of_neg (by simp [newline_not_decimal])⟩
      | cons c cs' =>
        have notDigit := dropWhile_head hw
        exact ⟨List.takeWhile_cons_of_neg (by simp [notDigit]), List.dropWhile_cons_of_neg (by simp [notDigit])⟩
    have take : (front ++ '\n' :: more).takeWhile isDecimal = front.takeWhile isDecimal := by
      conv_lhs => rw [split_]
      rw [List.append_assoc, List.takeWhile_append_of_pos digits, stop.1, List.append_nil]
    have drop : (front ++ '\n' :: more).dropWhile isDecimal = front.dropWhile isDecimal ++ '\n' :: more := by
      conv_lhs => rw [split_]
      rw [List.append_assoc, List.dropWhile_append_of_pos digits, stop.2]
    rw [take, drop] at h
    split at h
    · next d ds behind hd hc =>
      obtain ⟨rest', hr, -⟩ := word_before (by decide) hc
      rw [hd, hr]
      rfl
    · cases h

theorem header?_newline (cs : List Char) : header? ('\n' :: cs) = none :=
  rfl

/-- More text takes no header away. -/
theorem hasHeader_append {cs : List Char} (more : List Char) {lineStart : Bool} (h : hasHeader lineStart cs = true) :
    hasHeader lineStart (cs ++ more) = true := by
  induction cs generalizing lineStart with
  | nil => cases h
  | cons c cs ih =>
    simp only [List.cons_append, hasHeader, Bool.or_eq_true, Bool.and_eq_true] at h ⊢
    rcases h with ⟨start, header⟩ | later
    · obtain ⟨⟨digits, rest⟩, hh⟩ := Option.isSome_iff_exists.1 header
      refine .inl ⟨start, ?_⟩
      rw [← List.cons_append, header?_append more hh]
      rfl
    · exact .inr (ih later)

/-! ## Texts -/

/-- A text read by the expression has no header at the start of a line. -/
theorem textUpTo_plain (lineStart : Bool) (cs : List Char) : hasHeader lineStart (textUpTo lineStart cs).1 = false := by
  induction cs generalizing lineStart with
  | nil => rfl
  | cons c cs ih =>
    rw [textUpTo]
    split
    · rfl
    · next stay =>
      dsimp only
      rw [hasHeader, ih, Bool.or_false]
      by_contra header
      rw [Bool.not_eq_false, Bool.and_eq_true] at header
      obtain ⟨start, some_⟩ := header
      obtain ⟨⟨digits, rest⟩, hh⟩ := Option.isSome_iff_exists.1 some_
      have all : ∀ (b : Bool) (cs : List Char), (textUpTo b cs).1 ++ (textUpTo b cs).2 = cs := by
        intro b cs
        induction cs generalizing b with
        | nil => rfl
        | cons c cs ih =>
          rw [textUpTo]
          split
          · rfl
          · exact congrArg (c :: ·) (ih _)
      have longer := header?_append (textUpTo (c = '\n') cs).2 hh
      rw [List.cons_append, all] at longer
      apply stay
      rw [start, longer]
      rfl

/-- A text without a header reads up to the next header, or to the end. -/
theorem textUpTo_before {cs next : List Char} (h : (header? next).isSome = true) {lineStart : Bool}
    (plain : hasHeader lineStart cs = false) :
    textUpTo lineStart (cs ++ '\n' :: '\n' :: next) = (cs ++ ['\n', '\n'], next) := by
  induction cs generalizing lineStart with
  | nil =>
    have stop : textUpTo true next = ([], next) := by
      cases next with
      | nil => cases h
      | cons c cs => rw [textUpTo, h]; rfl
    rw [List.nil_append, textUpTo, header?_newline, textUpTo, header?_newline]
    simp only [Option.isSome_none, Bool.and_false, Bool.false_eq_true, if_false, decide_true, stop]
    rfl
  | cons c cs ih =>
    rw [hasHeader, Bool.or_eq_false_iff] at plain
    rw [List.cons_append, textUpTo, if_neg, ih plain.2]
    · rfl
    · intro header
      rw [Bool.and_eq_true] at header
      have here : (header? (c :: cs)).isSome = true := header?_before header.2
      rw [header.1, here] at plain
      cases plain.1

theorem textUpTo_end {cs : List Char} {lineStart : Bool} (plain : hasHeader lineStart cs = false) :
    textUpTo lineStart cs = (cs, []) := by
  induction cs generalizing lineStart with
  | nil => rfl
  | cons c cs ih =>
    rw [hasHeader, Bool.or_eq_false_iff] at plain
    rw [textUpTo, if_neg, ih plain.2]
    rw [plain.1]
    exact nofun

/-! ## Blanks at the end -/

theorem rstrip_append (cs : List Char) {blanks : List Char} (h : ∀ c ∈ blanks, isSpace c = true) :
    rstrip (cs ++ blanks) = rstrip cs := by
  unfold rstrip
  rw [List.reverse_append, List.dropWhile_append_of_pos fun c hc => h c (List.mem_reverse.1 hc)]

theorem rstrip_rstrip (cs : List Char) : rstrip (rstrip cs) = rstrip cs := by
  unfold rstrip
  rw [List.reverse_reverse]
  congr 1
  cases h : cs.reverse.dropWhile isSpace with
  | nil => rfl
  | cons c rest =>
    have solid := dropWhile_head h
    exact List.dropWhile_cons_of_neg (by simp [solid])

theorem rstrip_prefix (cs : List Char) : ∃ blanks, cs = rstrip cs ++ blanks := by
  refine ⟨(cs.reverse.takeWhile isSpace).reverse, ?_⟩
  rw [rstrip, ← List.reverse_append, List.takeWhile_append_dropWhile, List.reverse_reverse]

theorem any_solid_iff (cs : List Char) : (cs.any fun c => !isSpace c) = true ↔ rstrip cs ≠ [] := by
  rw [List.any_eq_true, rstrip, Ne, List.reverse_eq_nil_iff, List.dropWhile_eq_nil_iff]
  simp

/-! ## What is read -/

/-- What a block of the expression is like. -/
structure Block.Plain (b : Block) : Prop where
  citation : '\n' ∉ b.citation
  text : hasHeader true b.text = false

theorem blocks_plain {fuel : Nat} {lineStart : Bool} {cs : List Char} : ∀ b ∈ blocks fuel lineStart cs, b.Plain := by
  induction fuel generalizing lineStart cs with
  | zero => simp [blocks]
  | succ fuel ih =>
    cases cs with
    | nil => simp [blocks]
    | cons c cs =>
      rw [blocks]
      split
      · next b rest hb =>
        intro b' hb'
        rcases List.mem_cons.1 hb' with rfl | hb'
        · have found : block? (c :: cs) = some (b', rest) := by
            cases lineStart with
            | true => exact hb
            | false => cases hb
          unfold block? at found
          split at found
          · cases found
          · split at found
            · cases found
            · cases found
              refine ⟨fun mem => ?_, textUpTo_plain true _⟩
              simpa using List.mem_takeWhile_imp mem
        · exact ih b' hb'
      · exact ih

/-- A text with a header at the start of a line is no text the expression reads. -/
theorem Block.Plain.rstrip {b : Block} (h : b.Plain) : hasHeader true (Evidence.rstrip b.text) = false := by
  obtain ⟨blanks, whole⟩ := rstrip_prefix b.text
  by_contra header
  have longer := hasHeader_append blanks (by simpa using header)
  rw [← whole, h.text] at longer
  cases longer

/-! ## Canonical chunks -/

/-- The chunk reads back: its citation is one line, its text is not blank, and no line of its
text starts with a header. -/
structure Chunk.Canonical (c : Chunk) : Prop where
  citation : '\n' ∉ c.citation.toList
  text : c.text.toList.any (fun a => !isSpace a) = true
  plain : hasHeader true (rstrip c.text.toList) = false

theorem natText_decimal {n : Nat} {c : Char} (h : c ∈ natText n) : isDecimal c = true ∧ decimal? c = some (c.toNat - 48) := by
  have digits : ∀ d < 10, isDecimal (Nat.digitChar d) = true ∧ decimal? (Nat.digitChar d) = some ((Nat.digitChar d).toNat - 48) := by
    decide
  have digit := natText_isDigit h
  have range : 48 ≤ c.toNat ∧ c.toNat ≤ 57 := by
    have := digit
    simp only [Char.isDigit, Bool.and_eq_true, decide_eq_true_eq] at this
    exact ⟨UInt32.le_iff_toNat_le.1 this.1, UInt32.le_iff_toNat_le.1 this.2⟩
  have same : Nat.digitChar (c.toNat - 48) = c := by
    apply Char.toNat_inj.1
    have all : ∀ d < 10, (Nat.digitChar d).toNat = 48 + d := by decide
    rw [all _ (by omega)]
    omega
  rw [← same]
  exact digits _ (by omega)

theorem header?_render (number : Nat) (rest : List Char) :
    header? (headerText number ++ rest) = some (natText number, rest) := by
  have digits : ∀ a ∈ natText number, isDecimal a = true := fun _ ha => (natText_decimal ha).1
  have stop : isDecimal ']' = false := by decide
  have bracket : closing ++ rest = ']' :: ' ' :: rest := rfl
  have take : (natText number ++ (closing ++ rest)).takeWhile isDecimal = natText number := by
    rw [bracket, List.takeWhile_append_of_pos digits, List.takeWhile_cons_of_neg (by simp [stop]), List.append_nil]
  have drop : (natText number ++ (closing ++ rest)).dropWhile isDecimal = closing ++ rest := by
    rw [bracket, List.dropWhile_append_of_pos digits, List.dropWhile_cons_of_neg (by simp [stop])]
  rw [headerText, List.append_assoc, List.append_assoc, header?, word_self]
  dsimp only
  rw [take, drop, word_self]
  obtain ⟨d, ds, some_⟩ := List.exists_cons_of_ne_nil (natText_ne_nil number)
  rw [some_]

/-- The block at the head of a text that goes on behind the citation with `body`. -/
theorem block?_render (number : Nat) {citation : List Char} (line : '\n' ∉ citation) (body : List Char) :
    block? (headerText number ++ (citation ++ '\n' :: body)) =
      some (⟨natText number, citation, (textUpTo true body).1⟩, (textUpTo true body).2) := by
  have all : ∀ a ∈ citation, decide (a ≠ '\n') = true := by
    intro a ha
    rw [decide_eq_true_eq]
    rintro rfl
    exact line ha
  have drop : (citation ++ '\n' :: body).dropWhile (fun a => decide (a ≠ '\n')) = '\n' :: body := by
    rw [List.dropWhile_append_of_pos all, List.dropWhile_cons_of_neg (by decide)]
  have take : (citation ++ '\n' :: body).takeWhile (fun a => decide (a ≠ '\n')) = citation := by
    rw [List.takeWhile_append_of_pos all, List.takeWhile_cons_of_neg (by decide), List.append_nil]
  rw [block?, header?_render]
  dsimp only
  rw [drop, take]

/-- The blocks of rendered chunks. -/
def expected (separated : Bool) (number : Nat) (c : Chunk) : Block :=
  ⟨natText number, c.citation.toList, rstrip c.text.toList ++ if separated then ['\n', '\n'] else []⟩

def expectedBlocks : Nat → List Chunk → List Block
  | _, [] => []
  | number, c :: cs => expected (!cs.isEmpty) number c :: expectedBlocks (number + 1) cs

theorem joined_cons (number : Nat) (c : Chunk) {cs : List Chunk} (some_ : cs ≠ []) :
    joined ['\n', '\n'] (renderBlocks number (c :: cs)) =
      renderBlock number c ++ '\n' :: '\n' :: joined ['\n', '\n'] (renderBlocks (number + 1) cs) := by
  cases cs with
  | nil => exact absurd rfl some_
  | cons c' cs =>
    rw [renderBlocks, renderBlocks, joined]
    simp

theorem header?_joined (number : Nat) {cs : List Chunk} (some_ : cs ≠ []) :
    (header? (joined ['\n', '\n'] (renderBlocks number cs))).isSome = true := by
  have head : ∀ (c : Chunk) (rest : List Char), (header? (renderBlock number c ++ rest)).isSome = true := by
    intro c rest
    rw [renderBlock, List.append_assoc, header?_render]
    rfl
  cases cs with
  | nil => exact absurd rfl some_
  | cons c cs =>
    by_cases last : cs = []
    · rw [last, renderBlocks, renderBlocks, joined, ← List.append_nil (renderBlock number c)]
      exact head c []
    · rw [joined_cons number c last]
      exact head c _

/-- **Canonical chunks read back block by block.** -/
theorem blocks_render {cs : List Chunk} (h : ∀ c ∈ cs, c.Canonical) (number : Nat) {fuel : Nat} (enough : cs.length ≤ fuel) :
    blocks fuel true (joined ['\n', '\n'] (renderBlocks number cs)) = expectedBlocks number cs := by
  induction cs generalizing number fuel with
  | nil =>
    cases fuel <;> rfl
  | cons c cs ih =>
    obtain ⟨fuel, rfl⟩ : ∃ n, fuel = n + 1 := ⟨fuel - 1, by simp at enough; omega⟩
    have own := h c (by simp)
    have unfolded : ∀ {text rest : List Char} {b : Block}, block? text = some (b, rest) →
        blocks (fuel + 1) true text = b :: blocks fuel true rest := by
      intro text rest b hb
      cases text with
      | nil => cases hb
      | cons a as =>
        rw [blocks, if_pos rfl, hb]
    by_cases last : cs = []
    · subst last
      have one := block?_render number own.citation (rstrip c.text.toList)
      rw [textUpTo_end own.plain] at one
      rw [renderBlocks, renderBlocks, joined, renderBlock, unfolded one, expectedBlocks, expectedBlocks, expected]
      simp only [List.isEmpty_nil, Bool.not_true, Bool.false_eq_true, if_false, List.append_nil]
      cases fuel <;> rfl
    · have one := block?_render number own.citation
        (rstrip c.text.toList ++ '\n' :: '\n' :: joined ['\n', '\n'] (renderBlocks (number + 1) cs))
      rw [textUpTo_before (header?_joined (number + 1) last) own.plain] at one
      have shape : renderBlock number c ++ '\n' :: '\n' :: joined ['\n', '\n'] (renderBlocks (number + 1) cs) =
          headerText number ++ (c.citation.toList ++
            '\n' :: (rstrip c.text.toList ++ '\n' :: '\n' :: joined ['\n', '\n'] (renderBlocks (number + 1) cs))) := by
        rw [renderBlock, List.append_assoc, List.append_assoc, List.cons_append]
      have more : (!cs.isEmpty) = true := by simpa using last
      rw [joined_cons number c last, shape, unfolded one, expectedBlocks, expected, more,
        ih (fun a ha => h a (List.mem_cons_of_mem _ ha)) (number + 1) (by simpa using enough)]
      rfl

/-! ## The round trip -/

/-- Chunks with distinct ids are all rendered. -/
theorem rendered_distinct {seen : List String} {cs : List Chunk} (distinct : (cs.map Chunk.chunkId).Nodup)
    (fresh : ∀ c ∈ cs, ∀ id ∈ seen, c.chunkId ≠ some id) : rendered seen cs = cs := by
  induction cs generalizing seen with
  | nil => rfl
  | cons c cs ih =>
    rw [List.map_cons, List.nodup_cons] at distinct
    rw [rendered]
    cases hid : c.chunkId with
    | none =>
      dsimp only
      rw [ih distinct.2 fun a ha => fresh a (List.mem_cons_of_mem _ ha)]
    | some id =>
      have new : id ∉ seen := fun mem => fresh c (by simp) id mem hid
      dsimp only
      rw [if_neg new, ih distinct.2]
      intro a ha id' hid'
      rcases List.mem_cons.1 hid' with rfl | hid'
      · rintro same
        exact distinct.1 (by rw [hid, ← same]; exact List.mem_map_of_mem ha)
      · exact fresh a (List.mem_cons_of_mem _ ha) id' hid'

theorem firstOfId_distinct {seen : List (Option String)} {cs : List Chunk} (distinct : (cs.map Chunk.chunkId).Nodup)
    (fresh : ∀ c ∈ cs, c.chunkId ∉ seen) : firstOfId seen cs = cs := by
  induction cs generalizing seen with
  | nil => rfl
  | cons c cs ih =>
    rw [List.map_cons, List.nodup_cons] at distinct
    rw [firstOfId, if_neg (fresh c (by simp)), ih distinct.2]
    intro a ha
    simp only [List.mem_cons, not_or]
    exact ⟨fun same => distinct.1 (same ▸ List.mem_map_of_mem ha), fresh a (List.mem_cons_of_mem _ ha)⟩

theorem foldl_natText (cs : List Char) (h : ∀ c ∈ cs, decimal? c = some (c.toNat - 48)) (n : Nat) :
    cs.foldl (fun n c => 10 * n + (decimal? c).getD 0) n = Nat.ofDigitChars 10 cs n := by
  induction cs generalizing n with
  | nil => rfl
  | cons c cs ih =>
    rw [List.foldl_cons, h c (by simp), ih fun a ha => h a (List.mem_cons_of_mem _ ha), Nat.ofDigitChars_cons]
    rfl

/-- `int(str(n))`. -/
theorem intValue_natText (n : Nat) : intValue (natText n) = n := by
  rw [intValue, foldl_natText _ fun c hc => (natText_decimal hc).2]
  exact Nat.ofDigitChars_ten_toDigits

/-- What the chunks, numbered from `number`, are to read back as. -/
def sourcesFrom : Nat → List Chunk → List EvidenceSource
  | _, [] => []
  | number, c :: cs => ⟨number, c.citation, String.ofList (rstrip c.text.toList)⟩ :: sourcesFrom (number + 1) cs

def EvidenceSource.asContext (s : EvidenceSource) : ContextSource :=
  ⟨String.ofList (natText s.number), s.citation, s.text⟩

/-- The evidence of a frozen case reads back: one source for every chunk, numbered in order,
with its citation and its right-stripped text, through either parser; the source at position
`k` has the number `k + 1`; and the texts are those of `render_source_texts`, right-stripped. -/
def RoundTrips (queries : List (List Chunk)) : Prop :=
  let chunks := queries.flatten
  let context := renderChunkEvidence chunks
  parseEvidenceSources context = sourcesFrom 1 chunks ∧
    parseEvidenceContext context = (sourcesFrom 1 chunks).map EvidenceSource.asContext ∧
    (∀ k s, (parseEvidenceSources context)[k]? = some s → s.number = k + 1) ∧
    buildEvidenceContext queries = context ∧
    (parseEvidenceSources context).map EvidenceSource.text =
      (renderSourceTexts queries).map fun text => String.ofList (rstrip text.toList)

theorem sourcesFrom_number (number : Nat) (cs : List Chunk) {k : Nat} {s : EvidenceSource}
    (h : (sourcesFrom number cs)[k]? = some s) : s.number = number + k := by
  induction cs generalizing number k with
  | nil => simp [sourcesFrom] at h
  | cons c cs ih =>
    cases k with
    | zero =>
      cases h
      rfl
    | succ k =>
      have := ih (number + 1) h
      omega

theorem sourcesFrom_text (number : Nat) (cs : List Chunk) :
    (sourcesFrom number cs).map EvidenceSource.text = cs.map fun c => String.ofList (rstrip c.text.toList) := by
  induction cs generalizing number with
  | nil => rfl
  | cons c cs ih => rw [sourcesFrom, List.map_cons, List.map_cons, ih]

theorem expected_rstrip (separated : Bool) (number : Nat) (c : Chunk) :
    rstrip (expected separated number c).text = rstrip c.text.toList := by
  rw [expected, rstrip_append, rstrip_rstrip]
  intro a ha
  split at ha
  · simp only [List.mem_cons, List.not_mem_nil, or_false, or_self] at ha
    subst ha
    decide
  · cases ha

/-- No block of canonical chunks is blank, and they are read as their sources. -/
theorem expectedBlocks_read {cs : List Chunk} (h : ∀ c ∈ cs, c.Canonical) (number : Nat) :
    (∀ b ∈ expectedBlocks number cs, (b.text.any fun c => !isSpace c) = true) ∧
      (expectedBlocks number cs).map (fun b : Block =>
        (⟨intValue b.number, String.ofList b.citation, String.ofList (rstrip b.text)⟩ : EvidenceSource)) = sourcesFrom number cs ∧
      (expectedBlocks number cs).map (fun b : Block =>
        (⟨String.ofList b.number, String.ofList b.citation, String.ofList (rstrip b.text)⟩ : ContextSource)) =
          (sourcesFrom number cs).map EvidenceSource.asContext := by
  induction cs generalizing number with
  | nil => exact ⟨nofun, rfl, rfl⟩
  | cons c cs ih =>
    obtain ⟨solid, sources, context⟩ := ih (fun a ha => h a (List.mem_cons_of_mem _ ha)) (number + 1)
    refine ⟨?_, ?_, ?_⟩
    · intro b hb
      rcases List.mem_cons.1 hb with rfl | hb
      · rw [any_solid_iff, expected_rstrip, ← any_solid_iff]
        exact (h c (by simp)).text
      · exact solid b hb
    · rw [expectedBlocks, List.map_cons, sources, sourcesFrom, expected_rstrip]
      simp only [expected, intValue_natText, String.ofList_toList]
    · rw [expectedBlocks, List.map_cons, context, sourcesFrom, List.map_cons, expected_rstrip]
      simp only [expected, EvidenceSource.asContext, String.ofList_toList]

/-- What either parser reads of canonical chunks. -/
theorem solidBlocks_render {cs : List Chunk} (distinct : (cs.map Chunk.chunkId).Nodup) (h : ∀ c ∈ cs, c.Canonical) :
    solidBlocks (renderChunkEvidence cs) = expectedBlocks 1 cs := by
  have length : ∀ (cs : List Chunk) (number : Nat), cs.length ≤ (joined ['\n', '\n'] (renderBlocks number cs)).length := by
    intro cs
    induction cs with
    | nil => exact fun _ => Nat.zero_le _
    | cons c cs ih =>
      intro number
      by_cases last : cs = []
      · rw [last, renderBlocks, renderBlocks, joined, renderBlock]
        simp only [List.length_cons, List.length_nil, List.length_append]
        omega
      · rw [joined_cons number c last]
        have := ih (number + 1)
        simp only [List.length_cons, List.length_append]
        omega
  rw [solidBlocks, renderChunkEvidence, rendered_distinct distinct fun _ _ _ h => absurd h List.not_mem_nil, String.toList_ofList,
    blocks_render h 1 (length cs 1), List.filter_eq_self]
  exact (expectedBlocks_read h 1).1

/-- **The evidence round trip.** The evidence of chunks with distinct ids reads back exactly
when every chunk is canonical. -/
theorem evidence_round_trip (queries : List (List Chunk)) (distinct : (queries.flatten.map Chunk.chunkId).Nodup) :
    RoundTrips queries ↔ ∀ c ∈ queries.flatten, c.Canonical := by
  constructor
  · rintro ⟨read, -⟩ c hc
    -- what is read is plain and not blank, whatever was rendered
    have plain : ∀ s ∈ sourcesFrom 1 queries.flatten, '\n' ∉ s.citation.toList ∧ s.text.toList ≠ [] ∧
        hasHeader true s.text.toList = false := by
      intro s hs
      rw [← read, parseEvidenceSources, List.mem_map] at hs
      obtain ⟨b, hb, rfl⟩ := hs
      obtain ⟨found, solid⟩ := List.mem_filter.1 hb
      have plain := blocks_plain b found
      simp only [String.toList_ofList]
      exact ⟨plain.citation, (any_solid_iff _).1 solid, plain.rstrip⟩
    have mem : ∀ (cs : List Chunk) (number : Nat), c ∈ cs → ∃ n,
        (⟨n, c.citation, String.ofList (rstrip c.text.toList)⟩ : EvidenceSource) ∈ sourcesFrom number cs := by
      intro cs
      induction cs with
      | nil => exact fun _ h => nomatch h
      | cons d ds ih =>
        intro number h
        rcases List.mem_cons.1 h with rfl | h
        · exact ⟨number, by simp [sourcesFrom]⟩
        · obtain ⟨n, hn⟩ := ih (number + 1) h
          exact ⟨n, List.mem_cons_of_mem _ hn⟩
    obtain ⟨n, hn⟩ := mem _ 1 hc
    obtain ⟨citation, text, header⟩ := plain _ hn
    rw [String.toList_ofList] at text header
    exact ⟨citation, (any_solid_iff _).2 text, header⟩
  · intro canonical
    obtain ⟨-, sources, context⟩ := expectedBlocks_read canonical 1
    have blocks := solidBlocks_render distinct canonical
    have first : firstOfId [] _ = _ := firstOfId_distinct distinct fun _ _ => List.not_mem_nil
    have read : parseEvidenceSources (renderChunkEvidence queries.flatten) = sourcesFrom 1 queries.flatten := by
      rw [parseEvidenceSources, blocks, sources]
    refine ⟨read, ?_, ?_, ?_, ?_⟩
    · rw [parseEvidenceContext, blocks, context]
    · intro k s hs
      rw [read] at hs
      rw [sourcesFrom_number 1 _ hs, Nat.add_comm]
    · rw [buildEvidenceContext, first]
    · rw [read, sourcesFrom_text, renderSourceTexts, first, List.map_map]
      rfl

/-! ## Samples -/

def sampleChunk (id text : String) : Chunk :=
  ⟨some id, "AAPL 10-K", text⟩

theorem evidence_round_trip_sample : RoundTrips [[sampleChunk "a" "Revenue grew 5%.\n\nCosts fell. "], [sampleChunk "b" "Risks."]] := by
  refine (evidence_round_trip _ (by decide)).2 ?_
  intro c hc
  simp only [List.flatten_cons, List.flatten_nil, List.append_nil, List.cons_append, List.nil_append, List.mem_cons,
    List.not_mem_nil, or_false] at hc
  rcases hc with rfl | rfl
  · exact ⟨by decide, by decide, by decide⟩
  · exact ⟨by decide, by decide, by decide⟩

/-- A blank chunk is dropped, so the source behind it stands at the wrong position. -/
theorem blank_shifts_sources :
    parseEvidenceSources (renderChunkEvidence [sampleChunk "a" " ", sampleChunk "b" "Risks."]) = [⟨2, "AAPL 10-K", "Risks."⟩] ∧
      ¬RoundTrips [[sampleChunk "a" " ", sampleChunk "b" "Risks."]] := by
  have read : parseEvidenceSources (renderChunkEvidence [sampleChunk "a" " ", sampleChunk "b" "Risks."]) =
      [⟨2, "AAPL 10-K", "Risks."⟩] := by decide +kernel
  refine ⟨read, ?_⟩
  rintro ⟨-, -, position, -⟩
  have wrong := position 0 ⟨2, "AAPL 10-K", "Risks."⟩ (congrArg (·[0]?) read)
  cases wrong

end Evidence
