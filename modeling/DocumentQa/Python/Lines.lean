import DocumentQa.Lib.Json.Chars
import DocumentQa.Python.Json

/-!
# Lines of a text file

`str.splitlines` breaks a text at more characters than the line feed. A file of lines that
hold none of them splits into these lines (`splitlines_lines`). What `json.dumps` writes
without `ensure_ascii` is one line unless a string inside holds one of three of them
(`fitsLine`).
-/

namespace Python

open JsonText

/-- A character `str.splitlines` breaks at. -/
def isLineBreak (c : Char) : Bool :=
  c.toNat ∈ [0xA, 0xB, 0xC, 0xD, 0x1C, 0x1D, 0x1E, 0x85, 0x2028, 0x2029]

/-- `str.splitlines`. -/
def splitlines : List Char → List (List Char)
  | [] => []
  | '\r' :: '\n' :: cs => [] :: splitlines cs
  | c :: cs =>
    if isLineBreak c then [] :: splitlines cs
    else
      match splitlines cs with
      | [] => [[c]]
      | line :: lines => (c :: line) :: lines

theorem splitlines_newline (cs : List Char) : splitlines ('\n' :: cs) = [] :: splitlines cs := by
  rw [splitlines]
  · rfl
  · rintro _ ⟨⟩

theorem splitlines_cons {c : Char} (h : isLineBreak c = false) {line cs : List Char} {lines : List (List Char)}
    (tail : splitlines cs = line :: lines) : splitlines (c :: cs) = (c :: line) :: lines := by
  have notReturn : c ≠ '\r' := by
    rintro rfl
    cases h
  rw [splitlines]
  · rw [h, tail]
    rfl
  · rintro _ rfl
    exact fun _ => notReturn rfl

/-- The first line of a text. -/
theorem splitlines_line {line : List Char} (h : ∀ c ∈ line, isLineBreak c = false) (rest : List Char) :
    splitlines (line ++ '\n' :: rest) = line :: splitlines rest := by
  induction line with
  | nil => exact splitlines_newline rest
  | cons c cs ih =>
    rw [List.cons_append]
    exact splitlines_cons (h c (by simp)) (ih fun d hd => h d (List.mem_cons_of_mem _ hd))

/-- **A file of lines splits into its lines.** -/
theorem splitlines_lines {lines : List (List Char)} (h : ∀ line ∈ lines, ∀ c ∈ line, isLineBreak c = false) :
    splitlines (lines.flatMap (· ++ ['\n'])) = lines := by
  induction lines with
  | nil => rfl
  | cons line lines ih =>
    rw [List.flatMap_cons, List.append_assoc, List.singleton_append, splitlines_line (h line (by simp)),
      ih fun l hl => h l (List.mem_cons_of_mem _ hl)]

/-- The lines of a text joined by line feeds, the last one not empty. -/
theorem splitlines_joined {lines : List (List Char)} {last : List Char}
    (within : ∀ line ∈ lines, ∀ c ∈ line, isLineBreak c = false) (whole : ∀ c ∈ last, isLineBreak c = false)
    (some_ : last ≠ []) : splitlines (['\n'].intercalate (lines ++ [last])) = lines ++ [last] := by
  have alone : splitlines last = [last] := by
    clear within
    induction last with
    | nil => exact absurd rfl some_
    | cons c cs ih =>
      cases cs with
      | nil =>
        have here := whole c (by simp)
        rw [splitlines, splitlines, if_neg (by simp [here])]
        rintro _ _ ⟨⟩
      | cons d ds =>
        exact splitlines_cons (whole c (by simp)) (ih (fun c mem => whole c (List.mem_cons_of_mem _ mem)) (List.cons_ne_nil _ _))
  induction lines with
  | nil =>
    rw [List.nil_append, List.intercalate_singleton, alone]
  | cons line lines ih =>
    obtain ⟨next, rest, e⟩ := List.exists_cons_of_ne_nil (List.append_ne_nil_of_right_ne_nil lines (List.cons_ne_nil last []))
    have tail := ih fun line mem => within line (List.mem_cons_of_mem _ mem)
    rw [e] at tail
    rw [List.cons_append, e, List.intercalate_cons_cons, List.append_assoc, List.singleton_append,
      splitlines_line (within line (by simp)), tail]

/-- No line holds a line break. -/
theorem splitlines_within (cs : List Char) : ∀ line ∈ splitlines cs, ∀ c ∈ line, isLineBreak c = false := by
  fun_induction splitlines cs with
  | case1 => simp
  | case2 cs ih =>
    intro line mem
    rcases List.mem_cons.1 mem with rfl | mem
    · simp
    · exact ih line mem
  | case3 c cs _ breaks ih =>
    intro line mem
    rcases List.mem_cons.1 mem with rfl | mem
    · simp
    · exact ih line mem
  | case4 c cs _ solid none_ ih =>
    intro line mem d inside
    rw [List.mem_singleton.1 mem, List.mem_singleton] at inside
    rw [inside]
    exact Bool.eq_false_iff.2 solid
  | case5 c cs _ solid line lines e ih =>
    intro l mem d inside
    rcases List.mem_cons.1 mem with rfl | mem
    · rcases List.mem_cons.1 inside with rfl | inside
      · exact Bool.eq_false_iff.2 solid
      · exact ih line (by rw [e]; simp) d inside
    · exact ih l (by rw [e]; exact List.mem_cons_of_mem _ mem) d inside

/-! ## Lines of JSON -/

/-- No string inside holds a line break that `json.dumps` leaves as it is, which is U+0085,
U+2028 or U+2029: the control characters are escaped. -/
def fitsLine : Json → Bool :=
  Json.printsWithin fun c => !isLineBreak c

@[simp] theorem fitsLine_int (i : Int) : fitsLine (.int i) = true :=
  rfl

theorem fitsLine_obj {fields : List (String × Json)} :
    fitsLine (.obj fields) = true ↔ ∀ f ∈ fields, fitsLine (.str f.1) = true ∧ fitsLine f.2 = true := by
  rw [fitsLine, Json.printsWithin, Json.all_obj, List.all_eq_true]
  exact forall₂_and.symm

theorem isLineBreak_graphic {c : Char} (h : isGraphic c = true) : isLineBreak c = false := by
  rw [isGraphic, Bool.and_eq_true, decide_eq_true_eq, decide_eq_true_eq] at h
  simp only [isLineBreak, List.mem_cons, List.not_mem_nil, or_false, decide_eq_false_iff_not]
  omega

/-- **The text of a value that fits is one line.** -/
theorem spacedPrinter_line {j : Json} (h : fitsLine j = true) : ∀ c ∈ spacedPrinter.text j, isLineBreak c = false := by
  have within : ∀ c ∈ spacedPrinter.text j, (!isLineBreak c) = true := by
    apply Printer.text_within
    · exact fun _ _ hc => pythonNumberText_graphic hc
    · exact List.all_eq_true.1 (by decide : spacedPrinter.gap.all isGraphic = true)
    · exact fun c hc => by rw [isLineBreak_graphic hc]; rfl
    · exact h
  intro c hc
  simpa using within c hc

end Python
