import DocumentQa.Lib.Json.RoundTrip

/-!
# The characters of a text

A printer of Python's writes printable ASCII around the strings of a value, and of the
strings what is no control character as it is. So a property that printable ASCII has, and
the printable characters of every string inside, holds of the whole text (`text_within`).
-/

namespace JsonText

/-- A printable ASCII character. -/
def isGraphic (c : Char) : Bool :=
  32 ≤ c.toNat && c.toNat < 127

theorem isGraphic_of_isDigit {c : Char} (h : c.isDigit = true) : isGraphic c = true := by
  rw [Char.isDigit, Bool.and_eq_true, decide_eq_true_eq, decide_eq_true_eq] at h
  rw [isGraphic, Bool.and_eq_true, decide_eq_true_eq, decide_eq_true_eq]
  have lo : 48 ≤ c.toNat := h.1
  have hi : c.toNat ≤ 57 := h.2
  omega

/-- A character of a string that is printed as it is, and every character around it, has `q`. -/
def Json.printsWithin (q : Char → Bool) : Json → Bool :=
  Json.all fun
    | .str s => s.toList.all fun c => c.toNat < 32 || q c
    | .obj fields => fields.all fun f => f.1.toList.all fun c => c.toNat < 32 || q c
    | _ => true

theorem Layout.text_graphic {l : Layout} (h : l.Valid) {c : Char} (hc : c ∈ l.text) : isGraphic c = true := by
  have digits : ∀ {ds : List Char}, (∀ d ∈ ds, d.isDigit = true) → c ∈ ds → isGraphic c = true :=
    fun all mem => isGraphic_of_isDigit (all c mem)
  simp only [Layout.text, List.mem_append] at hc
  rcases hc with sign | whole | frac | exp
  · split at sign
    · obtain rfl := List.mem_singleton.1 sign
      rfl
    · cases sign
  · exact digits h.wholeDigits whole
  · unfold Layout.fracText at frac
    split at frac
    · cases frac
    · rcases List.mem_cons.1 frac with rfl | frac
      · rfl
      · exact digits h.fracDigits frac
  · cases e : l.exp with
    | none =>
      rw [e] at exp
      cases exp
    | some p =>
      obtain ⟨neg, ds⟩ := p
      rw [e] at exp
      simp only [Layout.expText, List.mem_cons] at exp
      rcases exp with rfl | rfl | exp
      · rfl
      · cases neg <;> rfl
      · exact digits (h.expDigits neg ds e).2 exp

theorem pythonNumberText_graphic {x : Double} {c : Char} (h : c ∈ pythonNumberText x) : isGraphic c = true := by
  cases x with
  | nan =>
    have all : (pythonNumberText .nan).all isGraphic = true := by decide
    exact List.all_eq_true.1 all c h
  | inf neg =>
    have all : (pythonNumberText (.inf neg)).all isGraphic = true := by cases neg <;> decide
    exact List.all_eq_true.1 all c h
  | zero neg =>
    have all : (pythonNumberText (.zero neg)).all isGraphic = true := by cases neg <;> decide
    exact List.all_eq_true.1 all c h
  | finite d => exact Layout.text_graphic (reprLayout_valid d) h

theorem intText_graphic {i : Int} {c : Char} (h : c ∈ intText i) : isGraphic c = true := by
  rw [intText_layout] at h
  exact Layout.text_graphic (Layout.nat_valid _ _) h

theorem hexDigit_graphic {n : Nat} (h : n < 16) : isGraphic (hexDigit n) = true := by
  revert n
  decide

/-- An escape is printable ASCII; what needs none is printed as it is. -/
theorem escapeChar_within {c d : Char} (h : d ∈ escapeChar c) : isGraphic d = true ∨ (d = c ∧ 32 ≤ c.toNat) := by
  have pair : ∀ {a : Char}, isGraphic a = true → d ∈ ['\\', a] → isGraphic d = true ∨ (d = c ∧ 32 ≤ c.toNat) := by
    intro a ha hd
    simp only [List.mem_cons, List.not_mem_nil, or_false] at hd
    rcases hd with rfl | rfl
    · exact .inl rfl
    · exact .inl ha
  unfold escapeChar at h
  split_ifs at h with _ _ _ _ _ _ _ control
  · exact pair rfl h
  · exact pair rfl h
  · exact pair rfl h
  · exact pair rfl h
  · exact pair rfl h
  · exact pair rfl h
  · exact pair rfl h
  · simp only [List.mem_cons, List.not_mem_nil, or_false] at h
    rcases h with rfl | rfl | rfl | rfl | rfl | rfl
    · exact .inl rfl
    · exact .inl rfl
    · exact .inl rfl
    · exact .inl rfl
    · exact .inl (hexDigit_graphic (by omega))
    · exact .inl (hexDigit_graphic (by omega))
  · obtain rfl := List.mem_singleton.1 h
    exact .inr ⟨rfl, by omega⟩

section Within

variable {p : Printer} {q : Char → Bool} (numbers : ∀ x, ∀ c ∈ p.number x, isGraphic c = true)
  (gap : ∀ c ∈ p.gap, isGraphic c = true) (graphic : ∀ c, isGraphic c = true → q c = true)

include graphic

theorem quote_within {s : String} (h : s.toList.all (fun c => c.toNat < 32 || q c) = true) :
    ∀ c ∈ quote s, q c = true := by
  intro c hc
  rw [List.all_eq_true] at h
  simp only [quote, List.mem_cons, List.mem_append, List.not_mem_nil, or_false] at hc
  rcases hc with rfl | hc | rfl
  · exact graphic _ rfl
  · obtain ⟨a, ha, hc⟩ := List.mem_flatMap.1 hc
    rcases escapeChar_within hc with ok | ⟨rfl, printed⟩
    · exact graphic c ok
    · have := h c ha
      simp only [Bool.or_eq_true, decide_eq_true_eq] at this
      rcases this with small | ok
      · omega
      · exact ok
  · exact graphic _ rfl

include numbers gap

/-- **The characters of a text.** -/
theorem Printer.text_within {j : Json} (h : j.printsWithin q = true) : ∀ c ∈ p.text j, q c = true := by
  have separated : ∀ (sep : Char), isGraphic sep = true → ∀ c ∈ sep :: p.gap, q c = true := by
    intro sep hs c hc
    rcases List.mem_cons.1 hc with rfl | hc
    · exact graphic c hs
    · exact graphic c (gap c hc)
  have literal : ∀ {text : String}, text.toList.all isGraphic = true → ∀ c ∈ text.toList, q c = true :=
    fun all c hc => graphic c (List.all_eq_true.1 all c hc)
  have between : ∀ {o e : Char} {body : List Char}, isGraphic o = true → isGraphic e = true → (∀ c ∈ body, q c = true) →
      ∀ c ∈ o :: (body ++ [e]), q c = true := by
    intro o e body ho he hb c hc
    simp only [List.mem_cons, List.mem_append, List.not_mem_nil, or_false] at hc
    rcases hc with rfl | hc | rfl
    · exact graphic c ho
    · exact hb c hc
    · exact graphic c he
  induction j with
  | null => exact literal (by decide)
  | bool b => cases b <;> exact literal (by decide)
  | int i => exact fun c hc => graphic c (intText_graphic hc)
  | float x => exact fun c hc => graphic c (numbers x c hc)
  | str s => exact quote_within graphic h
  | arr items ih =>
    rw [Json.printsWithin, Json.all_arr] at h
    refine between rfl rfl ?_
    have each : ∀ items : List Json, (∀ j ∈ items, ∀ c ∈ p.text j, q c = true) → ∀ c ∈ p.textItems items, q c = true := by
      intro items
      induction items with
      | nil =>
        intro _ c hc
        cases hc
      | cons j js step =>
        intro all
        cases js with
        | nil => exact all j (by simp)
        | cons j' js =>
          intro c hc
          rw [textItems, List.mem_append, List.mem_append] at hc
          rcases hc with (hc | hc) | hc
          · exact all j (by simp) c hc
          · exact separated ',' rfl c hc
          · exact step (fun a ha => all a (List.mem_cons_of_mem _ ha)) c hc
    exact each items fun j hj => ih j hj (h.2 j hj)
  | obj fields ih =>
    rw [Json.printsWithin, Json.all_obj] at h
    refine between rfl rfl ?_
    have each : ∀ fields : List (String × Json), (∀ f ∈ fields, (∀ c ∈ quote f.1, q c = true) ∧
        ∀ c ∈ p.text f.2, q c = true) → ∀ c ∈ p.textFields fields, q c = true := by
      intro fields
      induction fields with
      | nil =>
        intro _ c hc
        cases hc
      | cons f fs step =>
        obtain ⟨k, j⟩ := f
        intro all
        have head := all (k, j) (by simp)
        cases fs with
        | nil =>
          intro c hc
          rw [textFields, List.mem_append, List.mem_append] at hc
          rcases hc with (hc | hc) | hc
          · exact head.1 c hc
          · exact separated ':' rfl c hc
          · exact head.2 c hc
        | cons f' fs =>
          intro c hc
          rw [textFields] at hc
          simp only [List.mem_append] at hc
          rcases hc with (((hc | hc) | hc) | hc) | hc
          · exact head.1 c hc
          · exact separated ':' rfl c hc
          · exact head.2 c hc
          · exact separated ',' rfl c hc
          · exact step (fun a ha => all a (List.mem_cons_of_mem _ ha)) c hc
    refine each fields fun f hf => ⟨quote_within graphic ?_, ih f hf (h.2 f hf)⟩
    exact List.all_eq_true.1 h.1 f hf

end Within

end JsonText
