import DocumentQa.Lib.Json.Text

/-!
# How long the text of a value is

`extent` adds up bounds of the parts, so the length of a text is bounded without printing it.
-/

namespace JsonText

theorem escapeChar_length (c : Char) : (escapeChar c).length ≤ 6 := by
  unfold escapeChar
  split_ifs <;> simp

theorem quote_length (s : String) : (quote s).length ≤ 6 * s.toList.length + 2 := by
  have each : ∀ cs : List Char, (escape cs).length ≤ 6 * cs.length := by
    intro cs
    induction cs with
    | nil => simp [escape]
    | cons c cs ih =>
      have head := escapeChar_length c
      rw [escape, List.flatMap_cons, List.length_append, List.length_cons]
      rw [escape] at ih
      omega
  have := each s.toList
  rw [quote, List.length_cons, List.length_append, List.length_singleton]
  omega

namespace Printer

mutual

/-- A bound of the length of the text of a value. -/
def extent (p : Printer) : Json → Nat
  | .null => 4
  | .bool _ => 5
  | .int i => (intText i).length
  | .float x => (p.number x).length
  | .str s => 6 * s.toList.length + 2
  | .arr items => p.extentItems items + 2
  | .obj fields => p.extentFields fields + 2

def extentItems (p : Printer) : List Json → Nat
  | [] => 0
  | j :: js => p.extent j + (p.gap.length + 1) + p.extentItems js

def extentFields (p : Printer) : List (String × Json) → Nat
  | [] => 0
  | (k, j) :: fs => (6 * k.toList.length + 2) + p.extent j + 2 * (p.gap.length + 1) + p.extentFields fs

end

variable {p : Printer}

theorem textItems_length {items : List Json} (h : ∀ j ∈ items, (p.text j).length ≤ p.extent j) :
    (p.textItems items).length ≤ p.extentItems items := by
  induction items with
  | nil => simp [textItems]
  | cons j js ih =>
    have head := h j (by simp)
    have tail := ih fun j hj => h j (List.mem_cons_of_mem _ hj)
    cases js with
    | nil =>
      rw [textItems, extentItems]
      omega
    | cons j' js =>
      rw [textItems, extentItems, List.length_append, List.length_append, List.length_cons]
      omega

theorem textFields_length {fields : List (String × Json)} (h : ∀ f ∈ fields, (p.text f.2).length ≤ p.extent f.2) :
    (p.textFields fields).length ≤ p.extentFields fields := by
  induction fields with
  | nil => simp [textFields]
  | cons f fs ih =>
    obtain ⟨k, j⟩ := f
    have key := quote_length k
    have head := h (k, j) (by simp)
    have tail := ih fun f hf => h f (List.mem_cons_of_mem _ hf)
    cases fs with
    | nil =>
      rw [textFields, extentFields, List.length_append, List.length_append, List.length_cons]
      dsimp only at head
      omega
    | cons f' fs =>
      rw [textFields, extentFields, List.length_append, List.length_append, List.length_append, List.length_append,
        List.length_cons, List.length_cons]
      dsimp only at head
      omega

/-- **The text of a value is no longer than its extent.** -/
theorem text_length (j : Json) : (p.text j).length ≤ p.extent j := by
  induction j with
  | null => simp [text, extent]
  | bool b => cases b <;> simp [text, extent]
  | int i => rw [text, extent]
  | float x => rw [text, extent]
  | str s =>
    rw [text, extent]
    exact quote_length s
  | arr items ih =>
    have := textItems_length ih
    rw [text, extent, List.length_cons, List.length_append, List.length_singleton]
    omega
  | obj fields ih =>
    have := textFields_length ih
    rw [text, extent, List.length_cons, List.length_append, List.length_singleton]
    omega

theorem extentFields_append (fields fields' : List (String × Json)) :
    p.extentFields (fields ++ fields') = p.extentFields fields + p.extentFields fields' := by
  induction fields with
  | nil => simp [extentFields]
  | cons f fs ih =>
    rw [List.cons_append, extentFields, extentFields, ih]
    omega

end Printer

end JsonText
