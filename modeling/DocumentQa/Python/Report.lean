import DocumentQa.Lib.Json.Extent
import DocumentQa.Python.Errors
import DocumentQa.Python.Json

/-!
# Canonical reports

What the report formats share: `canonical_json_bytes`, a strict reading that raises on a
repeated key and on a constant that is not a number, objects with exactly given fields, and
`==` between values. A report whose keys are listed in order is read back as it is, and the
encoded length of its text is bounded by the widths of its parts.
-/

namespace Python

open JsonText

/-- `canonical_json_bytes`, `none` where it raises. -/
def canonicalJsonText (j : Json) : Option String :=
  dumpsFinite j

/-- `json.loads(encoded, object_pairs_hook=_unique_object, parse_constant=_reject_constant)`. -/
def loadsUnique (text : String) : Option Json :=
  (loadsWith .strict text.toList).filter printable

/-- A canonical text is read as the value with sorted keys. -/
theorem loadsUnique_sorted {j : Json} {text : String} (distinct : j.distinctKeys = true) (ok : canonicalJsonText j = some text) :
    loadsUnique text = some j.sorted := by
  obtain ⟨finite, print, rfl⟩ := dumpsFinite_eq_some.1 ok
  have back := loadsWith_text pythonPrinter_reads Hooks.strict_keeps (Json.sorted_distinctKeys distinct)
    (Json.sorted_finite finite)
  rw [rebuild_float] at back
  rw [loadsUnique, String.toList_ofList, back, Option.filter_some, if_pos (sorted_printable print)]

/-- **A canonical text is read back.** -/
theorem loadsUnique_canonical {j : Json} {text : String} (h : j.orderly = true) (ok : canonicalJsonText j = some text) :
    loadsUnique text = some j := by
  rw [loadsUnique_sorted (Json.orderly_distinctKeys h) ok, Json.sorted_of_orderly h]

/-- What has a canonical text. -/
theorem canonicalJsonText_exists {j : Json} (finite : j.finite = true) (print : printable j = true) :
    canonicalJsonText j = some (String.ofList (pythonPrinter.text j.sorted)) :=
  dumpsFinite_eq_some.2 ⟨finite, print, rfl⟩

/-! ## Objects with exact fields -/

/-- `isinstance(value, dict) and set(value) == names`. -/
def exactFields (names : List String) (e : PyError) : Json → Except PyError (List (String × Json))
  | .obj fields =>
    if ((fields.map Prod.fst).all (· ∈ names) && names.all (· ∈ fields.map Prod.fst)) = true then .ok fields else .error e
  | _ => .error e

theorem exactFields_obj {names : List String} {e : PyError} {j : Json} {fields : List (String × Json)}
    (h : exactFields names e j = .ok fields) : j = .obj fields := by
  cases j with
  | obj given =>
    rw [exactFields] at h
    split at h
    · cases h
      rfl
    · cases h
  | null | bool _ | int _ | float _ | str _ | arr _ => cases h

/-- `value[name]` of a field that is there. -/
def field (name : String) (fields : List (String × Json)) : Json :=
  (Json.lookup name fields).getD .null

/-! ## `==` -/

/-- The integer an `int` or a `bool` is. -/
def integer? : Json → Option Int
  | .int i => some i
  | .bool b => some (if b then 1 else 0)
  | _ => none

/-- `==` of two values that are no containers. -/
def equalScalars : Json → Json → Bool
  | .null, .null => true
  | .str s, .str t => s = t
  | .float (.zero _), .float (.zero _) => true
  | .float x, .float y => x = y && x ≠ .nan
  | .float x, j => (integer? j).any fun n => equalsInt n (.float x)
  | j, .float x => (integer? j).any fun n => equalsInt n (.float x)
  | a, b => (integer? a).any fun n => integer? b = some n

mutual

/-- `a == b`. -/
def equal : Json → Json → Bool
  | .arr as, .arr bs => equalItems as bs
  | .obj as, .obj bs => as.length = bs.length && equalFields as bs
  | a, b => equalScalars a b

def equalItems : List Json → List Json → Bool
  | [], [] => true
  | a :: as, b :: bs => equal a b && equalItems as bs
  | _, _ => false

def equalFields : List (String × Json) → List (String × Json) → Bool
  | [], _ => true
  | (key, a) :: as, bs => (Json.lookup key bs).any (equal a) && equalFields as bs

end

theorem equalItems_refl {items : List Json} (each : ∀ j ∈ items, equal j j = true) : equalItems items items = true := by
  induction items with
  | nil => rfl
  | cons j js ih =>
    rw [equalItems, each j (by simp), ih fun j' hj => each j' (List.mem_cons_of_mem _ hj)]
    rfl

theorem equalFields_self {fields all : List (String × Json)} (distinct : (all.map Prod.fst).Nodup)
    (within : ∀ f ∈ fields, f ∈ all) (each : ∀ f ∈ fields, equal f.2 f.2 = true) : equalFields fields all = true := by
  induction fields with
  | nil => rfl
  | cons f fs ih =>
    obtain ⟨key, j⟩ := f
    have found := Json.lookup_of_mem distinct (within (key, j) (by simp))
    rw [equalFields, found, ih (fun f' hf => within f' (List.mem_cons_of_mem _ hf)) fun f' hf =>
      each f' (List.mem_cons_of_mem _ hf)]
    simpa using each (key, j) (by simp)

/-- Every value without NaN equals itself. -/
theorem equal_refl {j : Json} (distinct : j.distinctKeys = true) (finite : j.finite = true) : equal j j = true := by
  induction j with
  | arr items ih =>
    rw [Json.distinctKeys_arr] at distinct
    rw [Json.finite_arr] at finite
    exact equalItems_refl fun j hj => ih j hj (distinct j hj) (finite j hj)
  | obj fields ih =>
    rw [Json.distinctKeys_obj] at distinct
    rw [Json.finite_obj] at finite
    rw [equal, equalFields_self distinct.1 (fun _ hf => hf) fun f hf => ih f hf (distinct.2 f hf) (finite f hf)]
    simp
  | null => rfl
  | bool b => cases b <;> rfl
  | int i => simp [equal, equalScalars, integer?]
  | str s => simp [equal, equalScalars]
  | float x =>
    cases x with
    | nan => cases finite
    | inf neg => cases finite
    | zero neg => rfl
    | finite d => simp [equal, equalScalars]

/-! ## Sizes -/

/-- The encoded length of the canonical text of a value whose keys are listed in order. -/
def width (j : Json) : Nat :=
  utf8Length (String.ofList (pythonPrinter.text j))

theorem utf8Length_cons (c : Char) (cs : List Char) :
    utf8Length (String.ofList (c :: cs)) = c.utf8Size + utf8Length (String.ofList cs) := by
  have start : ∀ (cs : List Char) (n : Nat), cs.foldl (fun n c => n + c.utf8Size) n = n + cs.foldl (fun n c => n + c.utf8Size) 0 := by
    intro cs
    induction cs with
    | nil => exact fun n => rfl
    | cons c cs ih =>
      intro n
      rw [List.foldl_cons, List.foldl_cons, ih (n + c.utf8Size), ih (0 + c.utf8Size)]
      omega
  rw [utf8Length, utf8Length, String.toList_ofList, String.toList_ofList, List.foldl_cons, start, Nat.zero_add]

theorem utf8Length_append (as bs : List Char) :
    utf8Length (String.ofList (as ++ bs)) = utf8Length (String.ofList as) + utf8Length (String.ofList bs) := by
  induction as with
  | nil => exact (Nat.zero_add _).symm
  | cons a as ih => rw [List.cons_append, utf8Length_cons, utf8Length_cons, ih, Nat.add_assoc]

theorem width_arr (items : List Json) : width (.arr items) ≤ 2 + (items.map fun j => width j + 1).sum := by
  have inner : utf8Length (String.ofList (pythonPrinter.textItems items)) ≤ (items.map fun j => width j + 1).sum := by
    induction items with
    | nil => exact Nat.zero_le _
    | cons j js ih =>
      rw [List.map_cons, List.sum_cons]
      cases js with
      | nil =>
        rw [Printer.textItems, width]
        omega
      | cons j' js =>
        have comma : utf8Length (String.ofList (',' :: pythonPrinter.gap)) = 1 := by decide
        rw [Printer.textItems, utf8Length_append, utf8Length_append, comma, ← width]
        omega
  have close : utf8Length (String.ofList [']']) = 1 := by decide
  have bracket : '['.utf8Size = 1 := by decide
  rw [width, Printer.text, utf8Length_cons, utf8Length_append, close, bracket]
  omega

theorem width_obj (fields : List (String × Json)) :
    width (.obj fields) ≤ 2 + (fields.map fun f => width (.str f.1) + width f.2 + 2).sum := by
  have colon : utf8Length (String.ofList (':' :: pythonPrinter.gap)) = 1 := by decide
  have inner : utf8Length (String.ofList (pythonPrinter.textFields fields)) ≤
      (fields.map fun f => width (.str f.1) + width f.2 + 2).sum := by
    induction fields with
    | nil => exact Nat.zero_le _
    | cons f fs ih =>
      obtain ⟨key, j⟩ := f
      have quoted : width (.str key) = utf8Length (String.ofList (quote key)) := rfl
      have value : width j = utf8Length (String.ofList (pythonPrinter.text j)) := rfl
      rw [List.map_cons, List.sum_cons]
      cases fs with
      | nil =>
        rw [Printer.textFields, utf8Length_append, utf8Length_append, colon]
        dsimp only
        omega
      | cons f' fs =>
        have comma : utf8Length (String.ofList (',' :: pythonPrinter.gap)) = 1 := by decide
        rw [Printer.textFields, utf8Length_append, utf8Length_append, utf8Length_append, utf8Length_append, comma, colon]
        dsimp only
        omega
  have close : utf8Length (String.ofList ['}']) = 1 := by decide
  have brace : '{'.utf8Size = 1 := by decide
  rw [width, Printer.text, utf8Length_cons, utf8Length_append, close, brace]
  omega

theorem width_str (s : String) : width (.str s) ≤ 24 * s.toList.length + 8 := by
  have quoted := quote_length s
  have bytes := utf8Length_le (quote s)
  rw [width, Printer.text]
  omega

theorem utf8Length_ge (cs : List Char) : cs.length ≤ utf8Length (String.ofList cs) := by
  induction cs with
  | nil => exact Nat.zero_le _
  | cons c cs ih =>
    have size := c.utf8Size_pos
    rw [utf8Length_cons, List.length_cons]
    omega

theorem width_arr_ge (items : List Json) : (items.map width).sum ≤ width (.arr items) := by
  have inner : (items.map width).sum ≤ utf8Length (String.ofList (pythonPrinter.textItems items)) := by
    induction items with
    | nil => exact Nat.zero_le _
    | cons j js ih =>
      rw [List.map_cons, List.sum_cons]
      cases js with
      | nil => exact Nat.le_refl _
      | cons j' js =>
        rw [Printer.textItems, utf8Length_append, utf8Length_append, ← width]
        omega
  rw [width, Printer.text, utf8Length_cons, utf8Length_append]
  omega

theorem width_obj_ge (fields : List (String × Json)) : (fields.map fun f => width f.2).sum ≤ width (.obj fields) := by
  have inner : (fields.map fun f => width f.2).sum ≤ utf8Length (String.ofList (pythonPrinter.textFields fields)) := by
    induction fields with
    | nil => exact Nat.zero_le _
    | cons f fs ih =>
      obtain ⟨key, j⟩ := f
      have value : width j = utf8Length (String.ofList (pythonPrinter.text j)) := rfl
      rw [List.map_cons, List.sum_cons]
      cases fs with
      | nil =>
        rw [Printer.textFields, utf8Length_append, utf8Length_append]
        dsimp only
        simp only [List.map_nil, List.sum_nil]
        omega
      | cons f' fs =>
        rw [Printer.textFields, utf8Length_append, utf8Length_append, utf8Length_append, utf8Length_append]
        dsimp only
        omega
  rw [width, Printer.text, utf8Length_cons, utf8Length_append]
  omega

theorem width_str_ge (s : String) : s.toList.length ≤ width (.str s) := by
  have each : ∀ cs : List Char, cs.length ≤ (escape cs).length := by
    intro cs
    induction cs with
    | nil => exact Nat.le_refl _
    | cons c cs ih =>
      have some_ : 0 < (escapeChar c).length := by
        unfold escapeChar
        split_ifs <;> simp
      rw [escape, List.flatMap_cons, List.length_append, ← escape, List.length_cons]
      omega
  have bytes := utf8Length_ge (quote s)
  have inside := each s.toList
  rw [quote, List.length_cons, List.length_append] at bytes
  rw [width, Printer.text, quote]
  omega
/-- A printed ASCII character that needs no escape. -/
def plain (c : Char) : Bool :=
  Nat.ble 32 c.toNat && Nat.ble c.toNat 126 && c.toNat != 34 && c.toNat != 92

theorem escapeChar_plain {c : Char} (h : plain c = true) : escapeChar c = [c] ∧ c.utf8Size = 1 := by
  simp only [plain, Bool.and_eq_true, Nat.ble_eq, bne_iff_ne] at h
  obtain ⟨⟨⟨low, high⟩, quote⟩, slash⟩ := h
  have other : ∀ d : Char, c.toNat ≠ d.toNat → c ≠ d := fun d differ same => differ (congrArg Char.toNat same)
  have newline : '\n'.toNat = 10 ∧ '\r'.toNat = 13 ∧ '\t'.toNat = 9 := ⟨rfl, rfl, rfl⟩
  refine ⟨?_, ?_⟩
  · rw [escapeChar, if_neg (other '"' quote), if_neg (other '\\' slash), if_neg (other '\n' (by omega)),
      if_neg (other '\r' (by omega)), if_neg (other '\t' (by omega)), if_neg (by omega), if_neg (by omega),
      if_neg (by omega)]
  · rw [Char.utf8Size_eq_one_iff, UInt32.le_iff_toNat_le]
    exact (show c.toNat ≤ 127 by omega)

/-- A text of at most so many plain characters. -/
def Plain (n : Nat) (s : String) : Prop :=
  ∃ cs, s = String.ofList cs ∧ cs.all plain = true ∧ cs.length ≤ n

theorem Plain.append {m n : Nat} {s t : String} (left : Plain m s) (right : Plain n t) : Plain (m + n) (s ++ t) := by
  obtain ⟨cs, rfl, plain, short⟩ := left
  obtain ⟨ds, rfl, plain', short'⟩ := right
  refine ⟨cs ++ ds, (String.ofList_append).symm, ?_, ?_⟩
  · rw [List.all_append, plain, plain', Bool.and_self]
  · rw [List.length_append]
    omega

theorem Plain.width {n : Nat} {s : String} (h : Plain n s) : width (.str s) ≤ n + 2 := by
  obtain ⟨cs, rfl, all, short⟩ := h
  have body : utf8Length (String.ofList (escape cs)) = cs.length := by
    clear short
    induction cs with
    | nil => rfl
    | cons c cs ih =>
      rw [List.all_cons, Bool.and_eq_true] at all
      have rest := ih all.2
      rw [escape] at rest
      rw [escape, List.flatMap_cons, (escapeChar_plain all.1).1, List.singleton_append, utf8Length_cons, rest,
        (escapeChar_plain all.1).2, List.length_cons, Nat.add_comm]
  have quote : '"'.utf8Size = 1 ∧ utf8Length (String.ofList ['"']) = 1 := by decide
  rw [Python.width, Printer.text, JsonText.quote, String.toList_ofList, utf8Length_cons, utf8Length_append, body, quote.1, quote.2]
  omega

/-- A bound of each value bounds an object whose keys are short and plain. -/
theorem width_fields {fields : List (String × Json)} {bounds : List Nat}
    (h : List.Forall₂ (fun f n => Plain 28 f.1 ∧ width f.2 ≤ n) fields bounds) :
    width (.obj fields) ≤ 2 + (bounds.map (· + 32)).sum := by
  refine (width_obj fields).trans (Nat.add_le_add_left ?_ 2)
  induction h with
  | nil => exact le_refl _
  | @cons f n fields bounds one _ ih =>
    have key := one.1.width
    have value := one.2
    rw [List.map_cons, List.sum_cons, List.map_cons, List.sum_cons]
    omega

theorem width_arr_le {items : List Json} {n : Nat} (h : ∀ j ∈ items, width j ≤ n) :
    width (.arr items) ≤ 2 + items.length * (n + 1) := by
  refine (width_arr items).trans (Nat.add_le_add_left ?_ 2)
  induction items with
  | nil => exact Nat.zero_le _
  | cons j js ih =>
    have head := h j (List.mem_cons_self ..)
    have tail := ih fun j mem => h j (List.mem_cons_of_mem _ mem)
    rw [List.map_cons, List.sum_cons, List.length_cons, Nat.succ_mul]
    omega

/-- One bound of all values bounds an object whose keys are short and plain. -/
theorem width_obj_le {fields : List (String × Json)} {n : Nat} (h : ∀ f ∈ fields, Plain 28 f.1 ∧ width f.2 ≤ n) :
    width (.obj fields) ≤ 2 + fields.length * (n + 32) := by
  refine (width_obj fields).trans (Nat.add_le_add_left ?_ 2)
  induction fields with
  | nil => exact Nat.zero_le _
  | cons f fs ih =>
    have key := (h f (List.mem_cons_self ..)).1.width
    have value := (h f (List.mem_cons_self ..)).2
    have tail := ih fun f mem => h f (List.mem_cons_of_mem _ mem)
    rw [List.map_cons, List.sum_cons, List.length_cons, Nat.succ_mul]
    omega

end Python
