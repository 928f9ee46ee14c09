import DocumentQa.Lib.Json.Parse

/-!
# What is printed reads back

`loads_text`: the text of a value with distinct keys and finite floats reads back as the
value with each float replaced by what its number text reads as. The proof follows the
reader: strings, scalars, then arrays and objects by induction on the value, with fuel at
least the length of the text.
-/

namespace JsonText

/-! ## Strings -/

section Strings

variable {lone : Nat → Option Char}

theorem hexValue_hexDigit {n : Nat} (h : n < 16) : hexValue (hexDigit n) = some n := by
  have all : ∀ m : Fin 16, hexValue (hexDigit m) = some m.val := by decide
  exact all ⟨n, h⟩

theorem readUnicode_control {c : Char} (h : c.toNat < 32) (r : List Char) :
    readUnicode lone ('0' :: '0' :: hexDigit (c.toNat / 16) :: hexDigit (c.toNat % 16) :: r) = some (c, r) := by
  have high : hexValue (hexDigit (c.toNat / 16)) = some (c.toNat / 16) := hexValue_hexDigit (by omega)
  have low : hexValue (hexDigit (c.toNat % 16)) = some (c.toNat % 16) := hexValue_hexDigit (by omega)
  have zero : hexValue '0' = some 0 := rfl
  have sum : 0 * 4096 + 0 * 256 + c.toNat / 16 * 16 + c.toNat % 16 = c.toNat := by omega
  have hex : readHex ('0' :: '0' :: hexDigit (c.toNat / 16) :: hexDigit (c.toNat % 16) :: r) = some (c.toNat, r) := by
    simp only [readHex, zero, high, low, Option.bind_eq_bind, Option.bind_some, sum]
  have notHigh : isHighSurrogate c.toNat = false := by
    simp only [isHighSurrogate, Bool.and_eq_false_iff, decide_eq_false_iff_not]
    omega
  have notLow : isLowSurrogate c.toNat = false := by
    simp only [isLowSurrogate, Bool.and_eq_false_iff, decide_eq_false_iff_not]
    omega
  simp only [readUnicode, hex, notHigh, notLow, Bool.false_eq_true, if_false, Char.ofNat_toNat]

/-- A character is escaped to itself, or to a backslash and what names it. -/
theorem escapeChar_cases (c : Char) :
    (escapeChar c = [c] ∧ c ≠ '"' ∧ c ≠ '\\' ∧ ¬c.toNat < 32) ∨
      ∃ e, escapeChar c = '\\' :: e ∧ ∀ r, readEscape lone (e ++ r) = some (c, r) := by
  unfold escapeChar
  split_ifs with quote backslash newline return_ tab back feed control
  · exact .inr ⟨['"'], rfl, fun r => by rw [quote]; rfl⟩
  · exact .inr ⟨['\\'], rfl, fun r => by rw [backslash]; rfl⟩
  · exact .inr ⟨['n'], rfl, fun r => by rw [newline]; rfl⟩
  · exact .inr ⟨['r'], rfl, fun r => by rw [return_]; rfl⟩
  · exact .inr ⟨['t'], rfl, fun r => by rw [tab]; rfl⟩
  · exact .inr ⟨['b'], rfl, fun r => by rw [← c.ofNat_toNat, back]; rfl⟩
  · exact .inr ⟨['f'], rfl, fun r => by rw [← c.ofNat_toNat, feed]; rfl⟩
  · exact .inr ⟨_, rfl, fun r => by simpa [readEscape] using readUnicode_control control r⟩
  · exact .inl ⟨rfl, quote, backslash, control⟩

/-- **Strings read back.** -/
theorem readString_escape (cs rest : List Char) {fuel : Nat} (h : (escape cs).length < fuel) :
    readString lone fuel (escape cs ++ '"' :: rest) = some (cs, rest) := by
  induction cs generalizing fuel with
  | nil =>
    cases fuel with
    | zero => simp at h
    | succ fuel => simp [escape, readString]
  | cons c cs ih =>
    have unfold_ : escape (c :: cs) = escapeChar c ++ escape cs := rfl
    rw [unfold_, List.length_append] at h
    cases fuel with
    | zero => omega
    | succ fuel =>
      rcases escapeChar_cases c with ⟨plain, quote, backslash, control⟩ | ⟨e, escaped, reads⟩
      · have rest_ : readString lone fuel (escape cs ++ '"' :: rest) = some (cs, rest) :=
          ih (by rw [plain, List.length_singleton] at h; omega)
        rw [unfold_, plain, List.append_assoc, List.singleton_append, readString, if_neg quote, if_neg backslash,
          if_neg control, rest_]
        rfl
      · have rest_ : readString lone fuel (escape cs ++ '"' :: rest) = some (cs, rest) :=
          ih (by rw [escaped, List.length_cons] at h; omega)
        rw [unfold_, escaped, List.append_assoc, List.cons_append, readString, if_neg (by decide), if_pos rfl, reads]
        simp only [rest_]
        rfl

theorem readString_quote (s : String) (rest : List Char) :
    readString lone (escape s.toList ++ '"' :: rest).length (escape s.toList ++ '"' :: rest) = some (s.toList, rest) :=
  readString_escape _ _ (by simp)

end Strings

/-! ## Blanks and scalars -/

theorem skip_cons {c : Char} {r : List Char} (h : isBlank c = false) : skip (c :: r) = c :: r := by
  simp [skip, h]

theorem skip_append {gap rest : List Char} (h : ∀ c ∈ gap, isBlank c = true) : skip (gap ++ rest) = skip rest := by
  unfold skip
  rw [List.dropWhile_append_of_pos h]

/-- A number starts with a digit, perhaps behind a minus. -/
theorem readNumber_head {cs rest : List Char} {j : Json} (h : readNumber cs = some (j, rest)) :
    ∃ d r, d.isDigit = true ∧ (cs = d :: r ∨ cs = '-' :: d :: r) := by
  have whole : ∀ {neg : Bool} {cs : List Char}, readUnsigned neg cs = some (j, rest) →
      ∃ d r, d.isDigit = true ∧ cs = d :: r := by
    intro neg cs h
    unfold readUnsigned at h
    cases scan : scanWhole cs with
    | none => rw [scan] at h; cases h
    | some r =>
      unfold scanWhole at scan
      split at scan
      · exact ⟨'0', _, rfl, rfl⟩
      · split at scan
        · cases scan
        · next ne =>
          cases cs with
          | nil => simp [spanDigits] at ne
          | cons c r =>
            refine ⟨c, r, ?_, rfl⟩
            by_contra hc
            simp [spanDigits, hc] at ne
  unfold readNumber at h
  split at h
  · obtain ⟨d, r, hd, rfl⟩ := whole h
    exact ⟨d, r, hd, .inr rfl⟩
  · obtain ⟨d, r, hd, rfl⟩ := whole h
    exact ⟨d, r, hd, .inl rfl⟩

theorem isDigit_cases {d : Char} (h : d.isDigit = true) :
    isBlank d = false ∧ ∀ c : Char, c.isDigit = false → d ≠ c := by
  constructor
  · by_contra hb
    simp only [Bool.not_eq_false, isBlank, Bool.or_eq_true, decide_eq_true_eq] at hb
    rcases hb with ((rfl | rfl) | rfl) | rfl <;> cases h
  · rintro c hc rfl
    rw [h] at hc
    cases hc

/-- No literal is mistaken for a number. -/
theorem readScalar_number {hooks : Hooks} (keeps : hooks.Keeps) {cs rest : List Char} {j : Json}
    (h : readNumber cs = some (j, rest)) : readScalar hooks cs = some (j, rest) := by
  obtain ⟨d, r, hd, hcs⟩ := readNumber_head h
  have ne := (isDigit_cases hd).2
  have none_ : (constants.findSome? fun c => (word c.1 cs).map fun r => (c.2, r)) = none := by
    rcases hcs with rfl | rfl
    · have nu := (ne 'n' rfl).symm
      have tr := (ne 't' rfl).symm
      have fa := (ne 'f' rfl).symm
      have na := (ne 'N' rfl).symm
      have inf := (ne 'I' rfl).symm
      have minus := (ne '-' rfl).symm
      simp [constants, word, nu, tr, fa, na, inf, minus]
    · have inf := (ne 'I' rfl).symm
      simp [constants, word, inf]
  simp only [readScalar, none_, h, Option.bind_some, keeps.number, Option.map_some]

/-! ## Values -/

/-- A printer whose numbers read back, a float `x` as `back x`, and whose gaps are blank. -/
structure Printer.Reads (p : Printer) (back : Double → Json) : Prop where
  number : ∀ x rest, x.isFinite = true → Stops rest → readNumber (p.number x ++ rest) = some (back x, rest)
  gap : ∀ c ∈ p.gap, isBlank c = true

/-- What a leaf reads back as. -/
def leafBack (back : Double → Json) : Json → Json
  | .float x => back x
  | j => j

/-- A number at the head of a text. -/
theorem readValue_number {hooks : Hooks} (keeps : hooks.Keeps) {cs rest : List Char} {j : Json} {fuel : Nat} (hf : 0 < fuel)
    (h : readNumber cs = some (j, rest)) : readValue hooks fuel cs = some (j, rest) := by
  obtain ⟨d, r, hd, hcs⟩ := readNumber_head h
  cases fuel with
  | zero => omega
  | succ fuel =>
    rw [← readScalar_number keeps h]
    rcases hcs with rfl | rfl
    · rw [readValue]
      all_goals
        rintro _ ⟨⟩
        cases hd
    · rw [readValue]
      all_goals rintro _ ⟨⟩

theorem readValue_string {hooks : Hooks} (s : String) (rest : List Char) {fuel : Nat} (hf : 0 < fuel) :
    readValue hooks fuel (quote s ++ rest) = some (.str s, rest) := by
  cases fuel with
  | zero => omega
  | succ fuel =>
    simp only [quote, List.cons_append, List.append_assoc, List.nil_append]
    rw [readValue, readString_quote]
    simp

section RoundTrip

variable {p : Printer} {back : Double → Json} {hooks : Hooks} (reads : p.Reads back)

include reads

/-- A value starts with a character that is neither blank nor a closing bracket. -/
theorem text_head {j : Json} (hj : j.finite = true) :
    ∃ c r, p.text j = c :: r ∧ isBlank c = false ∧ c ≠ ']' ∧ c ≠ '}' := by
  have number : ∀ {cs : List Char} {v : Json}, readNumber cs = some (v, []) →
      ∃ c r, cs = c :: r ∧ isBlank c = false ∧ c ≠ ']' ∧ c ≠ '}' := by
    intro cs v h
    obtain ⟨d, r, hd, rfl | rfl⟩ := readNumber_head h
    · obtain ⟨blank, ne⟩ := isDigit_cases hd
      exact ⟨d, r, rfl, blank, ne ']' rfl, ne '}' rfl⟩
    · exact ⟨'-', d :: r, rfl, by decide⟩
  cases j with
  | null => exact ⟨'n', _, rfl, by decide⟩
  | bool b => cases b <;> exact ⟨_, _, rfl, by decide⟩
  | int i => exact number (by simpa [Printer.text] using readNumber_int i Stops.nil)
  | float x => exact number (by simpa [Printer.text] using reads.number x [] hj Stops.nil)
  | str s => exact ⟨'"', _, rfl, by decide⟩
  | arr items => exact ⟨'[', _, rfl, by decide⟩
  | obj fields => exact ⟨'{', _, rfl, by decide⟩

theorem skip_text {j : Json} (hj : j.finite = true) (rest : List Char) :
    skip (p.text j ++ rest) = p.text j ++ rest := by
  obtain ⟨c, r, e, blank, -⟩ := text_head reads hj
  rw [e, List.cons_append, skip_cons blank]

/-- What is to be shown of every value inside an array or an object. -/
def ReadsBack (hooks : Hooks) (p : Printer) (back : Double → Json) (j : Json) : Prop :=
  ∀ (fuel : Nat) (rest : List Char), closes rest → (p.text j).length ≤ fuel →
    readValue hooks fuel (p.text j ++ rest) = some (j.rebuild (leafBack back) id, rest)

omit reads in
theorem closes_cons {c : Char} {r : List Char} (h : c = ',' ∨ c = ']' ∨ c = '}') : closes (c :: r) :=
  .inr ⟨c, r, rfl, h⟩

theorem readItems_text {j : Json} {js : List Json} (ih : ∀ a ∈ j :: js, ReadsBack hooks p back a)
    (hf : ∀ a ∈ j :: js, a.finite = true) (fuel : Nat) (rest : List Char)
    (hfuel : (p.textItems (j :: js)).length < fuel) :
    readItems hooks fuel (p.textItems (j :: js) ++ ']' :: rest) =
      some ((j :: js).map (Json.rebuild (leafBack back) id), rest) := by
  induction js generalizing j fuel with
  | nil =>
    cases fuel with
    | zero => omega
    | succ fuel =>
      simp only [Printer.textItems] at hfuel ⊢
      rw [readItems, ih j (by simp) fuel _ (closes_cons (by simp)) (by omega)]
      simp only [skip_cons (show isBlank ']' = false from rfl), List.map_cons, List.map_nil]
  | cons j' js step =>
    cases fuel with
    | zero => omega
    | succ fuel =>
      simp only [Printer.textItems, List.length_append, List.length_cons] at hfuel
      have next := step (j := j') (fun a ha => ih a (List.mem_cons_of_mem _ ha))
        (fun a ha => hf a (List.mem_cons_of_mem _ ha)) fuel (by omega)
      have gap : skip (p.gap ++ (p.textItems (j' :: js) ++ ']' :: rest)) = p.textItems (j' :: js) ++ ']' :: rest := by
        rw [skip_append reads.gap]
        cases js with
        | nil => exact skip_text reads (hf j' (by simp)) _
        | cons a as =>
          simp only [Printer.textItems, List.append_assoc]
          exact skip_text reads (hf j' (by simp)) _
      simp only [Printer.textItems, List.append_assoc, List.cons_append]
      rw [readItems, ih j (by simp) fuel _ (closes_cons (by simp)) (by omega)]
      simp only [skip_cons (show isBlank ',' = false from rfl), gap, next, Option.map_some, List.map_cons]

omit reads in
/-- The fields of an object, each value read back. -/
def fieldsBack (back : Double → Json) (fields : List (String × Json)) : List (String × Json) :=
  fields.map fun f => (f.1, f.2.rebuild (leafBack back) id)

theorem readFields_text {f : String × Json} {fs : List (String × Json)} (ih : ∀ a ∈ f :: fs, ReadsBack hooks p back a.2)
    (hf : ∀ a ∈ f :: fs, a.2.finite = true) (fuel : Nat) (rest : List Char)
    (hfuel : (p.textFields (f :: fs)).length < fuel) :
    readFields hooks fuel (p.textFields (f :: fs) ++ '}' :: rest) = some (fieldsBack back (f :: fs), rest) := by
  have colon : isBlank ':' = false := rfl
  have comma : isBlank ',' = false := rfl
  have brace : isBlank '}' = false := rfl
  induction fs generalizing f fuel with
  | nil =>
    obtain ⟨k, j⟩ := f
    cases fuel with
    | zero => omega
    | succ fuel =>
      simp only [Printer.textFields, List.length_append, List.length_cons] at hfuel
      have value := ih (k, j) (by simp) fuel ('}' :: rest) (closes_cons (by simp)) (by simp only; omega)
      have start := skip_text reads (hf (k, j) (by simp)) ('}' :: rest)
      simp only [Printer.textFields, quote, List.append_assoc, List.cons_append, List.nil_append]
      rw [readFields, readString_quote]
      simp only [skip_cons colon, skip_append reads.gap, start, value, skip_cons brace, fieldsBack, List.map_cons,
        List.map_nil, String.ofList_toList]
  | cons f' fs step =>
    obtain ⟨k, j⟩ := f
    cases fuel with
    | zero => omega
    | succ fuel =>
      simp only [Printer.textFields, List.length_append, List.length_cons] at hfuel
      have next := step (f := f') (fun a ha => ih a (List.mem_cons_of_mem _ ha))
        (fun a ha => hf a (List.mem_cons_of_mem _ ha)) fuel (by omega)
      have quoted : ∃ r, p.textFields (f' :: fs) ++ '}' :: rest = '"' :: r := by
        cases fs with
        | nil => exact ⟨_, rfl⟩
        | cons => exact ⟨_, rfl⟩
      have more : skip (p.textFields (f' :: fs) ++ '}' :: rest) = p.textFields (f' :: fs) ++ '}' :: rest := by
        obtain ⟨r, e⟩ := quoted
        rw [e, skip_cons rfl]
      have value := ih (k, j) (by simp) fuel (',' :: (p.gap ++ (p.textFields (f' :: fs) ++ '}' :: rest)))
        (closes_cons (by simp)) (by simp only; omega)
      have start := skip_text reads (hf (k, j) (by simp))
        (',' :: (p.gap ++ (p.textFields (f' :: fs) ++ '}' :: rest)))
      simp only [Printer.textFields, quote, List.append_assoc, List.cons_append, List.nil_append]
      rw [readFields, readString_quote]
      simp only [skip_cons colon, skip_append reads.gap, start, value, skip_cons comma, more, next, fieldsBack,
        Option.map_some, List.map_cons, String.ofList_toList]

/-- **Values read back**, whatever follows them. -/
theorem readValue_text (keeps : hooks.Keeps) {j : Json} (hk : j.distinctKeys = true) (hf : j.finite = true) : ReadsBack hooks p back j := by
  induction j with
  | null =>
    rintro (_ | fuel) rest - hfuel
    · cases hfuel
    · rfl
  | bool b =>
    rintro (_ | fuel) rest - hfuel
    · cases b <;> cases hfuel
    · cases b <;> rfl
  | int i =>
    intro fuel rest hr hfuel
    have := List.length_pos_iff.2 (natText_ne_nil i.natAbs)
    refine readValue_number keeps ?_ (readNumber_int i hr.stops)
    simp only [Printer.text, intText] at hfuel
    split at hfuel
    · simp at hfuel
      omega
    · omega
  | float x =>
    intro fuel rest hr hfuel
    obtain ⟨c, r, e, -⟩ := text_head reads hf
    refine readValue_number keeps ?_ (reads.number x rest hf hr.stops)
    rw [e, List.length_cons] at hfuel
    omega
  | str s =>
    intro fuel rest _ hfuel
    refine readValue_string s rest ?_
    simp only [Printer.text, quote, List.length_cons] at hfuel
    omega
  | arr items ih =>
    rw [Json.distinctKeys_arr] at hk
    rw [Json.finite_arr] at hf
    rintro (_ | fuel) rest - hfuel
    · simp [Printer.text] at hfuel
    · simp only [Printer.text, List.length_cons, List.length_append, List.length_nil] at hfuel
      simp only [Printer.text, List.cons_append, List.append_assoc, List.nil_append]
      rw [readValue, Json.rebuild_arr]
      cases items with
      | nil => rfl
      | cons j js =>
        have body := readItems_text reads (fun a ha => ih a ha (hk a ha) (hf a ha)) hf fuel rest (by omega)
        obtain ⟨c, r, e, blank, ne, -⟩ := text_head reads (hf j (by simp))
        have head : ∃ r', p.textItems (j :: js) ++ ']' :: rest = c :: r' := by
          cases js <;> simp [Printer.textItems, e]
        obtain ⟨r', e'⟩ := head
        rw [e'] at body
        simp only [e', skip_cons blank]
        split
        · next h => simp_all
        · rw [body]
          rfl
  | obj fields ih =>
    rw [Json.distinctKeys_obj] at hk
    rw [Json.finite_obj] at hf
    rintro (_ | fuel) rest - hfuel
    · simp [Printer.text] at hfuel
    · simp only [Printer.text, List.length_cons, List.length_append, List.length_nil] at hfuel
      simp only [Printer.text, List.cons_append, List.append_assoc, List.nil_append]
      rw [readValue, Json.rebuild_obj]
      cases fields with
      | nil => rfl
      | cons f fs =>
        have body := readFields_text reads (fun a ha => ih a ha (hk.2 a ha) (hf a ha)) hf fuel rest (by omega)
        have head : ∃ r', p.textFields (f :: fs) ++ '}' :: rest = '"' :: r' := by
          cases fs <;> exact ⟨_, rfl⟩
        obtain ⟨r', e'⟩ := head
        have distinct : ((fieldsBack back (f :: fs)).map Prod.fst).Nodup := by
          simpa [fieldsBack, Function.comp_def] using hk.1
        rw [e'] at body
        simp only [e', skip_cons (show isBlank '"' = false from rfl)]
        split
        · next h => cases h
        · rw [body, Option.bind_some, keeps.object _ distinct]
          rfl

/-- **Reading after printing**, under hooks that keep what a printer writes. -/
theorem loadsWith_text (keeps : hooks.Keeps) {j : Json} (hk : j.distinctKeys = true) (hf : j.finite = true) :
    loadsWith hooks (p.text j) = some (j.rebuild (leafBack back) id) := by
  have value := readValue_text reads keeps hk hf ((p.text j).length + 1) [] (.inl rfl) (by omega)
  have start := skip_text reads hf []
  rw [List.append_nil] at value start
  rw [loadsWith, start, value]
  rfl

/-- **`loads` after printing.** -/
theorem loads_text {j : Json} (hk : j.distinctKeys = true) (hf : j.finite = true) :
    loads (p.text j) = some (j.rebuild (leafBack back) id) :=
  loadsWith_text reads Hooks.plain_keeps hk hf

/-- A printed text determines the value, up to what number texts lose. -/
theorem text_injective {a b : Json} (ha : a.distinctKeys = true ∧ a.finite = true)
    (hb : b.distinctKeys = true ∧ b.finite = true) (h : p.text a = p.text b) :
    a.rebuild (leafBack back) id = b.rebuild (leafBack back) id := by
  have := loads_text reads ha.1 ha.2
  rw [h, loads_text reads hb.1 hb.2] at this
  exact (Option.some.inj this).symm

end RoundTrip

/-! ## What the reader builds -/

theorem setField_keys {key : String} {value : Json} {fields : List (String × Json)}
    (h : (fields.map Prod.fst).Nodup) : ((Json.setField key value fields).map Prod.fst).Nodup := by
  have keys : ∀ fs : List (String × Json), key ∈ fs.map Prod.fst →
      (Json.setField key value fs).map Prod.fst = fs.map Prod.fst := by
    intro fs
    induction fs with
    | nil => simp
    | cons f fs ih =>
      intro hm
      obtain ⟨k, j⟩ := f
      by_cases hk : k = key
      · simp [Json.setField, hk]
      · have rest : key ∈ fs.map Prod.fst := by simpa [Ne.symm hk] using hm
        simp only [Json.setField, if_neg hk, List.map_cons, ih rest]
  by_cases hm : key ∈ fields.map Prod.fst
  · rwa [keys fields hm]
  · rw [Json.setField_fresh hm, List.map_append, List.nodup_append]
    refine ⟨h, by simp, ?_⟩
    rintro a ha b hb rfl
    have e : a = key := List.mem_singleton.1 hb
    exact hm (e ▸ ha)

theorem mem_setField {key : String} {value : Json} {fields : List (String × Json)} {f : String × Json}
    (h : f ∈ Json.setField key value fields) : f = (key, value) ∨ f ∈ fields := by
  induction fields with
  | nil => simpa [Json.setField] using h
  | cons g gs ih =>
    obtain ⟨k, j⟩ := g
    by_cases hk : k = key
    · simp only [Json.setField, if_pos hk, List.mem_cons] at h
      rcases h with h | h
      · exact .inl h
      · exact .inr (List.mem_cons_of_mem _ h)
    · simp only [Json.setField, if_neg hk, List.mem_cons] at h
      rcases h with rfl | h
      · exact .inr (by simp)
      · exact (ih h).imp_right (List.mem_cons_of_mem _)

theorem ofPairs_good {pairs : List (String × Json)} (h : ∀ f ∈ pairs, f.2.distinctKeys = true) :
    (Json.obj (Json.ofPairs pairs)).distinctKeys = true := by
  rw [Json.distinctKeys_obj]
  have step : ∀ (rest done : List (String × Json)), (∀ f ∈ rest, f.2.distinctKeys = true) →
      (done.map Prod.fst).Nodup → (∀ f ∈ done, f.2.distinctKeys = true) →
      ((rest.foldl (fun fs f => Json.setField f.1 f.2 fs) done).map Prod.fst).Nodup ∧
        ∀ f ∈ rest.foldl (fun fs f => Json.setField f.1 f.2 fs) done, f.2.distinctKeys = true := by
    intro rest
    induction rest with
    | nil => exact fun done _ distinct good => ⟨distinct, good⟩
    | cons f fs ih =>
      intro done hf distinct good
      refine ih _ (fun g hg => hf g (List.mem_cons_of_mem _ hg)) (setField_keys distinct) ?_
      intro g hg
      rcases mem_setField hg with rfl | hg
      · exact hf f (by simp)
      · exact good g hg
  exact step pairs [] h (by simp) (by simp)

theorem readNumber_leaf {cs rest : List Char} {j : Json} (h : readNumber cs = some (j, rest)) :
    j.distinctKeys = true := by
  have value : ∀ l : Layout, l.value.distinctKeys = true := by
    intro l
    unfold Layout.value
    split <;> rfl
  have unsigned : ∀ neg (cs : List Char), readUnsigned neg cs = some (j, rest) → j.distinctKeys = true := by
    intro neg cs h
    unfold readUnsigned at h
    split at h
    · cases h
    · simp only [Option.some.injEq, Prod.mk.injEq] at h
      exact h.1 ▸ value _
  unfold readNumber at h
  split at h <;> exact unsigned _ _ h

/-- What the hooks let through has distinct keys. -/
structure Hooks.Distinct (hooks : Hooks) : Prop where
  object : ∀ pairs fields, (∀ f ∈ pairs, f.2.distinctKeys = true) → hooks.object pairs = some fields →
    (Json.obj fields).distinctKeys = true
  number : ∀ j k, j.distinctKeys = true → hooks.number j = some k → k.distinctKeys = true

theorem readScalar_leaf {hooks : Hooks} (distinct : hooks.Distinct) {cs rest : List Char} {j : Json}
    (h : readScalar hooks cs = some (j, rest)) : j.distinctKeys = true := by
  have leaves : ∀ c ∈ constants, c.2.distinctKeys = true := by decide
  unfold readScalar at h
  split at h
  · next r hr =>
    obtain ⟨c, hc, e⟩ := List.exists_of_findSome?_eq_some hr
    obtain ⟨r', -, rfl⟩ := Option.map_eq_some_iff.1 e
    split at h
    · cases h
      exact leaves c hc
    · cases h
  · obtain ⟨⟨number, r⟩, read, h⟩ := Option.bind_eq_some_iff.1 h
    obtain ⟨k, kept, e⟩ := Option.map_eq_some_iff.1 h
    cases e
    exact distinct.number _ _ (readNumber_leaf read) kept

/-- A repeated key has overwritten the earlier one. -/
theorem Hooks.plain_distinct : Hooks.plain.Distinct where
  object := by
    rintro pairs _ good ⟨⟩
    exact ofPairs_good good
  number := by
    rintro j _ good ⟨⟩
    exact good

/-- A repeated key raises. -/
theorem Hooks.strict_distinct : Hooks.strict.Distinct where
  object := by
    intro pairs fields good h
    simp only [Hooks.strict] at h
    split at h
    · next distinct =>
      cases h
      exact (Json.distinctKeys_obj _).2 ⟨distinct, good⟩
    · cases h
  number := by
    rintro j _ good ⟨⟩
    exact good

/-- Whatever is read has distinct keys. -/
theorem read_distinctKeys {hooks : Hooks} (distinct : hooks.Distinct) (fuel : Nat) :
    (∀ cs j rest, readValue hooks fuel cs = some (j, rest) → j.distinctKeys = true) ∧
    (∀ cs js rest, readItems hooks fuel cs = some (js, rest) → ∀ j ∈ js, j.distinctKeys = true) ∧
    (∀ cs fs rest, readFields hooks fuel cs = some (fs, rest) → ∀ f ∈ fs, f.2.distinctKeys = true) := by
  induction fuel with
  | zero => simp [readValue, readItems, readFields]
  | succ fuel ih =>
    obtain ⟨value, items, fields⟩ := ih
    refine ⟨?_, ?_, ?_⟩
    · intro cs j rest h
      unfold readValue at h
      split at h
      · obtain ⟨s, -, e⟩ := Option.map_eq_some_iff.1 h
        cases e
        rfl
      · split at h
        · cases h
          rfl
        · obtain ⟨⟨js, r⟩, hs, e⟩ := Option.map_eq_some_iff.1 h
          cases e
          rw [Json.distinctKeys_arr]
          exact items _ _ _ hs
      · split at h
        · cases h
          rfl
        · obtain ⟨⟨fs, r⟩, hs, e⟩ := Option.bind_eq_some_iff.1 h
          obtain ⟨built, object, e⟩ := Option.map_eq_some_iff.1 e
          cases e
          exact distinct.object _ _ (fields _ _ _ hs) object
      · exact readScalar_leaf distinct h
    · intro cs js rest h
      unfold readItems at h
      split at h
      · cases h
      · next j r hv =>
        split at h
        · cases h
          simpa using value _ _ _ hv
        · obtain ⟨⟨js', r'⟩, hs, e⟩ := Option.map_eq_some_iff.1 h
          cases e
          intro a ha
          rcases List.mem_cons.1 ha with rfl | ha
          · exact value _ _ _ hv
          · exact items _ _ _ hs a ha
        · cases h
    · intro cs fs rest h
      unfold readFields at h
      split at h
      · split at h
        · cases h
        · split at h
          · split at h
            · cases h
            · next j r hv =>
              split at h
              · cases h
                simpa using value _ _ _ hv
              · obtain ⟨⟨fs', r'⟩, hs, e⟩ := Option.map_eq_some_iff.1 h
                cases e
                intro a ha
                rcases List.mem_cons.1 ha with rfl | ha
                · exact value _ _ _ hv
                · exact fields _ _ _ hs a ha
              · cases h
          · cases h
      · cases h

theorem loadsWith_distinctKeys {hooks : Hooks} (distinct : hooks.Distinct) {cs : List Char} {j : Json}
    (h : loadsWith hooks cs = some j) : j.distinctKeys = true := by
  unfold loadsWith at h
  split at h
  · next v rest hv =>
    split at h
    · cases h
      exact (read_distinctKeys distinct _).1 _ _ _ hv
    · cases h
  · cases h

theorem loads_distinctKeys {cs : List Char} {j : Json} (h : loads cs = some j) : j.distinctKeys = true :=
  loadsWith_distinctKeys Hooks.plain_distinct h

/-! ## The two runtimes' printers -/

/-- `float.__repr__`, with the words the encoder has for the floats that are not numbers. -/
def pythonNumberText : Double → List Char
  | .nan => "NaN".toList
  | .inf neg => if neg then "-Infinity".toList else "Infinity".toList
  | x => floatRepr x

/-- `json.dumps(..., ensure_ascii=False, separators=(",", ":"))`. -/
def pythonPrinter : Printer :=
  ⟨pythonNumberText, []⟩

/-- `json.dumps(..., ensure_ascii=False)`. -/
def spacedPrinter : Printer :=
  ⟨pythonNumberText, [' ']⟩

/-- A number in `JSON.stringify`. -/
def stringifyNumber (x : Double) : List Char :=
  if x.isFinite then ecmaNumberText x else "null".toList

/-- `JSON.stringify`. -/
def ecmaPrinter : Printer :=
  ⟨stringifyNumber, []⟩

theorem readNumber_python (x : Double) (rest : List Char) (hx : x.isFinite = true) (hr : Stops rest) :
    readNumber (pythonNumberText x ++ rest) = some (.float x, rest) := by
  have same : pythonNumberText x = floatRepr x := by cases x <;> first | rfl | cases hx
  rw [same]
  exact readNumber_repr hx hr

theorem pythonPrinter_reads : pythonPrinter.Reads Json.float where
  number := readNumber_python
  gap := by simp [pythonPrinter]

theorem spacedPrinter_reads : spacedPrinter.Reads Json.float where
  number := readNumber_python
  gap := by simp [spacedPrinter, isBlank]

theorem ecmaPrinter_reads : ecmaPrinter.Reads Double.settle where
  number x rest hx hr := by
    change readNumber (stringifyNumber x ++ rest) = _
    rw [stringifyNumber, if_pos hx]
    exact readNumber_ecma hx hr
  gap := by simp [ecmaPrinter]

theorem rebuild_float (j : Json) : j.rebuild (leafBack Json.float) id = j := by
  induction j with
  | arr items ih =>
    rw [Json.rebuild_arr]
    congr 1
    exact (List.map_congr_left ih).trans (List.map_id _)
  | obj fields ih =>
    have same : fields.map (fun f => (f.1, f.2.rebuild (leafBack Json.float) id)) = fields.map id := by
      refine List.map_congr_left ?_
      intro f hf
      rw [ih f hf]
      rfl
    rw [Json.rebuild_obj, same, List.map_id]
    rfl
  | _ => rfl

/-- `json.loads(json.dumps(j)) == j`. -/
theorem loads_python {j : Json} (hk : j.distinctKeys = true) (hf : j.finite = true) :
    loads (pythonPrinter.text j) = some j := by
  rw [loads_text pythonPrinter_reads hk hf, rebuild_float]

/-- A strict reading of what `json.dumps` wrote with its default separators. -/
theorem loadsWith_spaced {hooks : Hooks} (keeps : hooks.Keeps) {j : Json} (hk : j.distinctKeys = true)
    (hf : j.finite = true) : loadsWith hooks (spacedPrinter.text j) = some j := by
  rw [loadsWith_text spacedPrinter_reads keeps hk hf, rebuild_float]

end JsonText
