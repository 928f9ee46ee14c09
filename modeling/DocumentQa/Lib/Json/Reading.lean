import DocumentQa.Lib.Json.RoundTrip

/-!
# What a printed value reads back as

Printing and reading back may reorder the keys of objects and turn a float into an integer.
`Reading` says what stays: texts, booleans and integers, the items of a list, and what an
object holds under each key.
-/

namespace JsonText

open Json

/-- `g` reads a value back, up to the order of keys and the form of floats. -/
structure Reading (g : Json → Json) : Prop where
  null : g .null = .null
  bool : ∀ b, g (.bool b) = .bool b
  int : ∀ i, g (.int i) = .int i
  float : ∀ x, (∃ i, g (.float x) = .int i) ∨ ∃ y, g (.float x) = .float y
  str : ∀ s, g (.str s) = .str s
  arr : ∀ items, g (.arr items) = .arr (items.map g)
  obj : ∀ fields, ∃ fields', g (.obj fields) = .obj fields' ∧
    ((Json.obj fields).distinctKeys = true → ∀ key, lookup key fields' = (lookup key fields).map g)
  distinct : ∀ j, j.distinctKeys = true → (g j).distinctKeys = true

/-- What is read back twice. -/
theorem Reading.comp {f g : Json → Json} (hf : Reading f) (hg : Reading g) : Reading (f ∘ g) where
  null := by rw [Function.comp, hg.null, hf.null]
  bool b := by rw [Function.comp, hg.bool, hf.bool]
  int i := by rw [Function.comp, hg.int, hf.int]
  float x := by
    rw [Function.comp]
    rcases hg.float x with ⟨i, e⟩ | ⟨y, e⟩
    · rw [e, hf.int]
      exact .inl ⟨i, rfl⟩
    · rw [e]
      exact hf.float y
  str s := by rw [Function.comp, hg.str, hf.str]
  arr items := by rw [Function.comp, hg.arr, hf.arr, List.map_map]
  obj fields := by
    obtain ⟨fields', e, under⟩ := hg.obj fields
    obtain ⟨fields'', e', under'⟩ := hf.obj fields'
    refine ⟨fields'', by rw [Function.comp, e, e'], ?_⟩
    intro distinct key
    have distinct' : (Json.obj fields').distinctKeys = true := by
      rw [← e]
      exact hg.distinct _ distinct
    rw [under' distinct' key, under distinct key, Option.map_map]
  distinct j h := hf.distinct _ (hg.distinct j h)

/-- Only a text reads back as a text. -/
theorem Reading.str_iff {g : Json → Json} (reading : Reading g) {j : Json} {s : String} : g j = .str s ↔ j = .str s := by
  cases j with
  | null => simp [reading.null]
  | bool b => simp [reading.bool]
  | int i => simp [reading.int]
  | float x => rcases reading.float x with ⟨i, e⟩ | ⟨y, e⟩ <;> simp [e]
  | str t => simp [reading.str]
  | arr items => simp [reading.arr]
  | obj fields =>
    obtain ⟨fields', e, -⟩ := reading.obj fields
    simp [e]

/-- Sorting the keys. -/
theorem sorted_reading : Reading Json.sorted where
  null := rfl
  bool _ := rfl
  int _ := rfl
  float x := .inr ⟨x, rfl⟩
  str _ := rfl
  arr := sorted_arr
  obj fields := by
    refine ⟨_, sorted_obj fields, ?_⟩
    intro distinct key
    have keys : ((fields.map fun f => (f.1, f.2.sorted)).map Prod.fst).Nodup := by
      rw [List.map_map]
      exact ((distinctKeys_obj fields).1 distinct).1
    rw [lookup_perm ((sortFields_perm _).map Prod.fst |>.nodup_iff.2 keys) (sortFields_perm _), lookup_map]
  distinct _ := sorted_distinctKeys

/-- Number texts of ECMAScript. -/
theorem settle_reading : Reading fun j => j.rebuild (leafBack Double.settle) id where
  null := rfl
  bool _ := rfl
  int _ := rfl
  float x := by
    show (∃ i, Double.settle x = .int i) ∨ ∃ y, Double.settle x = .float y
    unfold Double.settle
    split
    · exact .inl ⟨0, rfl⟩
    · split
      · exact .inl ⟨_, rfl⟩
      · exact .inr ⟨_, rfl⟩
    · exact .inr ⟨_, rfl⟩
  str _ := rfl
  arr := rebuild_arr _ _
  obj fields := by
    refine ⟨_, rebuild_obj _ _ fields, ?_⟩
    intro _ key
    rw [id, lookup_map]
  distinct j h := by
    refine all_rebuild ?_ ?_ ?_ ?_ h
    · intro j _ noArr noObj
      cases j with
      | float x =>
        show all _ (Double.settle x) = true
        unfold Double.settle
        split
        · rfl
        · split <;> rfl
        · rfl
      | arr items => exact absurd rfl (noArr items)
      | obj fields => exact absurd rfl (noObj fields)
      | _ => rfl
    · intro items _
      rfl
    · intro fields keys
      simpa [Function.comp_def] using keys
    · intro fs f mem
      exact mem

end JsonText
