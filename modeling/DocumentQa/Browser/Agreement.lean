import DocumentQa.Browser.Canonical
import DocumentQa.Lib.Sha256
import DocumentQa.Transfer.Canonical

/-!
# One digest in two runtimes

Python prints the value with its keys sorted; the browser prints the enumeration of an
object it filled in that order. `stringify_canonical` says for which values the two texts
are the same, and `canonical_agreement` says it of the two canonical forms.
-/

namespace Browser

open JsonText

/-- What the browser prints of a value. -/
def printed (j : Json) : Json :=
  (canonicalValue j).rebuild id ownEntries

/-- The keys of an object that the browser prints in code point order: `__proto__` is not
among them, and the array indices come first and ascend. -/
def portableKeys : Json → Bool
  | .obj fields =>
    !(fields.map Prod.fst).contains "__proto__" && (fields.map Prod.fst).all fun a =>
      (fields.map Prod.fst).all fun b => !decide (a < b) || enumeratesBefore a b
  | _ => true

theorem printed_arr (items : List Json) : printed (.arr items) = .arr (items.map printed) := by
  rw [printed, canonicalValue, Json.rebuild_arr, Json.rebuild_arr, List.map_map]
  rfl

theorem printed_obj {fields : List (String × Json)} (distinct : (fields.map Prod.fst).Nodup) :
    printed (.obj fields) = .obj ((ownEntries ((Json.sortFields fields).filter fun f => f.1 ≠ "__proto__")).map
      fun f => (f.1, printed f.2)) := by
  have keys : ((fields.map fun f => (f.1, canonicalValue f.2)).map Prod.fst).Nodup := by
    rw [List.map_map]
    exact distinct
  have filtered : ((Json.sortFields fields).map fun f => (f.1, canonicalValue f.2)).filter
      (fun f => f.1 ≠ "__proto__") =
        ((Json.sortFields fields).filter fun f => f.1 ≠ "__proto__").map fun f => (f.1, canonicalValue f.2) :=
    List.filter_map
  have value : canonicalValue (.obj fields) =
      .obj (((Json.sortFields fields).filter fun f => f.1 ≠ "__proto__").map fun f => (f.1, canonicalValue f.2)) := by
    rw [canonicalValue, Json.rebuild_obj]
    change Json.obj (canonicalObject (fields.map fun f => (f.1, canonicalValue f.2))) = _
    rw [canonicalObject_eq keys, Json.sortFields_map, filtered]
  rw [printed, value, Json.rebuild_obj, List.map_map, ← ownEntries_map]
  rfl

/-! ## The order of the keys -/

theorem sortFields_strict {fields : List (String × Json)} (distinct : (fields.map Prod.fst).Nodup) :
    (Json.sortFields fields).Pairwise fun a b => a.1 < b.1 := by
  have keys : ((Json.sortFields fields).map Prod.fst).Nodup :=
    ((Json.sortFields_perm fields).map _).nodup_iff.2 distinct
  exact ((Json.sortFields_sorted fields).and (List.pairwise_map.1 keys)).imp fun ⟨le, ne⟩ => lt_of_le_of_ne le ne

/-- In a strictly sorted list the pairs in place are the pairs in order. -/
theorem pairwise_iff_of_strict {R : String → String → Prop} {fields : List (String × Json)}
    (strict : fields.Pairwise fun a b => a.1 < b.1) :
    (fields.Pairwise fun a b => R a.1 b.1) ↔ ∀ a ∈ fields, ∀ b ∈ fields, a.1 < b.1 → R a.1 b.1 := by
  induction fields with
  | nil => simp
  | cons f fs ih =>
    obtain ⟨first, rest⟩ := List.pairwise_cons.1 strict
    rw [List.pairwise_cons, ih rest]
    constructor
    · rintro ⟨heads, tails⟩ a ha b hb lt
      rcases List.mem_cons.1 ha with rfl | later
      · rcases List.mem_cons.1 hb with rfl | behind
        · exact absurd lt (lt_irrefl _)
        · exact heads b behind
      · rcases List.mem_cons.1 hb with rfl | behind
        · exact absurd lt (lt_asymm (first a later))
        · exact tails a later b behind lt
    · intro all
      refine ⟨fun b hb => all f (by simp) b (by simp [hb]) (first b hb), ?_⟩
      intro a ha b hb lt
      exact all a (by simp [ha]) b (by simp [hb]) lt

theorem portableKeys_obj {fields : List (String × Json)} (distinct : (fields.map Prod.fst).Nodup) :
    portableKeys (.obj fields) = true ↔ "__proto__" ∉ fields.map Prod.fst ∧
      (Json.sortFields fields).Pairwise fun a b => enumeratesBefore a.1 b.1 = true := by
  have pairs := pairwise_iff_of_strict (R := fun a b => enumeratesBefore a b = true) (sortFields_strict distinct)
  rw [pairs]
  simp only [portableKeys, Bool.and_eq_true, Bool.not_eq_true', List.contains_eq_mem, decide_eq_false_iff_not,
    List.all_map, List.all_eq_true, Function.comp_apply, Bool.or_eq_true, Json.mem_sortFields]
  constructor
  · rintro ⟨proto, order⟩
    exact ⟨proto, fun a ha b hb lt => (order a ha b hb).resolve_left (not_not_intro lt)⟩
  · rintro ⟨proto, order⟩
    exact ⟨proto, fun a ha b hb => (em (a.1 < b.1)).symm.imp id (order a ha b hb)⟩

theorem filter_proto {fields : List (String × Json)} (h : "__proto__" ∉ fields.map Prod.fst) :
    ((Json.sortFields fields).filter fun f => f.1 ≠ "__proto__") = Json.sortFields fields := by
  rw [List.filter_eq_self]
  intro f hf
  rw [decide_eq_true_eq]
  intro e
  exact h (List.mem_map.2 ⟨f, Json.mem_sortFields.1 hf, e⟩)

/-! ## Agreement -/

theorem printed_of_portable {j : Json} (hk : j.distinctKeys = true) (h : j.all portableKeys = true) :
    printed j = j.sorted := by
  induction j with
  | arr items ih =>
    rw [Json.distinctKeys_arr] at hk
    obtain ⟨-, inner⟩ := (Json.all_arr _ _).1 h
    rw [printed_arr, Json.sorted_arr]
    congr 1
    exact List.map_congr_left fun j hj => ih j hj (hk j hj) (inner j hj)
  | obj fields ih =>
    rw [Json.distinctKeys_obj] at hk
    obtain ⟨own, inner⟩ := (Json.all_obj _ _).1 h
    obtain ⟨proto, order⟩ := (portableKeys_obj hk.1).1 own
    rw [printed_obj hk.1, filter_proto proto, ownEntries_of_ordered order, Json.sorted_obj, Json.sortFields_map]
    congr 1
    refine List.map_congr_left fun f hf => ?_
    have hf := Json.mem_sortFields.1 hf
    rw [ih f hf (hk.2 f hf) (inner f hf)]
  | _ => rfl

/-- A reading that forgets only how numbers are told apart. -/
def settled (j : Json) : Json :=
  j.rebuild (leafBack Double.settle) id

theorem portable_of_printed {j : Json} (hk : j.distinctKeys = true) (h : settled (printed j) = settled j.sorted) :
    j.all portableKeys = true := by
  induction j with
  | arr items ih =>
    rw [Json.distinctKeys_arr] at hk
    rw [printed_arr, Json.sorted_arr, settled, settled, Json.rebuild_arr, Json.rebuild_arr, List.map_map,
      List.map_map, Json.arr.injEq] at h
    refine (Json.all_arr _ _).2 ⟨rfl, ?_⟩
    intro j hj
    exact ih j hj (hk j hj) (List.map_inj_left.1 h j hj)
  | obj fields ih =>
    rw [Json.distinctKeys_obj] at hk
    rw [printed_obj hk.1, Json.sorted_obj, Json.sortFields_map, settled, settled, Json.rebuild_obj, Json.rebuild_obj,
      List.map_map, List.map_map, Json.obj.injEq] at h
    have keys := congrArg (List.map Prod.fst) h
    simp only [id, List.map_map] at keys
    have keys : (ownEntries ((Json.sortFields fields).filter fun f => f.1 ≠ "__proto__")).map Prod.fst =
        (Json.sortFields fields).map Prod.fst := keys
    have proto : "__proto__" ∉ fields.map Prod.fst := by
      intro mem
      have mem := (((Json.sortFields_perm fields).map Prod.fst).mem_iff).2 mem
      rw [← keys, List.mem_map] at mem
      obtain ⟨f, hf, e⟩ := mem
      have kept := (ownEntries_perm _).mem_iff.1 hf
      simp [e] at kept
    have order : (Json.sortFields fields).Pairwise fun a b => enumeratesBefore a.1 b.1 = true := by
      have enumerated := ownEntries_ordered ((Json.sortFields fields).filter fun f => f.1 ≠ "__proto__")
      have onKeys (fs : List (String × Json)) : (fs.map Prod.fst).Pairwise (fun a b => enumeratesBefore a b = true) ↔
          fs.Pairwise fun a b => enumeratesBefore a.1 b.1 = true := List.pairwise_map
      rw [← onKeys, ← keys, onKeys]
      exact enumerated
    refine (Json.all_obj _ _).2 ⟨(portableKeys_obj hk.1).2 ⟨proto, order⟩, ?_⟩
    intro f hf
    rw [filter_proto proto, ownEntries_of_ordered order] at h
    have same := List.map_inj_left.1 h f (Json.mem_sortFields.2 hf)
    exact ih f hf (hk.2 f hf) (congrArg Prod.snd same)
  | _ => rfl

theorem printed_distinct {j : Json} (hk : j.distinctKeys = true) : (printed j).distinctKeys = true := by
  induction j with
  | arr items ih =>
    rw [Json.distinctKeys_arr] at hk
    rw [printed_arr, Json.distinctKeys_arr]
    intro j hj
    obtain ⟨a, ha, rfl⟩ := List.mem_map.1 hj
    exact ih a ha (hk a ha)
  | obj fields ih =>
    rw [Json.distinctKeys_obj] at hk
    rw [printed_obj hk.1, Json.distinctKeys_obj]
    have sub := (ownEntries_perm ((Json.sortFields fields).filter fun f => f.1 ≠ "__proto__"))
    constructor
    · rw [List.map_map]
      change ((ownEntries _).map Prod.fst).Nodup
      rw [(sub.map Prod.fst).nodup_iff]
      refine List.Nodup.sublist (List.filter_sublist.map _) ?_
      exact ((Json.sortFields_perm fields).map _).nodup_iff.2 hk.1
    · intro f hf
      obtain ⟨a, ha, rfl⟩ := List.mem_map.1 hf
      have ha := Json.mem_sortFields.1 (List.mem_filter.1 (sub.mem_iff.1 ha)).1
      exact ih a ha (hk.2 a ha)
  | _ => rfl

theorem printed_finite {j : Json} (hk : j.distinctKeys = true) (hf : j.finite = true) : (printed j).finite = true := by
  induction j with
  | arr items ih =>
    rw [Json.distinctKeys_arr] at hk
    rw [Json.finite_arr] at hf
    rw [printed_arr, Json.finite_arr]
    intro j hj
    obtain ⟨a, ha, rfl⟩ := List.mem_map.1 hj
    exact ih a ha (hk a ha) (hf a ha)
  | obj fields ih =>
    rw [Json.distinctKeys_obj] at hk
    rw [Json.finite_obj] at hf
    rw [printed_obj hk.1, Json.finite_obj]
    intro f hf'
    obtain ⟨a, ha, rfl⟩ := List.mem_map.1 hf'
    have ha := Json.mem_sortFields.1 (List.mem_filter.1 ((ownEntries_perm _).mem_iff.1 ha)).1
    exact ih a ha (hk.2 a ha) (hf a ha)
  | _ => exact hf

/-- **What the browser prints** is the sorted text exactly for portable keys. -/
theorem stringify_canonical {j : Json} (hk : j.distinctKeys = true) (hf : j.finite = true) :
    stringify (canonicalValue j) = ecmaPrinter.text j.sorted ↔ j.all portableKeys = true := by
  constructor
  · intro same
    have back := text_injective ecmaPrinter_reads ⟨printed_distinct hk, printed_finite hk hf⟩
      ⟨Json.sorted_distinctKeys hk, Json.sorted_finite hf⟩ same
    exact portable_of_printed hk back
  · intro portable
    exact congrArg ecmaPrinter.text (printed_of_portable hk portable)

/-! ## The values of the two runtimes -/

/-- A leaf that is printed as it is read by the browser. -/
def safeNumbers : Json → Bool
  | .int i => i.natAbs ≤ Transfer.maxSafeInteger
  | _ => true

theorem jsValue_arr (items : List Json) : jsValue (.arr items) = .arr (items.map jsValue) :=
  Json.rebuild_arr _ _ _

theorem jsValue_obj (fields : List (String × Json)) :
    jsValue (.obj fields) = .obj (fields.map fun f => (f.1, jsValue f.2)) :=
  Json.rebuild_obj _ _ _

theorem text_jsValue {j : Json} (h : j.all safeNumbers = true) : ecmaPrinter.text (jsValue j) = ecmaPrinter.text j := by
  induction j with
  | int i =>
    have safe : i.natAbs ≤ Transfer.maxSafeInteger := by simpa [Json.all, safeNumbers] using h
    have small : i.natAbs < 10 ^ 21 := by
      calc i.natAbs ≤ Transfer.maxSafeInteger := safe
        _ < 10 ^ 21 := by decide
    change stringifyNumber (.ofInt i) = intText i
    rw [stringifyNumber, if_pos (ofInt_finite i), ecmaNumberText_ofInt small]
  | arr items ih =>
    obtain ⟨-, inner⟩ := (Json.all_arr _ _).1 h
    have texts : items.map (ecmaPrinter.text ∘ jsValue) = items.map ecmaPrinter.text :=
      List.map_congr_left fun j hj => ih j hj (inner j hj)
    rw [jsValue_arr]
    simp only [Printer.text, Printer.textItems_eq, List.map_map, texts]
  | obj fields ih =>
    obtain ⟨-, inner⟩ := (Json.all_obj _ _).1 h
    have texts : (fields.map fun f => ecmaPrinter.fieldText f.1 (ecmaPrinter.text (jsValue f.2))) =
        fields.map fun f => ecmaPrinter.fieldText f.1 (ecmaPrinter.text f.2) :=
      List.map_congr_left fun f hf => congrArg (ecmaPrinter.fieldText f.1) (ih f hf (inner f hf))
    rw [jsValue_obj]
    simp only [Printer.text, Printer.textFields_eq, List.map_map, Function.comp_def, texts]
  | _ => rfl

theorem jsValue_sorted (j : Json) : (jsValue j).sorted = jsValue j.sorted := by
  induction j with
  | arr items ih =>
    rw [jsValue_arr, Json.sorted_arr, Json.sorted_arr, jsValue_arr, List.map_map, List.map_map]
    exact congrArg Json.arr (List.map_congr_left ih)
  | obj fields ih =>
    have same : (fields.map fun f => (f.1, (jsValue f.2).sorted)) = fields.map fun f => (f.1, jsValue f.2.sorted) :=
      List.map_congr_left fun f hf => by rw [ih f hf]
    rw [jsValue_obj, Json.sorted_obj, Json.sorted_obj, jsValue_obj, List.map_map]
    change Json.obj (Json.sortFields (fields.map fun f => (f.1, (jsValue f.2).sorted))) = _
    rw [same, Json.sortFields_map, List.map_map, Json.sortFields_map fun j => jsValue j.sorted]
    rfl
  | _ => rfl

/-- A check of the keys alone holds of a value in one runtime when it does in the other. -/
theorem jsValue_portable (j : Json) : (jsValue j).all portableKeys = j.all portableKeys := by
  induction j with
  | arr items ih =>
    rw [Bool.eq_iff_iff, jsValue_arr, Json.all_arr, Json.all_arr]
    refine and_congr Iff.rfl ?_
    simp only [List.mem_map, forall_exists_index, and_imp, forall_apply_eq_imp_iff₂]
    exact forall₂_congr fun j hj => by rw [ih j hj]
  | obj fields ih =>
    rw [Bool.eq_iff_iff, jsValue_obj, Json.all_obj, Json.all_obj]
    refine and_congr ?_ ?_
    · simp only [portableKeys, List.map_map, Function.comp_def]
    · simp only [List.mem_map, forall_exists_index, and_imp, forall_apply_eq_imp_iff₂]
      exact forall₂_congr fun f hf => by rw [ih f hf]
  | _ => rfl

theorem jsValue_distinct {j : Json} (h : j.distinctKeys = true) : (jsValue j).distinctKeys = true := by
  refine Json.all_rebuild ?_ (fun _ _ => rfl) ?_ (fun _ _ hf => hf) h
  · intro j _ noArr noObj
    cases j with
    | arr items => exact absurd rfl (noArr items)
    | obj fields => exact absurd rfl (noObj fields)
    | _ => rfl
  · intro fields keys
    simpa [List.map_map, Function.comp_def] using keys

theorem jsValue_finite {j : Json} (h : j.finite = true) : (jsValue j).finite = true := by
  refine Json.all_rebuild ?_ (fun _ _ => rfl) (fun _ _ => rfl) (fun _ _ hf => hf) h
  intro j own noArr noObj
  cases j with
  | arr items => exact absurd rfl (noArr items)
  | obj fields => exact absurd rfl (noObj fields)
  | int i => exact ofInt_finite i
  | _ => exact own

theorem safe_of_accepted {secrets : List String} {j : Json} (h : Transfer.validateJsonTree secrets j = .ok ()) :
    j.all safeNumbers = true := by
  obtain ⟨nodes, -⟩ := Json.Walk.check_eq_ok.1 h
  refine Json.all_imp ?_ nodes
  intro j passes
  cases j with
  | int i =>
    have ok := Json.isOk_iff.1 passes
    simp only [Transfer.portableTree, Transfer.visitScalar, Checked.require_eq_ok] at ok
    exact decide_eq_true ok
  | _ => rfl

/-- **Cross-runtime agreement.** Of a value both validators accept the two canonical forms
are one text exactly when the keys of every object in it are portable, and the digests of
such a value agree. -/
theorem canonical_agreement {secrets : List String} {j : Json} (distinct : j.distinctKeys = true)
    (python : Transfer.validateJsonTree secrets j = .ok ()) (_browser : validateJsonTree (jsValue j) = .ok ()) :
    (Transfer.canonicalJson j = some (canonicalWorkspaceJson (jsValue j)) ↔ j.all portableKeys = true) ∧
      (j.all portableKeys = true → (Transfer.canonicalJson j).map Sha256.hexdigest =
        some (Sha256.hexdigest (canonicalWorkspaceJson (jsValue j)))) := by
  obtain ⟨finite, print⟩ := Transfer.validateJsonTree_numbers python
  have safe : j.sorted.all safeNumbers = true :=
    Json.all_sorted (fun _ _ => rfl) (fun _ _ _ => rfl) (safe_of_accepted python)
  have texts : stringify (canonicalValue (jsValue j)) = ecmaPrinter.text j.sorted ↔ j.all portableKeys = true := by
    rw [← text_jsValue safe, ← jsValue_sorted, ← jsValue_portable]
    exact stringify_canonical (jsValue_distinct distinct) (jsValue_finite finite)
  have forms : Transfer.canonicalJson j = some (canonicalWorkspaceJson (jsValue j)) ↔ j.all portableKeys = true := by
    rw [Transfer.canonicalJson_eq finite print, ← texts, canonicalWorkspaceJson, Option.some.injEq,
      String.ofList_inj]
    exact eq_comm
  refine ⟨forms, fun portable => ?_⟩
  rw [forms.2 portable]
  rfl

/-- The object `{"b": [1.5], "a": 20}` is portable. -/
def portableSample : Json :=
  .obj [("b", .arr [.float (.finite ⟨false, 15, -1, by decide⟩)]), ("a", .int 20)]

theorem canonical_agreement_sample :
    Transfer.canonicalJson portableSample = some (canonicalWorkspaceJson (jsValue portableSample)) := by
  have accepted : Transfer.validateJsonTree [] portableSample = .ok () := by decide
  exact (canonical_agreement (by decide) accepted (by decide)).1.2 (by decide)

/-- Python sorts `"10"` before `"9"`; the browser prints index `9` first. -/
def indexSample : Json :=
  .obj [("10", .int 1), ("9", .int 2)]

theorem canonical_disagreement :
    indexSample.distinctKeys = true ∧ Transfer.validateJsonTree [] indexSample = .ok () ∧
      validateJsonTree (jsValue indexSample) = .ok () ∧
      Transfer.canonicalJson indexSample = some "\x7b\"10\":1,\"9\":2\x7d" ∧
      canonicalWorkspaceJson (jsValue indexSample) = "\x7b\"9\":2,\"10\":1\x7d" ∧
      Transfer.canonicalJson indexSample ≠ some (canonicalWorkspaceJson (jsValue indexSample)) := by
  decide +kernel

end Browser
