import DocumentQa.Lib.Sha256
import DocumentQa.Transfer.Canonical

/-!
# Identities across workspaces

A portable record keeps the identifier of the browser it came from; the workspace stores it
under an identifier derived from that one, the same in every workspace.
-/

namespace Transfer

open Python JsonText

/-- `WORKSPACE_BACKUP_FORMAT`. -/
def backupFormat : String := "enterprise-document-qa.workspace"

/-- `WORKSPACE_BACKUP_VERSION`. -/
def backupVersion : Int := 1

/-- The record kinds of the envelope. -/
inductive RecordKind where
  | conversation
  | collection
  | evidenceItem
deriving DecidableEq, Repr

def RecordKind.text : RecordKind → String
  | .conversation => "conversation"
  | .collection => "collection"
  | .evidenceItem => "evidence_item"

/-- `_ENTITY_TYPE_BY_KIND`. -/
def RecordKind.entityType : RecordKind → String
  | .conversation => "conversation"
  | .collection => "collection"
  | .evidenceItem => "collection_item"

/-- `_ID_PREFIX_BY_KIND`. -/
def RecordKind.idPrefix : RecordKind → String
  | .conversation => "legacy-conv-"
  | .collection => "legacy-col-"
  | .evidenceItem => "legacy-item-"

/-- `kind in _ENTITY_TYPE_BY_KIND`. -/
def RecordKind.ofText? (text : String) : Option RecordKind :=
  [RecordKind.conversation, .collection, .evidenceItem].find? fun kind => kind.text = text

theorem RecordKind.entityType_injective {a b : RecordKind} (h : a.entityType = b.entityType) : a = b := by
  revert h
  cases a <;> cases b <;> decide

/-- `_LEGACY_ID`. -/
def legacyIdPattern : NamePattern :=
  ⟨isAlnum, fun c => isAlnum c || c = '_' || c = '.' || c = ':' || c = '-', 256⟩

/-- `len(value) >= 2 and value[1] == ":" and value[0].isalpha()`. -/
def startsWithDrive (value : String) : Bool :=
  match value.toList with
  | c :: ':' :: _ => c.isAlpha
  | _ => false

/-- `_validate_legacy_id`. -/
def validateLegacyId : Json → Except PyError String
  | .str value => do
    Checked.require (legacyIdPattern.fullmatch value = true)
      (transferError "backup contains an invalid opaque identifier")
    Checked.require (isInfix ['.', '.'] value.toList = false ∧ startsWithDrive value = false)
      (transferError "backup identifiers must not contain paths")
    pure value
  | _ => throw (transferError "backup contains an invalid opaque identifier")

/-- The identifiers that `_validate_legacy_id` lets pass. -/
def isLegacyId (value : String) : Bool :=
  legacyIdPattern.fullmatch value && !isInfix ['.', '.'] value.toList && !startsWithDrive value

theorem validateLegacyId_eq_ok {j : Json} {value : String} :
    validateLegacyId j = .ok value ↔ j = .str value ∧ isLegacyId value = true := by
  cases j with
  | str s =>
    simp only [validateLegacyId, Checked.bind_eq_ok, Checked.require_eq_ok, Checked.pure_eq_ok, isLegacyId,
      Bool.and_eq_true, Bool.not_eq_true', Json.str.injEq]
    constructor
    · rintro ⟨_, pattern, _, ⟨dots, drive⟩, rfl⟩
      exact ⟨rfl, ⟨pattern, dots⟩, drive⟩
    · rintro ⟨rfl, ⟨pattern, dots⟩, drive⟩
      exact ⟨(), pattern, (), ⟨dots, drive⟩, rfl⟩
  | _ => simp [validateLegacyId]

/-- The identifier a record of a kind is stored under. -/
def stableId (kind : RecordKind) (legacyId : String) : String :=
  let identity := backupFormat ++ "\x00" ++ "1" ++ "\x00" ++ kind.text ++ "\x00" ++ legacyId
  kind.idPrefix ++ String.ofList ((Sha256.hexdigest identity).toList.take 40)

/-- A stable identifier is a prefix and forty hexadecimal digits. -/
theorem stableId_shape (kind : RecordKind) (legacyId : String) :
    ∃ digits : List Char, (stableId kind legacyId).toList = kind.idPrefix.toList ++ digits ∧ digits.length = 40 ∧
      digits.all (fun c => ('a' ≤ c && c ≤ 'f') || ('0' ≤ c && c ≤ '9')) = true := by
  generalize text : backupFormat ++ "\x00" ++ "1" ++ "\x00" ++ kind.text ++ "\x00" ++ legacyId = identity
  have hex := Sha256.isSha256Text_hexdigest identity
  rw [isSha256Text, Bool.and_eq_true, decide_eq_true_eq] at hex
  refine ⟨(Sha256.hexdigest identity).toList.take 40, ?_, ?_, ?_⟩
  · rw [stableId, text, String.toList_append, String.toList_ofList]
  · rw [List.length_take, hex.1]
    rfl
  · rw [List.all_eq_true]
    exact fun c hc => List.all_eq_true.1 hex.2 c (List.mem_of_mem_take hc)

/-- Records of one identifier have digests that begin alike. -/
theorem stableId_digest {kind : RecordKind} {a b : String} (h : stableId kind a = stableId kind b) :
    (Sha256.digest (Sha256.textBytes (backupFormat ++ "\x00" ++ "1" ++ "\x00" ++ kind.text ++ "\x00" ++ a))).headD 0 =
      (Sha256.digest (Sha256.textBytes (backupFormat ++ "\x00" ++ "1" ++ "\x00" ++ kind.text ++ "\x00" ++ b))).headD 0 := by
  apply Sha256.hexdigest_head
  have texts := congrArg String.toList h
  rw [stableId, stableId, String.toList_append, String.toList_append, List.append_cancel_left_eq, String.toList_ofList,
    String.toList_ofList] at texts
  have front := congrArg (List.take 8) texts
  rwa [List.take_take, List.take_take, Nat.min_eq_left (by decide)] at front

/-- `stable_legacy_id`. -/
def stableLegacyId (kind : RecordKind) (legacyId : String) : Except PyError String := do
  let _ ← validateLegacyId (.str legacyId)
  pure (stableId kind legacyId)

theorem stableLegacyId_eq_ok {kind : RecordKind} {legacyId id : String} :
    stableLegacyId kind legacyId = .ok id ↔ isLegacyId legacyId = true ∧ id = stableId kind legacyId := by
  simp only [stableLegacyId, Checked.bind_eq_ok, validateLegacyId_eq_ok, Checked.pure_eq_ok, Json.str.injEq]
  constructor
  · rintro ⟨_, ⟨rfl, valid⟩, rfl⟩
    exact ⟨valid, rfl⟩
  · rintro ⟨valid, rfl⟩
    exact ⟨legacyId, ⟨rfl, valid⟩, rfl⟩

/-- `_digest_payload`. -/
def digestPayload (envelope : List (String × Json)) : List (String × Json) :=
  envelope.filter fun f => f.1 ≠ "digest" && f.1 ≠ "exported_at"

/-- `compute_backup_digest`, `none` where it raises. -/
def computeBackupDigest (envelope : List (String × Json)) : Option String :=
  (canonicalJson (.obj (digestPayload envelope))).map Sha256.hexdigest

end Transfer
