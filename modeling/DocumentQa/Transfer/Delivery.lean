import DocumentQa.Lib.Json.Extent
import DocumentQa.Transfer.Commit
import DocumentQa.Transfer.Envelope

/-!
# Built envelopes and their first import

Lists that match a backup build an envelope the validation accepts, whatever its digest comes
out as (`exported_validates`). Into a store without imports such an envelope commits
(`first_import`).
-/

namespace Transfer

open Python JsonText Workspace SqlTable

section Envelope

variable {secrets : List String} {o : Exported} {b : ValidatedBackup} {exportedAt : String}

/-- The fields of the envelope of `b` before its digest. -/
def builtFields (o : Exported) (b : ValidatedBackup) (exportedAt : String) : List (String × Json) :=
  envelopeFields (expectedSchemas b).conversations (expectedSchemas b).evidenceCollections o exportedAt

theorem builtEnvelope_json (digest : String) :
    (envelopeOf (expectedSchemas b).conversations (expectedSchemas b).evidenceCollections o exportedAt digest).json =
      .obj (builtFields o b exportedAt ++ [("digest", .str digest)]) :=
  rfl

theorem builtEnvelope_size {digest : String} (hex : digest.toList.length = 64)
    (size : 4 * (spacedPrinter.extentFields (builtFields o b exportedAt) + 430) ≤ maxBackupBytes) :
    encodedLength (.obj (builtFields o b exportedAt ++ [("digest", .str digest)])) ≤ maxBackupBytes := by
  have key : "digest".toList.length = 6 := by decide
  have gap : spacedPrinter.gap.length = 1 := rfl
  have whole := spacedPrinter.text_length (.obj (builtFields o b exportedAt ++ [("digest", .str digest)]))
  rw [Printer.extent, Printer.extentFields_append, Printer.extentFields, Printer.extentFields, Printer.extent, hex, key,
    gap] at whole
  have bytes := utf8Length_le (spacedPrinter.text (.obj (builtFields o b exportedAt ++ [("digest", .str digest)])))
  rw [encodedLength]
  omega

theorem Accepted.validates {envelope : JsonObject} (accepted : Accepted secrets envelope b) :
    validateWorkspaceBackup secrets ⟨envelope.json, envelope.distinct⟩ = .ok b :=
  validateWorkspaceBackup_eq_ok.2 ⟨envelope, rfl, accepted⟩

/-- **A built envelope is accepted**, with the digest of its fields. -/
theorem exported_validates (h : Matches secrets o b) (limited : Limited o)
    (time : validateExportedAt (.str exportedAt) = .ok ()) (print : prints (.obj (builtFields o b exportedAt)) = true)
    (size : 4 * (spacedPrinter.extentFields (builtFields o b exportedAt) + 430) ≤ maxBackupBytes) :
    ∃ raw digest, validateWorkspaceBackup secrets raw = .ok { b with digest } := by
  obtain ⟨text, calculated⟩ : ∃ text, computeBackupDigest (builtFields o b exportedAt) = some (Sha256.hexdigest text) := by
    have kept : prints (.obj (digestPayload (builtFields o b exportedAt))) = true := by
      rw [prints_obj] at print ⊢
      exact fun f hf => print f (List.mem_of_mem_filter hf)
    rw [computeBackupDigest, canonicalJson_prints kept]
    exact ⟨_, rfl⟩
  have hex : (Sha256.hexdigest text).toList.length = 64 := by
    have hex := Sha256.isSha256Text_hexdigest text
    rw [isSha256Text, Bool.and_eq_true] at hex
    exact of_decide_eq_true hex.1
  generalize Sha256.hexdigest text = digest at calculated hex
  have matched : Matches secrets o { b with digest } :=
    ⟨h.conversations, h.collections, h.evidenceItems, h.favorites, h.tombstones, h.unsupported, h.references⟩
  have parts : prints (.obj (builtFields o b exportedAt ++ [("digest", .str digest)])) = true := by
    rw [prints_obj] at print ⊢
    intro f hf
    rcases List.mem_append.1 hf with hf | hf
    · exact print f hf
    · obtain rfl := List.mem_singleton.1 hf
      rfl
  rw [prints, Bool.and_eq_true] at parts
  have accepted := envelopeOf_accepted matched limited time calculated (by rw [builtEnvelope_json]; exact parts.1)
    (by rw [builtEnvelope_json]; exact parts.2) (by rw [builtEnvelope_json]; exact builtEnvelope_size hex size)
  exact ⟨_, digest, accepted.validates⟩

end Envelope

/-- **The first import of a store commits**: its plan is carried out. -/
theorem first_import {ctx : Context} {db : Store} {b : ValidatedBackup} {raw : JsonValue}
    (valid : validateWorkspaceBackup ctx.settings.portableSecrets raw = .ok b) (first : db.imports.rows = [])
    (stored : ∀ r ∈ b.records, storable r = true) (once : (b.records.map BackupRecord.key).Nodup)
    (buried : ∀ t ∈ b.tombstones, inRange t.deletedAt = true ∧ isSqliteInteger t.revision = true) :
    ∃ db' receipt, importBackup (fun _ _ => .ok ()) ctx raw b.digest db = .ok (db', receipt) ∧
      Nonempty (Imported b db db') := by
  obtain ⟨envelope, -, accepted⟩ := validateWorkspaceBackup_eq_ok.1 valid
  obtain ⟨p, planned⟩ := plan_accepted accepted db
  obtain ⟨sources, -, -⟩ := plan_eq_ok planned
  have pairwise : p.records.Pairwise fun a b => a.2 = .create → b.2 = .create → a.1.key ≠ b.1.key := by
    rw [← sources, List.map_map] at once
    exact (List.pairwise_map.1 once).imp fun ne _ _ => ne
  obtain ⟨db', receipt, done⟩ := importFresh_commits (fun _ _ => rfl) accepted planned
    (fun a mem _ => stored a.1 (sources ▸ List.mem_map_of_mem mem)) pairwise (fun t mem _ => buried t mem)
    (fun row mem => by rw [first] at mem; cases mem) ctx.nowText
  obtain ⟨imported, -⟩ := importFresh_eq_ok done
  refine ⟨db', receipt, ?_, ⟨imported⟩⟩
  rw [importBackup_fresh valid (fun row mem => by rw [first] at mem; cases mem)]
  exact done

end Transfer
