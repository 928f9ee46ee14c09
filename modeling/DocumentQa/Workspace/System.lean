import DocumentQa.Lib.Runs
import DocumentQa.Transfer.Service
import DocumentQa.Workspace.Collections

/-!
# The workspace as a system

Every writer of the workspace store, one transaction a call. A call that raises leaves the
store as it was, so a run is a sequence of calls, each with what it finds outside.
-/

namespace Workspace

open Python JsonText Transfer

/-- The writes of `SQLiteVersionedRecordRepository`. -/
inductive RecordCall where
  | create (entityType entityId : String) (payload : JsonObject)
  | replace (entityType entityId : String) (payload : JsonObject) (expectedRevision : Int)
  | delete (entityType entityId : String) (expectedRevision : Int)

/-- The writes of `SQLiteCollectionRepository` and `import_backup`; `delete_note` is `delete_item`. -/
inductive WorkspaceCall where
  | createCollection (args : CollectionArguments) (collectionId : Option String)
  | updateCollection (collectionId : String) (expectedRevision : Json) (args : CollectionArguments)
  | deleteCollection (collectionId : String) (expectedRevision : Json)
  | addItem (collectionId : String) (args : ItemArguments) (itemId : Option String)
  | deleteItem (collectionId itemId : String) (expectedRevision : Json)
  | addNote (collectionId : String) (text : Json) (evidenceRef : Option JsonValue) (noteId : Option String)
  | updateNote (collectionId noteId : String) (expectedRevision text : Json)
  | recordActivity (collectionId : Option String) (eventType entityType entityId : String)
  | importBackup (inject : String → Nat → Except PyError Unit) (raw : JsonValue) (previewDigest : String)

/-- The store a call commits. -/
def storeOf {α : Type} (body : Except PyError (Store × α)) : Except PyError Store := do
  let (db, _) ← body
  pure db

theorem storeOf_eq_ok {α : Type} {body : Except PyError (Store × α)} {db : Store} :
    storeOf body = .ok db ↔ ∃ a, body = .ok (db, a) := by
  simp only [storeOf, Checked.bind_eq_ok, Checked.pure_eq_ok, Prod.exists]
  constructor
  · rintro ⟨_, a, h, rfl⟩
    exact ⟨a, h⟩
  · rintro ⟨a, h⟩
    exact ⟨db, a, h, rfl⟩

/-- `create`, `replace` and `delete` of the record repository. -/
def RecordCall.body (ctx : Context) (db : Store) : RecordCall → Except PyError Store
  | .create t i payload => storeOf (createIn ctx.settings.forbidden db t i payload ctx.clockText)
  | .replace t i payload expected => storeOf (replaceIn ctx.settings.forbidden db t i payload expected ctx.clockText)
  | .delete t i expected => storeOf (deleteIn db t i expected ctx.clockText)

def WorkspaceCall.body (ctx : Context) (db : Store) : WorkspaceCall → Except PyError Store
  | .createCollection args id => storeOf (Workspace.createCollection ctx args id db)
  | .updateCollection id expected args => storeOf (Workspace.updateCollection ctx id expected args db)
  | .deleteCollection id expected => storeOf (Workspace.deleteCollection ctx id expected db)
  | .addItem id args item => storeOf (Workspace.addItem ctx id args item db)
  | .deleteItem id item expected => storeOf (Workspace.deleteItem ctx id item expected db)
  | .addNote id text reference note => storeOf (Workspace.addNote ctx id text reference note db)
  | .updateNote id note expected text => storeOf (Workspace.updateNote ctx id note expected text db)
  | .recordActivity id event t i => Workspace.recordActivity ctx id event t i db
  | .importBackup inject raw digest => storeOf (Transfer.importBackup inject ctx raw digest db)

/-- A call of either kind. -/
inductive Call where
  | record (call : RecordCall)
  | workspace (call : WorkspaceCall)

def Call.body (ctx : Context) (db : Store) : Call → Except PyError Store
  | .record call => call.body ctx db
  | .workspace call => call.body ctx db

/-- The store after a transaction. -/
def settle (body : Except PyError Store) (db : Store) : Store :=
  match body with
  | .ok db' => db'
  | .error _ => db

/-- A call commits what its body returns, or changes nothing. -/
theorem settle_cases (body : Except PyError Store) (db : Store) :
    body = .ok (settle body db) ∨ settle body db = db := by
  cases body with
  | ok db' => exact .inl rfl
  | error e => exact .inr rfl

/-- One call. -/
def step (db : Store) (input : Context × Call) : Store :=
  settle (input.2.body input.1 db) db

/-- One call of the collections or of the import. -/
def workspaceStep (db : Store) (input : Context × WorkspaceCall) : Store :=
  settle (input.2.body input.1 db) db

end Workspace
