import DocumentQa.Lib.Checked

/-!
# Exceptions

The exception classes the modelled calls raise, with their messages.
-/

namespace Python

/-- The class of an exception. -/
inductive ErrorKind where
  | typeError
  | valueError
  | keyError
  | nameError
  | runtimeError
  | overflowError
  | integrityError
  | jobConflict
  | jobNotFound
  | jobTransition
  | jobData
  | jobLimit
  | workspaceTransfer
  | recordConflict
  | recordNotFound
  | recordDeleted
  | collection
  | collectionNotFound
  | collectionConflict
  | collectionDeleted
  | collectionLimit
  | campaignIncomplete
  | nativeProtocol
  | missingGroundTruth
  | emptyEvaluationSet
  | corruptNativeReport
  | unsupportedNativeProtocolVersion
  | unknownNativeMetric
  | incompatibleNativeReports
  | stopIteration
  | corruptAgentSnapshot
  | corruptAgentEvaluationReport
  /-- Whatever an injected callable raises. -/
  | injected
deriving DecidableEq, Repr

structure PyError where
  kind : ErrorKind
  message : String
deriving DecidableEq, Repr

/-- The integers SQLite can bind. -/
def isSqliteInteger (i : Int) : Bool :=
  -0x8000000000000000 ≤ i && i < 0x8000000000000000

def bindInteger (i : Int) : Except PyError Unit :=
  Checked.require (isSqliteInteger i = true) ⟨.overflowError, "Python int too large to convert to SQLite INTEGER"⟩

@[simp] theorem bindInteger_eq_ok {i : Int} {u : Unit} : bindInteger i = .ok u ↔ isSqliteInteger i = true :=
  Checked.require_eq_ok

/-- `except` clauses that replace the exceptions of `kinds` by `e`. -/
def reraise {α : Type} (kinds : List ErrorKind) (e : PyError) : Except PyError α → Except PyError α
  | .ok a => .ok a
  | .error raised => .error (if raised.kind ∈ kinds then e else raised)

@[simp] theorem reraise_eq_ok {α : Type} {kinds : List ErrorKind} {e : PyError} {x : Except PyError α} {a : α} :
    reraise kinds e x = .ok a ↔ x = .ok a := by
  cases x <;> simp [reraise]

/-- `except` clauses that raise the message again under another class. -/
def translate {α : Type} (classes : List (ErrorKind × ErrorKind)) : Except PyError α → Except PyError α
  | .ok a => .ok a
  | .error raised =>
    match classes.find? fun c => c.1 = raised.kind with
    | some c => .error ⟨c.2, raised.message⟩
    | none => .error raised

@[simp] theorem translate_eq_ok {α : Type} {classes : List (ErrorKind × ErrorKind)} {x : Except PyError α} {a : α} :
    translate classes x = .ok a ↔ x = .ok a := by
  cases x with
  | ok b => simp [translate]
  | error e =>
    simp only [translate, reduceCtorEq, iff_false]
    split <;> simp

end Python
