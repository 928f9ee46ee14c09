import DocumentQa.Python.Errors
import DocumentQa.Python.Json
import DocumentQa.Python.Text

/-!
# The generation phase

`run_generation_phase`: for every selected question either the record of an earlier run or a
bounded loop of provider attempts, whose outcome is appended to the checkpoint file. The
injected functions are inputs, told apart by the place of the question and the number of the
attempt; what the phase does with them is written to a trace.
-/

namespace Generation

open Python JsonText

/-! ## Retrying -/

/-- `xs[:stop]`. -/
def sliceTo {α : Type} (xs : List α) (stop : Int) : List α :=
  if 0 ≤ stop then xs.take stop.toNat else xs.take (xs.length + stop).toNat

/-- `attempts`: a first one at once, a further one behind each of the allowed waits. -/
def waits (backoff : List Double) (maxRetries : Int) : List Double :=
  .zero false :: sliceTo backoff maxRetries

/-- `if wait`. -/
def isWait : Double → Bool
  | .zero _ => false
  | _ => true

/-- `str.lower` as far as it yields ASCII letters: the Kelvin sign and the dotted capital I
are the only other characters with one in their lower case. -/
def lowerChar (c : Char) : List Char :=
  if 'A' ≤ c ∧ c ≤ 'Z' then [Char.ofNat (c.toNat + 32)]
  else if c.toNat = 0x212A then ['k']
  else if c.toNat = 0x130 then ['i', Char.ofNat 0x307]
  else [c]

def quotaTokens : List String :=
  ["429", "rate limit", "quota", "too many requests"]

/-- `_looks_like_quota_error`. -/
def looksLikeQuotaError (error : String) : Bool :=
  quotaTokens.any fun token => isInfix token.toList (error.toList.flatMap lowerChar)

/-! ## The checkpoint file -/

/-- What a run is bound to; `binding` is the hash over all of it. -/
structure Upstream where
  binding : String
  model : String
  promptTemplateSha256 : String
  contextStrategy : String
  contextBuilderFingerprint : String
  answerCompletionFingerprint : String
  answerPostprocessorProfileSha256 : String
  systemPromptSha256 : String
  artifactSha256 : String
deriving DecidableEq

/-- The part of a record behind the binding, by its status. -/
inductive Outcome where
  | ok (answer : String) (completion : Option JsonObject)
  | skippedQuota (error : String)
  | error (error : Option String)

structure Record where
  question : String
  upstream : Upstream
  outcome : Outcome

def Record.isOk (r : Record) : Bool :=
  match r.outcome with
  | .ok _ _ => true
  | _ => false

/-- The last OK record of a question. -/
def stored (store : List Record) (question : String) : Option Record :=
  (store.filter fun r => r.isOk && r.question = question).getLast?

/-- Why a run stops without its records. -/
inductive Stop where
  | otherBinding
  | noEvidence (question : String)
  | sleeping (e : PyError)

def Stop.error : Stop → PyError
  | .otherBinding =>
    ⟨.runtimeError, "Generation checkpoint contains records from another binding; start a fresh run instead of appending"⟩
  | .noEvidence question => ⟨.valueError, "Artifact has no evidence for selected question: " ++ question⟩
  | .sleeping e => e

/-- `load_compatible`. -/
def loadCompatible (upstream : Upstream) (store : List Record) : Except Stop (String → Option Record) := do
  Checked.require (∀ r ∈ store, r.upstream.binding = upstream.binding) .otherBinding
  pure (stored store)

/-! ## The injected functions -/

/-- The class of an exception as the handlers tell it apart. -/
inductive Raised where
  /-- `AnswerCompletionError`, or another `PeriodValueCorrectionError`. -/
  | correction (message : String)
  | other (message : String)
deriving DecidableEq

/-- A call of the provider or of the postprocessor. -/
inductive CallResult where
  | returned (answer : Option String)
  | raised (e : Raised)
deriving DecidableEq

/-- The metadata of completed answers by question. -/
abbrev Metadata :=
  List (String × JsonObject)

def Metadata.find (m : Metadata) (question : String) : Option JsonObject :=
  (m.find? fun entry => entry.1 = question).map Prod.snd

def Metadata.set (m : Metadata) (question : String) (value : JsonObject) : Metadata :=
  (question, value) :: m.filter fun entry => entry.1 ≠ question

/-- The injected functions, by the place of the question and the number of the attempt. -/
structure Callbacks (Case : Type) where
  render : Case → String
  /-- `prompt_template.format`. -/
  compose : String → String → String
  generate : Nat → Nat → String → CallResult
  postprocess : Option (Nat → Nat → String → String → Option String → CallResult)
  /-- What the postprocessor leaves of the metadata it shares with the phase. -/
  completion : Nat → Nat → Metadata → Metadata
  /-- What `sleep_fn` raises. -/
  sleep : Nat → Nat → Option PyError

/-- How one attempt ends. -/
inductive AttemptEnd where
  | answered (answer : Option String)
  | abandoned (message : String)
  /-- Any other exception; `draft` is what `answer` was assigned before it. -/
  | failed (draft : Option (Option String)) (message : String)
deriving DecidableEq

/-- What the phase does, for the record. -/
inductive Event where
  | slept (attempt : Nat)
  | generated (attempt : Nat) (result : CallResult)
  | postprocessed (attempt : Nat) (draft : Option String) (result : CallResult)
  | appended (r : Record)

structure World where
  store : List Record
  metadata : Option Metadata
  trace : List Event

def World.log (w : World) (events : List Event) : World :=
  { w with trace := w.trace ++ events }

def World.append (w : World) (r : Record) : World :=
  { w with store := w.store ++ [r], trace := w.trace ++ [.appended r] }

section Phase

variable {Case : Type} (cb : Callbacks Case) (place : Nat) (question context : String)

/-- The handlers around one attempt. -/
def handle (draft : Option (Option String)) : CallResult → AttemptEnd
  | .returned answer => .answered answer
  | .raised (.correction message) => .abandoned message
  | .raised (.other message) => .failed draft message

/-- The `try` statement of one attempt. -/
def attempt (n : Nat) : AttemptEnd :=
  match cb.generate place n (cb.compose context question) with
  | .raised e => handle none (.raised e)
  | .returned draft =>
    match cb.postprocess with
    | none => .answered draft
    | some post => handle (some draft) (post place n question context draft)

/-- The calls of one attempt. -/
def attemptEvents (n : Nat) : List Event :=
  let generated := cb.generate place n (cb.compose context question)
  .generated n generated ::
    match generated, cb.postprocess with
    | .returned draft, some post => [.postprocessed n draft (post place n question context draft)]
    | _, _ => []

/-- The metadata behind one attempt. -/
def attemptMetadata (n : Nat) (m : Option Metadata) : Option Metadata :=
  match cb.generate place n (cb.compose context question), cb.postprocess with
  | .returned _, some _ => m.map (cb.completion place n)
  | _, _ => m

/-- `answer` and `error`. -/
structure Draft where
  answer : Option String
  error : Option String

/-- The loop over the attempts. -/
def retry : Nat → List Double → Draft → World → World × Except Stop Draft
  | _, [], d, w => (w, .ok d)
  | n, wait :: rest, d, w =>
    match (if isWait wait then cb.sleep place n else none) with
    | some e => (w.log [.slept n], .error (.sleeping e))
    | none =>
      let w := w.log ((if isWait wait then [.slept n] else []) ++ attemptEvents cb place question context n)
      let w := { w with metadata := attemptMetadata cb place question context n w.metadata }
      match attempt cb place question context n with
      | .answered answer => (w, .ok { d with answer })
      | .abandoned message => (w, .ok ⟨none, some message⟩)
      | .failed draft message => retry (n + 1) rest ⟨draft.getD d.answer, some message⟩ w

/-- The outcome of a question from what the loop leaves. -/
def classify (d : Draft) (completion : Option JsonObject) : Outcome :=
  match d.answer with
  | some answer => .ok answer completion
  | none =>
    match d.error with
    | some error => if looksLikeQuotaError error then .skippedQuota error else .error error
    | none => .error none

end Phase

/-- What a run is given besides the checkpoint. -/
structure Setup (Case : Type) where
  upstream : Upstream
  cases : String → Option Case
  callbacks : Callbacks Case
  backoff : List Double
  maxRetries : Int

section Run

variable {Case : Type} (s : Setup Case)

/-- The metadata of a resumed record. -/
def resumeMetadata (r : Record) (m : Option Metadata) : Option Metadata :=
  match r.outcome with
  | .ok _ (some completion) => m.map fun m => m.set r.question completion
  | _ => m

/-- One question that has no stored record. -/
def answerQuestion (place : Nat) (question : String) (evidence : Case) (w : World) : World × Except Stop Record :=
  let context := s.callbacks.render evidence
  match retry s.callbacks place question context 1 (waits s.backoff s.maxRetries) ⟨none, none⟩ w with
  | (w, .error stop) => (w, .error stop)
  | (w, .ok d) =>
    let r : Record := ⟨question, s.upstream, classify d (w.metadata.bind fun m => m.find question)⟩
    (w.append r, .ok r)

/-- The loop over the questions. -/
def answerAll (done : String → Option Record) : Nat → List String → World → World × Except Stop (List Record)
  | _, [], w => (w, .ok [])
  | place, question :: rest, w =>
    match done question with
    | some r =>
      let (w, records) := answerAll done (place + 1) rest { w with metadata := resumeMetadata r w.metadata }
      (w, records.map (r :: ·))
    | none =>
      match s.cases question with
      | none => (w, .error (.noEvidence question))
      | some evidence =>
        match answerQuestion s place question evidence w with
        | (w, .error stop) => (w, .error stop)
        | (w, .ok r) =>
          let (w, records) := answerAll done (place + 1) rest w
          (w, records.map (r :: ·))

/-- `run_generation_phase`. -/
def runGenerationPhase (selected : List String) (w : World) : World × Except Stop (List Record) :=
  match loadCompatible s.upstream w.store with
  | .error stop => (w, .error stop)
  | .ok done => answerAll s done 0 selected w

end Run

end Generation
