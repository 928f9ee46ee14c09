import DocumentQa.Evaluation.GenerationTurns

/-!
# The judge phase

`run_judge_phase`: every selected question whose generation is OK gets the record of an
earlier run or is judged in a bounded loop of calls, whose outcome is appended to the
checkpoint file. The branch for a failure that is no quota failure names a status the module
does not define, so the run raises there (`judgeAll_judged`).
-/

namespace Judge

open Python JsonText Generation

/-! ## The checkpoint file -/

/-- A call of the judge. `JudgeParseErrorStub` marks a response that is no valid judgement. -/
inductive CallResult where
  | returned (scores : Json)
  | parseError (message : String)
  | raised (message : String)

/-- The part of a record behind the identity, by its status. -/
inductive Outcome where
  | ok (scores : Json)
  | parseInvalid (error : String)
  | skippedQuota (error : String)

/-- What the records of a phase are bound to; `binding` is the hash over all of it, over the
generation binding and over the answers. -/
structure Identity where
  binding : String
  model : String
  promptTemplateSha256 : String
  maxTokens : Int
  contextFingerprint : String
deriving DecidableEq

structure Record where
  question : String
  identity : Identity
  outcome : Outcome

def Record.isOk (r : Record) : Bool :=
  match r.outcome with
  | .ok _ => true
  | _ => false

/-- `load_compatible`: the last OK record of the binding for a question. -/
def loadCompatible (binding : String) (store : List Record) (question : String) : Option Record :=
  (store.filter fun r => r.isOk && r.identity.binding = binding && r.question = question).getLast?

/-! ## Judging -/

/-- What a run is given besides the checkpoint; `judge` by the place of the question and the
number of the attempt. -/
structure Setup where
  generations : String → Option Generation.Record
  evidence : String → Option String
  truth : String → Option String
  /-- `compute_judge_binding` of the generation binding and of the answers. -/
  bind : String → List String → Identity
  /-- `judge_prompt_builder`. -/
  compose : Option (String → String → String → String → String)
  judge : Nat → Nat → String → CallResult
  backoff : List Double
  maxRetries : Int

/-- What the phase does, for the record. -/
inductive Event where
  | slept (attempt : Nat)
  | judged (attempt : Nat) (result : CallResult)
  | appended (r : Record)

structure World where
  store : List Record
  trace : List Event

/-- `scores`, `error` and `parse_invalid`. -/
structure Verdict where
  scores : Json
  error : Option String
  parseInvalid : Bool

/-- The answer of an OK generation. -/
def answerOf (r : Generation.Record) : Option String :=
  match r.outcome with
  | .ok answer _ => some answer
  | _ => none

section Phase

variable (s : Setup)

/-- `ok_generations`. -/
def okGenerations (selected : List String) : List String :=
  selected.filter fun question => ((s.generations question).bind answerOf).isSome

/-- The bindings of the OK generations. -/
def bindings (selected : List String) : List String :=
  (okGenerations s selected).filterMap fun question => (s.generations question).map fun r => r.upstream.binding

/-- The identity of this run's records. -/
def identity (selected : List String) : Identity :=
  s.bind ((bindings s selected).head?.getD "")
    (((okGenerations s selected).insertionSort (· ≤ ·)).filterMap fun question => (s.generations question).bind answerOf)

/-- The prompt, without a builder put together here. -/
def prompt (question answer evidence truth : String) : String :=
  match s.compose with
  | some build => build question answer evidence truth
  | none => evidence ++ "\n\nQuestion: " ++ question ++ "\nAnswer: " ++ answer ++ "\nGround truth: " ++ truth

/-- The loop over the attempts. -/
def retry (place : Nat) (text : String) : Nat → List Double → Verdict → World → World × Verdict
  | _, [], v, w => (w, v)
  | n, wait :: rest, v, w =>
    let w := { w with trace := w.trace ++ ((if isWait wait then [.slept n] else []) ++ [.judged n (s.judge place n text)]) }
    match s.judge place n text with
    | .returned scores => (w, { v with scores })
    | .parseError message => (w, { v with error := some message, parseInvalid := true })
    | .raised message => retry place text (n + 1) rest { v with error := some message } w

def undefinedStatus : PyError :=
  ⟨.nameError, "name 'JUDGE_STATUS_ERROR' is not defined"⟩

/-- The status of a verdict. -/
def classify (v : Verdict) : Except PyError Outcome :=
  if v.scores ≠ .null then .ok (.ok v.scores)
  else if v.parseInvalid then .ok (.parseInvalid (v.error.getD ""))
  else
    match v.error with
    | some error => if looksLikeQuotaError error then .ok (.skippedQuota error) else .error undefinedStatus
    | none => .error undefinedStatus

/-- One question without a stored record. -/
def judgeQuestion (id : Identity) (place : Nat) (question answer : String) (w : World) : World × Except PyError Record :=
  match s.evidence question, s.truth question with
  | some evidence, some truth =>
    let (w, v) := retry s place (prompt s question answer evidence truth) 1 (waits s.backoff s.maxRetries)
      ⟨.null, none, false⟩ w
    match classify v with
    | .error e => (w, .error e)
    | .ok outcome =>
      let r : Record := ⟨question, id, outcome⟩
      (⟨w.store ++ [r], w.trace ++ [.appended r]⟩, .ok r)
  | _, _ => (w, .error ⟨.keyError, question⟩)

/-- The loop over the questions. -/
def judgeAll (id : Identity) (done : String → Option Record) : Nat → List String → World → World × Except PyError (List Record)
  | _, [], w => (w, .ok [])
  | place, question :: rest, w =>
    match s.generations question with
    | none => (w, .error ⟨.valueError, "No generation record for question: " ++ question⟩)
    | some generation =>
      match answerOf generation with
      | none => judgeAll id done (place + 1) rest w
      | some answer =>
        match done question with
        | some r =>
          let (w, records) := judgeAll id done (place + 1) rest w
          (w, records.map (r :: ·))
        | none =>
          match judgeQuestion s id place question answer w with
          | (w, .error e) => (w, .error e)
          | (w, .ok r) =>
            let (w, records) := judgeAll id done (place + 1) rest w
            (w, records.map (r :: ·))

/-- `run_judge_phase`. -/
def runJudgePhase (selected : List String) (w : World) : World × Except PyError (List Record) :=
  if (bindings s selected).dedup.length > 1 then
    (w, .error ⟨.valueError, "Generation records span multiple bindings; refusing to judge"⟩)
  else judgeAll s (identity s selected) (loadCompatible (identity s selected).binding w.store) 0 selected w

end Phase

end Judge
