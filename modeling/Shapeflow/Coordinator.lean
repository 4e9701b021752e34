import Shapeflow.WorkLedger

set_option autoImplicit false

/-!
# The coordinator loop

The executor, the validator and the blob store are injected. What they do is
given for each turn of the loop, so they may keep state and depend on the clock;
they do not write the work tables themselves.
-/
namespace Shapeflow
open Script Database WorkLedger

/-- How an injected callable ended: it returned, or raised `RetryableError` or
    `FatalProtocolError` (or a subclass, whose name is the error class). -/
inductive Outcome (α : Type)
  | returned (value : α)
  | retryable (errorClass message : String)
  | fatal (errorClass message : String)

structure ObjectRef where
  key : String
  rawSize : ℕ
  storedSize : ℕ

/-- A coordinator with its callables; `now turn i` is the reading of the `i`-th ledger call of a turn. -/
structure Coordinator (Raw : Type) where
  ledger : Ledger
  now : ℕ → ℕ → ℚ
  putBytes : ℕ → Raw → ObjectRef
  executor : ℕ → WorkItemRow → Outcome Raw
  validator : Option (ℕ → WorkItemRow → Raw → Outcome Unit) := none
  workerId : String := "w0"
  lease : ℚ := 300

structure RunSummary where
  committed : ℕ := 0
  retried : ℕ := 0
  failedFinal : ℕ := 0
  blocked : ℕ := 0
  fatal : Bool := false
deriving DecidableEq, Repr

def RunSummary.events (summary : RunSummary) : ℕ :=
  summary.committed + summary.retried + summary.failedFinal

namespace Coordinator

def invoke {α : Type} : Outcome α → Db α
  | .returned value => pure value
  | .retryable errorClass message => raise (.retryableError errorClass message)
  | .fatal errorClass message => raise (.fatalProtocolError errorClass message)

variable {Raw : Type}

def resume (c : Coordinator Raw) : Db (List String) := reclaimStale (c.now 0 0)

/-- The validator's verdict, when there is a validator. -/
def validate (c : Coordinator Raw) (turn : ℕ) (item : WorkItemRow) (raw : Raw) : Db Unit :=
  match c.validator with
  | none => pure ()
  | some validator => invoke (validator turn item raw)

/-- The body of the `try` in `_process`. -/
def attemptItem (c : Coordinator Raw) (turn : ℕ) (workKey : String) (item : WorkItemRow)
    (attemptId : String) (summary : RunSummary) : Db RunSummary := do
  let raw ← invoke (c.executor turn item)
  -- The bytes are stored before anything is marked, so the terminal record is written last.
  let ref := c.putBytes turn raw
  registerArtifact (c.now turn 2) ref.key "work_output" ref.rawSize ref.storedSize (some workKey)
  advance (c.now turn 3) attemptId .materialized
  validate c turn item raw
  advance (c.now turn 4) attemptId .validated
  commit (c.now turn 5) attemptId ref.key
  pure { summary with committed := summary.committed + 1 }

/-- The `except` clauses of `_process`; every other exception goes through. -/
def handleFailure (c : Coordinator Raw) (turn : ℕ) (workKey attemptId : String) (summary : RunSummary) :
    Raised → Option (Db RunSummary)
  | .retryableError errorClass message => some do
    let state ← fail (c.now turn 6) attemptId .failedRetryable errorClass message
    pure { summary with
      retried := summary.retried + 1
      failedFinal := if state ≠ .pending then summary.failedFinal + 1 else summary.failedFinal }
  | .fatalProtocolError errorClass message => some do
    let _ ← fail (c.now turn 6) attemptId .failedFinal errorClass message
    recordIncident (c.now turn 7) "fatal" "protocol_error" message (some workKey)
    pure { summary with failedFinal := summary.failedFinal + 1, fatal := true }
  | _ => none

/-- `_process`; the summary it is handed comes back updated. -/
def process (c : Coordinator Raw) (turn : ℕ) (workKey : String) (summary : RunSummary) : Db RunSummary := do
  let s ← getStore
  match fetchWorkItem s workKey with
  | none => pure summary
  | some item =>
    if item.state ≠ .pending then pure summary
    else do
      let attempt ← claim c.ledger (c.now turn 1) workKey c.workerId c.lease
      match attempt with
      | none => pure summary
      | some attempt =>
        catching (attemptItem c turn workKey item attempt.attemptId summary)
          (handleFailure c turn workKey attempt.attemptId summary)

def exhausted (budgetRemaining : Option (ℕ → ℚ)) (turn : ℕ) : Bool :=
  match budgetRemaining with
  | none => false
  | some remaining => remaining turn ≤ 0

def reached (maxItems : Option ℕ) (processed : ℕ) : Bool :=
  match maxItems with
  | none => false
  | some n => n ≤ processed

/-- The `while` loop of `run`; `none` when the fuel ran out before the loop ended. The number
    of items processed so far is the turn. -/
def loop (c : Coordinator Raw) (maxItems : Option ℕ) (budgetRemaining : Option (ℕ → ℚ)) :
    (fuel turn : ℕ) → RunSummary → Db (Option RunSummary)
  | 0, _, _ => pure none
  | fuel + 1, turn, summary =>
    if exhausted budgetRemaining turn then pure (some summary)
    else if reached maxItems turn then pure (some summary)
    else do
      let s ← getStore
      match pendingKeys s 1 with
      | [] => pure (some summary)
      | key :: _ => do
        let summary' ← process c turn key summary
        if summary'.events = summary.events then pure (some summary')
        else if summary'.fatal then pure (some summary')
        else loop c maxItems budgetRemaining fuel (turn + 1) summary'

def run (c : Coordinator Raw) (fuel : ℕ) (maxItems : Option ℕ := none)
    (budgetRemaining : Option (ℕ → ℚ) := none) : Db (Option RunSummary) := do
  let _ ← resume c
  loop c maxItems budgetRemaining fuel 0 {}

end Coordinator
end Shapeflow
