import Shapeflow.Coordinator
import Shapeflow.CrashLogic
import Shapeflow.ObjectStore
import Shapeflow.Run

set_option autoImplicit false

/-!
# The coordinator between its writes

The loop of the coordinator as a process that may die before any of its writes,
over the ledger and the object store, and histories of such processes.
-/
namespace Shapeflow.Coordinator.Crash
open Script Database WorkLedger Session

/-- The two stores a coordinator writes to. -/
structure Stores (β : Type) where
  database : Database
  objects : ObjectStore β

/-- A coordinator's process at work. -/
abbrev Steps (β α : Type) : Type := Script (Session (Stores β)) (Stopped Raised) α

variable {β α : Type}

def onDatabase (body : Db α) : Script (Stores β) Raised α := fun s =>
  match body s.database with
  | (.ok a, t) => (.ok a, { s with database := t })
  | (.error e, t) => (.error e, { s with database := t })

/-- One call of the ledger. -/
def onLedger (body : Db α) : Steps β α := tx (onDatabase body)

def invoke : Outcome α → Steps β α
  | .returned value => pure value
  | .retryable errorClass message => raise (.raised (.retryableError errorClass message))
  | .fatal errorClass message => raise (.raised (.fatalProtocolError errorClass message))

/-- `self._store.put_bytes(raw)`: filed under the hash, with the sizes the store reports. -/
def putBytes (hash : β → String) (c : Coordinator β) (turn : ℕ) (raw : β) : Steps β ObjectRef := do
  tx fun s => (.ok (), { s with objects := s.objects.putBytes hash raw })
  pure { c.putBytes turn raw with key := hash raw }

def resume (c : Coordinator β) : Steps β (List String) := onLedger (reclaimStale (c.now 0 0))

def validate (c : Coordinator β) (turn : ℕ) (item : WorkItemRow) (raw : β) : Steps β Unit :=
  match c.validator with
  | none => pure ()
  | some validator => invoke (validator turn item raw)

/-- The body of the `try` in `_process`. -/
def attemptItem (hash : β → String) (c : Coordinator β) (turn : ℕ) (workKey : String)
    (item : WorkItemRow) (attemptId : String) (summary : RunSummary) : Steps β RunSummary := do
  let raw ← invoke (c.executor turn item)
  let ref ← putBytes hash c turn raw
  onLedger (registerArtifact (c.now turn 2) ref.key "work_output" ref.rawSize ref.storedSize (some workKey))
  onLedger (advance (c.now turn 3) attemptId .materialized)
  validate c turn item raw
  onLedger (advance (c.now turn 4) attemptId .validated)
  onLedger (commit (c.now turn 5) attemptId ref.key)
  pure { summary with committed := summary.committed + 1 }

/-- The `except` clauses of `_process`. -/
def handleFailure (c : Coordinator β) (turn : ℕ) (workKey attemptId : String) (summary : RunSummary) :
    Stopped Raised → Option (Steps β RunSummary)
  | .raised (.retryableError errorClass message) => some do
    let state ← onLedger (fail (c.now turn 6) attemptId .failedRetryable errorClass message)
    pure { summary with
      retried := summary.retried + 1
      failedFinal := if state ≠ .pending then summary.failedFinal + 1 else summary.failedFinal }
  | .raised (.fatalProtocolError errorClass message) => some do
    let _ ← onLedger (fail (c.now turn 6) attemptId .failedFinal errorClass message)
    onLedger (recordIncident (c.now turn 7) "fatal" "protocol_error" message (some workKey))
    pure { summary with failedFinal := summary.failedFinal + 1, fatal := true }
  | _ => none

def process (hash : β → String) (c : Coordinator β) (turn : ℕ) (workKey : String) (summary : RunSummary) :
    Steps β RunSummary := do
  let s ← readStore
  match fetchWorkItem s.database workKey with
  | none => pure summary
  | some item =>
    if item.state ≠ .pending then pure summary
    else do
      let attempt ← onLedger (claim c.ledger (c.now turn 1) workKey c.workerId c.lease)
      match attempt with
      | none => pure summary
      | some attempt =>
        catching (attemptItem hash c turn workKey item attempt.attemptId summary)
          (handleFailure c turn workKey attempt.attemptId summary)

def loop (hash : β → String) (c : Coordinator β) (maxItems : Option ℕ) (budgetRemaining : Option (ℕ → ℚ)) :
    (fuel turn : ℕ) → RunSummary → Steps β (Option RunSummary)
  | 0, _, _ => pure none
  | fuel + 1, turn, summary =>
    if exhausted budgetRemaining turn then pure (some summary)
    else if reached maxItems turn then pure (some summary)
    else do
      let s ← readStore
      match pendingKeys s.database 1 with
      | [] => pure (some summary)
      | key :: _ => do
        let summary' ← process hash c turn key summary
        if summary'.events = summary.events then pure (some summary')
        else if summary'.fatal then pure (some summary')
        else loop hash c maxItems budgetRemaining fuel (turn + 1) summary'

def run (hash : β → String) (c : Coordinator β) (fuel : ℕ) (maxItems : Option ℕ)
    (budgetRemaining : Option (ℕ → ℚ)) : Steps β (Option RunSummary) := do
  let _ ← resume c
  loop hash c maxItems budgetRemaining fuel 0 {}

/-! ## Histories -/

/-- One process of the coordinator: it lives to finish `life` writes, or all of them. -/
structure Lifetime (ledger : Ledger) (β : Type) where
  coordinator : Coordinator β
  bound : coordinator.ledger = ledger
  life : Option ℕ := none
  fuel : ℕ
  maxItems : Option ℕ := none
  budgetRemaining : Option (ℕ → ℚ) := none

/-- What may happen to the stores: work is enqueued, or a process runs until it ends or dies. -/
inductive Event (ledger : Ledger) (β : Type)
  | ensured (now : ℚ) (coordinates : Coordinates) (sideEffecting : Bool) (maxRetries : Option ℤ)
  | lived (lifetime : Lifetime ledger β)

variable {ledger : Ledger}

def Lifetime.leaves (hash : β → String) (l : Lifetime ledger β) (s : Stores β) : Stores β :=
  ((run hash l.coordinator l.fuel l.maxItems l.budgetRemaining).after ⟨s, l.life⟩).store

def step (hash : β → String) (s : Stores β) : Event ledger β → Stores β
  | .ensured now coordinates sideEffecting maxRetries =>
    { s with database := (ensureWorkItem ledger now coordinates sideEffecting maxRetries).after s.database }
  | .lived lifetime => lifetime.leaves hash s

def emptyStores : Stores β := ⟨.empty, .empty⟩

end Shapeflow.Coordinator.Crash
