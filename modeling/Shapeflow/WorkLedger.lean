import Mathlib.Data.List.Sort
import Shapeflow.Database

set_option autoImplicit false

/-!
# The work ledger

The operations of `Ledger` on work items and their attempts. Each runs in one
write transaction, so a raise rolls back what it had written.
-/
namespace Shapeflow.WorkLedger
open Script Database

def nonTerminalStates : List WorkState := [.pending, .claimed, .materialized, .validated]

def terminalStates : List WorkState := [.committed, .failedFinal, .failedUnknown, .blockedBudget]

/-- Legal forward transitions of a work item's state; failures are routed by `fail` itself. -/
def legal : WorkState → List WorkState
  | .pending => [.claimed, .blockedBudget]
  | .claimed => [.materialized, .failedRetryable, .failedFinal, .failedUnknown]
  | .materialized => [.validated, .failedRetryable, .failedFinal, .failedUnknown]
  | .validated => [.committed, .failedRetryable, .failedFinal, .failedUnknown]
  | _ => []

def inProgress : List WorkState := [.claimed, .materialized, .validated]

/-- The part of an attempt row that `claim` hands to the worker. -/
structure Attempt where
  attemptId : String
  workKey : String
  attemptOrdinal : ℕ
  workerId : String
  state : WorkState
  leaseExpiresAt : Option ℚ
  resultObjectRef : Option String
deriving DecidableEq, Repr

structure Ledger where
  ids : DerivedIds
  defaultMaxRetries : ℤ := 3

def logTransition (now : ℚ) (workKey : String) (attemptId : Option String)
    (fromState toState : WorkState) (reason : String) : Db Unit :=
  transitionsSlot.insert .integrityError ⟨workKey, attemptId, fromState, toState, now, reason⟩

def fetchWorkItem (s : Database) (workKey : String) : Option WorkItemRow :=
  s.workItems.rows.find? fun r => r.workKey = workKey

def fetchAttempt (s : Database) (attemptId : String) : Option AttemptRow :=
  s.attempts.rows.find? fun r => r.attemptId = attemptId

def requireAttempt (attemptId : String) : Db AttemptRow := do
  let s ← getStore
  match fetchAttempt s attemptId with
  | none => raise (.ledgerError s!"unknown attempt {attemptId}")
  | some att => pure att

/-- `reason or other`: an empty string counts as absent. -/
def orElse (reason other : String) : String := if reason = "" then other else reason

def ensureWorkItem (ledger : Ledger) (now : ℚ) (coordinates : Coordinates)
    (sideEffecting : Bool := false) (maxRetries : Option ℤ := none) : Db String := do
  let key := ledger.ids.workItem coordinates
  transaction (workItemsSlot.insertOrIgnore
    { workKey := key, coordinates, sideEffecting,
      maxRetries := maxRetries.getD ledger.defaultMaxRetries,
      retryCount := 0, state := .pending, createdAt := now, updatedAt := now })
  pure key

/-- Compare-and-swap of a work item's state along a legal edge. -/
def setState (now : ℚ) (workKey : String) (fromState toState : WorkState) (reason : String) : Db Unit :=
  if toState ∉ legal fromState then
    raise (.illegalTransition s!"{fromState.name} -> {toState.name} is not permitted")
  else do
    let rowcount ← workItemsSlot.update .integrityError
      (fun r => r.workKey = workKey ∧ r.state = fromState)
      (fun r => { r with state := toState, updatedAt := now })
    if rowcount ≠ 1 then
      raise (.illegalTransition s!"work item {workKey} was not in {fromState.name} (concurrent change?)")
    else
      logTransition now workKey none fromState toState reason

/-- `COALESCE(MAX(attempt_ordinal),0)+1` over the attempts of one item. -/
def nextOrdinal (s : Database) (workKey : String) : ℕ :=
  ((s.attempts.rows.filter fun r => r.workKey = workKey).map (·.attemptOrdinal)).max?.getD 0 + 1

def claim (ledger : Ledger) (now : ℚ) (workKey workerId : String) (leaseSeconds : ℚ)
    (runId : String := "") : Db (Option Attempt) :=
  transaction do
    let s ← getStore
    match fetchWorkItem s workKey with
    | none => raise (.ledgerError s!"unknown work item {workKey}")
    | some row =>
      if row.state ≠ .pending then pure none
      else do
        let ordinal := nextOrdinal s workKey
        let attemptId := ledger.ids.attempt workKey ordinal
        let expires := now + leaseSeconds
        attemptsSlot.insert .integrityError
          { attemptId, workKey, attemptOrdinal := ordinal, runId, workerId,
            state := .claimed, leaseExpiresAt := some expires, startedAt := now }
        setState now workKey .pending .claimed s!"claim:{workerId}"
        pure (some ⟨attemptId, workKey, ordinal, workerId, .claimed, some expires, none⟩)

def heartbeat (now : ℚ) (attemptId : String) (leaseSeconds : ℚ) : Db Unit :=
  transaction do
    let _ ← attemptsSlot.update .integrityError
      (fun r => r.attemptId = attemptId ∧ r.state ∈ inProgress)
      (fun r => { r with leaseExpiresAt := some (now + leaseSeconds) })
    pure ()

def advance (now : ℚ) (attemptId : String) (toState : WorkState) (reason : String := "") : Db Unit :=
  if toState ∉ [WorkState.materialized, .validated] then
    raise (.illegalTransition s!"advance target must be MATERIALIZED/VALIDATED, got {toState.name}")
  else transaction do
    let att ← requireAttempt attemptId
    setState now att.workKey att.state toState reason
    let _ ← attemptsSlot.update .integrityError (fun r => r.attemptId = attemptId)
      (fun r => { r with state := toState })
    pure ()

def commit (now : ℚ) (attemptId resultObjectRef : String) (reason : String := "") : Db Unit :=
  transaction do
    let att ← requireAttempt attemptId
    if att.state ≠ .validated then
      raise (.illegalTransition s!"commit requires VALIDATED, attempt is {att.state.name}")
    else do
      setState now att.workKey .validated .committed (orElse reason "commit")
      -- The index `ux_one_commit` is what can refuse this write.
      let _ ← attemptsSlot.update
        (.ledgerError s!"work item {att.workKey} already has a committed attempt")
        (fun r => r.attemptId = attemptId)
        (fun r => { r with
          state := .committed, endedAt := some now, terminalStatus := some .committed,
          resultObjectRef := some resultObjectRef })
      pure ()

def dispositions : List WorkState := [.failedRetryable, .failedFinal, .failedUnknown]

/-- Where `fail` leaves the item when it does not reopen it. -/
def failedAs : WorkState → WorkState
  | .failedUnknown => .failedUnknown
  | _ => .failedFinal

/-- `UPDATE work_items SET state='PENDING', retry_count=retry_count+1 ..` -/
def reopenRow (now : ℚ) (r : WorkItemRow) : WorkItemRow :=
  { r with state := .pending, retryCount := r.retryCount + 1, updatedAt := now }

def retriesLeft (wi : WorkItemRow) : Prop := (wi.retryCount : ℤ) + 1 ≤ wi.maxRetries

instance (wi : WorkItemRow) : Decidable (retriesLeft wi) := inferInstanceAs (Decidable (_ ≤ _))

/-- Note that neither the attempt's nor the item's present state is looked at. -/
def fail (now : ℚ) (attemptId : String) (disposition : WorkState) (errorClass : String := "")
    (reason : String := "") (resultObjectRef : String := "") : Db WorkState :=
  if disposition ∉ dispositions then
    raise (.valueError s!"bad disposition {disposition.name}")
  else transaction do
    let att ← requireAttempt attemptId
    let s ← getStore
    match fetchWorkItem s att.workKey with
    | none => raise .typeError
    | some wi => do
      let _ ← attemptsSlot.update .integrityError (fun r => r.attemptId = attemptId)
        (fun r => { r with
          state := disposition, endedAt := some now, terminalStatus := some disposition,
          errorClass := some errorClass,
          resultObjectRef := if resultObjectRef = "" then r.resultObjectRef else some resultObjectRef })
      if disposition = .failedRetryable ∧ retriesLeft wi then do
        let _ ← workItemsSlot.update .integrityError (fun r => r.workKey = att.workKey) (reopenRow now)
        logTransition now att.workKey (some attemptId) wi.state .pending (orElse reason "retry")
        pure .pending
      else do
        let final := failedAs disposition
        let _ ← workItemsSlot.update .integrityError (fun r => r.workKey = att.workKey)
          (fun r => { r with state := final, updatedAt := now })
        logTransition now att.workKey (some attemptId) wi.state final (orElse reason errorClass)
        pure final

def blockBudget (now : ℚ) (workKey : String) (reason : String := "") : Db Unit :=
  transaction do
    let s ← getStore
    match fetchWorkItem s workKey with
    | none => raise (.ledgerError s!"unknown work item {workKey}")
    | some wi => setState now workKey wi.state .blockedBudget (orElse reason "budget")

def leaseExpired (now : ℚ) (r : AttemptRow) : Bool :=
  match r.leaseExpiresAt with
  | none => false
  | some expires => expires < now

/-- In-progress attempts whose lease ran out before `now`. -/
def staleAttempts (s : Database) (now : ℚ) : List AttemptRow :=
  s.attempts.rows.filter fun r => r.state ∈ inProgress ∧ leaseExpired now r

/-- One turn of the loop of `reclaim_stale`; the value is the key when it was reopened. -/
def reclaim (clock now : ℚ) (att : AttemptRow) : Db (Option String) := do
  let s ← getStore
  match fetchWorkItem s att.workKey with
  | none => raise .typeError
  | some wi => do
    let _ ← attemptsSlot.update .integrityError (fun r => r.attemptId = att.attemptId)
      (fun r => { r with
        state := .failedUnknown, endedAt := some now, terminalStatus := some .failedUnknown,
        errorClass := some "lease_expired" })
    if wi.sideEffecting = false ∧ retriesLeft wi then do
      let _ ← workItemsSlot.update .integrityError (fun r => r.workKey = att.workKey) (reopenRow now)
      logTransition clock att.workKey (some att.attemptId) wi.state .pending "lease_reclaim"
      pure (some att.workKey)
    else do
      let final := if wi.sideEffecting then WorkState.failedUnknown else .failedFinal
      let _ ← workItemsSlot.update .integrityError (fun r => r.workKey = att.workKey)
        (fun r => { r with state := final, updatedAt := now })
      logTransition clock att.workKey (some att.attemptId) wi.state final "lease_reclaim"
      pure none

def reclaimStale (clock : ℚ) (now : Option ℚ := none) : Db (List String) :=
  transaction do
    let now := now.getD clock
    let s ← getStore
    let reopened ← forEach (reclaim clock now) (staleAttempts s now)
    pure (reopened.filterMap id)

/-! ## Queries -/

def committedRef (s : Database) (workKey : String) : Option String :=
  match s.attempts.rows.find? (fun r => r.workKey = workKey ∧ r.state = .committed) with
  | none => none
  | some r => r.resultObjectRef

/-- `SELECT .. WHERE state='PENDING' ORDER BY created_at LIMIT ?` -/
def pendingKeys (s : Database) (limit : ℕ := 1000) : List String :=
  (((s.workItems.rows.filter fun r => r.state = .pending).insertionSort
    fun a b => a.createdAt ≤ b.createdAt).take limit).map (·.workKey)

def registerArtifact (now : ℚ) (objectRef kind : String) (rawSize storedSize : ℕ)
    (workKey : Option String := none) : Db Unit :=
  transaction (artifactsSlot.insertOrIgnore ⟨objectRef, kind, rawSize, storedSize, workKey, now⟩)

def recordIncident (now : ℚ) (severity kind : String) (detail : String := "")
    (workKey : Option String := none) : Db Unit :=
  transaction (incidentsSlot.insert .integrityError ⟨now, severity, kind, detail, workKey⟩)

/-! ## Runs -/

inductive Op
  | ensureWorkItem (coordinates : Coordinates) (sideEffecting : Bool) (maxRetries : Option ℤ)
  | claim (workKey workerId : String) (leaseSeconds : ℚ) (runId : String)
  | heartbeat (attemptId : String) (leaseSeconds : ℚ)
  | advance (attemptId : String) (toState : WorkState) (reason : String)
  | commit (attemptId resultObjectRef reason : String)
  | fail (attemptId : String) (disposition : WorkState) (errorClass reason resultObjectRef : String)
  | blockBudget (workKey reason : String)
  | reclaimStale (now : Option ℚ)

/-- One call, by any worker, with the clock reading it sees. -/
structure Call where
  clock : ℚ
  op : Op

/-- The database after a call; what a worker catches or ignores makes no difference to it. -/
def step (ledger : Ledger) (s : Database) (call : Call) : Database :=
  match call.op with
  | .ensureWorkItem c side m => (ensureWorkItem ledger call.clock c side m).after s
  | .claim k w lease runId => (claim ledger call.clock k w lease runId).after s
  | .heartbeat a lease => (heartbeat call.clock a lease).after s
  | .advance a toState reason => (advance call.clock a toState reason).after s
  | .commit a ref reason => (commit call.clock a ref reason).after s
  | .fail a d err reason ref => (fail call.clock a d err reason ref).after s
  | .blockBudget k reason => (blockBudget call.clock k reason).after s
  | .reclaimStale now => (reclaimStale call.clock now).after s

end Shapeflow.WorkLedger
