import Mathlib.Data.Rat.Defs
import Shapeflow.Table

set_option autoImplicit false

/-!
# The ledger database

The tables of the schema script that the modelled operations read or write,
with the keys and unique indexes the engine enforces on them. Clock readings
and money are exact rationals. One `_now()` reading serves a whole operation.
-/
namespace Shapeflow

/-- The state names of work items and of their attempts. -/
inductive WorkState
  | pending | claimed | materialized | validated
  | committed | failedRetryable | failedFinal | failedUnknown | blockedBudget
deriving DecidableEq, Repr

def WorkState.name : WorkState → String
  | .pending => "PENDING"
  | .claimed => "CLAIMED"
  | .materialized => "MATERIALIZED"
  | .validated => "VALIDATED"
  | .committed => "COMMITTED"
  | .failedRetryable => "FAILED_RETRYABLE"
  | .failedFinal => "FAILED_FINAL"
  | .failedUnknown => "FAILED_UNKNOWN"
  | .blockedBudget => "BLOCKED_BUDGET"

/-- The logical coordinates a work key is derived from. -/
structure Coordinates where
  protocolSha : String
  split : String
  phaseId : String
  taskId : String
  armId : String
  variantId : String
  replicateId : String := "0"
  checkpointHash : String := "-"
  stageVersion : String := "v1"
deriving DecidableEq, Repr

structure WorkItemRow where
  workKey : String
  coordinates : Coordinates
  sideEffecting : Bool
  maxRetries : ℤ
  retryCount : ℕ
  state : WorkState
  createdAt : ℚ
  updatedAt : ℚ
deriving DecidableEq, Repr

structure AttemptRow where
  attemptId : String
  workKey : String
  attemptOrdinal : ℕ
  runId : String
  workerId : String
  state : WorkState
  leaseExpiresAt : Option ℚ
  startedAt : ℚ
  endedAt : Option ℚ := none
  terminalStatus : Option WorkState := none
  resultObjectRef : Option String := none
  errorClass : Option String := none
deriving DecidableEq, Repr

structure TransitionRow where
  workKey : String
  attemptId : Option String
  fromState : WorkState
  toState : WorkState
  atTime : ℚ
  reason : String
deriving DecidableEq, Repr

structure IncidentRow where
  atTime : ℚ
  severity : String
  kind : String
  detail : String
  workKey : Option String
deriving DecidableEq, Repr

structure ArtifactRow where
  objectRef : String
  kind : String
  rawSize : ℕ
  storedSize : ℕ
  workKey : Option String
  createdAt : ℚ
deriving DecidableEq, Repr

structure BudgetAccountRow where
  resource : String
  cap : ℚ
  reservedTotal : ℚ
  settledTotal : ℚ
  updatedAt : ℚ
deriving DecidableEq, Repr

inductive ReservationState
  | reserved | settled
deriving DecidableEq, Repr

structure ReservationRow where
  reservationId : String
  resource : String
  amount : ℚ
  state : ReservationState
  settledAmount : Option ℚ
  workKey : Option String
  externalCallId : Option String
  attemptId : Option String
  createdAt : ℚ
  updatedAt : ℚ
deriving DecidableEq, Repr

/-- The state of a logical external call. -/
inductive CallState
  | opened | committed | abandoned
deriving DecidableEq, Repr

def CallState.name : CallState → String
  | .opened => "OPEN"
  | .committed => "COMMITTED"
  | .abandoned => "ABANDONED"

/-- The state of one physical dispatch of an external call. -/
inductive CallAttemptState
  | intent | budgetReserved | sent | responseStored | validated
  | committed | failedFinal | failedUnknown
deriving DecidableEq, Repr

def CallAttemptState.name : CallAttemptState → String
  | .intent => "INTENT"
  | .budgetReserved => "BUDGET_RESERVED"
  | .sent => "SENT"
  | .responseStored => "RESPONSE_STORED"
  | .validated => "VALIDATED"
  | .committed => "COMMITTED"
  | .failedFinal => "FAILED_FINAL"
  | .failedUnknown => "FAILED_UNKNOWN"

structure ExternalCallRow where
  callId : String
  provider : String
  opClass : String
  callKey : String
  workKey : Option String
  state : CallState
  attemptCount : ℕ
  committedAttemptId : Option String
  createdAt : ℚ
  updatedAt : ℚ
deriving DecidableEq, Repr

structure ExternalAttemptRow where
  attemptId : String
  callId : String
  attemptOrdinal : ℕ
  state : CallAttemptState
  requestObjectRef : Option String := none
  responseObjectRef : Option String := none
  providerRequestId : Option String := none
  requestedModel : Option String := none
  returnedModel : Option String := none
  systemFingerprint : Option String := none
  usageJson : Option String := none
  telemetryJson : Option String := none
  errorClass : Option String := none
  openedAt : ℚ
  proxyIngressAt : Option ℚ := none
  dispatchedAt : Option ℚ := none
  responseEndAt : Option ℚ := none
  settledAt : Option ℚ := none
deriving DecidableEq, Repr

structure ExternalTransitionRow where
  callId : String
  attemptId : Option String
  fromState : Option String
  toState : String
  atTime : ℚ
  reason : Option String
deriving DecidableEq, Repr

/-! ## Keys and unique indexes -/

def WorkItemKeys (rows : List WorkItemRow) : Prop := (rows.map (·.workKey)).Nodup

/-- The primary key, `UNIQUE(work_key, attempt_ordinal)` and the partial index `ux_one_commit`. -/
def AttemptKeys (rows : List AttemptRow) : Prop :=
  (rows.map (·.attemptId)).Nodup ∧
  (rows.map fun r => (r.workKey, r.attemptOrdinal)).Nodup ∧
  ((rows.filter (·.state = .committed)).map (·.workKey)).Nodup

def NoKeys {ρ : Type} (_ : List ρ) : Prop := True

def ArtifactKeys (rows : List ArtifactRow) : Prop := (rows.map (·.objectRef)).Nodup

def AccountKeys (rows : List BudgetAccountRow) : Prop := (rows.map (·.resource)).Nodup

def ReservationKeys (rows : List ReservationRow) : Prop := (rows.map (·.reservationId)).Nodup

def CallKeys (rows : List ExternalCallRow) : Prop := (rows.map (·.callId)).Nodup

/-- The primary key, `UNIQUE(call_id, attempt_ordinal)` and the partial index `ux_one_external_commit`. -/
def CallAttemptKeys (rows : List ExternalAttemptRow) : Prop :=
  (rows.map (·.attemptId)).Nodup ∧
  (rows.map fun r => (r.callId, r.attemptOrdinal)).Nodup ∧
  ((rows.filter (·.state = .committed)).map (·.callId)).Nodup

instance : DecidablePred WorkItemKeys := fun _ => inferInstanceAs (Decidable (List.Nodup _))
instance : DecidablePred AttemptKeys := fun _ => inferInstanceAs (Decidable (_ ∧ _ ∧ _))
instance {ρ : Type} : DecidablePred (NoKeys (ρ := ρ)) := fun _ => .isTrue trivial
instance : DecidablePred ArtifactKeys := fun _ => inferInstanceAs (Decidable (List.Nodup _))
instance : DecidablePred AccountKeys := fun _ => inferInstanceAs (Decidable (List.Nodup _))
instance : DecidablePred ReservationKeys := fun _ => inferInstanceAs (Decidable (List.Nodup _))
instance : DecidablePred CallKeys := fun _ => inferInstanceAs (Decidable (List.Nodup _))
instance : DecidablePred CallAttemptKeys := fun _ => inferInstanceAs (Decidable (_ ∧ _ ∧ _))

/-- One open database. -/
structure Database where
  workItems : Table WorkItemKeys := ⟨[], List.nodup_nil⟩
  attempts : Table AttemptKeys := ⟨[], by decide⟩
  transitions : Table (NoKeys (ρ := TransitionRow)) := ⟨[], trivial⟩
  incidents : Table (NoKeys (ρ := IncidentRow)) := ⟨[], trivial⟩
  artifacts : Table ArtifactKeys := ⟨[], List.nodup_nil⟩
  budgetAccounts : Table AccountKeys := ⟨[], List.nodup_nil⟩
  budgetReservations : Table ReservationKeys := ⟨[], List.nodup_nil⟩
  externalCalls : Table CallKeys := ⟨[], List.nodup_nil⟩
  externalCallAttempts : Table CallAttemptKeys := ⟨[], by decide⟩
  externalCallTransitions : Table (NoKeys (ρ := ExternalTransitionRow)) := ⟨[], trivial⟩

namespace Database

def empty : Database := {}

def workItemsSlot : Slot Database WorkItemKeys := ⟨workItems, fun t s => { s with workItems := t }⟩
def attemptsSlot : Slot Database AttemptKeys := ⟨attempts, fun t s => { s with attempts := t }⟩
def transitionsSlot : Slot Database (NoKeys (ρ := TransitionRow)) :=
  ⟨transitions, fun t s => { s with transitions := t }⟩
def incidentsSlot : Slot Database (NoKeys (ρ := IncidentRow)) :=
  ⟨incidents, fun t s => { s with incidents := t }⟩
def artifactsSlot : Slot Database ArtifactKeys := ⟨artifacts, fun t s => { s with artifacts := t }⟩
def budgetAccountsSlot : Slot Database AccountKeys :=
  ⟨budgetAccounts, fun t s => { s with budgetAccounts := t }⟩
def budgetReservationsSlot : Slot Database ReservationKeys :=
  ⟨budgetReservations, fun t s => { s with budgetReservations := t }⟩
def externalCallsSlot : Slot Database CallKeys :=
  ⟨externalCalls, fun t s => { s with externalCalls := t }⟩
def externalCallAttemptsSlot : Slot Database CallAttemptKeys :=
  ⟨externalCallAttempts, fun t s => { s with externalCallAttempts := t }⟩
def externalCallTransitionsSlot : Slot Database (NoKeys (ρ := ExternalTransitionRow)) :=
  ⟨externalCallTransitions, fun t s => { s with externalCallTransitions := t }⟩

end Database

/-- The exceptions the modelled operations raise. -/
inductive Raised
  | ledgerError (message : String)
  | illegalTransition (message : String)
  | valueError (message : String)
  | typeError
  | integrityError
  | budgetExceeded (resource : String) (requested available : ℚ)
  | budgetCapRaised (resource : String) (current requested : ℚ)
  | callAlreadyCommitted (callId : String) (responseObjectRef : Option String)
  | callNotReplayable (callId : String) (state : String)
  | illegalCallTransition (message : String)
  | retryableError (errorClass message : String)
  | fatalProtocolError (errorClass message : String)
deriving DecidableEq, Repr

/-- `derive_id` in each domain the database takes ids from. -/
structure DerivedIds where
  workItem : Coordinates → String
  attempt : (workKey : String) → (ordinal : ℕ) → String
  externalCall : (provider opClass workKey callKey : String) → String
  externalCallAttempt : (callId : String) → (ordinal : ℕ) → String
  reservation : (group resource : String) → String
  reservationGroup : (workKey : String) → (amounts : List (String × ℚ)) → (seq : ℕ) → String

/-- What a hash with a tag for each domain gives: the ids of dispatches are no ids of calls or
    reservations, no id is empty, and the resources of a group get ids of their own. -/
structure DerivedIds.Separated (ids : DerivedIds) : Prop where
  attempt_ne_call : ∀ c n p o k key, ids.externalCallAttempt c n ≠ ids.externalCall p o k key
  attempt_ne_reservation : ∀ c n g r, ids.externalCallAttempt c n ≠ ids.reservation g r
  attempt_ne_empty : ∀ c n, ids.externalCallAttempt c n ≠ ""
  reservation_injective : ∀ g, Function.Injective (ids.reservation g)

/-- Ids spelled out of their payload, for runs on fixed inputs. -/
def DerivedIds.plain : DerivedIds where
  workItem c := c.taskId
  attempt k n := .ofList (List.replicate n '#' ++ '/' :: k.toList)
  externalCall provider opClass workKey callKey := "C" ++ s!"{provider}:{opClass}:{workKey}:{callKey}"
  externalCallAttempt callId n := "A" ++ s!"{callId}#{n}"
  reservation group resource := "R" ++ s!"{group}@{resource}"
  reservationGroup workKey amounts seq := s!"{workKey}+{amounts.length}+{seq}"

/-- A script over the database. -/
abbrev Db (α : Type) : Type := Script Database Raised α

end Shapeflow
