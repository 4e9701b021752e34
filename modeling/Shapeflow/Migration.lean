import Shapeflow.Database
import Shapeflow.Redo

set_option autoImplicit false

/-!
# Opening a ledger of an earlier schema

What `Ledger.__init__` does to the tables of the external calls. The connection
commits every statement on its own, so a process may die between any two.
Statements of the schema script that touch no modelled table are left out.
-/
namespace Shapeflow.Migration
open Script Session Redo

/-- A row of `external_calls` as version 1 kept it: one mutable row a call. -/
structure V1Call where
  callId : String
  provider : String
  opClass : String
  workKey : Option String
  state : CallAttemptState
  attemptOrdinal : Option ℕ
  requestObjectRef : Option String
  responseObjectRef : Option String
  providerRequestId : Option String
  model : Option String
  usageJson : Option String
  errorClass : Option String
  createdAt : ℚ
  updatedAt : ℚ
deriving DecidableEq, Repr

def V1Keys (rows : List V1Call) : Prop := (rows.map (·.callId)).Nodup

instance : DecidablePred V1Keys := fun _ => inferInstanceAs (Decidable (List.Nodup _))

/-- The tables `external_calls` and `external_calls_v1`. -/
inductive CallTables
  | absent
  | v1 (rows : Table V1Keys)
  | renamed (old : Table V1Keys)
  | split (calls : Table CallKeys) (old : Option (Table V1Keys))

/-- The columns that version 3 adds to the attempts. -/
inductive IntervalColumn
  | telemetryJson
  | proxyIngressAt
  | responseEndAt
deriving DecidableEq, Repr

def IntervalColumn.all : List IntervalColumn := [.telemetryJson, .proxyIngressAt, .responseEndAt]

/-- A table is `none` when the database has no such table; `linked` says that the reservations have
    their `attempt_id` column, and `version` is the row of `schema_versions`. -/
structure Layout where
  reservations : Option (Table ReservationKeys)
  linked : Bool
  calls : CallTables
  attempts : Option (Table CallAttemptKeys)
  columns : List IntervalColumn
  transitions : Option (Table (NoKeys (ρ := ExternalTransitionRow)))
  version : Option ℕ

/-- `_columns(conn, "external_calls_v1")` finds a table. -/
def Layout.oldTable (l : Layout) : Option (Table V1Keys) :=
  match l.calls with
  | .renamed old => some old
  | .split _ old => old
  | _ => none

def externalCallSchemaVersion : ℕ := 3

def Layout.current (l : Layout) : Bool := externalCallSchemaVersion ≤ l.version.getD 0

/-! ## Statements -/

inductive Statement
  | addAttemptId
  | renameCalls
  | addColumn (column : IntervalColumn)
  | createReservations
  | createCalls
  | createAttempts
  | createTransitions
  | copyCall (old : V1Call)
  | copyAttempt (old : V1Call)
  | linkReservations (old : V1Call)

/-- `_V1_TO_LOGICAL.get(physical, "ABANDONED")` -/
def v1ToLogical : CallAttemptState → CallState
  | .committed => .committed
  | _ => .abandoned

def terminalV1 : List CallAttemptState := [.committed, .failedFinal, .failedUnknown]

variable (ids : DerivedIds)

def copiedAttemptId (old : V1Call) : String := ids.externalCallAttempt old.callId (old.attemptOrdinal.getD 0)

def copiedCall (old : V1Call) : ExternalCallRow where
  callId := old.callId
  provider := old.provider
  opClass := old.opClass
  callKey := "<v1-unrecorded>"
  workKey := old.workKey
  state := v1ToLogical old.state
  attemptCount := 1
  committedAttemptId := if v1ToLogical old.state = .committed then some (copiedAttemptId ids old) else none
  createdAt := old.createdAt
  updatedAt := old.updatedAt

def copiedAttempt (old : V1Call) : ExternalAttemptRow where
  attemptId := copiedAttemptId ids old
  callId := old.callId
  attemptOrdinal := old.attemptOrdinal.getD 0
  state := old.state
  requestObjectRef := old.requestObjectRef
  responseObjectRef := old.responseObjectRef
  providerRequestId := old.providerRequestId
  returnedModel := old.model
  usageJson := old.usageJson
  errorClass := old.errorClass
  openedAt := old.createdAt
  dispatchedAt := if old.state = .intent ∨ old.state = .budgetReserved then none else some old.updatedAt
  settledAt := if old.state ∈ terminalV1 then some old.updatedAt else none

/-- `INSERT OR IGNORE INTO` -/
def insertOrIgnore {ρ : Type} {schema : List ρ → Prop} [DecidablePred schema] (table : Table schema)
    (row : ρ) : Table schema :=
  if h : schema (table.rows ++ [row]) then ⟨_, h⟩ else table

/-- The reservation waits for the attempt of this call. -/
def unlinked (old : V1Call) (r : ReservationRow) : Bool :=
  r.externalCallId = some old.callId ∧ r.attemptId = none

def linkedRow (attemptId : String) (r : ReservationRow) : ReservationRow := { r with attemptId := some attemptId }

/-- `UPDATE budget_reservations SET attempt_id=? WHERE ..` -/
def linkRows (attemptId : String) (p : ReservationRow → Bool) (table : Table ReservationKeys) :
    Table ReservationKeys where
  rows := Table.updated p (linkedRow attemptId) table.rows
  sound := by
    have hids : (Table.updated p (linkedRow attemptId) table.rows).map (·.reservationId) =
        table.rows.map (·.reservationId) := Table.map_updated _ fun _ _ _ => rfl
    unfold ReservationKeys
    rw [hids]
    exact table.sound

theorem callAttemptKeys_nil : CallAttemptKeys [] := by decide

/-- One statement, with the check that guards it. -/
def act : Statement → Layout → Layout
  | .addAttemptId, l => if l.reservations.isSome ∧ ¬ l.linked then { l with linked := true } else l
  | .renameCalls, l =>
    match l.calls with
    | .v1 rows => { l with calls := .renamed rows }
    | _ => l
  | .addColumn column, l =>
    if l.attempts.isSome ∧ column ∉ l.columns then { l with columns := l.columns ++ [column] } else l
  | .createReservations, l =>
    match l.reservations with
    | none => { l with reservations := some ⟨[], List.nodup_nil⟩, linked := true }
    | some _ => l
  | .createCalls, l =>
    match l.calls with
    | .absent => { l with calls := .split ⟨[], List.nodup_nil⟩ none }
    | .renamed old => { l with calls := .split ⟨[], List.nodup_nil⟩ (some old) }
    | _ => l
  | .createAttempts, l =>
    match l.attempts with
    | none => { l with attempts := some ⟨[], callAttemptKeys_nil⟩, columns := IntervalColumn.all }
    | some _ => l
  | .createTransitions, l =>
    match l.transitions with
    | none => { l with transitions := some ⟨[], trivial⟩ }
    | some _ => l
  | .copyCall old, l =>
    match l.calls with
    | .split calls v1 => { l with calls := .split (insertOrIgnore calls (copiedCall ids old)) v1 }
    | _ => l
  | .copyAttempt old, l =>
    { l with attempts := l.attempts.map fun table => insertOrIgnore table (copiedAttempt ids old) }
  | .linkReservations old, l =>
    { l with reservations := l.reservations.map (linkRows (copiedAttemptId ids old) (unlinked old)) }

/-- `_migrate_before_schema` and the schema script. -/
def schemaStatements : List Statement :=
  [.addAttemptId, .renameCalls, .addColumn .telemetryJson, .addColumn .proxyIngressAt,
    .addColumn .responseEndAt, .createReservations, .createCalls, .createAttempts, .createTransitions]

/-- The loop of `_copy_v1_external_calls`. -/
def copyStatements (rows : List V1Call) : List Statement :=
  rows.flatMap fun old => [.copyCall old, .copyAttempt old, .linkReservations old]

def migrationRow (now : ℚ) (a : ExternalAttemptRow) : ExternalTransitionRow where
  callId := a.callId
  attemptId := some a.attemptId
  fromState := none
  toState := a.state.name
  atTime := now
  reason := some "migrated_from_v1"

def attemptRows (l : Layout) : List ExternalAttemptRow := (l.attempts.map (·.rows)).getD []

def transitionRows (l : Layout) : List ExternalTransitionRow := (l.transitions.map (·.rows)).getD []

/-- `INSERT INTO external_call_transitions .. SELECT .. FROM external_call_attempts` -/
def logCopied (now : ℚ) (l : Layout) : Layout :=
  { l with transitions := some ⟨transitionRows l ++ (attemptRows l).map (migrationRow now), trivial⟩ }

def setVersion (l : Layout) : Layout := { l with version := some externalCallSchemaVersion }

/-- A statement as a script; no modelled statement raises. -/
def execute (f : Layout → Layout) : Script Layout Unit Unit := fun l => (.ok (), f l)

/-- `_migrate_after_schema` -/
def migrateAfterSchema (now : ℚ) : Script (Session Layout) (Stopped Unit) Unit := do
  let l ← readStore
  if l.current then pure ()
  else
    match l.oldTable with
    | none => tx (execute setVersion)
    | some old => do
      performTx (act ids) (copyStatements old.rows)
      tx (execute (logCopied now))
      tx (execute setVersion)

/-- `Ledger.__init__`, with the clock reading it stamps the log with. -/
def openLedger (now : ℚ) : Script (Session Layout) (Stopped Unit) Unit := do
  performTx (act ids) schemaStatements
  migrateAfterSchema ids now

/-- One opening, by a process that lives to finish so many statements. -/
structure Opening where
  now : ℚ
  life : Option ℕ

def reopen (l : Layout) (o : Opening) : Layout := ((openLedger ids o.now).after ⟨l, o.life⟩).store

/-- An opening that nothing interrupts. -/
def openOnce (now : ℚ) (l : Layout) : Layout := reopen ids l ⟨now, none⟩

end Shapeflow.Migration
