import Mathlib.Algebra.Order.Ring.Rat
import Shapeflow.WorkLedger

set_option autoImplicit false

/-!
# Budget accounts and reservations

Worst-case amounts are reserved before a dispatch and settled after it. Each
operation is one write transaction, except that an authorized raise records its
incident in a second one.
-/
namespace Shapeflow

/-- How the interpreter spells a number and a quoted string inside a message. -/
structure Printing where
  str : ℚ → String
  repr : String → String

/-- A mapping from resources to amounts, in insertion order. -/
structure Amounts where
  entries : List (String × ℚ)
  distinct : (entries.map (·.1)).Nodup
deriving DecidableEq

/-- `.get(resource, 0.0)` -/
def Amounts.get (amounts : Amounts) (resource : String) : ℚ :=
  (amounts.entries.lookup resource).getD 0

structure ReservationGroup where
  groupId : String
  amounts : Amounts
deriving DecidableEq

/-- A resource that settled above its reservation. -/
structure UnderReserved where
  resource : String
  reserved : ℚ
  actual : ℚ
deriving DecidableEq, Repr

def UnderReserved.message (text : Printing) (u : UnderReserved) : String :=
  s!"{text.repr u.resource} settled at {text.str u.actual} against a worst-case reservation of " ++
    s!"{text.str u.reserved}: the reservation was not an upper bound"

structure CapRaise where
  resource : String
  previousCap : ℚ
  cap : ℚ
  changed : Bool
  settled : Option ℚ := none
deriving DecidableEq, Repr

structure Budget where
  ids : DerivedIds
  text : Printing

namespace Budget
open Script Database

def fetchAccount (s : Database) (resource : String) : Option BudgetAccountRow :=
  s.budgetAccounts.rows.find? fun r => r.resource = resource

def fetchReservation (s : Database) (reservationId : String) : Option ReservationRow :=
  s.budgetReservations.rows.find? fun r => r.reservationId = reservationId

def setCap (now : ℚ) (resource : String) (cap : ℚ) : Db ℕ :=
  budgetAccountsSlot.update .integrityError (fun r => r.resource = resource)
    (fun r => { r with cap, updatedAt := now })

/-- Register a cap, or tighten an existing one. -/
def ensureAccount (now : ℚ) (resource : String) (cap : ℚ) : Db Unit :=
  transaction do
    let s ← getStore
    match fetchAccount s resource with
    | none => budgetAccountsSlot.insert .integrityError ⟨resource, cap, 0, 0, now⟩
    | some row =>
      if cap < row.cap then do
        let _ ← setCap now resource cap
        pure ()
      else if row.cap < cap then
        raise (.budgetCapRaised resource row.cap cap)
      else
        pure ()

/-- The transaction of an authorized raise; the value is the row as it was. -/
def raiseCap (b : Budget) (now : ℚ) (resource : String) (cap : ℚ) : Db BudgetAccountRow := do
  let s ← getStore
  match fetchAccount s resource with
  | none => raise (.budgetCapRaised resource 0 cap)
  | some row =>
    if cap < row.cap then
      raise (.valueError (s!"{resource} cap {b.text.str cap} is below the current " ++
        s!"{b.text.str row.cap}; tightening goes through ensure_account, not through an authorized raise"))
    else if cap = row.cap then
      pure row
    else do
      let _ ← setCap now resource cap
      pure row

def authorizeCapRaise (b : Budget) (now : ℚ) (resource : String) (cap : ℚ)
    (authorization reason : String) : Db CapRaise :=
  if authorization = "" ∨ reason = "" then
    raise (.valueError "a cap raise must record its authorization and its reason")
  else do
    let row ← transaction (b.raiseCap now resource cap)
    if cap = row.cap then
      pure { resource, previousCap := row.cap, cap, changed := false }
    else do
      WorkLedger.recordIncident now "WARNING" "budget_cap_raised"
        (s!"{resource}: {b.text.str row.cap} -> {b.text.str cap}; spent={b.text.str row.settledTotal}; " ++
          s!"authorization={authorization}; reason={reason}")
      pure { resource, previousCap := row.cap, cap, changed := true, settled := some row.settledTotal }

def available (s : Database) (resource : String) : ℚ :=
  match fetchAccount s resource with
  | none => 0
  | some row => row.cap - row.reservedTotal - row.settledTotal

/-! ## Reserving -/

/-- `first or second`: an empty first string counts as absent. -/
def firstOf (first second : Option String) : Option String :=
  match first with
  | none => second
  | some x => if x = "" then second else some x

/-- The identity of the group: its attempt, else its call, else an id of its own. -/
def groupIdFor (b : Budget) (s : Database) (amounts : Amounts)
    (workKey externalCallId attemptId : Option String) : String :=
  match firstOf attemptId externalCallId with
  | some groupId => groupId
  | none =>
    b.ids.reservationGroup ((firstOf workKey (some "-")).getD "-")
      (amounts.entries.insertionSort fun x y => x.1 ≤ y.1) s.budgetReservations.rows.length

/-- One turn of the loop of `reserve_in`. -/
def reserveResource (b : Budget) (now : ℚ) (groupId : String)
    (workKey externalCallId attemptId : Option String) (entry : String × ℚ) : Db Unit :=
  if entry.2 < 0 then
    raise (.valueError s!"negative reservation for {entry.1}")
  else do
    let s ← getStore
    match fetchAccount s entry.1 with
    | none => raise (.budgetExceeded entry.1 entry.2 0)
    | some acct =>
      let avail := acct.cap - acct.reservedTotal - acct.settledTotal
      if avail < entry.2 then
        raise (.budgetExceeded entry.1 entry.2 avail)
      else do
        let _ ← budgetAccountsSlot.update .integrityError (fun r => r.resource = entry.1)
          (fun r => { r with reservedTotal := r.reservedTotal + entry.2, updatedAt := now })
        budgetReservationsSlot.insert .integrityError
          { reservationId := b.ids.reservation groupId entry.1, resource := entry.1,
            amount := entry.2, state := .reserved, settledAmount := none,
            workKey, externalCallId, attemptId, createdAt := now, updatedAt := now }

def reserveIn (b : Budget) (now : ℚ) (amounts : Amounts)
    (workKey externalCallId attemptId : Option String) : Db ReservationGroup :=
  if amounts.entries = [] then
    raise (.valueError "reserve requires at least one resource")
  else do
    let s ← getStore
    let groupId := b.groupIdFor s amounts workKey externalCallId attemptId
    let _ ← forEach (b.reserveResource now groupId workKey externalCallId attemptId) amounts.entries
    pure ⟨groupId, amounts⟩

def reserve (b : Budget) (now : ℚ) (amounts : Amounts)
    (workKey externalCallId attemptId : Option String) : Db ReservationGroup :=
  transaction (b.reserveIn now amounts workKey externalCallId attemptId)

/-! ## Resolving -/

/-- `SELECT .. WHERE attempt_id=? OR external_call_id=? OR reservation_id=?` -/
def linkedRows (s : Database) (groupId : String) : List ReservationRow :=
  s.budgetReservations.rows.filter fun r =>
    r.attemptId = some groupId ∨ r.externalCallId = some groupId ∨ r.reservationId = groupId

/-- The rows under the ids derived from the group and its resources. -/
def derivedRows (b : Budget) (s : Database) (group : ReservationGroup) : List ReservationRow :=
  group.amounts.entries.filterMap fun entry =>
    fetchReservation s (b.ids.reservation group.groupId entry.1)

def groupRows (b : Budget) (s : Database) (group : ReservationGroup) : List ReservationRow :=
  if linkedRows s group.groupId = [] then b.derivedRows s group else linkedRows s group.groupId

/-- The row once it is settled at what `actualOf` says. -/
def settledRow (now : ℚ) (actualOf : String → ℚ → ℚ) (r : ReservationRow) : ReservationRow :=
  { r with
    state := .settled, settledAmount := some (max 0 (actualOf r.resource r.amount)), updatedAt := now }

/-- One turn of the loop of `_resolve_in`; `r` is the row as it was selected. -/
def resolveRow (now : ℚ) (actualOf : String → ℚ → ℚ) (r : ReservationRow) : Db (Option UnderReserved) :=
  if r.state ≠ .reserved then
    pure none
  else do
    let actual := max 0 (actualOf r.resource r.amount)
    let _ ← budgetAccountsSlot.update .integrityError (fun a => a.resource = r.resource)
      (fun a => { a with
        reservedTotal := a.reservedTotal - r.amount, settledTotal := a.settledTotal + actual,
        updatedAt := now })
    let _ ← budgetReservationsSlot.update .integrityError (fun q => q.reservationId = r.reservationId)
      (fun q => { q with state := .settled, settledAmount := some actual, updatedAt := now })
    pure (if r.amount < actual then some ⟨r.resource, r.amount, actual⟩ else none)

def resolveIn (b : Budget) (now : ℚ) (group : ReservationGroup) (actualOf : String → ℚ → ℚ) :
    Db (List UnderReserved) := do
  let s ← getStore
  let overs ← forEach (resolveRow now actualOf) (b.groupRows s group)
  pure (overs.filterMap id)

def settleIn (b : Budget) (now : ℚ) (group : ReservationGroup) (actuals : Amounts) :
    Db (List UnderReserved) :=
  b.resolveIn now group fun resource _ => max 0 (actuals.get resource)

def keepWorstCaseIn (b : Budget) (now : ℚ) (group : ReservationGroup) : Db (List UnderReserved) :=
  b.resolveIn now group fun _ reserved => reserved

def releaseIn (b : Budget) (now : ℚ) (group : ReservationGroup) : Db (List UnderReserved) :=
  b.resolveIn now group fun _ _ => 0

def settle (b : Budget) (now : ℚ) (group : ReservationGroup) (actuals : Amounts) :
    Db (List UnderReserved) :=
  transaction (b.settleIn now group actuals)

def keepWorstCase (b : Budget) (now : ℚ) (group : ReservationGroup) : Db (List UnderReserved) :=
  transaction (b.keepWorstCaseIn now group)

def release (b : Budget) (now : ℚ) (group : ReservationGroup) : Db (List UnderReserved) :=
  transaction (b.releaseIn now group)

/-! ## Runs -/

inductive Op
  | ensureAccount (resource : String) (cap : ℚ)
  | authorizeCapRaise (resource : String) (cap : ℚ) (authorization reason : String)
  | reserve (amounts : Amounts) (workKey externalCallId attemptId : Option String)
  | settle (group : ReservationGroup) (actuals : Amounts)
  | keepWorstCase (group : ReservationGroup)
  | release (group : ReservationGroup)

structure Call where
  clock : ℚ
  op : Op

def step (b : Budget) (s : Database) (call : Call) : Database :=
  match call.op with
  | .ensureAccount resource cap => (ensureAccount call.clock resource cap).after s
  | .authorizeCapRaise resource cap auth reason =>
    (b.authorizeCapRaise call.clock resource cap auth reason).after s
  | .reserve amounts k c a => (b.reserve call.clock amounts k c a).after s
  | .settle group actuals => (b.settle call.clock group actuals).after s
  | .keepWorstCase group => (b.keepWorstCase call.clock group).after s
  | .release group => (b.release call.clock group).after s

end Budget
end Shapeflow
