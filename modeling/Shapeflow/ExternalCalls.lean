import Shapeflow.Budget
import Shapeflow.Session

set_option autoImplicit false

/-!
# The external-call ledger

A logical call is bought at most once; every dispatch of it is an attempt of
its own, with its own reservation. The operations run in sessions, since each
of several transactions may be the last its process finishes.
-/
namespace Shapeflow

/-- One physical dispatch, as `begin_attempt` hands it out. -/
structure AttemptHandle where
  callId : String
  attemptId : String
  attemptOrdinal : ℕ
deriving DecidableEq, Repr

structure StoredObject where
  key : String
  rawSize : ℕ
  storedSize : ℕ
deriving DecidableEq, Repr

/-- `storeRedacted` redacts a text and puts its bytes in the object store. -/
structure ExternalCallLedger where
  budget : Budget
  storeRedacted : String → Except Raised StoredObject

namespace ExternalCalls
open Script Database Session

/-- A script of one process. -/
abbrev Proc (α : Type) : Type := Script (Session Database) (Stopped Raised) α

def callTerminal : List CallState := [.committed, .abandoned]

def attemptTerminal : List CallAttemptState := [.committed, .failedFinal, .failedUnknown]

def attemptSentStates : List CallAttemptState := [.sent, .responseStored, .validated]

/-- Legal forward transitions of one physical attempt. -/
def legalAttempt : CallAttemptState → List CallAttemptState
  | .intent => [.budgetReserved, .failedFinal]
  | .budgetReserved => [.sent, .failedFinal, .failedUnknown]
  | .sent => [.responseStored, .failedFinal, .failedUnknown]
  | .responseStored => [.validated, .failedFinal, .failedUnknown]
  | .validated => [.committed, .failedFinal, .failedUnknown]
  | _ => []

/-- A column of an attempt that a transition may write, with the value it writes. -/
inductive AttemptColumn
  | requestObjectRef (value : String)
  | responseObjectRef (value : String)
  | providerRequestId (value : String)
  | requestedModel (value : String)
  | returnedModel (value : String)
  | systemFingerprint (value : String)
  | usageJson (value : String)
  | telemetryJson (value : String)
  | errorClass (value : String)
  | proxyIngressAt (value : Option ℚ)
  | dispatchedAt (value : ℚ)
  | responseEndAt (value : Option ℚ)
  | settledAt (value : ℚ)

def AttemptColumn.write (r : ExternalAttemptRow) : AttemptColumn → ExternalAttemptRow
  | .requestObjectRef v => { r with requestObjectRef := some v }
  | .responseObjectRef v => { r with responseObjectRef := some v }
  | .providerRequestId v => { r with providerRequestId := some v }
  | .requestedModel v => { r with requestedModel := some v }
  | .returnedModel v => { r with returnedModel := some v }
  | .systemFingerprint v => { r with systemFingerprint := some v }
  | .usageJson v => { r with usageJson := some v }
  | .telemetryJson v => { r with telemetryJson := some v }
  | .errorClass v => { r with errorClass := some v }
  | .proxyIngressAt v => { r with proxyIngressAt := v }
  | .dispatchedAt v => { r with dispatchedAt := some v }
  | .responseEndAt v => { r with responseEndAt := v }
  | .settledAt v => { r with settledAt := some v }

def fetchCall (s : Database) (callId : String) : Option ExternalCallRow :=
  s.externalCalls.rows.find? fun r => r.callId = callId

def fetchCallAttempt (s : Database) (attemptId : String) : Option ExternalAttemptRow :=
  s.externalCallAttempts.rows.find? fun r => r.attemptId = attemptId

def logTransition (row : ExternalTransitionRow) : Db Unit :=
  externalCallTransitionsSlot.insert .integrityError row

/-- The attempt row once it is in `state`, with the columns of the transition written. -/
def advancedRow (state : CallAttemptState) (cols : List AttemptColumn) (r : ExternalAttemptRow) :
    ExternalAttemptRow :=
  cols.foldl AttemptColumn.write { r with state }

/-- What becomes of the call once one of its attempts is in `state`. The call that an attempt
    commits need not be open. -/
def callAfter (now : ℚ) (attemptId : String) (state : CallAttemptState) (r : ExternalCallRow) :
    ExternalCallRow :=
  if state = .committed then
    { r with state := .committed, updatedAt := now, committedAttemptId := some attemptId }
  else if state ∈ attemptTerminal then
    { r with updatedAt := now }
  else r

/-- Compare-and-swap of one attempt forward. -/
def advanceIn (now : ℚ) (attempt : AttemptHandle) (state : CallAttemptState)
    (cols : List AttemptColumn) : Db Unit := do
  let s ← getStore
  match fetchCallAttempt s attempt.attemptId with
  | none => raise (.illegalCallTransition s!"unknown external-call attempt {attempt.attemptId}")
  | some row =>
    if state ∉ legalAttempt row.state then
      raise (.illegalCallTransition
        s!"attempt {attempt.attemptId} cannot move {row.state.name} -> {state.name}")
    else do
      let rowcount ← externalCallAttemptsSlot.update .integrityError
        (fun r => r.attemptId = attempt.attemptId ∧ r.state = row.state) (advancedRow state cols)
      if rowcount ≠ 1 then
        raise (.illegalCallTransition
          s!"attempt {attempt.attemptId} was not in {row.state.name} (concurrent change?)")
      else do
        logTransition ⟨attempt.callId, some attempt.attemptId, some row.state.name, state.name, now, none⟩
        let _ ← externalCallsSlot.update .integrityError (fun r => r.callId = attempt.callId)
          (callAfter now attempt.attemptId state)
        pure ()

def openCall (l : ExternalCallLedger) (now : ℚ) (provider opClass callKey : String)
    (workKey : Option String) : Proc String := do
  let callId := l.budget.ids.externalCall provider opClass
    ((Budget.firstOf workKey (some "-")).getD "-") callKey
  tx (externalCallsSlot.insertOrIgnore
    { callId, provider, opClass, callKey, workKey, state := .opened, attemptCount := 0,
      committedAttemptId := none, createdAt := now, updatedAt := now })
  pure callId

/-- `_response_ref_in` -/
def responseRef (s : Database) (attemptId : Option String) : Option String :=
  match attemptId with
  | none => none
  | some a =>
    if a = "" then none
    else match fetchCallAttempt s a with
      | none => none
      | some r => r.responseObjectRef

/-- Attempts of a call that are not over. -/
def liveAttempts (s : Database) (callId : String) : List ExternalAttemptRow :=
  s.externalCallAttempts.rows.filter fun r => r.callId = callId ∧ r.state ∉ attemptTerminal

def beginAttemptIn (l : ExternalCallLedger) (now : ℚ) (callId : String) : Db AttemptHandle := do
  let s ← getStore
  match fetchCall s callId with
  | none => raise (.illegalCallTransition s!"unknown external call {callId}")
  | some row =>
    if row.state = .committed then
      raise (.callAlreadyCommitted callId (responseRef s row.committedAttemptId))
    else if row.state ∈ callTerminal then
      raise (.callNotReplayable callId row.state.name)
    else if liveAttempts s callId ≠ [] then
      raise (.callNotReplayable callId "attempt-in-flight")
    else do
      let ordinal := row.attemptCount
      let attemptId := l.budget.ids.externalCallAttempt callId ordinal
      externalCallAttemptsSlot.insert .integrityError
        { attemptId, callId, attemptOrdinal := ordinal, state := .intent, openedAt := now }
      logTransition ⟨callId, some attemptId, none, CallAttemptState.intent.name, now, some "attempt_opened"⟩
      let _ ← externalCallsSlot.update .integrityError (fun r => r.callId = callId)
        (fun r => { r with attemptCount := ordinal + 1, updatedAt := now })
      pure ⟨callId, attemptId, ordinal⟩

def beginAttempt (l : ExternalCallLedger) (now : ℚ) (callId : String) : Proc AttemptHandle :=
  tx (beginAttemptIn l now callId)

def closeCallIn (now : ℚ) (callId reason : String) : Db Unit := do
  let rowcount ← externalCallsSlot.update .integrityError
    (fun r => r.callId = callId ∧ r.state = .opened)
    (fun r => { r with state := .abandoned, updatedAt := now })
  if rowcount ≠ 0 then
    logTransition ⟨callId, none, some CallState.opened.name, CallState.abandoned.name, now, some reason⟩
  else
    pure ()

def closeCall (now : ℚ) (callId reason : String) : Proc Unit := tx (closeCallIn now callId reason)

/-! ## The money path -/

/-- The transaction of `reserve`: the budget moves and the attempt with it. -/
def reserveTx (l : ExternalCallLedger) (now : ℚ) (attempt : AttemptHandle) (amounts : Amounts)
    (workKey : Option String) : Db ReservationGroup := do
  let group ← l.budget.reserveIn now amounts workKey (some attempt.callId) (some attempt.attemptId)
  advanceIn now attempt .budgetReserved []
  pure group

/-- On refusal the attempt is failed in a transaction of its own, whatever state it is in. -/
def onRefusal (now : ℚ) (attempt : AttemptHandle) :
    Stopped Raised → Option (Proc ReservationGroup)
  | .raised (.budgetExceeded resource requested available) => some do
    tx (advanceIn now attempt .failedFinal [.errorClass "budget_exceeded"])
    raise (.raised (.budgetExceeded resource requested available))
  | _ => none

def reserve (l : ExternalCallLedger) (now : ℚ) (attempt : AttemptHandle) (amounts : Amounts)
    (workKey : Option String) : Proc ReservationGroup :=
  catching (tx (reserveTx l now attempt amounts workKey)) (onRefusal now attempt)

/-- `put_bytes` of the redacted text, and the artifact row for it. -/
def storeText (l : ExternalCallLedger) (now : ℚ) (attempt : AttemptHandle) (kind text : String) :
    Proc StoredObject :=
  match l.storeRedacted text with
  | .error e => raise (.raised e)
  | .ok ref => do
    tx (WorkLedger.registerArtifact now ref.key kind ref.rawSize ref.storedSize (some attempt.callId))
    pure ref

def markSent (l : ExternalCallLedger) (now : ℚ) (attempt : AttemptHandle) (requestText : String)
    (dispatchedAt proxyIngressAt : Option ℚ) : Proc Unit := do
  let ref ← storeText l now attempt "external_request" requestText
  tx (advanceIn now attempt .sent
    [.requestObjectRef ref.key, .dispatchedAt (dispatchedAt.getD now), .proxyIngressAt proxyIngressAt])

/-- What a stored response says about itself. -/
structure ResponseFields where
  providerRequestId : String := ""
  requestedModel : String := ""
  returnedModel : String := ""
  systemFingerprint : String := ""
  usageJson : String := ""
  telemetryJson : String := ""
  responseEndAt : Option ℚ := none

def storeResponse (l : ExternalCallLedger) (now : ℚ) (attempt : AttemptHandle) (responseText : String)
    (fields : ResponseFields) : Proc Unit := do
  let ref ← storeText l now attempt "external_response" responseText
  tx (advanceIn now attempt .responseStored
    [.responseObjectRef ref.key, .providerRequestId fields.providerRequestId,
      .requestedModel fields.requestedModel, .returnedModel fields.returnedModel,
      .systemFingerprint fields.systemFingerprint, .usageJson fields.usageJson,
      .telemetryJson fields.telemetryJson, .responseEndAt fields.responseEndAt])

def validate (now : ℚ) (attempt : AttemptHandle) : Proc Unit := tx (advanceIn now attempt .validated [])

/-- How the money of an attempt is resolved when it ends. -/
inductive Mode
  | settle (actuals : Amounts)
  | worstCase
  | release

/-- What a mode charges on a reservation. -/
def Mode.charge : Mode → String → ℚ → ℚ
  | .settle actuals => fun resource _ => max 0 (actuals.get resource)
  | .worstCase => fun _ reserved => reserved
  | .release => fun _ _ => 0

def resolveGroup (l : ExternalCallLedger) (now : ℚ) (group : Option ReservationGroup) (mode : Mode) :
    Db (List UnderReserved) :=
  match group with
  | none => pure []
  | some g =>
    match mode with
    | .settle actuals => l.budget.settleIn now g actuals
    | .worstCase => l.budget.keepWorstCaseIn now g
    | .release => l.budget.releaseIn now g

/-- The transaction of `_settle_and_advance`. -/
def settleTx (l : ExternalCallLedger) (now : ℚ) (attempt : AttemptHandle) (state : CallAttemptState)
    (group : Option ReservationGroup) (mode : Mode) (cols : List AttemptColumn) :
    Db (List UnderReserved) := do
  let overs ← resolveGroup l now group mode
  advanceIn now attempt state cols
  pure overs

/-- Money and the state that explains it move in one transaction; an incident follows for
    each reservation that was too small. -/
def settleAndAdvance (l : ExternalCallLedger) (now : ℚ) (attempt : AttemptHandle)
    (state : CallAttemptState) (group : Option ReservationGroup) (mode : Mode)
    (cols : List AttemptColumn) : Proc Unit := do
  let overs ← tx (settleTx l now attempt state group mode (.settledAt now :: cols))
  let _ ← forEach (fun u : UnderReserved =>
    tx (WorkLedger.recordIncident now "ERROR" "budget_under_reserved" (u.message l.budget.text)
      (some attempt.callId))) overs
  pure ()

def commit (l : ExternalCallLedger) (now : ℚ) (attempt : AttemptHandle) (group : ReservationGroup)
    (actuals : Amounts) : Proc Unit :=
  settleAndAdvance l now attempt .committed (some group) (.settle actuals) []

def failBeforeSend (l : ExternalCallLedger) (now : ℚ) (attempt : AttemptHandle)
    (group : Option ReservationGroup) (errorClass : String) : Proc Unit :=
  settleAndAdvance l now attempt .failedFinal group .release [.errorClass errorClass]

def failUnknown (l : ExternalCallLedger) (now : ℚ) (attempt : AttemptHandle)
    (group : Option ReservationGroup) (errorClass : String) : Proc Unit :=
  settleAndAdvance l now attempt .failedUnknown group .worstCase [.errorClass errorClass]

def failAfterResponse (l : ExternalCallLedger) (now : ℚ) (attempt : AttemptHandle)
    (group : Option ReservationGroup) (actuals : Amounts) (errorClass : String)
    (responseEndAt : Option ℚ) (telemetryJson : String) : Proc Unit :=
  settleAndAdvance l now attempt .failedFinal group (.settle actuals)
    (.errorClass errorClass ::
      (match responseEndAt with
        | none => []
        | some t => [.responseEndAt (some t)]) ++
      if telemetryJson = "" then [] else [.telemetryJson telemetryJson])

/-! ## Runs -/

/-- `ensureAccount` is the launch declaring a cap; the rest are the operations of the ledger. -/
inductive Op
  | ensureAccount (resource : String) (cap : ℚ)
  | openCall (provider opClass callKey : String) (workKey : Option String)
  | beginAttempt (callId : String)
  | reserve (attempt : AttemptHandle) (amounts : Amounts) (workKey : Option String)
  | markSent (attempt : AttemptHandle) (requestText : String) (dispatchedAt proxyIngressAt : Option ℚ)
  | storeResponse (attempt : AttemptHandle) (responseText : String) (fields : ResponseFields)
  | validate (attempt : AttemptHandle)
  | commit (attempt : AttemptHandle) (group : ReservationGroup) (actuals : Amounts)
  | failBeforeSend (attempt : AttemptHandle) (group : Option ReservationGroup) (errorClass : String)
  | failUnknown (attempt : AttemptHandle) (group : Option ReservationGroup) (errorClass : String)
  | failAfterResponse (attempt : AttemptHandle) (group : Option ReservationGroup) (actuals : Amounts)
      (errorClass : String) (responseEndAt : Option ℚ) (telemetryJson : String)
  | closeCall (callId reason : String)

/-- One call, with the clock reading it sees and the transactions its process lives to finish. -/
structure Call where
  clock : ℚ
  life : Option ℕ := none
  op : Op

/-- What a call runs; its caller's use of the value is not part of the ledger. -/
def perform (l : ExternalCallLedger) (clock : ℚ) : Op → Proc Unit
  | .ensureAccount resource cap => tx (Budget.ensureAccount clock resource cap)
  | .openCall provider opClass callKey workKey => do
    let _ ← openCall l clock provider opClass callKey workKey
    pure ()
  | .beginAttempt callId => do
    let _ ← beginAttempt l clock callId
    pure ()
  | .reserve attempt amounts workKey => do
    let _ ← reserve l clock attempt amounts workKey
    pure ()
  | .markSent attempt text dispatched ingress => markSent l clock attempt text dispatched ingress
  | .storeResponse attempt text fields => storeResponse l clock attempt text fields
  | .validate attempt => validate clock attempt
  | .commit attempt group actuals => commit l clock attempt group actuals
  | .failBeforeSend attempt group err => failBeforeSend l clock attempt group err
  | .failUnknown attempt group err => failUnknown l clock attempt group err
  | .failAfterResponse attempt group actuals err endAt telemetry =>
    failAfterResponse l clock attempt group actuals err endAt telemetry
  | .closeCall callId reason => closeCall clock callId reason

def step (l : ExternalCallLedger) (s : Database) (call : Call) : Database :=
  ((perform l call.clock call.op).after ⟨s, call.life⟩).store

end ExternalCalls
end Shapeflow
