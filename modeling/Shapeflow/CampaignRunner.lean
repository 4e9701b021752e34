import Shapeflow.CampaignSchedule
import Shapeflow.Coordinator
import Shapeflow.ObjectStore
import Shapeflow.Session

set_option autoImplicit false

/-!
# The campaign runner

A cell is a work item; a resumed run asks the ledger and the object store what
is left and executes it. The store of a lane is its ledger database, the table
`cell_epochs` and the object store; each write to one of them is a transaction
of its own. What the outside does while a cell runs is given with the cell.
-/
namespace Shapeflow.Campaign
open Script Database WorkLedger

structure RunnerConfig where
  runId : String
  workerId : String := "w0"
  leaseSeconds : ℚ := 1800
  maxCells : Option ℕ := none
  shardId : Option ℤ := none
  ownedBlockIds : Option (List String) := none

structure WorkSummary where
  telemetryComplete : Bool
  byOp : Bool
  overlapValid : Bool
  unavailableReason : String := ""
  overlapError : String := ""
  /-- The rest of the summary, latency and energy included. -/
  details : String := ""

/-- What the graph hands back: its error text, empty when there is none, and everything else. -/
structure GraphResult (γ : Type) where
  error : String
  pageFallbacks : ℕ
  body : γ

structure GraphException where
  errorClass : String
  message : String

/-- The outside as one execution of a cell meets it; a reading that raises is `none`. -/
structure CellWorld (β γ : Type) where
  stopRequested : Bool := false
  startEpoch : Option String
  endEpoch : Option String
  now : ℕ → ℚ
  /-- The checkpoints and continuations persisted while the graph runs. -/
  stored : List (String × β)
  graph : Except GraphException (GraphResult γ)
  workSummary : WorkSummary

structure EpochSpan where
  start : String
  stop : String
  recorded : String
  stable : Bool

structure DocumentHead where
  cell : Cell
  runId : String
  phaseId : String
  workKey : String
  executionBindingSha256 : String
  protocolDocumentSha256 : String
  claimScope : String

/-- The documents filed for a cell. -/
inductive CellDocument (γ : Type)
  | output (head : DocumentHead) (variant : String) (result : GraphResult γ) (summary : WorkSummary)
      (epochs : EpochSpan)
  | failure (head : DocumentHead) (variant error : String) (summary : WorkSummary) (epochs : EpochSpan)
  | tombstone (head : DocumentHead) (terminalState priorRef : String)

/-- `canonical` is `canonical_json` of a document, `hash` and the sizes are the object store's. -/
structure CampaignRunner (β γ : Type) where
  ledger : Ledger
  config : RunnerConfig
  executionBindingSha256 : String
  protocolDocumentSha256 : String
  claimScope : String
  layerIsSerialized : Bool
  canonical : CellDocument γ → β
  hash : β → String
  rawSize : β → ℕ
  storedSize : β → ℕ

/-- The durable state of a lane. -/
structure Lane (β : Type) where
  database : Database
  cellEpochs : Dict String String
  objects : ObjectStore β

inductive LaneRaised
  | ledger (e : Raised)
  | store (e : StoreError)
  | valueError (message : String)
  | runtimeError (message : String)
  | keyError (key : String)

/-- A process at work on a lane. -/
abbrev Steps (β α : Type) : Type := Script (Session (Lane β)) (Stopped LaneRaised) α

/-- The states `run_cells` keeps for its cells. -/
inductive CellState
  | work (state : WorkState)
  | missing
  | claimedElsewhere
deriving DecidableEq, Repr

structure CellOutcome where
  cellKey : String
  state : CellState
  outputRef : String := ""
  fellBack : Bool := false
  error : String := ""
deriving DecidableEq, Repr

def stageVersion : String := "independent_full_run_v3"

section
variable {β γ α : Type}

/-! ## Access to the lane -/

def onDatabase (body : Db α) : Script (Lane β) LaneRaised α := fun s =>
  match body s.database with
  | (.ok a, t) => (.ok a, { s with database := t })
  | (.error e, t) => (.error (.ledger e), { s with database := t })

/-- One ledger operation. -/
def onLedger (body : Db α) : Steps β α := Session.tx (onDatabase body)

def readLane : Steps β (Lane β) := do
  let s ← getStore
  pure s.store

def refuse (e : LaneRaised) : Steps β α := raise (.raised e)

/-- `store.put_bytes(canonical_json(document))` -/
def putBytes (r : CampaignRunner β γ) (raw : β) : Steps β ObjectRef := do
  Session.tx fun s => (.ok (), { s with objects := s.objects.putBytes r.hash raw })
  pure ⟨r.hash raw, r.rawSize raw, r.storedSize raw⟩

/-- `Ledger.record_engine_epoch` -/
def recordEngineEpoch (workKey epoch : String) : Script (Lane β) LaneRaised Unit := do
  let s ← getStore
  match s.cellEpochs.get? workKey with
  | some recorded =>
    if recorded ≠ epoch then
      raise (.ledger (.ledgerError
        s!"work item {workKey} already ran under engine epoch {recorded}, refusing to rewrite it as {epoch}"))
    else pure ()
  | none => setStore { s with cellEpochs := s.cellEpochs.set workKey epoch }

/-! ## Work items -/

def coordinatesOf (r : CampaignRunner β γ) (phaseId split : String) (cell : Cell) : Coordinates where
  protocolSha := r.executionBindingSha256
  split := split
  phaseId := phaseId
  taskId := cell.taskId
  armId := cell.arm.armId
  variantId := variantId cell.arm
  replicateId := cell.replicateId
  checkpointHash := cell.blockId
  stageVersion := stageVersion

def workKeyOf (r : CampaignRunner β γ) (phaseId split : String) (cell : Cell) : String :=
  r.ledger.ids.workItem (coordinatesOf r phaseId split cell)

/-- `work_key_for`: the item is ensured, and a cell dispatches model calls. -/
def workKeyFor (r : CampaignRunner β γ) (now : ℚ) (phaseId split : String) (cell : Cell) : Steps β String :=
  onLedger (ensureWorkItem r.ledger now (coordinatesOf r phaseId split cell) true)

/-- The state `cell_states` reports for a work item: a committed one whose blob does not verify
    counts as pending. -/
def reported (r : CampaignRunner β γ) (s : Lane β) (workKey : String) : Except StoreError WorkState :=
  match fetchWorkItem s.database workKey with
  | none => .ok .pending
  | some item =>
    if item.state = .committed then
      match committedRef s.database workKey with
      | none => .ok .pending
      | some ref =>
        if ref = "" then .ok .pending
        else
          match s.objects.verify r.hash ref with
          | .ok true => .ok .committed
          | .ok false => .ok .pending
          | .error e => .error e
    else .ok item.state

def assertManifestIdentity (r : CampaignRunner β γ) (manifest : ScheduleManifest) : Steps β Unit :=
  if manifest.executionBindingSha256 ≠ r.executionBindingSha256 then
    refuse (.valueError "schedule execution binding does not match this CampaignRunner")
  else if manifest.protocolSha ≠ r.protocolDocumentSha256 then
    refuse (.valueError "schedule protocol-document SHA does not match this CampaignRunner")
  else pure ()

/-- The turn of the loop of `cell_states` for one cell. -/
def cellState (r : CampaignRunner β γ) (now : ℚ) (phaseId split : String) (cell : Cell) :
    Steps β (String × CellState) := do
  let workKey ← workKeyFor r now phaseId split cell
  let s ← readLane
  match reported r s workKey with
  | .error e => refuse (.store e)
  | .ok state => pure (cellKey cell, .work state)

def cellStates (r : CampaignRunner β γ) (now : ℚ) (manifest : ScheduleManifest) (phaseId split : String) :
    Steps β (Dict String CellState) := do
  let states ← forEach (cellState r now phaseId split) manifest.cells
  pure (Dict.ofPairs states)

def owns (r : CampaignRunner β γ) (block : Block) : Bool :=
  match r.config.ownedBlockIds with
  | none => true
  | some owned => block.blockId ∈ owned

/-- The owned cells in the order in which `run_cells` comes to them. -/
def ownedCells (r : CampaignRunner β γ) (manifest : ScheduleManifest) : List Cell :=
  (manifest.blocks.filter (owns r)).flatMap inOrder

/-! ## One cell -/

def currentEngineEpoch (reading : Option String) : Steps β String :=
  match reading with
  | none => refuse (.runtimeError "no vLLM engine epoch")
  | some epoch => pure epoch

/-- What `_execution_epoch` makes of the readings before and after the run. -/
def epochSpan (start : String) (reading : Option String) : EpochSpan :=
  let stop := reading.getD "UNREADABLE"
  if stop = start then ⟨start, stop, start, true⟩ else ⟨start, stop, s!"SPANS:{start}:{stop}", false⟩

def storeArtifact (r : CampaignRunner β γ) (now : ℚ) (kind : String) (workKey : Option String) (raw : β) :
    Steps β ObjectRef := do
  let ref ← putBytes r raw
  onLedger (registerArtifact now ref.key kind ref.rawSize ref.storedSize workKey)
  pure ref

def documentHead (r : CampaignRunner β γ) (phaseId workKey : String) (cell : Cell) : DocumentHead :=
  { cell, runId := r.config.runId, phaseId, workKey
    executionBindingSha256 := r.executionBindingSha256
    protocolDocumentSha256 := r.protocolDocumentSha256
    claimScope := r.claimScope }

/-- `text[:400]` -/
def clipped (text : String) : String := String.ofList (text.toList.take 400)

/-- The bytes filed for a run that raised. -/
def failureBytes (r : CampaignRunner β γ) (w : CellWorld β γ) (phaseId workKey start : String)
    (cell : Cell) (e : GraphException) : β :=
  r.canonical (.failure (documentHead r phaseId workKey cell) (variantId cell.arm)
    s!"{e.errorClass}: {e.message}" w.workSummary (epochSpan start w.endEpoch))

/-- The `except` branch: the cell died, and may have spent tokens. -/
def recordException (r : CampaignRunner β γ) (w : CellWorld β γ) (phaseId workKey start : String)
    (cell : Cell) (attemptId : String) (e : GraphException) : Steps β CellOutcome := do
  Session.tx (recordEngineEpoch workKey (epochSpan start w.endEpoch).recorded)
  let ref ← storeArtifact r (w.now 3) "cell_failure_output" (some workKey)
    (failureBytes r w phaseId workKey start cell e)
  let _ ← onLedger (fail (w.now 4) attemptId .failedUnknown e.errorClass (clipped e.message) ref.key)
  pure ⟨cellKey cell, .work .failedUnknown, ref.key, false, e.errorClass⟩

/-- The bytes filed for a run that returned. -/
def outputBytes (r : CampaignRunner β γ) (w : CellWorld β γ) (phaseId workKey start : String)
    (cell : Cell) (result : GraphResult γ) : β :=
  r.canonical (.output (documentHead r phaseId workKey cell) (variantId cell.arm) result w.workSummary
    (epochSpan start w.endEpoch))

def telemetryInvalid (r : CampaignRunner β γ) (summary : WorkSummary) (epochs : EpochSpan) : Bool :=
  ¬ epochs.stable ∨ ¬ summary.telemetryComplete ∨ ¬ summary.byOp ∨
    (r.layerIsSerialized ∧ ¬ summary.overlapValid)

def failureText (result : GraphResult γ) (summary : WorkSummary) (epochs : EpochSpan) : String :=
  if result.error ≠ "" then result.error
  else if ¬ epochs.stable then "vLLM engine restarted while the cell was running"
  else "provider work telemetry incomplete or overlapping: " ++
    orElse summary.unavailableReason (orElse summary.overlapError "unknown")

/-- What follows a run that returned: the terminal record is written last. -/
def recordResult (r : CampaignRunner β γ) (w : CellWorld β γ) (phaseId workKey start : String)
    (cell : Cell) (attemptId : String) (result : GraphResult γ) : Steps β CellOutcome := do
  let epochs := epochSpan start w.endEpoch
  Session.tx (recordEngineEpoch workKey epochs.recorded)
  let ref ← storeArtifact r (w.now 3) "cell_output" (some workKey)
    (outputBytes r w phaseId workKey start cell result)
  onLedger (advance (w.now 4) attemptId .materialized)
  if result.error ≠ "" ∨ telemetryInvalid r w.workSummary epochs then do
    let reason := failureText result w.workSummary epochs
    let _ ← onLedger (fail (w.now 5) attemptId .failedFinal
      (if result.error ≠ "" then "graph_error" else "invalid_work_telemetry") (clipped reason) ref.key)
    pure ⟨cellKey cell, .work .failedFinal, ref.key, false, reason⟩
  else do
    onLedger (advance (w.now 5) attemptId .validated)
    onLedger (commit (w.now 6) attemptId ref.key)
    pure ⟨cellKey cell, .work .committed, ref.key, result.pageFallbacks ≠ 0, ""⟩

/-- The execution of a cell once its attempt is claimed. -/
def runClaimed (r : CampaignRunner β γ) (w : CellWorld β γ) (phaseId workKey start : String)
    (cell : Cell) (attemptId : String) : Steps β CellOutcome := do
  let _ ← forEach (fun e => storeArtifact r (w.now 2) e.1 none e.2) w.stored
  match w.graph with
  | .error e => recordException r w phaseId workKey start cell attemptId e
  | .ok result => recordResult r w phaseId workKey start cell attemptId result

def executeCell (r : CampaignRunner β γ) (w : CellWorld β γ) (phaseId split : String) (cell : Cell) :
    Steps β CellOutcome := do
  let workKey ← workKeyFor r (w.now 0) phaseId split cell
  -- Resolved before the claim: a missing boot provenance must not change the assignment.
  let start ← currentEngineEpoch w.startEpoch
  let s ← readLane
  match fetchWorkItem s.database workKey with
  | none => pure { cellKey := cellKey cell, state := .missing }
  | some item =>
    if item.state ≠ .pending then pure { cellKey := cellKey cell, state := .work item.state }
    else do
      let attempt ← onLedger (claim r.ledger (w.now 1) workKey r.config.workerId r.config.leaseSeconds
        r.config.runId)
      match attempt with
      | none => pure { cellKey := cellKey cell, state := .claimedElsewhere }
      | some attempt => runClaimed r w phaseId workKey start cell attempt.attemptId

/-! ## All cells -/

def isTerminal (state : Option CellState) : Bool :=
  match state with
  | some (.work state) => state ∈ terminalStates
  | _ => false

def limitReached (maxCells : Option ℕ) (executed : ℕ) : Bool :=
  match maxCells with
  | none => false
  | some n => n ≤ executed

/-- The two nested loops of `run_cells`, over the owned cells in their order. -/
def cellLoop (r : CampaignRunner β γ) (world : Cell → CellWorld β γ) (phaseId split : String)
    (questions : String → Option String) :
    List Cell → Dict String CellState → ℕ → List CellOutcome → Steps β (List CellOutcome)
  | [], _, _, outcomes => pure outcomes
  | cell :: rest, states, executed, outcomes =>
    if isTerminal (states.get? (cellKey cell)) then
      cellLoop r world phaseId split questions rest states executed outcomes
    else if (world cell).stopRequested then pure outcomes
    else if limitReached r.config.maxCells executed then pure outcomes
    else
      match questions cell.taskId with
      | none => refuse (.keyError cell.taskId)
      | some _ => do
        let outcome ← executeCell r (world cell) phaseId split cell
        cellLoop r world phaseId split questions rest (states.set (cellKey cell) outcome.state)
          (executed + 1) (outcomes ++ [outcome])

def runCells (r : CampaignRunner β γ) (now : ℚ) (world : Cell → CellWorld β γ)
    (manifest : ScheduleManifest) (phaseId split : String) (questions : String → Option String) :
    Steps β (List CellOutcome) := do
  assertManifestIdentity r manifest
  let states ← cellStates r now manifest phaseId split
  cellLoop r world phaseId split questions (ownedCells r manifest) states 0 []

end
end Shapeflow.Campaign
