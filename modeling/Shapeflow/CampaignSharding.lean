import Shapeflow.CampaignSchedule
import Shapeflow.PyDict
import Shapeflow.PyJson

set_option autoImplicit false

/-!
# Merging the lanes of one schedule

`verify_shard_manifest` re-derives what the frozen partition claims;
`merge_shard_freeze_roots` walks the freeze root of every lane and refuses what
does not add up to the schedule.
-/
namespace Shapeflow.Campaign
open Py

/-- A schedule whose blocks each pair the arms of one task. -/
structure TaskSchedule extends ScheduleManifest where
  sameTask : ∀ block ∈ blocks, ∀ cell ∈ block.cells, cell.taskId = block.taskId

/-- The coordinates a freeze root gives a cell. -/
structure CellCoordinates where
  blockId : PyStr
  taskId : PyStr
  armId : PyStr
  replicateId : PyStr
deriving DecidableEq, Repr

def Cell.coordinates (cell : Cell) : CellCoordinates :=
  ⟨pyStr cell.blockId, pyStr cell.taskId, pyStr cell.arm.armId, pyStr cell.replicateId⟩

inductive ShardMergeError
  | unboundManifest
  | otherSchedule
  | otherBinding
  | otherTasks
  | cellTwice (key : Json)
  | otherCellAssignment
  | rootsMissing (expected got : List ℤ)
  | frozeOtherSchedule (shardId : ℤ)
  | frozeOtherSplit (shardId : ℤ)
  | rootUnverified (shardId : ℤ)
  | unscheduledBlock (shardId : ℤ) (blockId : PyStr)
  | blockTwice (blockId : PyStr) (first shardId : ℤ)
  | otherLanesBlock (shardId : ℤ) (blockId : PyStr) (owner : Option ℤ)
  | cellOnTwoLanes (key : CellCoordinates) (first shardId : ℤ)
  | blocksMissing (missing : List PyStr)
  | otherCells (missing extra : List CellCoordinates)
  | sharedEpochs (left right : ℤ) (shared : List PyStr)
  | raised (e : PyError)

/-- `sha256_hex(canonical_json(v))`, and `manifest.digest`. -/
structure Digests where
  json : Json → Except PyError PyStr
  schedule : ScheduleManifest → PyStr

variable (text : PyText) (digests : Digests)

def py {α : Type} : Except PyError α → Except ShardMergeError α := Except.mapError .raised

def refuseUnless (p : Prop) [Decidable p] (e : ShardMergeError) : Except ShardMergeError Unit :=
  if p then .ok () else .error e

/-- The recorded hash is that of everything but itself. -/
def bindsOwnContent (members : Members) (field : String) : Except PyError Bool := do
  let recorded := textOr text (members.get field)
  if recorded = [] then pure false
  else do
    let actual ← digests.json (.obj (members.filter fun e => e.1 ≠ pyStr field))
    pure (actual = recorded)

/-- `for key in keys:` of one entry of `cells_by_shard` -/
def declareCell (shardText : Json) (declared : Dict Key ℤ) (key : Json) :
    Except ShardMergeError (Dict Key ℤ) := do
  let k ← py (keyOf key)
  refuseUnless (k ∉ declared.keys) (.cellTwice key)
  pure (declared.set k (← py (toInt text shardText)))

def declareShard (declared : Dict Key ℤ) (shard : Json × Json) : Except ShardMergeError (Dict Key ℤ) := do
  (← py (toList shard.2)).foldlM (declareCell text shard.1) declared

/-- `{cell_key(cell): assignment[cell.task_id] for cell in manifest.cells}` -/
def expectedCells (assignment : PyDict) (cells : List Cell) : Except PyError (List (Key × Json)) :=
  cells.mapM fun cell =>
    match assignment.get? (.text (pyStr cell.taskId)) with
    | some e => .ok (.text (pyStr (cellKey cell)), e.2)
    | none => .error .keyError

def verifyShardManifest (body : Members) (manifest : ScheduleManifest) : Except ShardMergeError Unit := do
  refuseUnless (← py (bindsOwnContent text digests body "shard_manifest_sha256")) .unboundManifest
  refuseUnless (textOr text (body.get "schedule_sha256") = digests.schedule manifest) .otherSchedule
  refuseUnless (textOr text (body.get "execution_binding_sha256") = pyStr manifest.executionBindingSha256)
    .otherBinding
  let assignment ← py (toDict ((body.get "task_to_shard").orElse (.obj [])))
  let tasks := manifest.blocks.map fun block => Key.text (pyStr block.taskId)
  refuseUnless ((∀ k ∈ assignment.keys, k ∈ tasks) ∧ ∀ k ∈ tasks, k ∈ assignment.keys) .otherTasks
  let shards ← py (toDict ((body.get "cells_by_shard").orElse (.obj [])))
  let declared ← shards.values.foldlM (declareShard text) Dict.empty
  let expected ← py (expectedCells assignment manifest.cells)
  refuseUnless ((∀ k ∈ declared.keys, k ∈ expected.map Prod.fst) ∧
    ∀ e ∈ expected, ∃ n, declared.get? e.1 = some n ∧ equalsInt n e.2 = true) .otherCellAssignment

/-- `{str(k): int(v) for k, v in dict(body.get("task_to_shard") or {}).items()}` -/
def taskToShard (body : Members) : Except PyError (Dict PyStr ℤ) := do
  let tasks ← toDict ((body.get "task_to_shard").orElse (.obj []))
  tasks.values.foldlM (fun d e => do pure (d.set (toStr text e.1) (← toInt text e.2))) Dict.empty

/-- `v[key]` with a text for the key. -/
def subscript (v : Json) (key : String) : Except PyError Json :=
  match v with
  | .obj members => match member members (pyStr key) with
    | some x => .ok x
    | none => .error .keyError
  | _ => .error .typeError

/-- `{int(lane["shard_id"]) for lane in body["lanes"]}` -/
def laneIds (body : Members) : Except PyError (List ℤ) := do
  let ids ← (← toList (← subscript (.obj body) "lanes")).mapM fun lane => do
    toInt text (← subscript lane "shard_id")
  pure ids.dedup

def cellCoordinates (raw : Json) : Except PyError CellCoordinates := do
  let arm := (← raw.get (pyStr "arm") .null).orElse (.obj [])
  pure ⟨← raw.textField text "block_id", ← raw.textField text "task_id", ← arm.textField text "arm_id",
    ← raw.textField text "replicate_id"⟩

/-- What the walk over the freeze roots has seen. -/
structure Merging where
  seenBlocks : Dict PyStr ℤ
  seenCells : Dict CellCoordinates ℤ
  epochsByLane : Dict ℤ (List PyStr)
  mergedBlocks : List Json

def Merging.start : Merging := ⟨Dict.empty, Dict.empty, Dict.empty, []⟩

/-- `for raw in list(record.get("cells") or ())` -/
def mergeCell (shardId : ℤ) (m : Merging) (raw : Json) : Except ShardMergeError Merging := do
  let key ← py (cellCoordinates text raw)
  match m.seenCells.get? key with
  | some first => .error (.cellOnTwoLanes key first shardId)
  | none => do
    let epoch ← py (raw.textField text "engine_epoch")
    pure { m with seenCells := m.seenCells.set key shardId,
                  epochsByLane := m.epochsByLane.update shardId [] fun epochs => epochs.insert epoch }

/-- `{**record, "shard_id": shard_id}` -/
def withShard (record : Json) (shardId : ℤ) : Json :=
  match record with
  | .obj members => .obj (Dict.assigned members (pyStr "shard_id") (.int shardId))
  | v => v

/-- `for record in list(root.get("blocks") or ())` -/
def mergeRecord (manifest : ScheduleManifest) (assignment : Dict PyStr ℤ) (shardId : ℤ) (m : Merging)
    (record : Json) : Except ShardMergeError Merging := do
  let blockId ← py (record.textField text "block_id")
  match manifest.blocks.find? fun block => pyStr block.blockId = blockId with
  | none => .error (.unscheduledBlock shardId blockId)
  | some block =>
    match m.seenBlocks.get? blockId with
    | some first => .error (.blockTwice blockId first shardId)
    | none => do
      let owner := assignment.get? (pyStr block.taskId)
      refuseUnless (owner = some shardId) (.otherLanesBlock shardId blockId owner)
      let cells ← py (record.listField "cells")
      let m ← cells.foldlM (mergeCell text shardId) { m with seenBlocks := m.seenBlocks.set blockId shardId }
      pure { m with mergedBlocks := m.mergedBlocks ++ [withShard record shardId] }

/-- `for shard_id in sorted(freeze_roots)` -/
def mergeRoot (manifest : ScheduleManifest) (assignment : Dict PyStr ℤ) (m : Merging) (root : ℤ × Members) :
    Except ShardMergeError Merging := do
  refuseUnless (textOr text (root.2.get "schedule_sha256") = digests.schedule manifest)
    (.frozeOtherSchedule root.1)
  refuseUnless (textOr text (root.2.get "split") = pyStr manifest.split) (.frozeOtherSplit root.1)
  refuseUnless (← py (bindsOwnContent text digests root.2 "freeze_root_sha256")) (.rootUnverified root.1)
  let records ← py (Json.listField (.obj root.2) "blocks")
  records.foldlM (mergeRecord text manifest assignment root.1)
    { m with epochsByLane := m.epochsByLane.set root.1 [] }

/-- `sorted` of texts. -/
def sortedTexts (ss : List PyStr) : List PyStr := ss.insertionSort fun a b => keyLe a b

def sortedRoots (freezeRoots : Dict ℤ Members) : List (ℤ × Members) :=
  freezeRoots.entries.insertionSort fun a b => a.1 ≤ b.1

/-- The first pair of lanes with a common engine epoch. -/
def sharedEpoch (epochsByLane : List (ℤ × List PyStr)) : Option (ℤ × ℤ × List PyStr) :=
  (epochsByLane.flatMap fun left => epochsByLane.filterMap fun right =>
    let shared := left.2.filter (· ∈ right.2)
    if left.1 < right.1 ∧ shared ≠ [] then some (left.1, right.1, sortedTexts shared) else none).head?

def strField (key : String) (value : PyStr) : PyStr × Json := (pyStr key, .str value)

/-- `sorted(merged_blocks, key=lambda item: str(item["block_id"]))` -/
def sortedBlocks (blocks : List Json) : Except PyError (List Json) := do
  let keyed ← blocks.mapM fun item => do pure (toStr text (← subscript item "block_id"), item)
  pure ((keyed.insertionSort fun a b => keyLe a.1 b.1).map Prod.snd)

/-- Coordinates as tuples are sorted. -/
def coordinatesLe (a b : CellCoordinates) : Bool :=
  (keyLe a.blockId b.blockId && a.blockId ≠ b.blockId) || (a.blockId = b.blockId &&
  ((keyLe a.taskId b.taskId && a.taskId ≠ b.taskId) || (a.taskId = b.taskId &&
  ((keyLe a.armId b.armId && a.armId ≠ b.armId) || (a.armId = b.armId && keyLe a.replicateId b.replicateId)))))

def sortedCells (cs : List CellCoordinates) : List CellCoordinates := cs.insertionSort fun a b => coordinatesLe a b

def mergedRoot (body : Members) (manifest : ScheduleManifest) (freezeRoots : Dict ℤ Members) (m : Merging)
    (laneCount : ℕ) : Except PyError Json := do
  let shardKey := fun n : ℤ => pyStr (toString n)
  let merged : Members := [
    strField "schema_version" (pyStr "merged_campaign_root_v1"),
    strField "shard_manifest_sha256" (textOr text (body.get "shard_manifest_sha256")),
    strField "execution_binding_sha256" (pyStr manifest.executionBindingSha256),
    strField "protocol_sha256" (pyStr manifest.protocolSha),
    strField "schedule_sha256" (digests.schedule manifest),
    strField "split" (pyStr manifest.split),
    (pyStr "lane_count", .int laneCount),
    (pyStr "lane_freeze_roots", .obj ((sortedRoots freezeRoots).map fun root =>
      (shardKey root.1, .str (textOr text (root.2.get "freeze_root_sha256"))))),
    (pyStr "engine_epochs_by_lane", .obj (m.epochsByLane.entries.map fun e =>
      (shardKey e.1, .arr ((sortedTexts e.2).map .str)))),
    (pyStr "blocks", .arr (← sortedBlocks text m.mergedBlocks)),
    (pyStr "total_cells", .int m.seenCells.keys.length)]
  let digest ← digests.json (.obj merged)
  pure (.obj (merged ++ [strField "merged_root_sha256" digest]))

def mergeShardFreezeRoots (body : Members) (manifest : ScheduleManifest) (freezeRoots : Dict ℤ Members) :
    Except ShardMergeError Json := do
  verifyShardManifest text digests body manifest
  let lanes ← py (laneIds text body)
  refuseUnless ((∀ n ∈ freezeRoots.keys, n ∈ lanes) ∧ ∀ n ∈ lanes, n ∈ freezeRoots.keys)
    (.rootsMissing (lanes.insertionSort (· ≤ ·)) (freezeRoots.keys.insertionSort (· ≤ ·)))
  let assignment ← py (taskToShard text body)
  let m ← (sortedRoots freezeRoots).foldlM (mergeRoot text digests manifest assignment) .start
  let blocks := manifest.blocks.map fun block => pyStr block.blockId
  refuseUnless ((∀ b ∈ m.seenBlocks.keys, b ∈ blocks) ∧ ∀ b ∈ blocks, b ∈ m.seenBlocks.keys)
    (.blocksMissing (sortedTexts (blocks.filter (· ∉ m.seenBlocks.keys))))
  let cells := manifest.cells.map Cell.coordinates
  refuseUnless ((∀ c ∈ m.seenCells.keys, c ∈ cells) ∧ ∀ c ∈ cells, c ∈ m.seenCells.keys)
    (.otherCells (sortedCells (cells.filter (· ∉ m.seenCells.keys)))
      (sortedCells (m.seenCells.keys.filter (· ∉ cells))))
  match sharedEpoch m.epochsByLane.entries with
  | some (left, right, shared) => .error (.sharedEpochs left right shared)
  | none => py (mergedRoot text digests body manifest freezeRoots m lanes.length)

end Shapeflow.Campaign
