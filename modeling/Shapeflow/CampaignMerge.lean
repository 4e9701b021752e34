import Shapeflow.CampaignSharding
import Shapeflow.Fallible

set_option autoImplicit false

/-!
# What an accepted merge says about the cells

An accepted merge has seen every scheduled cell once. It has compared a cell's
own block id with the schedule, and the block id of the record around it with
the partition, but never the two with one another.
-/
namespace Shapeflow

namespace Fallible
variable {α β γ ε δ σ : Type}

/-- A fold that gathers what each element reads as. -/
theorem foldlM_gathers {f : σ → α → Except ε σ} {g : α → Except δ β} (gathered : σ → List γ)
    (items : β → List γ) (good : β → Prop)
    (h : ∀ s x t, f s x = .ok t → ∃ y, g x = .ok y ∧ gathered t = gathered s ++ items y ∧ good y)
    {xs : List α} {s t : σ} (hrun : xs.foldlM f s = .ok t) :
    ∃ ys, xs.mapM g = .ok ys ∧ gathered t = gathered s ++ ys.flatMap items ∧ ∀ y ∈ ys, good y := by
  induction xs generalizing s with
  | nil =>
    cases hrun
    exact ⟨[], rfl, by simp, by simp⟩
  | cons x xs ih =>
    rw [List.foldlM_cons] at hrun
    obtain ⟨m, hm, hrest⟩ := bind_ok.mp hrun
    obtain ⟨y, hy, hgathered, hgood⟩ := h s x m hm
    obtain ⟨ys, hys, hall, hgoods⟩ := ih hrest
    refine ⟨y :: ys, ?_, ?_, ?_⟩
    · rw [List.mapM_cons, hy, hys]
      rfl
    · rw [hall, hgathered, List.flatMap_cons, List.append_assoc]
    · intro z hz
      cases List.mem_cons.mp hz with
      | inl he => exact he ▸ hgood
      | inr hm => exact hgoods z hm

end Fallible

namespace Campaign
open Py Fallible

/-- A cell in the freeze root of a lane, inside the record of a block. -/
structure RecordedCell where
  shardId : ℤ
  record : PyStr
  cell : CellCoordinates
deriving DecidableEq, Repr

section Records
variable (text : PyText)

def recordCells (shardId : ℤ) (record : Json) : Except PyError (List RecordedCell) := do
  let blockId ← record.textField text "block_id"
  let cells ← (← record.listField "cells").mapM (cellCoordinates text)
  pure (cells.map fun cell => ⟨shardId, blockId, cell⟩)

def rootCells (root : ℤ × Members) : Except PyError (List RecordedCell) := do
  let records ← (← Json.listField (.obj root.2) "blocks").mapM (recordCells text root.1)
  pure records.flatten

/-- The union of the block records of all lanes. -/
def blockRecords (freezeRoots : Dict ℤ Members) : Except PyError (List RecordedCell) := do
  pure (← (sortedRoots freezeRoots).mapM (rootCells text)).flatten

/-- Every scheduled cell once, in the record of its block, in the shard of the lane its task was
    assigned to; and nothing else. -/
structure Placed (body : Members) (manifest : ScheduleManifest) (es : List RecordedCell) : Prop where
  once : ∀ cell ∈ manifest.cells, (es.map (·.cell)).count cell.coordinates = 1
  inRecord : ∀ cell ∈ manifest.cells, ∀ e ∈ es, e.cell = cell.coordinates → e.record = pyStr cell.blockId
  onLane : ∀ cell ∈ manifest.cells, ∀ e ∈ es, e.cell = cell.coordinates →
    ∃ tasks, taskToShard text body = .ok tasks ∧ tasks.get? (pyStr cell.taskId) = some e.shardId
  scheduled : ∀ e ∈ es, ∃ cell ∈ manifest.cells, e.cell = cell.coordinates

end Records

/-- The record belongs to a scheduled block, on the lane of its task. -/
def Owned (manifest : ScheduleManifest) (assignment : Dict PyStr ℤ) (e : RecordedCell) : Prop :=
  ∃ block ∈ manifest.blocks, pyStr block.blockId = e.record ∧
    assignment.get? (pyStr block.taskId) = some e.shardId

/-! ## What each step of the merge establishes -/

variable {text : PyText} {digests : Digests} {manifest : ScheduleManifest} {assignment : Dict PyStr ℤ}
  {shardId : ℤ} {m m' : Merging}

theorem py_ok {α : Type} {x : Except PyError α} {a : α} : py x = .ok a ↔ x = .ok a := by
  cases x <;> simp [py, Except.mapError]

theorem refuseUnless_ok {p : Prop} [Decidable p] {e : ShardMergeError} {u : Unit} :
    refuseUnless p e = .ok u ↔ p := by
  unfold refuseUnless
  split <;> simp_all

theorem mergeCell_ok {raw : Json} (h : mergeCell text shardId m raw = .ok m') :
    ∃ c, cellCoordinates text raw = .ok c ∧ m'.seenCells.keys = m.seenCells.keys ++ [c] := by
  obtain ⟨c, hc, h⟩ := bind_ok.mp h
  refine ⟨c, py_ok.mp hc, ?_⟩
  split at h
  · cases h
  · rename_i hnew
    obtain ⟨epoch, -, h⟩ := bind_ok.mp h
    cases h
    rw [Dict.keys_set, if_neg (Dict.get?_eq_none_iff.mp hnew)]

theorem mergeRecord_ok {record : Json}
    (h : mergeRecord text manifest assignment shardId m record = .ok m') :
    ∃ es, recordCells text shardId record = .ok es ∧
      m'.seenCells.keys = m.seenCells.keys ++ es.map (·.cell) ∧ ∀ e ∈ es, Owned manifest assignment e := by
  obtain ⟨blockId, hid, h⟩ := bind_ok.mp h
  split at h
  · cases h
  rename_i block hfind
  split at h
  · cases h
  obtain ⟨_, howner, h⟩ := bind_ok.mp h
  obtain ⟨raws, hraws, h⟩ := bind_ok.mp h
  obtain ⟨last, hlast, h⟩ := bind_ok.mp h
  cases h
  have hblock := List.find?_some hfind
  have hcells := foldlM_gathers (fun m : Merging => m.seenCells.keys) (fun c => [c]) (fun _ => True)
    (fun _ _ _ hstep => by
      obtain ⟨c, hc, hkeys⟩ := mergeCell_ok hstep
      exact ⟨c, hc, hkeys, trivial⟩) hlast
  obtain ⟨cs, hcs, hkeys, -⟩ := hcells
  refine ⟨cs.map fun c => ⟨shardId, blockId, c⟩, ?_, ?_, ?_⟩
  · unfold recordCells
    rw [py_ok.mp hid]
    simp only [bind, Except.bind, pure, Except.pure, py_ok.mp hraws, hcs]
  · rw [hkeys, List.flatMap_singleton', List.map_map]
    exact congrArg _ (List.map_id cs).symm
  · intro e he
    obtain ⟨c, -, rfl⟩ := List.mem_map.mp he
    exact ⟨block, List.mem_of_find?_eq_some hfind, by simpa using hblock, refuseUnless_ok.mp howner⟩

theorem mergeRoot_ok {root : ℤ × Members} (h : mergeRoot text digests manifest assignment m root = .ok m') :
    ∃ es, rootCells text root = .ok es ∧ m'.seenCells.keys = m.seenCells.keys ++ es.map (·.cell) ∧
      ∀ e ∈ es, Owned manifest assignment e := by
  obtain ⟨-, -, h⟩ := bind_ok.mp h
  obtain ⟨-, -, h⟩ := bind_ok.mp h
  obtain ⟨bound, -, h⟩ := bind_ok.mp h
  obtain ⟨-, -, h⟩ := bind_ok.mp h
  obtain ⟨records, hrecords, h⟩ := bind_ok.mp h
  obtain ⟨ess, hess, hkeys, hgood⟩ := foldlM_gathers (fun m : Merging => m.seenCells.keys)
    (List.map (·.cell)) (fun es => ∀ e ∈ es, Owned manifest assignment e)
    (fun _ _ _ hstep => mergeRecord_ok hstep) h
  refine ⟨ess.flatten, ?_, ?_, ?_⟩
  · unfold rootCells
    simp only [bind, Except.bind, pure, Except.pure, py_ok.mp hrecords, hess]
  · rw [hkeys, List.map_flatten, List.flatMap_def]
  · intro e he
    obtain ⟨es, hes, hmem⟩ := List.mem_flatten.mp he
    exact hgood es hes e hmem

/-- An accepted merge names each scheduled cell once and no other, every record on its lane. -/
theorem merge_ok {body : Members} {freezeRoots : Dict ℤ Members} {merged : Json}
    (h : mergeShardFreezeRoots text digests body manifest freezeRoots = .ok merged) :
    ∃ es tasks, blockRecords text freezeRoots = .ok es ∧ taskToShard text body = .ok tasks ∧
      (es.map (·.cell)).Nodup ∧ (∀ c, c ∈ es.map (·.cell) ↔ c ∈ manifest.cells.map Cell.coordinates) ∧
      ∀ e ∈ es, Owned manifest tasks e := by
  obtain ⟨-, -, h⟩ := bind_ok.mp h
  obtain ⟨lanes, -, h⟩ := bind_ok.mp h
  obtain ⟨-, -, h⟩ := bind_ok.mp h
  obtain ⟨tasks, htasks, h⟩ := bind_ok.mp h
  obtain ⟨last, hlast, h⟩ := bind_ok.mp h
  obtain ⟨-, -, h⟩ := bind_ok.mp h
  obtain ⟨_, hcells, -⟩ := bind_ok.mp h
  obtain ⟨ess, hess, hkeys, hgood⟩ := foldlM_gathers (fun m : Merging => m.seenCells.keys)
    (List.map (·.cell)) (fun es => ∀ e ∈ es, Owned manifest tasks e)
    (fun _ _ _ hstep => mergeRoot_ok hstep) hlast
  have hseen : last.seenCells.keys = ess.flatten.map (·.cell) := by
    rw [hkeys, List.map_flatten, List.flatMap_def]
    rfl
  refine ⟨ess.flatten, tasks, ?_, py_ok.mp htasks, ?_, ?_, ?_⟩
  · unfold blockRecords
    simp only [bind, Except.bind, pure, Except.pure, hess]
  · rw [← hseen]
    exact last.seenCells.keys_nodup
  · intro c
    rw [← hseen]
    have hsame := refuseUnless_ok.mp hcells
    exact ⟨hsame.1 c, hsame.2 c⟩
  · intro e he
    obtain ⟨es, hes, hmem⟩ := List.mem_flatten.mp he
    exact hgood es hes e hmem

theorem coordinates_blockId (cell : Cell) : cell.coordinates.blockId = pyStr cell.blockId := rfl

/-- An accepted merge has every cell in its place exactly when every recorded cell names the block
    whose record it is in. -/
theorem merge_placed_iff {manifest : TaskSchedule} {body : Members} {freezeRoots : Dict ℤ Members}
    {merged : Json}
    (h : mergeShardFreezeRoots text digests body manifest.toScheduleManifest freezeRoots = .ok merged) :
    ∃ es, blockRecords text freezeRoots = .ok es ∧
      (Placed text body manifest.toScheduleManifest es ↔ ∀ e ∈ es, e.cell.blockId = e.record) := by
  obtain ⟨es, tasks, hes, htasks, hdistinct, hcells, howned⟩ := merge_ok h
  refine ⟨es, hes, ?_⟩
  have hscheduled : ∀ e ∈ es, ∃ cell ∈ manifest.cells, e.cell = cell.coordinates := by
    intro e he
    obtain ⟨cell, hcell, heq⟩ := List.mem_map.mp ((hcells e.cell).mp (List.mem_map_of_mem he))
    exact ⟨cell, hcell, heq.symm⟩
  constructor
  · intro hplaced e he
    obtain ⟨cell, hcell, heq⟩ := hscheduled e he
    rw [hplaced.inRecord cell hcell e he heq, heq]
    rfl
  · intro hnames
    have hrecord : ∀ cell : Cell, ∀ e ∈ es, e.cell = cell.coordinates → e.record = pyStr cell.blockId := by
      intro cell e he heq
      rw [← hnames e he, heq]
      rfl
    constructor
    · intro cell hcell
      apply List.count_eq_one_of_mem hdistinct
      exact (hcells _).mpr (List.mem_map_of_mem hcell)
    · intro cell _ e he heq
      exact hrecord cell e he heq
    · intro cell hcell e he heq
      refine ⟨tasks, htasks, ?_⟩
      obtain ⟨block, hblock, hid, hlane⟩ := howned e he
      obtain ⟨own, hown, hmem⟩ := ScheduleManifest.mem_cells.mp hcell
      -- the record is that of the one block with the cell's block id
      have hids : block.blockId = own.blockId := by
        apply pyStr_injective
        rw [hid, hrecord cell e he heq, manifest.placed own hown cell hmem]
      have hblocks : block = own := List.inj_on_of_nodup_map manifest.distinctBlocks hblock hown hids
      rw [manifest.sameTask own hown cell hmem, ← hblocks]
      exact hlane
    · exact hscheduled

/-! ## Two tasks on two lanes -/

def sampleText : PyText where
  floatOf := fun _ => none
  intOf := fun s => if s = pyStr "0" then some 0 else if s = pyStr "1" then some 1 else none
  repr := fun _ => []
  repr_encodable := fun _ => List.forall_mem_nil _

def noFloats : FloatText := .empty

/-- The text itself in the place of its hash. -/
def sampleDigests : Digests where
  json := fun v => .ok ((dumps noFloats v).map fun c => codePoint c.toNat)
  schedule := fun manifest => pyStr manifest.split

def p0 : ArmSpec := ⟨"P0", "P0", "P0"⟩

def p1 : ArmSpec := ⟨"P1", "H", "P0"⟩

/-- Two tasks, each with the two arms. -/
def twoTasks : TaskSchedule where
  executionBindingSha256 := "binding"
  protocolSha := "protocol"
  split := "SCREEN"
  blocks := [⟨"B1", "t1", "0", [⟨"B1", "t1", p0, 7, "0", 0⟩, ⟨"B1", "t1", p1, 7, "0", 1⟩]⟩,
    ⟨"B2", "t2", "0", [⟨"B2", "t2", p0, 7, "0", 0⟩, ⟨"B2", "t2", p1, 7, "0", 1⟩]⟩]
  distinctCells := by decide
  distinctBlocks := by decide
  placed := by decide
  offered := by decide
  sameTask := by decide

/-- The members with the hash of the others among them. -/
def signed (field : String) (members : Members) : Members :=
  members ++ [strField field ((sampleDigests.json (.obj members)).toOption.getD [])]

def partition : Members := signed "shard_manifest_sha256" [
  strField "schedule_sha256" (pyStr "SCREEN"),
  strField "execution_binding_sha256" (pyStr "binding"),
  (pyStr "lanes", .arr [.obj [(pyStr "shard_id", .int 0)], .obj [(pyStr "shard_id", .int 1)]]),
  (pyStr "task_to_shard", .obj [(pyStr "t1", .int 0), (pyStr "t2", .int 1)]),
  (pyStr "cells_by_shard", .obj [
    (pyStr "0", .arr [.str (pyStr "B1:P0:0"), .str (pyStr "B1:P1:0")]),
    (pyStr "1", .arr [.str (pyStr "B2:P0:0"), .str (pyStr "B2:P1:0")])])]

def rawCell (blockId taskId armId epoch : String) : Json := .obj [
  strField "block_id" (pyStr blockId), strField "task_id" (pyStr taskId),
  (pyStr "arm", .obj [strField "arm_id" (pyStr armId)]),
  strField "replicate_id" (pyStr "0"), strField "engine_epoch" (pyStr epoch)]

def freezeRoot (blockId : String) (cells : List Json) : Members := signed "freeze_root_sha256" [
  strField "schedule_sha256" (pyStr "SCREEN"), strField "split" (pyStr "SCREEN"),
  (pyStr "blocks", .arr [.obj [strField "block_id" (pyStr blockId), (pyStr "cells", .arr cells)]])]

/-- Each lane ran its own task. -/
def ownRoots : Dict ℤ Members := Dict.ofPairs [
  (0, freezeRoot "B1" [rawCell "B1" "t1" "P0" "e0", rawCell "B1" "t1" "P1" "e0"]),
  (1, freezeRoot "B2" [rawCell "B2" "t2" "P0" "e1", rawCell "B2" "t2" "P1" "e1"])]

theorem merge_placed_iff_ownRoots : ∃ es, blockRecords sampleText ownRoots = .ok es ∧
    Placed sampleText partition twoTasks.toScheduleManifest es := by
  have hok : (mergeShardFreezeRoots sampleText sampleDigests partition twoTasks.toScheduleManifest
      ownRoots).toOption.isSome = true := by decide +kernel
  have hnames : ∀ e ∈ (blockRecords sampleText ownRoots).toOption.getD [], e.cell.blockId = e.record := by
    decide +kernel
  cases hmerge : mergeShardFreezeRoots sampleText sampleDigests partition twoTasks.toScheduleManifest
      ownRoots with
  | error e =>
    rw [hmerge] at hok
    cases hok
  | ok merged =>
    obtain ⟨es, hes, hiff⟩ := merge_placed_iff hmerge
    rw [hes] at hnames
    exact ⟨es, hes, hiff.mpr hnames⟩

/-- Each lane ran the other task's `P1`. -/
def swappedRoots : Dict ℤ Members := Dict.ofPairs [
  (0, freezeRoot "B1" [rawCell "B1" "t1" "P0" "e0", rawCell "B2" "t2" "P1" "e0"]),
  (1, freezeRoot "B2" [rawCell "B2" "t2" "P0" "e1", rawCell "B1" "t1" "P1" "e1"])]

theorem swapped_cells_merge :
    ¬ ∀ (text : PyText) (digests : Digests) (manifest : TaskSchedule) (body : Members)
        (freezeRoots : Dict ℤ Members) (merged : Json),
        mergeShardFreezeRoots text digests body manifest.toScheduleManifest freezeRoots = .ok merged →
        ∃ es, blockRecords text freezeRoots = .ok es ∧ Placed text body manifest.toScheduleManifest es := by
  intro h
  have hok : (mergeShardFreezeRoots sampleText sampleDigests partition twoTasks.toScheduleManifest
      swappedRoots).toOption.isSome = true := by decide +kernel
  cases hmerge : mergeShardFreezeRoots sampleText sampleDigests partition twoTasks.toScheduleManifest
      swappedRoots with
  | error e =>
    rw [hmerge] at hok
    cases hok
  | ok merged =>
    obtain ⟨es, hes, hplaced⟩ := h sampleText sampleDigests twoTasks partition swappedRoots merged hmerge
    have hcell : (⟨"B2", "t2", p1, 7, "0", 1⟩ : Cell) ∈ twoTasks.cells := by decide +kernel
    have hread : (blockRecords sampleText swappedRoots).toOption.getD [] = es := by
      rw [hes]
      rfl
    have hentry : (⟨0, pyStr "B1", ⟨pyStr "B2", pyStr "t2", pyStr "P1", pyStr "0"⟩⟩ : RecordedCell) ∈ es := by
      rw [← hread]
      decide +kernel
    have hrecord := hplaced.inRecord _ hcell _ hentry (by decide +kernel)
    revert hrecord
    decide +kernel

end Campaign
end Shapeflow
