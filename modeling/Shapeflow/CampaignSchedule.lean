import Mathlib.Data.List.Nodup
import Mathlib.Data.List.Sort

set_option autoImplicit false

/-!
# The paired-block schedule

What `build_blocks` hands to the runner. Its facts about a schedule (a coordinate
is offered once, a block names its own cells and offers at least one) are fields
of the manifest.
-/
namespace Shapeflow.Campaign

structure ArmSpec where
  armId : String
  pageVariant : String
  closeVariant : String
deriving DecidableEq, Repr

structure Cell where
  blockId : String
  taskId : String
  arm : ArmSpec
  seed : ℤ
  replicateId : String
  orderIndex : ℕ
deriving DecidableEq, Repr

structure Block where
  blockId : String
  taskId : String
  replicateId : String
  cells : List Cell
deriving DecidableEq, Repr

def cellKey (cell : Cell) : String := s!"{cell.blockId}:{cell.arm.armId}:{cell.replicateId}"

def variantId (arm : ArmSpec) : String := s!"{arm.pageVariant}+{arm.closeVariant}"

structure ScheduleManifest where
  executionBindingSha256 : String
  protocolSha : String
  split : String
  blocks : List Block
  distinctCells : ((blocks.flatMap (·.cells)).map cellKey).Nodup
  distinctBlocks : (blocks.map (·.blockId)).Nodup
  placed : ∀ block ∈ blocks, ∀ cell ∈ block.cells, cell.blockId = block.blockId
  offered : ∀ block ∈ blocks, block.cells ≠ []

def ScheduleManifest.cells (manifest : ScheduleManifest) : List Cell := manifest.blocks.flatMap (·.cells)

/-- `sorted(block.cells, key=lambda c: c.order_index)` -/
def inOrder (block : Block) : List Cell :=
  block.cells.insertionSort fun a b => a.orderIndex ≤ b.orderIndex

theorem mem_inOrder {block : Block} {cell : Cell} : cell ∈ inOrder block ↔ cell ∈ block.cells :=
  List.mem_insertionSort _

theorem inOrder_perm (block : Block) : (inOrder block).Perm block.cells :=
  List.perm_insertionSort _ _

namespace ScheduleManifest
variable {manifest : ScheduleManifest}

theorem mem_cells {cell : Cell} : cell ∈ manifest.cells ↔ ∃ block ∈ manifest.blocks, cell ∈ block.cells :=
  List.mem_flatMap

/-- Two offered cells with one cell key are one cell. -/
theorem eq_of_cellKey {c d : Cell} (hc : c ∈ manifest.cells) (hd : d ∈ manifest.cells)
    (h : cellKey c = cellKey d) : c = d :=
  List.inj_on_of_nodup_map manifest.distinctCells hc hd h

end ScheduleManifest
end Shapeflow.Campaign
