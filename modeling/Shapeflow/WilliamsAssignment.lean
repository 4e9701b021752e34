import Shapeflow.CanonicalJson
import Shapeflow.Pairing
import Shapeflow.WilliamsSquare

set_option autoImplicit false

/-!
# The Williams assignment

Which row of the design each task and replicate runs. The pool of rows is complete
copies of the design and a remainder; a task with a second replicate takes a row
and its reversal from it.
-/
namespace Shapeflow.Randomization
open Py Canonical Pairing

inductive AssignmentError
  | williams (e : WilliamsError)
  | duplicateRows
  | notClosedUnderReversal
  | pairsDoNotFit
  | poolMismatch
  | lacksPairs
  | notFullReversal
  | singlePoolMismatch
  | zipLengths
  | noSuchRow
  | canonical (e : CanonicalFailure)
deriving DecidableEq

/-- The row of each task and replicate. -/
abbrev Assignments := Dict (String × ℕ) (List ℕ)

/-- What every seed is derived from first. -/
structure Coordinates where
  executionBindingSha256 : String
  split : String

/-- The rows, and for each row the number of its reversal. -/
structure Design where
  rows : List (List ℕ)
  reversal : List ℕ

def williamsDesign (armCount : ℕ) : Except AssignmentError Design :=
  match williamsSquare armCount with
  | .error e => .error (.williams e)
  | .ok rows =>
    let rowIndex : Dict (List ℕ) ℕ := .ofPairs rows.zipIdx
    let reversal := rows.map fun row => rowIndex.get? row.reverse
    if rowIndex.entries.length ≠ rows.length then .error .duplicateRows
    else if none ∈ reversal then .error .notClosedUnderReversal
    else .ok ⟨rows, reversal.reduceOption⟩

namespace Design
variable (d : Design)

def pairTypes : List (ℕ × ℕ) := sortedSet (d.reversal.zipIdx.map fun e => (min e.2 e.1, max e.2 e.1))

def row (index : ℕ) : Except AssignmentError (List ℕ) := (d.rows[index]?).elim (.error .noSuchRow) .ok

def reversalOf (index : ℕ) : Except AssignmentError ℕ := (d.reversal[index]?).elim (.error .noSuchRow) .ok

def rowPool (fullCycles : ℕ) (extraRows : List ℕ) : List ℕ :=
  (List.replicate fullCycles (List.range d.rows.length)).flatten ++ extraRows

/-- Each pair as often as both its rows are available. -/
def pairSlots (available : ℕ → ℤ) : List (ℕ × ℕ) :=
  d.pairTypes.flatMap fun pair => List.replicate (min (available pair.1) (available pair.2)).toNat pair

def remainingRows (available : ℕ → ℤ) : List ℕ :=
  (List.range d.rows.length).flatMap fun index => List.replicate (available index).toNat index

end Design

/-- Rows not yet among the extra ones, in their order of preference; what remains to be filled comes first. -/
def fill : List ℕ → ℕ → List ℕ → ℕ × List ℕ
  | [], remaining, extra => (remaining, extra)
  | index :: preferred, remaining, extra =>
    if remaining = 0 then (remaining, extra)
    else if index ∈ extra then fill preferred remaining extra
    else fill preferred (remaining - 1) (extra ++ [index])

def fallbackFill : List ℕ → ℕ → List ℕ → List ℕ
  | [], _, extra => extra
  | index :: fallback, remaining, extra =>
    if remaining = 0 then extra else fallbackFill fallback (remaining - 1) (extra ++ [index])

def safeCyclicRemainder (armCount remaining : ℕ) (extra : List ℕ) : Bool :=
  armCount % 2 = 1 ∧ extra = [] ∧ remaining ≤ armCount / 2

/-- `zip(xs, ys, strict=True)` -/
def zipStrict {α β : Type} (xs : List α) (ys : List β) : Except AssignmentError (List (α × β)) :=
  if xs.length = ys.length then .ok (xs.zip ys) else .error .zipLengths

structure Assigning where
  available : ℕ → ℤ
  assigned : Assignments

section
variable (sha256 : ByteArray → List UInt8) (c : Coordinates)

def seed (parts : List String) : ℕ := deriveSeed sha256 (c.executionBindingSha256 :: c.split :: parts)

def translatedWindow (armCount remaining : ℕ) : List ℕ :=
  let start := seed sha256 c ["williams_remainder_order"] % armCount
  let direction : ℤ := if seed sha256 c ["williams_remainder_direction"] % 2 = 0 then 1 else -1
  (List.range remaining).map fun offset : ℕ => ((start + direction * offset) % armCount).toNat

def preferredRows (d : Design) (armCount remaining : ℕ) (extra : List ℕ) : Except AssignmentError (List ℕ) :=
  if safeCyclicRemainder armCount remaining extra then
    (translatedWindow sha256 c armCount remaining).mapM fun index =>
      if seed sha256 c ["williams_remainder_family"] % 2 = 1 then d.reversalOf index else .ok index
  else
    let baseOrder := seededPermutation sha256 (List.range armCount) (seed sha256 c ["williams_remainder_order"])
    (baseOrder.mapM d.reversalOf).map (baseOrder ++ ·)

/-- The reserved pairs, then preferred rows, as many as remain beyond the complete cycles;
    and whether they are a safe window. -/
def extraRows (d : Design) (armCount neededPairs remainder : ℕ) : Except AssignmentError (List ℕ × Bool) :=
  let orderedPairTypes := seededPermutation sha256 d.pairTypes (seed sha256 c ["williams_pair_type_order"])
  let forced := members (orderedPairTypes.take neededPairs)
  let remaining := remainder - forced.length
  (preferredRows sha256 c d armCount remaining forced).map fun preferred =>
    let filled := fill preferred remaining forced
    let fallback := seededPermutation sha256 (List.range d.rows.length)
      (seed sha256 c ["williams_remainder_fallback"])
    (if filled.1 = 0 then filled.2 else fallbackFill fallback filled.1 filled.2,
      safeCyclicRemainder armCount remaining forced)

/-- The order of the keys `(derive_seed(..., label, task_id), task_id)`. -/
def rankLe (label : String) (a b : String) : Bool :=
  seed sha256 c [label, a] < seed sha256 c [label, b] ∨ seed sha256 c [label, a] = seed sha256 c [label, b] ∧ a ≤ b

def ranked (label : String) (tasks : List String) : List String :=
  tasks.insertionSort fun a b => rankLe sha256 c label a b

/-- The pair as its task runs it: the primary row and the second one. -/
def oriented (taskId : String) (pair : ℕ × ℕ) : ℕ × ℕ :=
  if seed sha256 c ["williams_pair_orientation", taskId] % 2 = 0 then pair else pair.swap

def assignPair (d : Design) (s : Assigning) (e : String × ℕ × ℕ) : Except AssignmentError Assigning := do
  let indices := oriented sha256 c e.1 e.2
  let primary ← d.row indices.1
  let second ← d.row indices.2
  if second ≠ primary.reverse then .error .notFullReversal
  else .ok {
    available := fun index => s.available index - [indices.1, indices.2].count index
    assigned := (s.assigned.set (e.1, 0) primary).set (e.1, 1) second }

def assignSingle (d : Design) (assigned : Assignments) (e : String × ℕ) : Except AssignmentError Assignments :=
  (d.row e.2).map fun row => assigned.set (e.1, 0) row

def assignRows (d : Design) (rowPool : List ℕ) (taskIds secondSeedTasks : List String) :
    Except AssignmentError Assignments :=
  let available : ℕ → ℤ := fun index => rowPool.count index
  let pairSlots := seededPermutation sha256 (d.pairSlots available) (seed sha256 c ["williams_pair_slot_order"])
  if pairSlots.length < secondSeedTasks.length then .error .lacksPairs
  else do
    let pairedTasks := ranked sha256 c "williams_paired_task_rank" secondSeedTasks
    let pairs ← zipStrict pairedTasks (pairSlots.take pairedTasks.length)
    let s ← pairs.foldlM (assignPair sha256 c d) ⟨available, .empty⟩
    let remainingRows := seededPermutation sha256 (d.remainingRows s.available)
      (seed sha256 c ["williams_single_row_order"])
    let singleTasks := ranked sha256 c "williams_single_task_rank" (taskIds.filter (· ∉ secondSeedTasks))
    if remainingRows.length ≠ singleTasks.length then .error .singlePoolMismatch
    else do
      let singles ← zipStrict singleTasks remainingRows
      singles.foldlM (assignSingle d) s.assigned

/-- `sorted(assigned.items())` with the keys written as text. -/
def assignmentDocument (assigned : Assignments) : Value :=
  let items := assigned.entries.insertionSort fun a b => a.1.1 < b.1.1 ∨ a.1.1 = b.1.1 ∧ a.1.2 ≤ b.1.2
  let texts : Dict PyStr (List ℕ) := .ofPairs (items.map fun e => (pyStr (e.1.1 ++ ":" ++ toString e.1.2), e.2))
  .dict (texts.entries.map fun e => (.str e.1, .list (e.2.map fun x : ℕ => .int x)))

def sha256Hex (raw : ByteArray) : String :=
  String.ofList ((sha256 raw).flatMap fun b => [hexDigit (b.toNat / 16), hexDigit (b.toNat % 16)])

def text (s : String) : Value := .str (pyStr s)

def notes (members : List (String × Value)) : Value := .dict (members.map fun e => (.str (pyStr e.1), e.2))

/-- `secondSeedTasks` is a set: each task of it once, in no order that matters. -/
def balancedWilliamsAssignments (floats : FloatText) (taskIds secondSeedTasks : List String) (armCount : ℕ) :
    Except AssignmentError (Assignments × Value) :=
  if armCount = 1 then
    .ok (.ofPairs (taskIds.flatMap fun taskId =>
        (if taskId ∈ secondSeedTasks then [0, 1] else [0]).map fun replicate => ((taskId, replicate), [0])),
      notes [("randomization", text "single_arm_no_ordering"), ("carryover_balance", text "VACUOUS_SINGLE_ARM"),
        ("williams_rows", .int 1)])
  else do
    let d ← williamsDesign armCount
    let totalBlocks := taskIds.length + secondSeedTasks.length
    let fullCycles := totalBlocks / d.rows.length
    let remainder := totalBlocks % d.rows.length
    let neededRemainderPairs := secondSeedTasks.length - fullCycles * d.pairTypes.length
    if remainder < 2 * neededRemainderPairs then .error .pairsDoNotFit
    else do
      let extra ← extraRows sha256 c d armCount neededRemainderPairs remainder
      let rowPool := d.rowPool fullCycles extra.1
      if rowPool.length ≠ totalBlocks then .error .poolMismatch
      else do
        let assigned ← assignRows sha256 c d rowPool taskIds secondSeedTasks
        let raw ← (canonicalJson floats (assignmentDocument assigned)).mapError .canonical
        .ok (assigned, notes [
          ("randomization_design", text "binding_ranked_balanced_williams_v2"),
          ("williams_design_rows", .int d.rows.length),
          ("williams_full_cycles", .int fullCycles),
          ("williams_remainder_rows", .int remainder),
          ("williams_remainder_policy", text (if extra.2 then "odd_translated_cyclic_window_carryover_balanced"
            else "deterministic_general_remainder_no_exact_balance_claim")),
          ("second_seed_order_policy", text "exact_full_row_reversal"),
          ("randomization_assignment_sha256", text (sha256Hex sha256 raw))])

end
end Shapeflow.Randomization
