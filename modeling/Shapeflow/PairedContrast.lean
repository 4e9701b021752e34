import Mathlib.Algebra.Order.Ring.Unbundled.Rat
import Mathlib.Data.List.Dedup
import Mathlib.Data.List.Sort
import Mathlib.Data.String.Basic
import Shapeflow.Dict

set_option autoImplicit false

/-!
# Paired contrasts of two arms

Each arm's committed cells are filed by task, one cell a task, and the tasks
filed on both sides are compared. A task that ran twice has one of its cells
left, the last one listed.
-/
namespace Shapeflow.Analysis

/-! ## Cells -/

/-- A float that is read as exact, or `nan`. -/
inductive Measured where
  | nan
  | exact (q : ℚ)
  deriving DecidableEq

/-- The parts of `work_summary` a contrast reads. -/
structure WorkSummary where
  intervalUnionSeconds : Option Measured
  tokens : Option (Dict String ℤ)
  deriving DecidableEq

structure CellRecord where
  taskId : String
  armId : String
  replicateId : String
  state : String
  counts : Dict String ℤ
  work : WorkSummary
  e2eLatencySeconds : Measured
  evidenceRecall : Option ℚ
  goldRecall : Option ℚ
  correct : Option Bool
  deriving DecidableEq

namespace CellRecord
variable (r : CellRecord)

def committed : Bool := r.state = "COMMITTED"

def intervalUnionSeconds : Option Measured := r.work.intervalUnionSeconds

/-- `_token` -/
def token (name : String) : Option Measured :=
  (r.work.tokens.bind fun tokens => tokens.get? name).map fun n => .exact n

def promptTokens : Option Measured := r.token "prompt_tokens"

def completionTokens : Option Measured := r.token "completion_tokens"

def cachedPromptTokens : Option Measured := r.token "cached_prompt_tokens"

end CellRecord

/-! ## Metrics -/

structure Metric where
  name : String
  extract : CellRecord → Option Measured
  higherIsBetter : Bool

def METRICS : List Metric :=
  [⟨"accuracy", fun r => r.correct.map fun c => .exact (if c then 1 else 0), true⟩,
   ⟨"evidence_recall", fun r => r.evidenceRecall.map .exact, true⟩,
   ⟨"gold_recall", fun r => r.goldRecall.map .exact, true⟩,
   ⟨"interval_union_seconds", fun r => r.intervalUnionSeconds, false⟩,
   ⟨"prompt_tokens", fun r => r.promptTokens, false⟩,
   ⟨"completion_tokens", fun r => r.completionTokens, false⟩,
   ⟨"cached_prompt_tokens", fun r => r.cachedPromptTokens, false⟩,
   ⟨"e2e_latency_seconds", fun r => some r.e2eLatencySeconds, false⟩,
   ⟨"search_queries", fun r => (r.counts.get? "search_queries").map fun n => .exact n, true⟩]

/-- What is said of one metric, the bootstrap interval aside. -/
inductive PairedMetric where
  | notReportable
  | reportable (n : ℕ) (higherIsBetter : Bool) (baselineMean treatmentMean meanPairedDifference : ℚ)
      (relativeChange : Option ℚ) (direction : String) (wins losses ties : ℕ)
  deriving DecidableEq

def total (qs : List ℚ) : ℚ := qs.foldl (· + ·) 0

def pairedMetric (pairs : List (ℚ × ℚ)) (higherIsBetter : Bool) : PairedMetric :=
  if pairs = [] then .notReportable
  else
    let diffs := pairs.map fun p => p.2 - p.1
    let baselineMean := total (pairs.map Prod.fst) / pairs.length
    let treatmentMean := total (pairs.map Prod.snd) / pairs.length
    let meanDiff := total diffs / diffs.length
    .reportable pairs.length higherIsBetter baselineMean treatmentMean meanDiff
      (if baselineMean ≠ 0 then some (meanDiff / baselineMean) else none)
      (if meanDiff ≠ 0 then if decide (0 < meanDiff) = higherIsBetter then "better" else "worse" else "unchanged")
      (diffs.countP fun d => decide (0 < d) = higherIsBetter ∧ d ≠ 0)
      (diffs.countP fun d => decide (d < 0) = higherIsBetter ∧ d ≠ 0)
      (diffs.countP fun d => d = 0)

/-! ## The contrast -/

/-- `{r.task_id: r for r in records if r.committed}` -/
def byTask (records : List CellRecord) : Dict String CellRecord :=
  Dict.ofPairs ((records.filter (·.committed)).map fun r => (r.taskId, r))

def sharedTasks (baseline treatment : List CellRecord) : List String :=
  ((byTask baseline).keys.filter fun task => task ∈ (byTask treatment).keys).insertionSort (· ≤ ·)

/-- The cells compared, in the order of their tasks. -/
def pairs (baseline treatment : List CellRecord) : List (CellRecord × CellRecord) :=
  (sharedTasks baseline treatment).filterMap fun task =>
    ((byTask baseline).get? task).bind fun b => ((byTask treatment).get? task).map fun t => (b, t)

/-- The pairs in which a metric has a value on both sides. -/
def valuePairs (extract : CellRecord → Option Measured) (cells : List (CellRecord × CellRecord)) : List (ℚ × ℚ) :=
  cells.filterMap fun p =>
    match extract p.1, extract p.2 with
    | some (.exact b), some (.exact t) => some (b, t)
    | _, _ => none

structure PairedContrast where
  armId : String
  baselineArmId : String
  nPairs : ℕ
  metrics : List (String × PairedMetric)

def pairedContrast (baseline treatment : List CellRecord) : PairedContrast where
  armId := (treatment.head?.map (·.armId)).getD ""
  baselineArmId := (baseline.head?.map (·.armId)).getD ""
  nPairs := (sharedTasks baseline treatment).length
  metrics := METRICS.map fun m => (m.name, pairedMetric (valuePairs m.extract (pairs baseline treatment)) m.higherIsBetter)

/-! ## The cell filed for a task -/

theorem mem_keys_byTask {records : List CellRecord} {task : String} :
    task ∈ (byTask records).keys ↔ ∃ r ∈ records, r.committed ∧ r.taskId = task := by
  rw [byTask, Dict.mem_keys_ofPairs, List.map_map]
  simp only [List.mem_map, List.mem_filter, Function.comp_apply]
  exact ⟨fun ⟨r, ⟨hr, hc⟩, ht⟩ => ⟨r, hr, hc, ht⟩, fun ⟨r, hr, hc, ht⟩ => ⟨r, ⟨hr, hc⟩, ht⟩⟩

theorem get?_byTask {records : List CellRecord} {task : String} {r : CellRecord}
    (h : (byTask records).get? task = some r) : r ∈ records ∧ r.committed ∧ r.taskId = task := by
  have hmem := Dict.mem_of_get?_ofPairs h
  obtain ⟨r', hr', heq⟩ := List.mem_map.mp hmem
  obtain ⟨rfl, rfl⟩ := Prod.mk.inj heq
  exact ⟨(List.mem_filter.mp hr').1, (List.mem_filter.mp hr').2, rfl⟩

/-- The last committed cell of a task is the one filed. -/
theorem get?_byTask_append (records : List CellRecord) {r : CellRecord} (hr : r.committed) :
    (byTask (records ++ [r])).get? r.taskId = some r := by
  rw [byTask, Dict.get?_ofPairs, List.filter_append, List.map_append, List.reverse_append]
  simp [hr]

theorem mem_sharedTasks {baseline treatment : List CellRecord} {task : String} :
    task ∈ sharedTasks baseline treatment ↔ task ∈ (byTask baseline).keys ∧ task ∈ (byTask treatment).keys := by
  rw [sharedTasks, List.mem_insertionSort, List.mem_filter, decide_eq_true_eq]

theorem nodup_sharedTasks (baseline treatment : List CellRecord) : (sharedTasks baseline treatment).Nodup :=
  (List.perm_insertionSort _ _).nodup_iff.mpr ((byTask baseline).keys_nodup.filter _)

theorem mem_pairs {baseline treatment : List CellRecord} {p : CellRecord × CellRecord} :
    p ∈ pairs baseline treatment ↔ ∃ task, (byTask baseline).get? task = some p.1 ∧
      (byTask treatment).get? task = some p.2 := by
  simp only [pairs, List.mem_filterMap, Option.bind_eq_some_iff, Option.map_eq_some_iff]
  constructor
  · rintro ⟨task, -, b, hb, t, ht, rfl⟩
    exact ⟨task, hb, ht⟩
  · rintro ⟨task, hb, ht⟩
    exact ⟨task, mem_sharedTasks.mpr ⟨Dict.mem_keys_iff.mpr ⟨_, hb⟩, Dict.mem_keys_iff.mpr ⟨_, ht⟩⟩, _, hb, _, ht, rfl⟩

theorem nodup_pairs (baseline treatment : List CellRecord) : (pairs baseline treatment).Nodup := by
  refine (nodup_sharedTasks baseline treatment).filterMap fun task task' p hp hp' => ?_
  simp only [Option.mem_def, Option.bind_eq_some_iff, Option.map_eq_some_iff] at hp hp'
  obtain ⟨b, hb, t, -, rfl⟩ := hp
  obtain ⟨b', hb', t', -, heq⟩ := hp'
  obtain ⟨rfl, -⟩ := Prod.mk.inj heq
  exact (get?_byTask hb).2.2.symm.trans (get?_byTask hb').2.2

theorem mem_keys_byTask_perm {records records' : List CellRecord} (h : records'.Perm records) {task : String} :
    task ∈ (byTask records').keys ↔ task ∈ (byTask records).keys := by
  simp only [mem_keys_byTask, h.mem_iff]

/-- The shared tasks do not depend on the order of the records. -/
theorem sharedTasks_perm {baseline baseline' treatment treatment' : List CellRecord} (hb : baseline'.Perm baseline)
    (ht : treatment'.Perm treatment) : sharedTasks baseline' treatment' = sharedTasks baseline treatment := by
  have hperm : (sharedTasks baseline' treatment').Perm (sharedTasks baseline treatment) :=
    (List.perm_ext_iff_of_nodup (nodup_sharedTasks _ _) (nodup_sharedTasks _ _)).mpr fun task => by
      rw [mem_sharedTasks, mem_sharedTasks, mem_keys_byTask_perm hb, mem_keys_byTask_perm ht]
  exact List.Perm.eq_of_pairwise (fun _ _ _ _ => le_antisymm) (List.pairwise_insertionSort _ _)
    (List.pairwise_insertionSort _ _) hperm

/-! ## Like with like -/

/-- The same pairs and metric values whatever the order of the records; every pair of one task and replicate and
committed on both sides; every task and replicate committed on both sides in exactly one pair. -/
structure LikeWithLike (baseline treatment : List CellRecord) : Prop where
  invariant : ∀ baseline' treatment', baseline'.Perm baseline → treatment'.Perm treatment →
    pairs baseline' treatment' = pairs baseline treatment ∧
      (pairedContrast baseline' treatment').metrics = (pairedContrast baseline treatment).metrics
  like : ∀ p ∈ pairs baseline treatment, (p.1 ∈ baseline ∧ p.1.committed) ∧ (p.2 ∈ treatment ∧ p.2.committed) ∧
    p.1.taskId = p.2.taskId ∧ p.1.replicateId = p.2.replicateId
  once : ∀ b ∈ baseline, b.committed → ∀ t ∈ treatment, t.committed → b.taskId = t.taskId →
    b.replicateId = t.replicateId → (pairs baseline treatment).countP (fun p =>
      (p.1.taskId = b.taskId ∧ p.1.replicateId = b.replicateId) ∧
        p.2.taskId = b.taskId ∧ p.2.replicateId = b.replicateId) = 1

/-- A task committed in both arms has one committed cell in each, of one replicate. -/
def OneCellPerTask (baseline treatment : List CellRecord) : Prop :=
  ∀ b₁ ∈ baseline, b₁.committed → ∀ b₂ ∈ baseline, b₂.committed → ∀ t₁ ∈ treatment, t₁.committed →
    ∀ t₂ ∈ treatment, t₂.committed → b₁.taskId = b₂.taskId → b₁.taskId = t₁.taskId → b₁.taskId = t₂.taskId →
    b₁ = b₂ ∧ t₁ = t₂ ∧ b₁.replicateId = t₁.replicateId

theorem erase_append_perm {records : List CellRecord} {r : CellRecord} (hr : r ∈ records) :
    (records.erase r ++ [r]).Perm records :=
  (List.perm_append_singleton r _).trans (List.perm_cons_erase hr).symm

/-- Listed last, any two committed cells of one task are compared. -/
theorem mem_pairs_last {baseline treatment : List CellRecord} {b t : CellRecord} (hb : b.committed) (ht : t.committed)
    (htask : b.taskId = t.taskId) : (b, t) ∈ pairs (baseline.erase b ++ [b]) (treatment.erase t ++ [t]) :=
  mem_pairs.mpr ⟨b.taskId, get?_byTask_append _ hb, htask ▸ get?_byTask_append _ ht⟩

/-- One task has at most one pair. -/
theorem pairs_inj {baseline treatment : List CellRecord} {p p' : CellRecord × CellRecord}
    (hp : p ∈ pairs baseline treatment) (hp' : p' ∈ pairs baseline treatment) (htask : p.1.taskId = p'.1.taskId) :
    p = p' := by
  obtain ⟨task, hb, ht⟩ := mem_pairs.mp hp
  obtain ⟨task', hb', ht'⟩ := mem_pairs.mp hp'
  obtain rfl : task = task' := (get?_byTask hb).2.2.symm.trans (htask.trans (get?_byTask hb').2.2)
  exact Prod.ext (Option.some.inj (hb.symm.trans hb')) (Option.some.inj (ht.symm.trans ht'))

theorem oneCellPerTask_of_like {baseline treatment : List CellRecord} (h : LikeWithLike baseline treatment) :
    OneCellPerTask baseline treatment := by
  intro b₁ hb₁ hbc₁ b₂ hb₂ hbc₂ t₁ ht₁ htc₁ t₂ ht₂ htc₂ hb ht hbt
  have hlast : ∀ b ∈ baseline, b.committed → ∀ t ∈ treatment, t.committed → b.taskId = t.taskId →
      (b, t) ∈ pairs baseline treatment := by
    intro b hb hbc t ht htc htask
    rw [← (h.invariant _ _ (erase_append_perm hb) (erase_append_perm ht)).1]
    exact mem_pairs_last hbc htc htask
  have hfirst := hlast b₁ hb₁ hbc₁ t₁ ht₁ htc₁ ht
  have hsecond := hlast b₂ hb₂ hbc₂ t₂ ht₂ htc₂ (hb.symm.trans hbt)
  obtain ⟨hbeq, hteq⟩ := Prod.mk.inj (pairs_inj hfirst hsecond hb)
  exact ⟨hbeq, hteq, (h.like _ hfirst).2.2.2⟩

theorem pairs_perm {baseline treatment : List CellRecord} (hone : OneCellPerTask baseline treatment)
    {baseline' treatment' : List CellRecord} (hb : baseline'.Perm baseline) (ht : treatment'.Perm treatment) :
    pairs baseline' treatment' = pairs baseline treatment := by
  rw [pairs, sharedTasks_perm hb ht, pairs]
  refine List.filterMap_congr fun task htask => ?_
  obtain ⟨hkb, hkt⟩ := mem_sharedTasks.mp htask
  obtain ⟨b, hbget⟩ := Dict.mem_keys_iff.mp hkb
  obtain ⟨t, htget⟩ := Dict.mem_keys_iff.mp hkt
  obtain ⟨b', hbget'⟩ := Dict.mem_keys_iff.mp ((mem_keys_byTask_perm hb).mpr hkb)
  obtain ⟨t', htget'⟩ := Dict.mem_keys_iff.mp ((mem_keys_byTask_perm ht).mpr hkt)
  obtain ⟨hbm, hbc, hbt⟩ := get?_byTask hbget
  obtain ⟨htm, htc, htt⟩ := get?_byTask htget
  obtain ⟨hbm', hbc', hbt'⟩ := get?_byTask hbget'
  obtain ⟨htm', htc', htt'⟩ := get?_byTask htget'
  obtain ⟨rfl, rfl, -⟩ := hone b hbm hbc b' (hb.subset hbm') hbc' t htm htc t' (ht.subset htm') htc'
    (hbt.trans hbt'.symm) (hbt.trans htt.symm) (hbt.trans htt'.symm)
  rw [hbget, htget, hbget', htget']

theorem like_of_oneCellPerTask {baseline treatment : List CellRecord} (hone : OneCellPerTask baseline treatment) :
    LikeWithLike baseline treatment where
  invariant baseline' treatment' hb ht := by
    have hpairs := pairs_perm hone hb ht
    exact ⟨hpairs, by simp only [pairedContrast, hpairs]⟩
  like p hp := by
    obtain ⟨task, hb, ht⟩ := mem_pairs.mp hp
    obtain ⟨hbm, hbc, hbt⟩ := get?_byTask hb
    obtain ⟨htm, htc, htt⟩ := get?_byTask ht
    have htask : p.1.taskId = p.2.taskId := hbt.trans htt.symm
    exact ⟨⟨hbm, hbc⟩, ⟨htm, htc⟩, htask,
      (hone _ hbm hbc _ hbm hbc _ htm htc _ htm htc rfl htask htask).2.2⟩
  once b hb hbc t ht htc htask hreplicate := by
    obtain ⟨b', hbget⟩ := Dict.mem_keys_iff.mp (mem_keys_byTask.mpr ⟨b, hb, hbc, rfl⟩)
    obtain ⟨t', htget⟩ := Dict.mem_keys_iff.mp (mem_keys_byTask.mpr ⟨t, ht, htc, htask.symm⟩)
    obtain ⟨hbm, hbc', hbt⟩ := get?_byTask hbget
    obtain ⟨htm, htc', htt⟩ := get?_byTask htget
    obtain ⟨rfl, rfl, -⟩ := hone b hb hbc b' hbm hbc' t ht htc t' htm htc' hbt.symm htask htt.symm
    have hmem : (b, t) ∈ pairs baseline treatment := mem_pairs.mpr ⟨_, hbget, htget⟩
    have hcount : (pairs baseline treatment).count (b, t) = 1 :=
      List.count_eq_one_of_mem (nodup_pairs baseline treatment) hmem
    rw [← hcount, List.count]
    refine List.countP_congr fun p hp => ?_
    simp only [decide_eq_true_eq, beq_iff_eq]
    constructor
    · exact fun h => pairs_inj hp hmem h.1.1
    · rintro rfl
      exact ⟨⟨rfl, rfl⟩, htask.symm, hreplicate.symm⟩

theorem pairedContrast_like_iff (baseline treatment : List CellRecord) :
    LikeWithLike baseline treatment ↔ OneCellPerTask baseline treatment :=
  ⟨oneCellPerTask_of_like, like_of_oneCellPerTask⟩

/-- A committed cell of task `t1` that answered or not. -/
def sampleCell (armId replicateId : String) (correct : Bool) : CellRecord where
  taskId := "t1"
  armId := armId
  replicateId := replicateId
  state := "COMMITTED"
  counts := .empty
  work := ⟨none, none⟩
  e2eLatencySeconds := .exact 1
  evidenceRecall := none
  goldRecall := none
  correct := some correct

/-- A task with a second replicate in both arms. -/
theorem not_pairedContrast_like : ¬ ∀ baseline treatment : List CellRecord, LikeWithLike baseline treatment := by
  intro h
  have hone := oneCellPerTask_of_like (h [sampleCell "P0" "0" true, sampleCell "P0" "1" false]
    [sampleCell "H_ID" "0" true, sampleCell "H_ID" "1" true])
  have heq := (hone (sampleCell "P0" "0" true) (by decide) (by decide) (sampleCell "P0" "1" false) (by decide) (by decide)
    (sampleCell "H_ID" "0" true) (by decide) (by decide) (sampleCell "H_ID" "0" true) (by decide) (by decide)
    rfl rfl rfl).1
  revert heq
  decide

/-! ## Pairing loss -/

structure PairingLoss where
  nPairs : ℕ
  baselineCommitted : ℕ
  treatmentCommitted : ℕ
  tasksEitherArmCommitted : ℕ
  survival : ℚ
  reportable : Bool
  droppedFromBaseline : List String
  droppedFromTreatment : List String

/-- `{r.task_id for r in records if r.committed}` -/
def committedTasks (records : List CellRecord) : List String := ((records.filter (·.committed)).map (·.taskId)).dedup

def sortedTasks (tasks : List String) : List String := tasks.insertionSort (· ≤ ·)

def pairingLoss (baseline treatment : List CellRecord) : PairingLoss :=
  let b := committedTasks baseline
  let t := committedTasks treatment
  let shared := b.filter (· ∈ t)
  let either := (b ++ t).dedup
  let survival : ℚ := shared.length / (if either.length = 0 then 1 else either.length : ℕ)
  { nPairs := shared.length
    baselineCommitted := b.length
    treatmentCommitted := t.length
    tasksEitherArmCommitted := either.length
    survival := survival
    reportable := 95 / 100 ≤ survival
    droppedFromBaseline := (sortedTasks (b.filter (· ∉ t))).take 25
    droppedFromTreatment := (sortedTasks (t.filter (· ∉ b))).take 25 }

/-- The loss is counted against the pairs of the contrast. -/
theorem pairingLoss_nPairs (baseline treatment : List CellRecord) :
    (pairingLoss baseline treatment).nPairs = (pairedContrast baseline treatment).nPairs := by
  have hmem : ∀ (records : List CellRecord) (task : String),
      task ∈ committedTasks records ↔ task ∈ (byTask records).keys := by
    intro records task
    rw [mem_keys_byTask, committedTasks, List.mem_dedup, List.mem_map]
    simp only [List.mem_filter, and_assoc]
  have hperm : ((committedTasks baseline).filter (· ∈ committedTasks treatment)).Perm (sharedTasks baseline treatment) :=
    (List.perm_ext_iff_of_nodup ((List.nodup_dedup _).filter _) (nodup_sharedTasks _ _)).mpr fun task => by
      rw [mem_sharedTasks, List.mem_filter, decide_eq_true_eq]
      exact and_congr (hmem baseline task) (hmem treatment task)
  exact hperm.length_eq

end Shapeflow.Analysis
