import Mathlib.Algebra.Order.Ring.Rat
import Mathlib.Data.Finite.Prod
import Mathlib.Data.Fintype.Lattice
import Mathlib.Data.Fintype.Pi
import Mathlib.Data.List.MinMax
import Mathlib.Data.List.Sort
import Mathlib.Data.Prod.Lex
import Mathlib.Data.String.Basic
import Shapeflow.Dict
import Shapeflow.ListScheduling
import Shapeflow.SortedLists
import Shapeflow.WilliamsSquare

set_option autoImplicit false

/-!
# Tasks to lanes

The largest task goes to the lightest lane first. Tasks of equal cost are ordered by
a permutation seeded from the execution binding, so neither the mapping's own order
nor the names of the tasks decide.
-/
namespace Shapeflow.Campaign
open Randomization ListScheduling

def SHARD_ASSIGNMENT_VERSION : String := "task_atomic_lpt_by_frozen_corpus_bytes_v1"

inductive LaneError
  | needsLane
deriving DecidableEq, Repr

/-- What each lane carries, and where each task went. -/
structure Lanes where
  loads : List ℚ
  assignment : Dict String ℕ

/-- `min(range(lane_count), key=lambda index: (loads[index], index))` -/
def lightest (loads : List ℚ) : ℕ :=
  ((List.range loads.length).argmin fun index => loads.getD index 0).getD 0

section
variable (sha256 : ByteArray → List UInt8) (taskCosts : Dict String ℚ) (executionBindingSha256 : String)

def taskCost (taskId : String) : ℚ := (taskCosts.get? taskId).getD 0

def sortedTaskIds : List String := taskCosts.keys.insertionSort (· ≤ ·)

def tieOrder : List String :=
  seededPermutation sha256 (sortedTaskIds taskCosts)
    (deriveSeed sha256 [executionBindingSha256, SHARD_ASSIGNMENT_VERSION, "tie_break"])

def tieRank (taskId : String) : ℕ := (tieOrder sha256 taskCosts executionBindingSha256).idxOf taskId

/-- `key=lambda t: (-float(task_costs[t]), tie_rank[t])` -/
def LongerFirst (a b : String) : Prop :=
  taskCost taskCosts b < taskCost taskCosts a ∨ taskCost taskCosts a = taskCost taskCosts b ∧
    tieRank sha256 taskCosts executionBindingSha256 a ≤ tieRank sha256 taskCosts executionBindingSha256 b

instance (a b : String) : Decidable (LongerFirst sha256 taskCosts executionBindingSha256 a b) :=
  inferInstanceAs (Decidable (_ ∨ _))

def longestFirst : List String :=
  (sortedTaskIds taskCosts).insertionSort (LongerFirst sha256 taskCosts executionBindingSha256)

/-- `assignment[task_id] = lane; loads[lane] += float(task_costs[task_id])` -/
def Lanes.place (s : Lanes) (taskId : String) : Lanes :=
  let lane := lightest s.loads
  { loads := s.loads.set lane (s.loads.getD lane 0 + taskCost taskCosts taskId)
    assignment := s.assignment.set taskId lane }

def assignTasksToLanes (laneCount : ℤ) : Except LaneError (Dict String ℕ) :=
  if laneCount < 1 then .error .needsLane
  else if sortedTaskIds taskCosts = [] then .ok Dict.empty
  else
    let start : Lanes := ⟨List.replicate laneCount.toNat 0, Dict.empty⟩
    .ok ((longestFirst sha256 taskCosts executionBindingSha256).foldl (Lanes.place taskCosts) start).assignment

end

/-! ## One placement -/

theorem lightest_spec {loads : List ℚ} (h : loads ≠ []) :
    lightest loads < loads.length ∧ ∀ k < loads.length, loads.getD (lightest loads) 0 ≤ loads.getD k 0 := by
  rw [lightest]
  cases hmin : (List.range loads.length).argmin fun index => loads.getD index 0 with
  | none => exact absurd (List.range_eq_nil.mp (List.argmin_eq_none.mp hmin)) (by simpa using h)
  | some lane =>
    refine ⟨List.mem_range.mp (List.argmin_mem hmin), fun k hk => ?_⟩
    exact List.le_of_mem_argmin (List.mem_range.mpr hk) hmin

section
variable {taskCosts : Dict String ℚ}

/-- The lane of a task, the first one where it has none. -/
def laneOf (assignment : Dict String ℕ) (taskId : String) : ℕ := (assignment.get? taskId).getD 0

/-- The lanes after the tasks `placed` went one after the other, each to the lightest lane. -/
structure LanesPlaced (taskCosts : Dict String ℚ) (m : ℕ) (placed : List String) (s : Lanes) : Prop where
  length : s.loads.length = m
  keys : s.assignment.keys = placed
  within : ∀ t ∈ placed, laneOf s.assignment t < m
  carried : ∀ k < m, s.loads.getD k 0 = load (taskCost taskCosts) placed.toFinset (laneOf s.assignment) k
  greedy : Greedy (taskCost taskCosts) (Finset.range m) placed (laneOf s.assignment)

theorem lanesPlaced_start (m : ℕ) : LanesPlaced taskCosts m [] ⟨List.replicate m 0, Dict.empty⟩ where
  length := List.length_replicate
  keys := rfl
  within := fun t ht => absurd ht List.not_mem_nil
  carried := fun k hk => by
    rw [List.getD_eq_getElem?_getD, List.getElem?_replicate, if_pos hk]
    rfl
  greedy := fun before j after h => by simp at h

theorem LanesPlaced.place {m : ℕ} (hm : 0 < m) {placed : List String} {s : Lanes} (h : LanesPlaced taskCosts m placed s)
    {t : String} (ht : t ∉ placed) : LanesPlaced taskCosts m (placed ++ [t]) (s.place taskCosts t) := by
  have hne : s.loads ≠ [] := fun hnil => by
    have := h.length
    rw [hnil, List.length_nil] at this
    omega
  obtain ⟨hlane, hleast⟩ := lightest_spec hne
  rw [h.length] at hlane hleast
  have hself : laneOf (s.place taskCosts t).assignment t = lightest s.loads := by
    rw [laneOf, Lanes.place, Dict.get?_set_self]
    rfl
  have hold : ∀ i ∈ placed, laneOf (s.place taskCosts t).assignment i = laneOf s.assignment i := by
    intro i hi
    have hit : i ≠ t := fun heq => ht (heq ▸ hi)
    rw [laneOf, Lanes.place, Dict.get?_set_ne _ _ hit]
    rfl
  have hload : ∀ (S : List String), S ⊆ placed → ∀ k,
      load (taskCost taskCosts) S.toFinset (laneOf (s.place taskCosts t).assignment) k =
        load (taskCost taskCosts) S.toFinset (laneOf s.assignment) k :=
    fun S hS k => load_congr (fun i hi => hold i (hS (List.mem_toFinset.mp hi))) k
  constructor
  · rw [Lanes.place, List.length_set, h.length]
  · rw [Lanes.place, Dict.keys_set, h.keys, if_neg ht]
  · intro i hi
    rcases List.mem_append.mp hi with hi | hi
    · rw [hold i hi]
      exact h.within i hi
    · rw [List.mem_singleton.mp hi, hself]
      exact hlane
  · intro k hk
    have hinsert : (placed ++ [t]).toFinset = insert t placed.toFinset := by
      ext i
      simp [or_comm]
    rw [hinsert, load_insert (fun hmem => ht (List.mem_toFinset.mp hmem)), hself, hload placed (List.Subset.refl _),
      ← h.carried k hk, Lanes.place]
    simp only [List.getD_eq_getElem?_getD, List.getElem?_set]
    split
    · rename_i heq
      subst heq
      rw [if_pos (h.length ▸ hlane), Option.getD_some, add_comm]
    · rw [zero_add]
  · intro before j after hsplit k hk
    rcases List.eq_nil_or_concat after with rfl | ⟨rest, x, rfl⟩
    · obtain ⟨rfl, hlast⟩ := List.append_inj' hsplit rfl
      obtain rfl := List.singleton_inj.mp hlast
      have hk := Finset.mem_range.mp hk
      rw [hself, hload placed (List.Subset.refl _), hload placed (List.Subset.refl _), ← h.carried k hk,
        ← h.carried _ hlane]
      exact hleast k hk
    · have hsplit' : placed ++ [t] = (before ++ j :: rest) ++ [x] := by simpa using hsplit
      obtain ⟨hplaced, -⟩ := List.append_inj' hsplit' rfl
      have hsub : before ⊆ placed := fun i hi => hplaced ▸ List.mem_append_left _ hi
      have hj : j ∈ placed := hplaced ▸ List.mem_append_right _ (by simp)
      rw [hold j hj, hload before hsub, hload before hsub]
      exact h.greedy before j rest hplaced k hk

/-- The whole loop places its tasks one after the other. -/
theorem lanesPlaced_foldl {m : ℕ} (hm : 0 < m) (l : List String) (hl : l.Nodup) :
    LanesPlaced taskCosts m l (l.foldl (Lanes.place taskCosts) ⟨List.replicate m 0, Dict.empty⟩) := by
  induction l using List.reverseRecOn with
  | nil => exact lanesPlaced_start m
  | append_singleton l t ih =>
    obtain ⟨hl, -, hdisj⟩ := List.nodup_append'.mp hl
    rw [List.foldl_append]
    exact (ih hl).place hm fun ht => hdisj ht (by simp)

end

/-! ## The order of the tasks -/

section
variable (sha256 : ByteArray → List UInt8) (taskCosts : Dict String ℚ) (executionBindingSha256 : String)

/-- The sort key of a task, as a tuple in the order of tuples. -/
def lptKey (taskId : String) : Lex (ℚ × ℕ) :=
  toLex (-taskCost taskCosts taskId, tieRank sha256 taskCosts executionBindingSha256 taskId)

theorem longerFirst_iff {a b : String} : LongerFirst sha256 taskCosts executionBindingSha256 a b ↔
    lptKey sha256 taskCosts executionBindingSha256 a ≤ lptKey sha256 taskCosts executionBindingSha256 b := by
  rw [lptKey, lptKey, Prod.Lex.toLex_le_toLex, LongerFirst, neg_lt_neg_iff, neg_inj]

theorem pairwise_longestFirst :
    (longestFirst sha256 taskCosts executionBindingSha256).Pairwise fun a b =>
      taskCost taskCosts b ≤ taskCost taskCosts a := by
  letI : Std.Total (LongerFirst sha256 taskCosts executionBindingSha256) := ⟨fun a b => by
    rw [longerFirst_iff, longerFirst_iff]
    exact le_total _ _⟩
  letI : IsTrans String (LongerFirst sha256 taskCosts executionBindingSha256) := ⟨fun a b c => by
    rw [longerFirst_iff, longerFirst_iff, longerFirst_iff]
    exact le_trans⟩
  refine (List.pairwise_insertionSort _ _).imp ?_
  rintro a b (h | ⟨h, -⟩)
  · exact h.le
  · exact h.ge

theorem longestFirst_perm : (longestFirst sha256 taskCosts executionBindingSha256).Perm taskCosts.keys :=
  (List.perm_insertionSort _ _).trans (List.perm_insertionSort _ _)

theorem longestFirst_nodup : (longestFirst sha256 taskCosts executionBindingSha256).Nodup :=
  (longestFirst_perm sha256 taskCosts executionBindingSha256).nodup_iff.mpr taskCosts.keys_nodup

variable {taskCosts} in
/-- The same costs listed in another order are the same costs. -/
theorem taskCost_perm {taskCosts' : Dict String ℚ} (h : taskCosts'.entries.Perm taskCosts.entries) :
    taskCost taskCosts' = taskCost taskCosts := by
  funext t
  rw [taskCost, taskCost]
  congr 1
  refine Option.ext fun v => ?_
  rw [Dict.get?_eq_some_iff, Dict.get?_eq_some_iff, h.mem_iff]

variable {taskCosts} in
theorem sortedTaskIds_perm {taskCosts' : Dict String ℚ} (h : taskCosts'.entries.Perm taskCosts.entries) :
    sortedTaskIds taskCosts' = sortedTaskIds taskCosts :=
  SortedLists.insertionSort_eq_of_perm _ (h.map Prod.fst)

theorem assignTasksToLanes_eq {m : ℕ} (hm : 0 < m) :
    assignTasksToLanes sha256 taskCosts executionBindingSha256 m =
      .ok ((longestFirst sha256 taskCosts executionBindingSha256).foldl (Lanes.place taskCosts)
        ⟨List.replicate m 0, Dict.empty⟩).assignment := by
  rw [assignTasksToLanes, if_neg (by omega)]
  split
  · rename_i hnil
    rw [longestFirst, hnil]
    rfl
  · rfl

variable {taskCosts} in
theorem assignTasksToLanes_perm {taskCosts' : Dict String ℚ} (h : taskCosts'.entries.Perm taskCosts.entries)
    (laneCount : ℤ) : assignTasksToLanes sha256 taskCosts' executionBindingSha256 laneCount =
      assignTasksToLanes sha256 taskCosts executionBindingSha256 laneCount := by
  have hids := sortedTaskIds_perm h
  have hcost := taskCost_perm h
  have hrel : LongerFirst sha256 taskCosts' executionBindingSha256 =
      LongerFirst sha256 taskCosts executionBindingSha256 := by
    funext a b
    rw [LongerFirst, LongerFirst, tieRank, tieRank, tieRank, tieRank, tieOrder, tieOrder, hids, hcost]
  have hplace : Lanes.place taskCosts' = Lanes.place taskCosts := by
    funext s t
    rw [Lanes.place, Lanes.place, hcost]
  simp only [assignTasksToLanes, longestFirst, hids, hrel, hplace]

end

/-! ## The bound -/

/-- The largest load of `m` lanes. -/
def largestLoad (taskCosts : Dict String ℚ) (m : ℕ) (lane : String → ℕ) : ℚ :=
  ((List.range m).map fun k => load (taskCost taskCosts) taskCosts.keys.toFinset lane k).foldr max 0

section
variable {taskCosts : Dict String ℚ} {m : ℕ} {lane : String → ℕ}

theorem foldr_max_le_iff {l : List ℚ} {T : ℚ} : l.foldr max 0 ≤ T ↔ 0 ≤ T ∧ ∀ x ∈ l, x ≤ T := by
  induction l with
  | nil => simp
  | cons x l ih =>
    rw [List.foldr_cons, max_le_iff, ih, List.forall_mem_cons]
    tauto

theorem largestLoad_le_iff {T : ℚ} : largestLoad taskCosts m lane ≤ T ↔
    0 ≤ T ∧ ∀ k < m, load (taskCost taskCosts) taskCosts.keys.toFinset lane k ≤ T := by
  rw [largestLoad, foldr_max_le_iff, List.forall_mem_map]
  simp only [List.mem_range]

theorem largestLoad_congr {lane' : String → ℕ} (h : ∀ t ∈ taskCosts.keys, lane t = lane' t) :
    largestLoad taskCosts m lane = largestLoad taskCosts m lane' := by
  rw [largestLoad, largestLoad]
  congr 1
  exact List.map_congr_left fun k _ => load_congr (fun t ht => h t (List.mem_toFinset.mp ht)) k

/-- Some assignment has the smallest largest load. -/
theorem exists_least_largestLoad (taskCosts : Dict String ℚ) (hm : 0 < m) :
    ∃ opt, IsLeast {L | ∃ other : String → ℕ, (∀ t ∈ taskCosts.keys, other t < m) ∧
      L = largestLoad taskCosts m other} opt := by
  let spread (g : {t // t ∈ taskCosts.keys} → Fin m) (t : String) : ℕ :=
    if h : t ∈ taskCosts.keys then g ⟨t, h⟩ else 0
  have hspread : ∀ g, ∀ t ∈ taskCosts.keys, spread g t < m := fun g t ht => by
    rw [show spread g t = g ⟨t, ht⟩ from dif_pos ht]
    exact (g ⟨t, ht⟩).isLt
  haveI : Nonempty (Fin m) := ⟨⟨0, hm⟩⟩
  obtain ⟨g, hg⟩ := Finite.exists_min fun g => largestLoad taskCosts m (spread g)
  refine ⟨_, ⟨spread g, hspread g, rfl⟩, ?_⟩
  rintro L ⟨other, hother, rfl⟩
  refine (hg fun t => ⟨other t, hother t t.2⟩).trans_eq (largestLoad_congr fun t ht => ?_)
  exact dif_pos ht

end

/-- Every task gets one lane in range, the order of the mapping does not decide, and the largest
load is at most `4/3 - 1/(3m)` times the smallest largest load of any assignment. -/
theorem assignTasksToLanes_near_optimal (sha256 : ByteArray → List UInt8) (taskCosts : Dict String ℚ)
    (executionBindingSha256 : String) (m : ℕ) (hm : 1 ≤ m) (hcost : ∀ t c, taskCosts.get? t = some c → 0 ≤ c) :
    ∃ assignment, assignTasksToLanes sha256 taskCosts executionBindingSha256 m = .ok assignment ∧
      assignment.keys.Perm taskCosts.keys ∧
      (∀ t lane, assignment.get? t = some lane → lane < m) ∧
      (∀ taskCosts' : Dict String ℚ, taskCosts'.entries.Perm taskCosts.entries →
        assignTasksToLanes sha256 taskCosts' executionBindingSha256 m = .ok assignment) ∧
      ∃ opt, IsLeast {L | ∃ other : String → ℕ, (∀ t ∈ taskCosts.keys, other t < m) ∧
          L = largestLoad taskCosts m other} opt ∧
        largestLoad taskCosts m (laneOf assignment) ≤ (4 / 3 - 1 / (3 * m)) * opt := by
  have hperm := longestFirst_perm sha256 taskCosts executionBindingSha256
  have hnodup := longestFirst_nodup sha256 taskCosts executionBindingSha256
  have hplaced := @lanesPlaced_foldl taskCosts _ hm _ hnodup
  have heq := assignTasksToLanes_eq sha256 taskCosts executionBindingSha256 hm
  generalize (longestFirst sha256 taskCosts executionBindingSha256).foldl (Lanes.place taskCosts)
    ⟨List.replicate m 0, Dict.empty⟩ = s at hplaced heq
  obtain ⟨opt, hopt⟩ := exists_least_largestLoad taskCosts hm
  refine ⟨s.assignment, heq, hplaced.keys ▸ hperm, fun t lane ht => ?_,
    fun taskCosts' h => (assignTasksToLanes_perm sha256 executionBindingSha256 h m).trans heq, opt, hopt, ?_⟩
  · have hwithin := hplaced.within t (hplaced.keys ▸ Dict.mem_keys_iff.mpr ⟨lane, ht⟩)
    rw [laneOf, ht] at hwithin
    exact hwithin
  · obtain ⟨other, hother, rfl⟩ := hopt.1
    obtain ⟨hnonneg, hloads⟩ := largestLoad_le_iff.mp (le_refl (largestLoad taskCosts m other))
    have hp : ∀ t, 0 ≤ taskCost taskCosts t := by
      intro t
      rw [taskCost]
      cases ht : taskCosts.get? t with
      | none => exact le_refl 0
      | some c => exact hcost t c ht
    have hkeys : (longestFirst sha256 taskCosts executionBindingSha256).toFinset = taskCosts.keys.toFinset :=
      List.toFinset_eq_of_perm _ _ hperm
    have hbound : ∀ k < m, load (taskCost taskCosts) taskCosts.keys.toFinset (laneOf s.assignment) k ≤
        (4 / 3 - 1 / (3 * m)) * largestLoad taskCosts m other := by
      intro k hk
      have hlpt := lpt_load_le (L := Finset.range m) hp hnodup
        (pairwise_longestFirst sha256 taskCosts executionBindingSha256)
        (fun t ht => Finset.mem_range.mpr (hplaced.within t ht))
        (fun t ht => Finset.mem_range.mpr (hother t (hperm.mem_iff.mp ht))) hplaced.greedy
        (fun k hk => by
          rw [hkeys]
          exact hloads k (Finset.mem_range.mp hk)) (Finset.mem_range.mpr hk)
      rw [Finset.card_range, hkeys] at hlpt
      exact hlpt
    refine largestLoad_le_iff.mpr ⟨?_, hbound⟩
    exact (load_nonneg hp _ _ 0).trans (hbound 0 hm)

/-- Three tasks on two lanes. -/
def threeTasks : Dict String ℚ := Dict.ofPairs [("a", 2), ("b", 1), ("c", 1)]

theorem assignTasksToLanes_near_optimal_threeTasks :
    ∃ assignment, assignTasksToLanes (fun _ => []) threeTasks "binding" 2 = .ok assignment ∧
      assignment.keys.Perm ["a", "b", "c"] := by
  have hcost : ∀ t c, threeTasks.get? t = some c → 0 ≤ c := by
    intro t c ht
    have hmem := Dict.mem_of_get? ht
    have hall : ∀ e ∈ threeTasks.entries, 0 ≤ e.2 := by decide
    exact hall (t, c) hmem
  obtain ⟨assignment, hok, hkeys, -⟩ :=
    assignTasksToLanes_near_optimal (fun _ => []) threeTasks "binding" 2 (by decide) hcost
  exact ⟨assignment, hok, hkeys⟩

end Shapeflow.Campaign
