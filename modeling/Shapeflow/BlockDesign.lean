import Mathlib.Data.List.Dedup
import Mathlib.Data.List.Sort
import Mathlib.Data.String.Basic
import Shapeflow.Dict
import Shapeflow.PyValue

set_option autoImplicit false

/-!
# Block assignment and its freeze gates

Chosen variants are spread over boundary states, and a design is frozen only
when it is estimable and balanced. The exposures the gates read are maps that
hold what was seen; what was never seen is not in them.
-/
namespace Shapeflow.BlockDesign
open Py (PyFloat)

/-! ## Counting -/

section Counting
variable {κ : Type} [DecidableEq κ]

/-- `counts[k] = counts.get(k, 0) + 1` -/
def countUp (counts : Dict κ ℕ) (k : κ) : Dict κ ℕ := counts.set k ((counts.get? k).getD 0 + 1)

def tally (ks : List κ) : Dict κ ℕ := ks.foldl countUp .empty

theorem getD_foldl_countUp (ks : List κ) (counts : Dict κ ℕ) (k : κ) :
    ((ks.foldl countUp counts).get? k).getD 0 = (counts.get? k).getD 0 + ks.count k := by
  induction ks generalizing counts with
  | nil => simp
  | cons j ks ih =>
    rw [List.foldl_cons, ih, countUp, Dict.get?_set, List.count_cons]
    by_cases hk : k = j
    · subst hk; simp; omega
    · simp [hk, Ne.symm hk]

theorem mem_keys_foldl_countUp (ks : List κ) (counts : Dict κ ℕ) (k : κ) :
    k ∈ (ks.foldl countUp counts).keys ↔ k ∈ counts.keys ∨ k ∈ ks := by
  induction ks generalizing counts with
  | nil => simp
  | cons j ks ih =>
    rw [List.foldl_cons, ih, countUp, Dict.keys_set, List.mem_cons]
    split
    · rename_i hj
      constructor
      · exact Or.imp_right Or.inr
      · rintro (h | rfl | h)
        exacts [.inl h, .inl hj, .inr h]
    · rw [List.mem_append, List.mem_singleton, or_assoc]

theorem get?_tally (ks : List κ) (k : κ) : (tally ks).get? k = if k ∈ ks then some (ks.count k) else none := by
  have hcount := getD_foldl_countUp ks .empty k
  have hkeys := mem_keys_foldl_countUp ks .empty k
  change ((tally ks).get? k).getD 0 = _ at hcount
  change k ∈ (tally ks).keys ↔ _ at hkeys
  split
  · rename_i hk
    obtain ⟨n, hn⟩ := Dict.mem_keys_iff.mp (hkeys.mpr (.inr hk))
    have hempty : ((Dict.empty : Dict κ ℕ).get? k).getD 0 = 0 := rfl
    rw [hn, hempty, Nat.zero_add] at hcount
    rw [hn, ← hcount]
    rfl
  · rename_i hk
    rw [Dict.get?_eq_none_iff, hkeys]
    simpa using hk

/-- `max(counts.values()) - min(counts.values())`, for a map that is not empty. -/
def spread (counts : Dict κ ℕ) : Option ℕ :=
  match counts.values.max?, counts.values.min? with
  | some most, some least => some (most - least)
  | _, _ => none

theorem spread_le {counts : Dict κ ℕ} {limit : ℕ} (h : ∀ n ∈ spread counts, n ≤ limit) {k j : κ} {n m : ℕ}
    (hk : counts.get? k = some n) (hj : counts.get? j = some m) : n ≤ m + limit := by
  have hn : n ∈ counts.values := List.mem_map.mpr ⟨(k, n), Dict.mem_of_get? hk, rfl⟩
  have hm : m ∈ counts.values := List.mem_map.mpr ⟨(j, m), Dict.mem_of_get? hj, rfl⟩
  cases hmax : counts.values.max? with
  | none => simp [List.max?_eq_none_iff.mp hmax] at hn
  | some most =>
    cases hmin : counts.values.min? with
    | none => simp [List.min?_eq_none_iff.mp hmin] at hn
    | some least =>
      have hmost : n ≤ most := (List.max?_eq_some_iff.mp hmax).2 n hn
      have hleast : least ≤ m := (List.min?_eq_some_iff.mp hmin).2 m hm
      have hspread : most - least ≤ limit := h _ (by simp [spread, hmax, hmin])
      omega

end Counting

/-! ## The assignment -/

/-- Which variants each boundary state runs, P0 excluded. -/
structure StateAssignment where
  byState : Dict String (List String)

namespace StateAssignment
variable (a : StateAssignment)

def exposure : Dict String ℕ := tally a.byState.values.flatten

end StateAssignment

/-- `sorted(set(variants))` -/
def uniq (variants : List String) : List String := variants.dedup.insertionSort (· ≤ ·)

/-- `(uniq[i], uniq[j])` for `i < j`. -/
def pairsOf : List String → List (String × String)
  | [] => []
  | v :: vs => vs.map (v, ·) ++ pairsOf vs

namespace StateAssignment
variable (a : StateAssignment)

def pairExposure : Dict (String × String) ℕ := tally (a.byState.values.flatMap fun variants => pairsOf (uniq variants))

def exposureOf (v : String) : ℕ := (a.exposure.get? v).getD 0

/-- The number of states a variant is assigned to. -/
def statesOf (v : String) : ℕ := a.byState.values.countP fun variants => v ∈ variants

def pairExposureOf (p : String × String) : ℕ := (a.pairExposure.get? p).getD 0

theorem get?_exposure (v : String) :
    a.exposure.get? v = if 0 < a.exposureOf v then some (a.exposureOf v) else none := by
  rw [exposureOf, exposure, get?_tally]
  by_cases hv : v ∈ a.byState.values.flatten
  · simp [hv]
  · simp [hv]

theorem get?_pairExposure (p : String × String) :
    a.pairExposure.get? p = if 0 < a.pairExposureOf p then some (a.pairExposureOf p) else none := by
  rw [pairExposureOf, pairExposure, get?_tally]
  by_cases hp : p ∈ a.byState.values.flatMap fun variants => pairsOf (uniq variants)
  · simp only [hp, if_true, Option.getD_some, List.count_pos_iff]
  · simp [hp]

end StateAssignment

theorem mem_uniq {variants : List String} {v : String} : v ∈ uniq variants ↔ v ∈ variants := by
  rw [uniq, List.mem_insertionSort, List.mem_dedup]

theorem pairwise_uniq (variants : List String) : (uniq variants).Pairwise (· < ·) := by
  have hsorted : (uniq variants).Pairwise (· ≤ ·) := List.pairwise_insertionSort _ _
  have hnodup : (uniq variants).Nodup := (List.perm_insertionSort _ _).nodup_iff.mpr (List.nodup_dedup _)
  exact hsorted.imp₂ (fun _ _ hle hne => lt_of_le_of_ne hle hne) hnodup

theorem mem_pairsOf {vs : List String} (h : vs.Pairwise (· < ·)) {p : String × String} :
    p ∈ pairsOf vs ↔ p.1 ∈ vs ∧ p.2 ∈ vs ∧ p.1 < p.2 := by
  induction vs with
  | nil => simp [pairsOf]
  | cons v vs ih =>
    obtain ⟨hv, hvs⟩ := List.pairwise_cons.mp h
    obtain ⟨x, y⟩ := p
    simp only [pairsOf, List.mem_append, List.mem_map, Prod.mk.injEq, ih hvs, List.mem_cons]
    constructor
    · rintro (⟨z, hz, rfl, rfl⟩ | ⟨hx, hy, hlt⟩)
      · exact ⟨.inl rfl, .inr hz, hv _ hz⟩
      · exact ⟨.inr hx, .inr hy, hlt⟩
    · rintro ⟨rfl | hx, rfl | hy, hlt⟩
      · exact absurd hlt (lt_irrefl _)
      · exact .inl ⟨y, hy, rfl, rfl⟩
      · exact absurd (hlt.trans (hv _ hx)) (lt_irrefl _)
      · exact .inr ⟨hx, hy, hlt⟩

theorem nodup_pairsOf {vs : List String} (h : vs.Pairwise (· < ·)) : (pairsOf vs).Nodup := by
  induction vs with
  | nil => simp [pairsOf]
  | cons v vs ih =>
    obtain ⟨hv, hvs⟩ := List.pairwise_cons.mp h
    have hnodup : vs.Nodup := hvs.imp fun hlt => hlt.ne
    refine List.nodup_append.mpr ⟨hnodup.map fun _ _ heq => (Prod.mk.inj heq).2, ih hvs, ?_⟩
    rintro p hp q hq rfl
    obtain ⟨w, -, rfl⟩ := List.mem_map.mp hp
    exact lt_irrefl _ (hv _ ((mem_pairsOf hvs).mp hq).1)

theorem StateAssignment.pairExposureOf_eq (a : StateAssignment) {p : String × String} (hp : p.1 < p.2) :
    a.pairExposureOf p = a.byState.values.countP fun variants => p.1 ∈ variants ∧ p.2 ∈ variants := by
  have hmem : ∀ variants : List String, p ∈ pairsOf (uniq variants) ↔ p.1 ∈ variants ∧ p.2 ∈ variants := by
    intro variants
    rw [mem_pairsOf (pairwise_uniq variants), mem_uniq, mem_uniq]
    exact ⟨fun h => ⟨h.1, h.2.1⟩, fun h => ⟨h.1, h.2, hp⟩⟩
  have htally : a.pairExposureOf p = (a.byState.values.flatMap fun variants => pairsOf (uniq variants)).count p := by
    rw [pairExposureOf, pairExposure, get?_tally]
    split
    · exact List.countP_congr fun q _ => by simp
    · rename_i h
      rw [List.count_eq_zero.mpr h]
      rfl
  rw [htally]
  induction a.byState.values with
  | nil => rfl
  | cons variants rest ih =>
    rw [List.flatMap_cons, List.count_append, ih, List.countP_cons, Nat.add_comm]
    congr 1
    by_cases hboth : p.1 ∈ variants ∧ p.2 ∈ variants
    · rw [List.count_eq_one_of_mem (nodup_pairsOf (pairwise_uniq variants)) ((hmem variants).mpr hboth)]
      simp [hboth]
    · rw [List.count_eq_zero.mpr (mt (hmem variants).mp hboth)]
      simp [hboth]

/-! ## Assigning variants -/

/-- A seeded generator: `shuffle` permutes its list. -/
structure Rng (α : Type) where
  shuffle : List α → List α
  perm : ∀ l, (shuffle l).Perm l

/-- A generator that leaves the order as it is. -/
def inOrder {α : Type} : ℤ → Rng α := fun _ => ⟨id, fun _ => .refl _⟩

inductive ValueError where
  | perStateOutOfRange
  deriving DecidableEq, Repr

/-- `[order[(cursor + k) % m] for k in range(per_state)]` -/
def chosen (order : List String) (perState cursor : ℕ) : List String :=
  (List.range perState).map fun k => order.getD ((cursor + k) % order.length) ""

structure Assigning where
  byState : Dict String (List String)
  cursor : ℕ

def Assigning.assign (order : List String) (perState : ℕ) (a : Assigning) (state : String) : Assigning where
  byState := a.byState.set state (chosen order perState a.cursor)
  cursor := (a.cursor + perState) % order.length

def assignToStates (defaultRng : ℤ → Rng String) (stateIds variantIds : List String) (perState seed : ℤ) :
    Except ValueError StateAssignment :=
  if perState < 1 ∨ variantIds.length < perState then .error .perStateOutOfRange
  else
    let order := (defaultRng seed).shuffle variantIds
    .ok ⟨(stateIds.foldl (Assigning.assign order perState.toNat) ⟨.empty, 0⟩).byState⟩

/-! ## The freeze gates -/

/-- What the gates read of the effect-coded matrix: `matrix_rank`, `shape[1]` and `cond(X.T @ X)`. -/
structure DesignMatrix where
  rank : ℕ
  columns : ℕ
  conditionNumber : PyFloat

inductive FreezeFailure where
  | rankDeficient (rank columns : ℕ)
  | illConditioned (cond : PyFloat) (maxCondition : ℚ)
  | exposureSpread (spread : ℕ) (maxExposureSpread : ℤ)
  | pairSpread (spread : ℕ) (maxPairSpread : ℤ)
  | emptyState (state : String)
  deriving DecidableEq

/-- `not isfinite(cond) or cond >= max_condition` -/
def illConditioned (cond : PyFloat) (maxCondition : ℚ) : Bool :=
  match cond with
  | .finite q => maxCondition ≤ q
  | _ => true

def spreadFailure {κ : Type} (counts : Dict κ ℕ) (limit : ℤ) (failure : ℕ → ℤ → FreezeFailure) : List FreezeFailure :=
  match spread counts with
  | some n => if limit < n then [failure n limit] else []
  | none => []

def checkFreezeGates (X : DesignMatrix) (assignment : StateAssignment) (maxCondition : ℚ)
    (maxExposureSpread maxPairSpread : ℤ) : List FreezeFailure :=
  (if X.rank < X.columns then [.rankDeficient X.rank X.columns] else []) ++
  (if illConditioned X.conditionNumber maxCondition then [.illConditioned X.conditionNumber maxCondition] else []) ++
  spreadFailure assignment.exposure maxExposureSpread .exposureSpread ++
  spreadFailure assignment.pairExposure maxPairSpread .pairSpread ++
  (assignment.byState.entries.filter fun e => e.2 = []).map fun e => .emptyState e.1

end Shapeflow.BlockDesign
