import Mathlib.Data.Int.CardIntervalMod
import Mathlib.Data.List.GetD
import Mathlib.Tactic.Linarith
import Shapeflow.BlockDesign

set_option autoImplicit false

/-!
# Balance of the block assignment

The round robin deals one endless repetition of the shuffled variants, so after
any number of distinct states two variants differ by at most one state. The
gates see balance only among what was dealt at all.
-/
namespace Shapeflow.BlockDesign

/-! ## The round robin -/

section RoundRobin
variable (order : List String) (perState : ℕ)

/-- The variant dealt at time `t`. -/
def dealt (t : ℕ) : String := order.getD (t % order.length) ""

theorem chosen_eq (cursor : ℕ) : chosen order perState (cursor % order.length) =
    (List.range' cursor perState).map (dealt order) := by
  rw [chosen, List.range'_eq_map_range, List.map_map]
  refine List.map_congr_left fun k _ => ?_
  simp only [dealt, Function.comp_apply, Nat.mod_add_mod]

/-- The variants dealt to the `i`-th state. -/
def round (i : ℕ) : List String := (List.range' (i * perState) perState).map (dealt order)

theorem foldl_assign (stateIds : List String) (byState : Dict String (List String)) (i : ℕ) :
    (stateIds.foldl (Assigning.assign order perState) ⟨byState, i * perState % order.length⟩).byState =
      ((stateIds.zipIdx i).map fun e => (e.1, round order perState e.2)).foldl (fun d e => d.set e.1 e.2) byState := by
  induction stateIds generalizing byState i with
  | nil => rfl
  | cons state stateIds ih =>
    rw [List.foldl_cons, Assigning.assign, Nat.mod_add_mod, ← Nat.succ_mul, ih, chosen_eq]
    rfl

theorem flatten_rounds (n : ℕ) :
    ((List.range n).map (round order perState)).flatten = (List.range (n * perState)).map (dealt order) := by
  induction n with
  | zero => simp
  | succ n ih =>
    rw [List.range_succ, List.map_append, List.flatten_append, ih, List.map_singleton, List.flatten_singleton, round,
      ← List.map_append, Nat.succ_mul, List.range_add, List.range'_eq_map_range]

variable {order perState}

theorem dealt_eq_iff (hnodup : order.Nodup) {j : ℕ} (hj : j < order.length) (t : ℕ) :
    dealt order t = order[j] ↔ t % order.length = j := by
  have hmod : t % order.length < order.length := Nat.mod_lt _ (by omega)
  rw [dealt, List.getD_eq_getElem _ _ hmod, hnodup.getElem_inj_iff]

theorem nodup_round (hnodup : order.Nodup) (hle : perState ≤ order.length) (i : ℕ) :
    (round order perState i).Nodup := by
  refine (List.nodup_range' ..).map_on ?_
  intro t ht u hu htu
  obtain ⟨ht₁, ht₂⟩ := List.mem_range'_1.mp ht
  obtain ⟨hu₁, hu₂⟩ := List.mem_range'_1.mp hu
  have hu : u % order.length < order.length := Nat.mod_lt _ (by omega)
  have hdealt : dealt order u = order[u % order.length] := List.getD_eq_getElem _ _ hu
  have hmod : t % order.length = u % order.length := (dealt_eq_iff hnodup hu t).mp (htu.trans hdealt)
  -- fewer than `order.length` times apart, so one residue is one time
  rcases le_total t u with h | h
  · have hzero := (Nat.modEq_iff_dvd' h).mp hmod
    have := Nat.eq_zero_of_dvd_of_lt hzero (by omega)
    omega
  · have hzero := (Nat.modEq_iff_dvd' h).mp hmod.symm
    have := Nat.eq_zero_of_dvd_of_lt hzero (by omega)
    omega

theorem countP_residue (N m j : ℕ) :
    (List.range N).countP (fun t => t % m = j % m) = N.count (· ≡ j [MOD m]) := by
  induction N with
  | zero => rfl
  | succ N ih =>
    rw [List.range_succ, List.countP_append, ih, Nat.count_succ, List.countP_singleton]
    simp only [decide_eq_true_eq]
    rfl

theorem count_dealt (hnodup : order.Nodup) {j : ℕ} (hj : j < order.length) (N : ℕ) :
    ((List.range N).map (dealt order)).count order[j] =
      N / order.length + if j < N % order.length then 1 else 0 := by
  have hpos : 0 < order.length := by omega
  have hcount : ((List.range N).map (dealt order)).count order[j] =
      (List.range N).countP fun t => t % order.length = j % order.length := by
    rw [List.count, List.countP_map]
    refine List.countP_congr fun t _ => ?_
    simp [dealt_eq_iff hnodup hj, Nat.mod_eq_of_lt hj]
  rw [hcount, countP_residue, Nat.count_modEq_card N hpos, Nat.mod_eq_of_lt hj]

theorem countP_mem_eq_count {ls : List (List String)} (h : ∀ l ∈ ls, l.Nodup) (v : String) :
    ls.countP (fun l => v ∈ l) = ls.flatten.count v := by
  induction ls with
  | nil => rfl
  | cons l ls ih =>
    rw [List.forall_mem_cons] at h
    rw [List.countP_cons, ih h.2, List.flatten_cons, List.count_append, Nat.add_comm]
    by_cases hv : v ∈ l
    · simp [hv, List.count_eq_one_of_mem h.1 hv]
    · simp [hv, List.count_eq_zero.mpr hv]

end RoundRobin

/-! ## Balance -/

theorem assignToStates_entries (defaultRng : ℤ → Rng String) {stateIds : List String} (hstates : stateIds.Nodup)
    (variantIds : List String) {perState : ℤ} (hone : 1 ≤ perState) (hle : perState ≤ variantIds.length) (seed : ℤ) :
    ∃ a, assignToStates defaultRng stateIds variantIds perState seed = .ok a ∧
      a.byState.entries = stateIds.zipIdx.map fun e =>
        (e.1, round ((defaultRng seed).shuffle variantIds) perState.toNat e.2) := by
  refine ⟨_, if_neg (by omega), ?_⟩
  have hfold := foldl_assign ((defaultRng seed).shuffle variantIds) perState.toNat stateIds .empty 0
  rw [Nat.zero_mul, Nat.zero_mod] at hfold
  rw [hfold]
  refine Dict.entries_ofPairs_of_nodup ?_
  have hkeys : (stateIds.zipIdx.map fun e =>
      (e.1, round ((defaultRng seed).shuffle variantIds) perState.toNat e.2)).map Prod.fst = stateIds := by
    rw [List.map_map]
    exact List.zipIdx_map_fst 0 stateIds
  rw [hkeys]
  exact hstates

/-- Outside its range `per_state` is refused. Over distinct states and distinct variants every state gets `per_state`
distinct variants, and no variant, dealt or not, is in two states more than another. -/
theorem assignToStates_balanced (defaultRng : ℤ → Rng String) (stateIds variantIds : List String) (perState seed : ℤ)
    (hstates : stateIds.Nodup) (hvariants : variantIds.Nodup) (hle : perState ≤ variantIds.length) :
    (perState < 1 → assignToStates defaultRng stateIds variantIds perState seed = .error .perStateOutOfRange) ∧
    (1 ≤ perState → ∃ a, assignToStates defaultRng stateIds variantIds perState seed = .ok a ∧
      a.byState.keys = stateIds ∧
      (∀ e ∈ a.byState.entries, (e.2.length : ℤ) = perState ∧ e.2.Nodup ∧ e.2 ⊆ variantIds) ∧
      ∀ v ∈ variantIds, ∀ w ∈ variantIds, a.statesOf v ≤ a.statesOf w + 1) := by
  refine ⟨fun hlt => if_pos (.inl hlt), fun hone => ?_⟩
  obtain ⟨a, ha, hentries⟩ := assignToStates_entries defaultRng hstates variantIds hone hle seed
  have hperm := (defaultRng seed).perm variantIds
  have hlen := hperm.length_eq
  have hnodup := hperm.nodup_iff.mpr hvariants
  generalize (defaultRng seed).shuffle variantIds = order at hentries hperm hlen hnodup
  have hper : perState.toNat ≤ order.length := by omega
  have hvalues : a.byState.values = (List.range stateIds.length).map (round order perState.toNat) := by
    rw [Dict.values, hentries, List.map_map, List.range_eq_range', ← List.zipIdx_map_snd, List.map_map]
    rfl
  have hcount : ∀ v ∈ variantIds, ∃ j, j < order.length ∧ a.statesOf v =
      stateIds.length * perState.toNat / order.length +
        if j < stateIds.length * perState.toNat % order.length then 1 else 0 := by
    intro v hv
    obtain ⟨j, hj, rfl⟩ := List.mem_iff_getElem.mp (hperm.mem_iff.mpr hv)
    refine ⟨j, hj, ?_⟩
    rw [StateAssignment.statesOf, hvalues, countP_mem_eq_count, flatten_rounds, count_dealt hnodup hj]
    intro l hl
    obtain ⟨i, -, rfl⟩ := List.mem_map.mp hl
    exact nodup_round hnodup hper i
  refine ⟨a, ha, ?_, ?_, ?_⟩
  · rw [Dict.keys, hentries, List.map_map]
    exact List.zipIdx_map_fst 0 stateIds
  · intro e he
    rw [hentries] at he
    obtain ⟨x, -, rfl⟩ := List.mem_map.mp he
    refine ⟨?_, nodup_round hnodup hper x.2, ?_⟩
    · simp only [round, List.length_map, List.length_range']
      omega
    · intro v hv
      obtain ⟨t, -, rfl⟩ := List.mem_map.mp hv
      have ht : t % order.length < order.length := Nat.mod_lt _ (by omega)
      rw [dealt, List.getD_eq_getElem _ _ ht]
      exact hperm.subset (List.getElem_mem ht)
  · intro v hv w hw
    obtain ⟨j, -, hj⟩ := hcount v hv
    obtain ⟨k, -, hk⟩ := hcount w hw
    rw [hj, hk]
    split <;> split <;> omega

theorem assignToStates_balanced_three :
    ∃ a, assignToStates inOrder ["s1", "s2", "s3"] ["a", "b"] 1 0 = .ok a ∧ a.byState.keys = ["s1", "s2", "s3"] ∧
      a.statesOf "a" ≤ a.statesOf "b" + 1 := by
  obtain ⟨a, ha, hkeys, -, hbalance⟩ := (assignToStates_balanced inOrder ["s1", "s2", "s3"] ["a", "b"] 1 0
    (by decide) (by decide) (by decide)).2 (by decide)
  exact ⟨a, ha, hkeys, hbalance _ (by decide) _ (by decide)⟩

/-- No variant for a state is refused; a state listed twice keeps one of its two turns. -/
theorem not_assignToStates_balanced :
    (¬ ∀ (defaultRng : ℤ → Rng String) (stateIds variantIds : List String) (perState seed : ℤ), stateIds.Nodup →
      variantIds.Nodup → perState ≤ variantIds.length →
      ∃ a, assignToStates defaultRng stateIds variantIds perState seed = .ok a) ∧
    ¬ ∀ (defaultRng : ℤ → Rng String) (stateIds variantIds : List String) (perState seed : ℤ), variantIds.Nodup →
      1 ≤ perState → perState ≤ variantIds.length →
      ∃ a, assignToStates defaultRng stateIds variantIds perState seed = .ok a ∧
        ∀ v ∈ variantIds, ∀ w ∈ variantIds, a.statesOf v ≤ a.statesOf w + 1 := by
  constructor
  · intro h
    obtain ⟨a, ha⟩ := h inOrder ["s1"] ["a"] 0 0 (by decide) (by decide) (by decide)
    cases ha
  · intro h
    obtain ⟨a, ha, hbalance⟩ := h inOrder ["s1", "s2", "s3", "s2", "s4"] ["a", "b", "c", "d"] 2 0 (by decide) (by decide)
      (by decide)
    obtain rfl : _ = a := Except.ok.inj ha
    have hcount := hbalance "a" (by decide) "c" (by decide)
    revert hcount
    decide

/-! ## What the gates let through -/

theorem spreadFailure_eq_nil {κ : Type} {counts : Dict κ ℕ} {limit : ℕ} {failure : ℕ → ℤ → FreezeFailure}
    (h : spreadFailure counts limit failure = []) : ∀ n ∈ spread counts, n ≤ limit := by
  intro n hn
  by_contra hlt
  simp only [spreadFailure, Option.mem_def.mp hn] at h
  rw [if_pos (by omega)] at h
  exact List.cons_ne_nil _ _ h

theorem checkFreezeGates_spreads {X : DesignMatrix} {a : StateAssignment} {maxCondition : ℚ} {m k : ℕ}
    (hok : checkFreezeGates X a maxCondition m k = []) :
    (∀ n ∈ spread a.exposure, n ≤ m) ∧ ∀ n ∈ spread a.pairExposure, n ≤ k := by
  simp only [checkFreezeGates, List.append_eq_nil_iff] at hok
  exact ⟨spreadFailure_eq_nil hok.1.1.2, spreadFailure_eq_nil hok.1.2⟩

/-- Counts no two of which differ by more than `limit`. -/
def EvenlySpread {κ : Type} (count : κ → ℕ) (limit : ℕ) (keys : List κ) : Prop :=
  ∀ k ∈ keys, ∀ j ∈ keys, count k ≤ count j + limit

/-- Counts that are even where they are positive are even altogether when none is zero, or none exceeds the limit. -/
theorem evenlySpread_iff {κ : Type} (count : κ → ℕ) (limit : ℕ) (keys : List κ)
    (hseen : ∀ k ∈ keys, ∀ j ∈ keys, 0 < count k → 0 < count j → count k ≤ count j + limit) :
    EvenlySpread count limit keys ↔ (∀ k ∈ keys, 0 < count k) ∨ ∀ k ∈ keys, count k ≤ limit := by
  constructor
  · intro heven
    by_contra hno
    obtain ⟨hzero, hlarge⟩ := not_or.mp hno
    obtain ⟨j, hj, hnot⟩ : ∃ j ∈ keys, ¬ 0 < count j := by simpa using hzero
    refine hlarge fun k hk => ?_
    have hle := heven k hk j hj
    omega
  · rintro (hpos | hsmall) k hk j hj
    · exact hseen k hk j hj (hpos k hk) (hpos j hj)
    · have hle := hsmall k hk
      omega

theorem exposureOf_pos {a : StateAssignment} {v : String} :
    0 < a.exposureOf v ↔ ∃ variants ∈ a.byState.values, v ∈ variants := by
  have h := a.get?_exposure v
  rw [StateAssignment.exposure, get?_tally] at h
  by_cases hv : v ∈ a.byState.values.flatten
  · rw [if_pos hv] at h
    have hpos : 0 < a.exposureOf v := by
      by_contra hzero
      rw [if_neg hzero] at h
      cases h
    exact iff_of_true hpos (List.mem_flatten.mp hv)
  · rw [if_neg hv] at h
    have hzero : ¬ 0 < a.exposureOf v := by
      intro hpos
      rw [if_pos hpos] at h
      cases h
    exact iff_of_false hzero (mt List.mem_flatten.mpr hv)

theorem pairExposureOf_pos {a : StateAssignment} {p : String × String} (hp : p.1 < p.2) :
    0 < a.pairExposureOf p ↔ ∃ variants ∈ a.byState.values, p.1 ∈ variants ∧ p.2 ∈ variants := by
  rw [a.pairExposureOf_eq hp, List.countP_pos_iff]
  simp only [decide_eq_true_eq]

/-- Where the gates pass, the spreads over the whole design are within bounds if and only if every variant of it was
assigned, or none more than once, and every pair of its variants met, or none more than twice. -/
theorem checkFreezeGates_balanced_iff (X : DesignMatrix) (a : StateAssignment) (maxCondition : ℚ) (design : List String)
    (hok : checkFreezeGates X a maxCondition 1 2 = []) :
    (EvenlySpread a.exposureOf 1 design ∧ EvenlySpread a.pairExposureOf 2 (pairsOf (uniq design))) ↔
    ((∀ v ∈ design, ∃ variants ∈ a.byState.values, v ∈ variants) ∨ ∀ v ∈ design, a.exposureOf v ≤ 1) ∧
    ((∀ p ∈ pairsOf (uniq design), ∃ variants ∈ a.byState.values, p.1 ∈ variants ∧ p.2 ∈ variants) ∨
      ∀ p ∈ pairsOf (uniq design), a.pairExposureOf p ≤ 2) := by
  obtain ⟨hspread, hpairs⟩ := checkFreezeGates_spreads (m := 1) (k := 2) hok
  have hvariants := evenlySpread_iff a.exposureOf 1 design fun v _ w _ hv hw =>
    spread_le hspread ((a.get?_exposure v).trans (if_pos hv)) ((a.get?_exposure w).trans (if_pos hw))
  have hmeet := evenlySpread_iff a.pairExposureOf 2 (pairsOf (uniq design))
    fun p _ q _ hp hq =>
      spread_le hpairs ((a.get?_pairExposure p).trans (if_pos hp)) ((a.get?_pairExposure q).trans (if_pos hq))
  have hlt : ∀ p ∈ pairsOf (uniq design), p.1 < p.2 := fun p hp => ((mem_pairsOf (pairwise_uniq design)).mp hp).2.2
  rw [hvariants, hmeet]
  refine and_congr (or_congr_left ?_) (or_congr_left ?_)
  · exact forall₂_congr fun v _ => exposureOf_pos
  · exact forall₂_congr fun p hp => pairExposureOf_pos (hlt p hp)

/-- A factor of three levels, effect-coded with an intercept: the eigenvalues of `X.T @ X` are 3, 3 and 1. -/
def threeLevels : DesignMatrix := ⟨3, 3, .finite 3⟩

def cyclic : StateAssignment := ⟨⟨[("s1", ["a", "b"]), ("s2", ["b", "c"]), ("s3", ["a", "c"])], by decide⟩⟩

theorem checkFreezeGates_balanced_cyclic :
    EvenlySpread cyclic.exposureOf 1 ["a", "b", "c"] ∧ EvenlySpread cyclic.pairExposureOf 2 (pairsOf (uniq ["a", "b", "c"])) :=
  (checkFreezeGates_balanced_iff threeLevels cyclic 10000 ["a", "b", "c"] (by decide +kernel)).mpr
    ⟨.inl (by decide +kernel), .inl (by decide +kernel)⟩

/-- Two states of the design's first variant only, the other two never assigned. -/
theorem not_checkFreezeGates_sound : ¬ ∀ (X : DesignMatrix) (a : StateAssignment) (maxCondition : ℚ)
    (design : List String), checkFreezeGates X a maxCondition 1 2 = [] →
    EvenlySpread a.exposureOf 1 design ∧ EvenlySpread a.pairExposureOf 2 (pairsOf (uniq design)) := by
  intro h
  have heven := (h threeLevels ⟨⟨[("s1", ["a"]), ("s2", ["a"])], by decide⟩⟩ 10000 ["a", "b", "c"]
    (by decide +kernel)).1 "a" (by decide) "b" (by decide)
  revert heven
  decide +kernel

end Shapeflow.BlockDesign
