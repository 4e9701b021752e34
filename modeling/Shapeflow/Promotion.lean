import Mathlib.Algebra.Order.Ring.Unbundled.Rat
import Mathlib.Data.List.Pairwise
import Mathlib.Data.List.Sort
import Mathlib.Data.Prod.Lex
import Mathlib.Data.Rat.Floor
import Mathlib.Data.String.Basic
import Shapeflow.Dict
import Shapeflow.SortedLists

set_option autoImplicit false

/-!
# Promotion of screened variants

Survivors of a node are ranked by the bucket of their work saving, then by
simplicity. Buckets are cut at fixed places, so two savings within the
indifference band can stand on the two sides of a cut.
-/
namespace Shapeflow.Promotion

structure ScreenResult where
  variantId : String
  node : String
  structuralPass : Bool
  selectorQuality : ℚ
  harmScreenPass : Bool
  workSaving : ℚ
  crashRate : ℚ
  contract : String := "id"
  aggregation : String := "stable_union"
  closeMode : String := "separate"
  isControl : Bool := false
  deriving DecidableEq

structure ScreenGates where
  minSelectorQuality : ℚ := 9 / 10
  maxCrashRate : ℚ := 1 / 10
  indifferenceBand : ℚ := 2 / 100
  maxPerNode : ℤ := 2

/-! ## Elimination -/

inductive Elimination where
  | structuralFailure
  | harmScreenFailed
  | selectorQualityBelow
  | crashRateAbove
  | workIncreased
  deriving DecidableEq, Repr

def screenEliminate (r : ScreenResult) (gates : ScreenGates) : Option Elimination :=
  if r.structuralPass = false then some .structuralFailure
  else if r.harmScreenPass = false then some .harmScreenFailed
  else if r.selectorQuality < gates.minSelectorQuality then some .selectorQualityBelow
  else if gates.maxCrashRate < r.crashRate then some .crashRateAbove
  else if r.workSaving ≤ 0 ∧ r.selectorQuality < 1 then some .workIncreased
  else none

/-! ## Ranking -/

def CONTRACT_RANK : List (String × ℕ) := [("id", 0), ("typed", 1), ("bridge", 2)]

def AGG_RANK : List (String × ℕ) :=
  [("stable_union", 0), ("coverage_budget", 1), ("global_rerank", 2), ("vendor", 0)]

def CLOSE_RANK : List (String × ℕ) :=
  [("separate", 0), ("dedicated_selector", 0), ("prefix_preserving", 1), ("fused_with_fallback", 2)]

/-- Lower is simpler. -/
def simplicityKey (r : ScreenResult) : ℕ ×ₗ ℕ ×ₗ ℕ :=
  toLex ((CONTRACT_RANK.lookup r.contract).getD 1,
    toLex ((AGG_RANK.lookup r.aggregation).getD 1, (CLOSE_RANK.lookup r.closeMode).getD 0))

/-- `round(q)`: to the nearest integer, ties to the even one. -/
def roundHalfEven (q : ℚ) : ℤ :=
  let below := q.floor
  if q - below < 1 / 2 then below
  else if 1 / 2 < q - below then below + 1
  else if below % 2 = 0 then below else below + 1

def band (gates : ScreenGates) : ℚ :=
  if 0 < gates.indifferenceBand then gates.indifferenceBand else 1 / 1000000000

def bucket (gates : ScreenGates) (r : ScreenResult) : ℤ := roundHalfEven (r.workSaving / band gates)

/-- The sort key `(-bucket, simplicity_key(r), r.variant_id)`. -/
def rankKey (gates : ScreenGates) (r : ScreenResult) : ℤ ×ₗ (ℕ ×ₗ ℕ ×ₗ ℕ) ×ₗ String :=
  toLex (-bucket gates r, toLex (simplicityKey r, r.variantId))

def ranked (gates : ScreenGates) (survivors : List ScreenResult) : List ScreenResult :=
  survivors.insertionSort fun a b => rankKey gates a ≤ rankKey gates b

/-- `xs[:n]` -/
def upTo {α : Type} (n : ℤ) (xs : List α) : List α := xs.take (if 0 ≤ n then n else xs.length + n).toNat

def survives (gates : ScreenGates) (r : ScreenResult) : Bool := !r.isControl && (screenEliminate r gates).isNone

def byNode (results : List ScreenResult) (gates : ScreenGates) : Dict String (List ScreenResult) :=
  results.foldl (fun d r => if survives gates r then d.update r.node [] (· ++ [r]) else d) .empty

def promote (results : List ScreenResult) (gates : ScreenGates) : Dict String (List String) :=
  Dict.ofPairs ((byNode results gates).entries.map fun e =>
    (e.1, (upTo gates.maxPerNode (ranked gates e.2)).map (·.variantId)))

/-! ## The survivors of a node -/

def survivorsAt (results : List ScreenResult) (gates : ScreenGates) (node : String) : List ScreenResult :=
  results.filter fun r => survives gates r ∧ r.node = node

theorem get?_byNode (results : List ScreenResult) (gates : ScreenGates) (node : String) :
    (byNode results gates).get? node =
      if survivorsAt results gates node = [] then none else some (survivorsAt results gates node) := by
  induction results using List.reverseRecOn with
  | nil => rfl
  | append_singleton results r ih =>
    rw [byNode, List.foldl_append, List.foldl_cons, List.foldl_nil]
    change (if survives gates r then (byNode results gates).update r.node [] (· ++ [r])
      else byNode results gates).get? node = _
    rw [survivorsAt, List.filter_append, ← survivorsAt]
    by_cases hr : survives gates r = true
    · rw [if_pos hr, Dict.get?_update]
      by_cases hnode : r.node = node
      · subst hnode
        rw [ih]
        by_cases hnil : survivorsAt results gates r.node = []
        · simp [hnil, hr]
        · simp [hnil, hr]
      · simp [ih, hr, hnode, Ne.symm hnode]
    · simp [ih, hr]

theorem get?_promote (results : List ScreenResult) (gates : ScreenGates) (node : String) :
    (promote results gates).get? node =
      if survivorsAt results gates node = [] then none
      else some ((upTo gates.maxPerNode (ranked gates (survivorsAt results gates node))).map (·.variantId)) := by
  have hkeys : ((byNode results gates).entries.map fun e =>
      (e.1, (upTo gates.maxPerNode (ranked gates e.2)).map (·.variantId))).map Prod.fst = (byNode results gates).keys := by
    rw [List.map_map]
    rfl
  have hvalue := get?_byNode results gates node
  split at hvalue
  · rename_i hnil
    rw [if_pos hnil, Dict.get?_eq_none_iff, promote, Dict.mem_keys_ofPairs, hkeys]
    exact Dict.get?_eq_none_iff.mp hvalue
  · rename_i hsome
    rw [if_neg hsome, promote]
    refine (Dict.get?_ofPairs_of_nodup ?_).mpr (List.mem_map.mpr ⟨_, Dict.mem_of_get? hvalue, rfl⟩)
    rw [hkeys]
    exact (byNode results gates).keys_nodup

theorem ranked_perm (gates : ScreenGates) (survivors : List ScreenResult) : (ranked gates survivors).Perm survivors :=
  List.perm_insertionSort _ _

theorem pairwise_ranked (gates : ScreenGates) (survivors : List ScreenResult) :
    (ranked gates survivors).Pairwise fun a b => rankKey gates a ≤ rankKey gates b :=
  SortedLists.pairwise_insertionSort_key (rankKey gates) survivors

/-! ## Indifference -/

/-- The savings differ by no more than the band. -/
def Indifferent (gates : ScreenGates) (a b : ScreenResult) : Prop :=
  a.workSaving - b.workSaving ≤ gates.indifferenceBand ∧ b.workSaving - a.workSaving ≤ gates.indifferenceBand

/-- A ranking in which no candidate stands before a simpler one it is indifferent to. -/
def SimplerFirst (gates : ScreenGates) (ranking : List ScreenResult) : Prop :=
  ranking.Pairwise fun earlier later =>
    Indifferent gates earlier later → ¬ simplicityKey later < simplicityKey earlier

theorem rankKey_lt_of_bucket {gates : ScreenGates} {a b : ScreenResult} (h : bucket gates a < bucket gates b) :
    rankKey gates b < rankKey gates a := Prod.Lex.toLex_lt_toLex.mpr (.inl (neg_lt_neg h))

theorem bucket_lt_of_rankKey {gates : ScreenGates} {a b : ScreenResult} (h : rankKey gates a ≤ rankKey gates b)
    (hsimple : simplicityKey b < simplicityKey a) : bucket gates b < bucket gates a := by
  rcases Prod.Lex.toLex_le_toLex.mp h with hlt | ⟨-, hle⟩
  · exact neg_lt_neg_iff.mp hlt
  · rcases Prod.Lex.toLex_le_toLex.mp hle with hkey | ⟨hkey, -⟩
    · exact absurd hkey hsimple.asymm
    · exact absurd hkey hsimple.ne'

theorem simplerFirst_ranked_iff (gates : ScreenGates) (survivors : List ScreenResult) :
    SimplerFirst gates (ranked gates survivors) ↔
      ∀ a ∈ survivors, ∀ b ∈ survivors, Indifferent gates a b → simplicityKey a < simplicityKey b →
        bucket gates b ≤ bucket gates a := by
  have hmem : ∀ {r}, r ∈ ranked gates survivors ↔ r ∈ survivors := (ranked_perm gates survivors).mem_iff
  have hsorted := pairwise_ranked gates survivors
  constructor
  · intro hfirst a ha b hb hab hsimple
    by_contra hbucket
    have hkey := rankKey_lt_of_bucket (not_le.mp hbucket)
    -- `b` stands before `a`, for the ranking is sorted and its key is the smaller one
    let Placed (x y : ScreenResult) : Prop := rankKey gates x ≤ rankKey gates y ∧
      (Indifferent gates x y → ¬ simplicityKey y < simplicityKey x)
    have hplaced : (ranked gates survivors).Pairwise fun x y => Placed x y ∨ Placed y x :=
      (hsorted.and hfirst).imp fun h => Or.inl h
    have hne : b ≠ a := fun h => (h ▸ hkey).false
    have hsymm : Std.Symm fun x y => Placed x y ∨ Placed y x := ⟨fun _ _ => Or.symm⟩
    rcases hplaced.forall (hmem.mpr hb) (hmem.mpr ha) hne with h | h
    · exact h.2 ⟨hab.2, hab.1⟩ hsimple
    · exact absurd h.1 hkey.not_ge
  · intro hbuckets
    refine hsorted.imp_of_mem fun {earlier later} he hl hkey hindifferent hsimple => ?_
    have hle := hbuckets later (hmem.mp hl) earlier (hmem.mp he) ⟨hindifferent.2, hindifferent.1⟩ hsimple
    exact absurd (bucket_lt_of_rankKey hkey hsimple) (not_lt.mpr hle)

def bridgeCandidate : ScreenResult where
  variantId := "bridge_v"
  node := "WEBPAGE_P1"
  structuralPass := true
  selectorQuality := 95 / 100
  harmScreenPass := true
  workSaving := 211 / 1000
  crashRate := 0
  contract := "bridge"

def idCandidate : ScreenResult :=
  { bridgeCandidate with variantId := "id_v", workSaving := 209 / 1000, contract := "id" }

end Shapeflow.Promotion
