import Shapeflow.Dict

set_option autoImplicit false

/-!
# Collecting pairs under their keys

`d.setdefault(k, []).append(v)` over a list of pairs: each key, in the order of
its first pair, holds the values of its pairs in order.
-/
namespace Shapeflow.Dict
variable {κ ν : Type} [DecidableEq κ]

def collectInto (d : Dict κ (List ν)) (pairs : List (κ × ν)) : Dict κ (List ν) :=
  pairs.foldl (fun d p => d.update p.1 [] (· ++ [p.2])) d

def collect (pairs : List (κ × ν)) : Dict κ (List ν) := collectInto empty pairs

/-- The values a list of pairs gives a key. -/
def under (pairs : List (κ × ν)) (k : κ) : List ν := (pairs.filter fun p => p.1 = k).map Prod.snd

theorem mem_under {pairs : List (κ × ν)} {k : κ} {v : ν} : v ∈ under pairs k ↔ (k, v) ∈ pairs := by
  simp only [under, List.mem_map, List.mem_filter, decide_eq_true_eq]
  constructor
  · rintro ⟨⟨k', v'⟩, ⟨hp, rfl⟩, rfl⟩
    exact hp
  · intro hp
    exact ⟨(k, v), ⟨hp, rfl⟩, rfl⟩

theorem get?_collectInto (d : Dict κ (List ν)) (pairs : List (κ × ν)) (k : κ) :
    (d.collectInto pairs).get? k =
      if k ∈ d.keys ∨ k ∈ pairs.map Prod.fst then some ((d.get? k).getD [] ++ under pairs k) else none := by
  induction pairs generalizing d with
  | nil =>
    by_cases hk : k ∈ d.keys
    · obtain ⟨v, hv⟩ := mem_keys_iff.mp hk
      simp [collectInto, under, hk, hv]
    · simp [collectInto, under, hk, get?_eq_none_iff.mpr hk]
  | cons p pairs ih =>
    have hstep : d.collectInto (p :: pairs) = (d.update p.1 [] (· ++ [p.2])).collectInto pairs := rfl
    rw [hstep, ih]
    by_cases hk : p.1 = k
    · have hget : (d.update p.1 [] (· ++ [p.2])).get? k = some ((d.get? k).getD [] ++ [p.2]) := by
        rw [get?_update, if_pos hk.symm, hk]
      have hunder : under (p :: pairs) k = p.2 :: under pairs k := by simp [under, hk]
      rw [if_pos (.inl (mem_keys_update.mpr (.inr hk.symm))), if_pos (.inr (by simp [hk])), hget, hunder]
      simp
    · have hget : (d.update p.1 [] (· ++ [p.2])).get? k = d.get? k := by
        rw [get?_update, if_neg (Ne.symm hk)]
      have hunder : under (p :: pairs) k = under pairs k := by simp [under, hk]
      have hkeys : (k ∈ (d.update p.1 [] (· ++ [p.2])).keys ∨ k ∈ pairs.map Prod.fst) ↔
          (k ∈ d.keys ∨ k ∈ (p :: pairs).map Prod.fst) := by
        rw [mem_keys_update, List.map_cons, List.mem_cons]
        tauto
      rw [hget, hunder, if_congr hkeys rfl rfl]

theorem get?_collect (pairs : List (κ × ν)) (k : κ) :
    (collect pairs).get? k = if k ∈ pairs.map Prod.fst then some (under pairs k) else none := by
  rw [collect, get?_collectInto]
  simp only [keys_empty, List.not_mem_nil, false_or, get?_empty, Option.getD_none, List.nil_append]

/-- Every collected value lists what some key of the pairs was given. -/
theorem mem_values_collect {pairs : List (κ × ν)} {vs : List ν} (h : vs ∈ (collect pairs).values) :
    ∃ k ∈ pairs.map Prod.fst, vs = under pairs k := by
  obtain ⟨e, he, rfl⟩ := List.mem_map.mp h
  have hget := get?_of_mem (k := e.1) (v := e.2) he
  rw [get?_collect] at hget
  split at hget
  · rename_i hk
    exact ⟨e.1, hk, (Option.some.inj hget).symm⟩
  · cases hget

end Shapeflow.Dict
