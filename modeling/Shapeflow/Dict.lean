import Mathlib.Data.List.Induction
import Mathlib.Data.List.Nodup

set_option autoImplicit false

/-!
# Insertion-ordered dictionaries

A dictionary is a list of entries with pairwise distinct keys. Assigning to a
key that is present replaces its value where it stands; a new key goes last.
Nothing here depends on what the keys or the values are.
-/
namespace Shapeflow

structure Dict (κ ν : Type) where
  entries : List (κ × ν)
  distinct : (entries.map Prod.fst).Nodup
deriving DecidableEq

namespace Dict
variable {κ ν : Type}

def keys (d : Dict κ ν) : List κ := d.entries.map Prod.fst

def values (d : Dict κ ν) : List ν := d.entries.map Prod.snd

def empty : Dict κ ν := ⟨[], by simp⟩

@[simp] theorem keys_empty : (empty : Dict κ ν).keys = [] := rfl

theorem keys_nodup (d : Dict κ ν) : d.keys.Nodup := d.distinct

variable [DecidableEq κ]

def get? (d : Dict κ ν) (k : κ) : Option ν := (d.entries.find? fun e => e.1 = k).map Prod.snd

/-- The entries after assigning `v` to `k`. -/
def assigned (l : List (κ × ν)) (k : κ) (v : ν) : List (κ × ν) :=
  if k ∈ l.map Prod.fst then l.map fun e => if e.1 = k then (k, v) else e else l ++ [(k, v)]

theorem assigned_keys (l : List (κ × ν)) (k : κ) (v : ν) :
    (assigned l k v).map Prod.fst =
      if k ∈ l.map Prod.fst then l.map Prod.fst else l.map Prod.fst ++ [k] := by
  unfold assigned
  split
  · rw [List.map_map]
    apply List.map_congr_left
    intro e _
    by_cases he : e.1 = k
    · simp [he]
    · simp [he]
  · simp

theorem assigned_distinct {l : List (κ × ν)} (h : (l.map Prod.fst).Nodup) (k : κ) (v : ν) :
    ((assigned l k v).map Prod.fst).Nodup := by
  rw [assigned_keys]
  split
  · exact h
  · rename_i hk
    exact List.nodup_append.mpr ⟨h, by simp, by intro a ha b hb hab; simp_all⟩

def set (d : Dict κ ν) (k : κ) (v : ν) : Dict κ ν :=
  ⟨assigned d.entries k v, assigned_distinct d.distinct k v⟩

/-- Assign only when the key is absent. -/
def setDefault (d : Dict κ ν) (k : κ) (v : ν) : Dict κ ν :=
  if k ∈ d.keys then d else d.set k v

/-- Change the value at `k` in place, starting from `v` when the key is absent. -/
def update (d : Dict κ ν) (k : κ) (v : ν) (f : ν → ν) : Dict κ ν :=
  d.set k (f ((d.get? k).getD v))

/-- The dictionary built by assigning the pairs one after the other. -/
def ofPairs (l : List (κ × ν)) : Dict κ ν := l.foldl (fun d e => d.set e.1 e.2) empty

/-- `d.update(e)`: the entries of `e` assigned to `d` in turn. -/
def updateAll (d e : Dict κ ν) : Dict κ ν := e.entries.foldl (fun d x => d.set x.1 x.2) d

@[simp] theorem get?_empty (k : κ) : (empty : Dict κ ν).get? k = none := rfl

theorem keys_set (d : Dict κ ν) (k : κ) (v : ν) :
    (d.set k v).keys = if k ∈ d.keys then d.keys else d.keys ++ [k] :=
  assigned_keys d.entries k v

@[simp] theorem mem_keys_set {d : Dict κ ν} {k j : κ} {v : ν} :
    j ∈ (d.set k v).keys ↔ j ∈ d.keys ∨ j = k := by
  rw [keys_set]
  split
  · constructor
    · exact Or.inl
    · rintro (h | rfl)
      · exact h
      · assumption
  · simp

theorem find?_assigned_self (l : List (κ × ν)) (k : κ) (v : ν) :
    (assigned l k v).find? (fun e => e.1 = k) = some (k, v) := by
  unfold assigned
  split
  · rename_i hk
    induction l with
    | nil => simp at hk
    | cons e l ih =>
      rw [List.map_cons]
      by_cases he : e.1 = k
      · simp [he]
      · rw [if_neg he, List.find?_cons_of_neg (by simpa using he)]
        exact ih (by simpa [Ne.symm he] using hk)
  · rename_i hk
    rw [List.find?_append, List.find?_eq_none.mpr]
    · simp
    · intro e he hek
      exact hk (List.mem_map.mpr ⟨e, he, by simpa using hek⟩)

theorem find?_assigned_ne (l : List (κ × ν)) {k j : κ} (v : ν) (hj : j ≠ k) :
    (assigned l k v).find? (fun e => e.1 = j) = l.find? (fun e => e.1 = j) := by
  unfold assigned
  split
  · clear * - hj
    induction l with
    | nil => rfl
    | cons e l ih =>
      rw [List.map_cons]
      by_cases he : e.1 = k
      · rw [if_pos he, List.find?_cons_of_neg (by simpa using Ne.symm hj),
          List.find?_cons_of_neg (by simpa [he] using Ne.symm hj)]
        exact ih
      · rw [if_neg he, List.find?_cons, List.find?_cons, ih]
  · rw [List.find?_append, List.find?_cons_of_neg (by simpa using Ne.symm hj)]
    simp

@[simp] theorem get?_set_self (d : Dict κ ν) (k : κ) (v : ν) : (d.set k v).get? k = some v := by
  simp [get?, set, find?_assigned_self]

theorem get?_set_ne (d : Dict κ ν) {k j : κ} (v : ν) (hj : j ≠ k) :
    (d.set k v).get? j = d.get? j := by
  simp [get?, set, find?_assigned_ne _ v hj]

theorem get?_set (d : Dict κ ν) (k j : κ) (v : ν) :
    (d.set k v).get? j = if j = k then some v else d.get? j := by
  split
  · rename_i h
    rw [h, get?_set_self]
  · rename_i h
    exact get?_set_ne d v h

theorem get?_update (d : Dict κ ν) (k j : κ) (v : ν) (f : ν → ν) :
    (d.update k v f).get? j = if j = k then some (f ((d.get? k).getD v)) else d.get? j :=
  get?_set d k j _

@[simp] theorem mem_keys_update {d : Dict κ ν} {k j : κ} {v : ν} {f : ν → ν} :
    j ∈ (d.update k v f).keys ↔ j ∈ d.keys ∨ j = k := mem_keys_set

theorem mem_of_get? {d : Dict κ ν} {k : κ} {v : ν} (h : d.get? k = some v) :
    (k, v) ∈ d.entries := by
  obtain ⟨e, he, rfl⟩ := Option.map_eq_some_iff.mp h
  have hk := List.find?_some he
  have hm := List.mem_of_find?_eq_some he
  simp only [decide_eq_true_eq] at hk
  rw [← hk]
  exact hm

theorem get?_of_mem {d : Dict κ ν} {k : κ} {v : ν} (h : (k, v) ∈ d.entries) :
    d.get? k = some v := by
  have hd := d.distinct
  unfold get?
  generalize d.entries = l at h hd
  induction l with
  | nil => simp at h
  | cons e l ih =>
    rw [List.map_cons, List.nodup_cons] at hd
    rcases List.mem_cons.mp h with rfl | h'
    · simp
    · have hne : e.1 ≠ k := by
        intro he
        exact hd.1 (List.mem_map.mpr ⟨(k, v), h', he.symm⟩)
      rw [List.find?_cons_of_neg (by simpa using hne)]
      exact ih h' hd.2

theorem get?_eq_some_iff {d : Dict κ ν} {k : κ} {v : ν} :
    d.get? k = some v ↔ (k, v) ∈ d.entries := ⟨mem_of_get?, get?_of_mem⟩

theorem mem_keys_iff {d : Dict κ ν} {k : κ} : k ∈ d.keys ↔ ∃ v, d.get? k = some v := by
  simp only [get?_eq_some_iff, keys, List.mem_map, Prod.exists, exists_and_right, exists_eq_right]

theorem get?_eq_none_iff {d : Dict κ ν} {k : κ} : d.get? k = none ↔ k ∉ d.keys := by
  rw [mem_keys_iff, Option.eq_none_iff_forall_ne_some]
  push Not
  rfl

/-- Only a key that was absent is given the default. -/
theorem get?_setDefault (d : Dict κ ν) (k j : κ) (v : ν) :
    (d.setDefault k v).get? j = (d.get? j).or (if j = k then some v else none) := by
  unfold setDefault
  split
  · rename_i hk
    obtain ⟨w, hw⟩ := mem_keys_iff.mp hk
    by_cases hj : j = k
    · rw [hj, hw]
      rfl
    · rw [if_neg hj, Option.or_none]
  · rename_i hk
    rw [get?_set]
    by_cases hj : j = k
    · rw [hj, get?_eq_none_iff.mpr hk]
      simp
    · rw [if_neg hj, if_neg hj, Option.or_none]

theorem mem_keys_setDefault {d : Dict κ ν} {k j : κ} {v : ν} :
    j ∈ (d.setDefault k v).keys ↔ j ∈ d.keys ∨ j = k := by
  unfold setDefault
  split
  · rename_i hold
    exact ⟨.inl, fun h => h.elim id fun heq => heq ▸ hold⟩
  · exact mem_keys_set

/-- What an assignment loop leaves at a key: the last value assigned to it. -/
theorem get?_ofPairs (l : List (κ × ν)) (k : κ) :
    (ofPairs l).get? k = (l.reverse.find? fun e => e.1 = k).map Prod.snd := by
  induction l using List.reverseRecOn with
  | nil => rfl
  | append_singleton l e ih =>
    have hf : ofPairs (l ++ [e]) = (ofPairs l).set e.1 e.2 := by simp [ofPairs]
    rw [hf, get?_set, List.reverse_append, List.reverse_singleton, List.singleton_append]
    by_cases h : k = e.1
    · rw [if_pos h, List.find?_cons_of_pos (by simp [h])]
      rfl
    · rw [if_neg h, List.find?_cons_of_neg (by simpa using Ne.symm h), ih]

theorem mem_of_get?_ofPairs {l : List (κ × ν)} {k : κ} {v : ν}
    (h : (ofPairs l).get? k = some v) : (k, v) ∈ l := by
  rw [get?_ofPairs] at h
  obtain ⟨e, he, rfl⟩ := Option.map_eq_some_iff.mp h
  have hk := List.find?_some he
  have hm := List.mem_reverse.mp (List.mem_of_find?_eq_some he)
  simp only [decide_eq_true_eq] at hk
  rw [← hk]
  exact hm

theorem mem_keys_ofPairs {l : List (κ × ν)} {k : κ} :
    k ∈ (ofPairs l).keys ↔ k ∈ l.map Prod.fst := by
  induction l using List.reverseRecOn with
  | nil => rfl
  | append_singleton l e ih =>
    have hf : ofPairs (l ++ [e]) = (ofPairs l).set e.1 e.2 := by simp [ofPairs]
    rw [hf, mem_keys_set, ih]
    simp

/-- Pairs with distinct keys are the entries, in their order. -/
theorem entries_ofPairs_of_nodup {l : List (κ × ν)} (hl : (l.map Prod.fst).Nodup) :
    (ofPairs l).entries = l := by
  induction l using List.reverseRecOn with
  | nil => rfl
  | append_singleton l e ih =>
    have hf : ofPairs (l ++ [e]) = (ofPairs l).set e.1 e.2 := by simp [ofPairs]
    rw [List.map_append, List.nodup_append] at hl
    have hnew : e.1 ∉ l.map Prod.fst := fun hmem => hl.2.2 e.1 hmem e.1 (by simp) rfl
    rw [hf]
    change assigned (ofPairs l).entries e.1 e.2 = l ++ [e]
    rw [ih hl.1]
    exact if_neg hnew

/-- With distinct keys the pairs themselves are read back. -/
theorem get?_ofPairs_of_nodup {l : List (κ × ν)} (hl : (l.map Prod.fst).Nodup) {k : κ} {v : ν} :
    (ofPairs l).get? k = some v ↔ (k, v) ∈ l := by
  constructor
  · exact mem_of_get?_ofPairs
  · intro h
    obtain ⟨w, hw⟩ := mem_keys_iff.mp
      (mem_keys_ofPairs.mpr (List.mem_map.mpr ⟨(k, v), h, rfl⟩))
    have hm := mem_of_get?_ofPairs hw
    have he : ((k, w) : κ × ν) = (k, v) :=
      List.inj_on_of_nodup_map hl hm h rfl
    rw [hw, (Prod.mk.inj he).2]

/-- What an update leaves at a key: the new value when there is one. -/
theorem get?_updateAll (d e : Dict κ ν) (k : κ) :
    (d.updateAll e).get? k = (e.get? k).or (d.get? k) := by
  have hfold : ∀ l : List (κ × ν), (l.map Prod.fst).Nodup → ∀ d : Dict κ ν,
      (l.foldl (fun d x => d.set x.1 x.2) d).get? k =
        ((l.find? fun x => x.1 = k).map Prod.snd).or (d.get? k) := by
    intro l
    induction l with
    | nil => simp
    | cons x l ih =>
      intro hl d
      rw [List.map_cons, List.nodup_cons] at hl
      rw [List.foldl_cons, ih hl.2, get?_set]
      by_cases hx : k = x.1
      · have hnone : l.find? (fun y => y.1 = k) = none := by
          apply List.find?_eq_none.mpr
          intro y hy hk
          rw [decide_eq_true_eq] at hk
          exact hl.1 (hx ▸ hk ▸ List.mem_map_of_mem hy)
        rw [hnone, List.find?_cons_of_pos (by simp [hx]), if_pos hx]
        rfl
      · rw [List.find?_cons_of_neg (by simpa using Ne.symm hx), if_neg hx]
  exact hfold e.entries e.distinct d

end Dict
end Shapeflow
