import Mathlib.Data.Nat.Basic
import Mathlib.Logic.Function.Basic

set_option autoImplicit false

/-!
# Union-find with path halving

A forest of parent pointers over any type. A root points at itself. The number
of links made so far bounds every climb, so that number is fuel enough for
`find`, and carrying the bound as a field makes `find` total.
-/
namespace Shapeflow

/-- `n` parent steps lead from a node to a root. -/
inductive Climbs {α : Type} (parent : α → α) : ℕ → α → α → Prop
  | root {r : α} : parent r = r → Climbs parent 0 r r
  | step {n : ℕ} {x r : α} :
      parent x ≠ x → Climbs parent n (parent x) r → Climbs parent (n + 1) x r

namespace Climbs
variable {α : Type} {parent : α → α} {n m : ℕ} {x r s : α}

theorem ends_at_root (h : Climbs parent n x r) : parent r = r := by
  induction h with
  | root hr => exact hr
  | step _ _ ih => exact ih

theorem unique (h : Climbs parent n x r) (h' : Climbs parent m x s) : n = m ∧ r = s := by
  induction h generalizing m with
  | root hr =>
    cases h' with
    | root _ => exact ⟨rfl, rfl⟩
    | step hx _ => exact absurd hr hx
  | step hx _ ih =>
    cases h' with
    | root hr => exact absurd hr hx
    | step _ h' =>
      obtain ⟨hn, hs⟩ := ih h'
      exact ⟨by omega, hs⟩

theorem of_root (hx : parent x = x) (h : Climbs parent n x r) : r = x :=
  (unique h (root hx)).2

end Climbs

variable {α : Type} [DecidableEq α]

/-- Point a node at its grandparent. -/
def halve (parent : α → α) (node : α) : α → α :=
  Function.update parent node (parent (parent node))

/-- Halving shortens climbs and moves no node to another root. -/
theorem Climbs.halve {parent : α → α} {n : ℕ} {x r : α} (node : α) (h : Climbs parent n x r) :
    ∃ m ≤ n, Climbs (halve parent node) m x r := by
  induction n using Nat.strong_induction_on generalizing x with
  | _ n ih =>
    cases h with
    | root hr =>
      refine ⟨0, le_rfl, .root ?_⟩
      by_cases hx : r = node
      · subst hx
        simp [Shapeflow.halve, hr]
      · simp [Shapeflow.halve, Function.update_of_ne hx, hr]
    | @step k _ _ hx h =>
      by_cases hn : x = node
      · subst hn
        have hp : Shapeflow.halve parent x x = parent (parent x) := by simp [Shapeflow.halve]
        by_cases hg : parent (parent x) = x
        · -- a node two steps above itself would climb for ever
          exfalso
          cases h with
          | root hr =>
            rw [hr] at hg
            exact hx hg
          | @step j _ _ hpx h =>
            rw [hg] at h
            have := (Climbs.unique h (.step hx (.step hpx (by rw [hg]; exact h)))).1
            omega
        · cases h with
          | root hr =>
            obtain ⟨m, hm, hc⟩ := ih 0 (by omega) (.root hr)
            refine ⟨m + 1, by omega, .step (by rw [hp]; exact hg) ?_⟩
            rw [hp, hr]
            exact hc
          | @step j _ _ _ h =>
            obtain ⟨m, hm, hc⟩ := ih j (by omega) h
            refine ⟨m + 1, by omega, .step (by rw [hp]; exact hg) ?_⟩
            rw [hp]
            exact hc
      · have hp : Shapeflow.halve parent node x = parent x := by
          simp [Shapeflow.halve, Function.update_of_ne hn]
        obtain ⟨m, hm, hc⟩ := ih k (by omega) h
        exact ⟨m + 1, by omega, .step (by rw [hp]; exact hx) (by rw [hp]; exact hc)⟩

/-- The `while` loop of `find`: halve the path on the way up. -/
def findLoop : ℕ → (α → α) → α → α × (α → α)
  | 0, parent, node => (node, parent)
  | fuel + 1, parent, node =>
    if parent node = node then (node, parent)
    else findLoop fuel (halve parent node) (halve parent node node)

theorem findLoop_root {fuel n : ℕ} {parent : α → α} {x r : α} (h : Climbs parent n x r)
    (hn : n ≤ fuel) : (findLoop fuel parent x).1 = r := by
  induction fuel generalizing parent n x with
  | zero =>
    obtain rfl : n = 0 := by omega
    cases h
    rfl
  | succ fuel ih =>
    unfold findLoop
    split
    · rename_i hx
      exact (Climbs.of_root hx h).symm
    · rename_i hx
      obtain ⟨m, hm, hc⟩ := h.halve x
      cases hc with
      | root hr =>
        rw [hr]
        exact ih (.root hr) (Nat.zero_le _)
      | step _ hc => exact ih hc (by omega)

theorem findLoop_climbs (fuel : ℕ) {n : ℕ} {parent : α → α} {x r : α} (node : α)
    (h : Climbs parent n x r) : ∃ m ≤ n, Climbs (findLoop fuel parent node).2 m x r := by
  induction fuel generalizing parent n node with
  | zero => exact ⟨n, le_rfl, h⟩
  | succ fuel ih =>
    unfold findLoop
    split
    · exact ⟨n, le_rfl, h⟩
    · obtain ⟨m, hm, hc⟩ := h.halve node
      obtain ⟨k, hk, hc'⟩ := ih (Shapeflow.halve parent node node) hc
      exact ⟨k, by omega, hc'⟩

/-- Parent pointers, the number of links made, and the climb bound they satisfy. -/
structure Forest (α : Type) where
  parent : α → α
  links : ℕ
  reaches : ∀ x, ∃ n ≤ links, ∃ r, Climbs parent n x r

namespace Forest

/-- Every node its own root. -/
def singletons : Forest α := ⟨id, 0, fun x => ⟨0, le_rfl, x, .root rfl⟩⟩

def find (f : Forest α) (x : α) : α × Forest α :=
  let out := findLoop f.links f.parent x
  (out.1, ⟨out.2, f.links, fun y => by
    obtain ⟨n, hn, r, h⟩ := f.reaches y
    obtain ⟨m, hm, hc⟩ := findLoop_climbs f.links x h
    exact ⟨m, le_trans hm hn, r, hc⟩⟩)

def root (f : Forest α) (x : α) : α := (f.find x).1

theorem root_of_climbs (f : Forest α) {n : ℕ} {x r : α} (h : Climbs f.parent n x r) :
    f.root x = r := by
  obtain ⟨m, hm, s, h'⟩ := f.reaches x
  obtain ⟨hnm, rfl⟩ := h.unique h'
  exact findLoop_root h (by omega)

theorem climbs_root (f : Forest α) (x : α) : ∃ n ≤ f.links, Climbs f.parent n x (f.root x) := by
  obtain ⟨n, hn, r, h⟩ := f.reaches x
  rw [f.root_of_climbs h]
  exact ⟨n, hn, h⟩

theorem root_singletons (x : α) : (singletons : Forest α).root x = x :=
  root_of_climbs _ (n := 0) (.root rfl)

theorem parent_root (f : Forest α) (x : α) : f.parent (f.root x) = f.root x := by
  obtain ⟨_, _, h⟩ := f.climbs_root x
  exact h.ends_at_root

theorem root_root (f : Forest α) (x : α) : f.root (f.root x) = f.root x :=
  f.root_of_climbs (.root (f.parent_root x))

/-- Looking a node up moves no node to another root. -/
@[simp] theorem root_find (f : Forest α) (x y : α) : (f.find x).2.root y = f.root y := by
  obtain ⟨n, _, h⟩ := f.climbs_root y
  obtain ⟨m, _, hc⟩ := findLoop_climbs f.links x h
  exact root_of_climbs _ hc

/-- Climbs after the root `b` has been pointed at another root `a`. -/
theorem climbs_link {parent : α → α} {a b : α} (ha : parent a = a) (hb : parent b = b)
    (hab : a ≠ b) {n : ℕ} {x r : α} (h : Climbs parent n x r) :
    ∃ m ≤ n + 1, Climbs (Function.update parent b a) m x (if r = b then a else r) := by
  have hroot : Climbs (Function.update parent b a) 0 a a :=
    .root (by rw [Function.update_of_ne hab, ha])
  induction h with
  | @root r hr =>
    by_cases hrb : r = b
    · subst hrb
      rw [if_pos rfl]
      refine ⟨1, le_rfl, .step ?_ ?_⟩
      · simpa using hab
      · simpa using hroot
    · rw [if_neg hrb]
      exact ⟨0, Nat.zero_le _, .root (by rw [Function.update_of_ne hrb, hr])⟩
  | @step n x r hx _ ih =>
    obtain ⟨m, hm, hc⟩ := ih
    have hxb : x ≠ b := by
      rintro rfl
      exact hx hb
    refine ⟨m + 1, by omega, .step ?_ ?_⟩
    · rwa [Function.update_of_ne hxb]
    · rwa [Function.update_of_ne hxb]

/-- Point the root `b` at the root `a`. -/
def link (f : Forest α) (a b : α) (ha : f.parent a = a) (hb : f.parent b = b) (hab : a ≠ b) :
    Forest α :=
  ⟨Function.update f.parent b a, f.links + 1, fun x => by
    obtain ⟨n, hn, r, h⟩ := f.reaches x
    obtain ⟨m, hm, hc⟩ := climbs_link ha hb hab h
    exact ⟨m, by omega, _, hc⟩⟩

def union (f : Forest α) (left right : α) : Forest α :=
  let g := (f.find left).2
  let h := (g.find right).2
  if hab : f.root left = f.root right then h
  else h.link (f.root left) (f.root right)
    (by simpa [g, h] using h.parent_root left) (by simpa [g, h] using h.parent_root right) hab

/-- A union hands the right tree to the left root and leaves every other tree alone. -/
theorem root_union (f : Forest α) (left right x : α) :
    (f.union left right).root x = if f.root x = f.root right then f.root left else f.root x := by
  unfold union
  simp only
  split
  · rename_i hab
    rw [root_find, root_find, hab]
    split
    · assumption
    · rfl
  · rename_i hab
    obtain ⟨n, _, h⟩ := ((f.find left).2.find right).2.climbs_root x
    rw [root_find, root_find] at h
    have hl := ((f.find left).2.find right).2.parent_root left
    have hr := ((f.find left).2.find right).2.parent_root right
    rw [root_find, root_find] at hl hr
    obtain ⟨m, _, hc⟩ := climbs_link hl hr hab h
    exact root_of_climbs _ hc

theorem root_union_joins (f : Forest α) (left right : α) :
    (f.union left right).root left = (f.union left right).root right := by
  rw [root_union, root_union, if_pos rfl]
  split
  · rfl
  · rfl

/-- A union splits no tree. -/
theorem root_union_mono {f : Forest α} {x y : α} (h : f.root x = f.root y) (left right : α) :
    (f.union left right).root x = (f.union left right).root y := by
  rw [root_union, root_union, h]

/-- A union joins nothing but its two arguments' trees. -/
theorem root_union_only {f : Forest α} {left right x y : α}
    (h : (f.union left right).root x = (f.union left right).root y) :
    f.root x = f.root y ∨ (f.root x = f.root left ∧ f.root y = f.root right) ∨
      (f.root x = f.root right ∧ f.root y = f.root left) := by
  rw [root_union, root_union] at h
  split at h <;> split at h
  · rename_i hx hy
    exact .inl (hx.trans hy.symm)
  · rename_i hx _
    exact .inr (.inr ⟨hx, h.symm⟩)
  · rename_i _ hy
    exact .inr (.inl ⟨h, hy⟩)
  · exact .inl h

/-- Join each pair in turn. -/
def unions (f : Forest α) (pairs : List (α × α)) : Forest α :=
  pairs.foldl (fun f p => f.union p.1 p.2) f

theorem root_unions_mono {f : Forest α} {x y : α} (h : f.root x = f.root y)
    (pairs : List (α × α)) : (f.unions pairs).root x = (f.unions pairs).root y := by
  induction pairs generalizing f with
  | nil => exact h
  | cons p pairs ih => exact ih (root_union_mono h p.1 p.2)

theorem root_unions_joins (f : Forest α) {pairs : List (α × α)} {p : α × α} (hp : p ∈ pairs) :
    (f.unions pairs).root p.1 = (f.unions pairs).root p.2 := by
  induction pairs generalizing f with
  | nil => simp at hp
  | cons q pairs ih =>
    rcases List.mem_cons.mp hp with rfl | hp
    · exact root_unions_mono (f.root_union_joins p.1 p.2) pairs
    · exact ih _ hp

end Forest
end Shapeflow
