import Mathlib.Algebra.BigOperators.Group.Finset.Basic
import Mathlib.Algebra.Order.BigOperators.Group.Finset
import Mathlib.Algebra.Order.Field.Basic
import Mathlib.Data.Finset.Card
import Mathlib.Tactic.FieldSimp
import Mathlib.Tactic.Linarith
import Mathlib.Tactic.Ring

set_option autoImplicit false

/-!
# List scheduling, longest jobs first

Jobs go to lanes one after the other, each to a lane that carries least. With the
longest jobs first, a lane that ends above what another assignment reaches took its
last job when all lanes were loaded, and that job is at most a third of it: otherwise
lanes hold two jobs at most, and counting jobs and big jobs on each lane gives one
job too many.
-/
namespace Shapeflow.ListScheduling

variable {ι κ α : Type*} [DecidableEq κ]

section
variable [AddCommMonoid α] {p : ι → α}

/-- What the jobs `S` put on the lane `k`. -/
def load (p : ι → α) (S : Finset ι) (lane : ι → κ) (k : κ) : α := ∑ i ∈ S with lane i = k, p i

theorem load_congr {S : Finset ι} {lane lane' : ι → κ} (h : ∀ i ∈ S, lane i = lane' i) (k : κ) :
    load p S lane k = load p S lane' k := by
  rw [load, load, Finset.filter_congr fun i hi => by rw [h i hi]]

theorem load_insert [DecidableEq ι] {S : Finset ι} {j : ι} (hj : j ∉ S) (lane : ι → κ) (k : κ) :
    load p (insert j S) lane k = (if lane j = k then p j else 0) + load p S lane k := by
  rw [load, Finset.filter_insert]
  split
  · rw [Finset.sum_insert fun h => hj (Finset.mem_of_mem_filter j h)]
    rfl
  · rw [zero_add]
    rfl

/-- The lanes carry all the work. -/
theorem sum_load {S : Finset ι} {L : Finset κ} {lane : ι → κ} (h : ∀ i ∈ S, lane i ∈ L) :
    ∑ k ∈ L, load p S lane k = ∑ i ∈ S, p i := Finset.sum_fiberwise_of_maps_to h p

end

variable [Field α] [LinearOrder α] [IsStrictOrderedRing α] {p : ι → α}

theorem load_nonneg (hp : ∀ i, 0 ≤ p i) (S : Finset ι) (lane : ι → κ) (k : κ) : 0 ≤ load p S lane k :=
  Finset.sum_nonneg fun i _ => hp i

theorem load_mono (hp : ∀ i, 0 ≤ p i) {S S' : Finset ι} (h : S ⊆ S') (lane : ι → κ) (k : κ) :
    load p S lane k ≤ load p S' lane k :=
  Finset.sum_le_sum_of_subset_of_nonneg (Finset.filter_subset_filter _ h) fun i _ _ => hp i

theorem le_load (hp : ∀ i, 0 ≤ p i) {S : Finset ι} {i : ι} (hi : i ∈ S) (lane : ι → κ) :
    p i ≤ load p S lane (lane i) :=
  Finset.single_le_sum (fun i _ => hp i) (Finset.mem_filter.mpr ⟨hi, rfl⟩)

/-! ## Two jobs to a lane -/

section
variable {S : Finset ι} {j : ι} {lane : ι → κ} {T : α} {k : κ}

/-- Jobs on a lane of a full assignment, those that leave no room for the last job counted twice. -/
theorem card_add_card_le_two [DecidableEq ι] (hpos : 0 ≤ p j) (hlong : ∀ i ∈ S, p j ≤ p i)
    (hthird : T < 3 * p j) (hload : load p S lane k ≤ T) :
    ({i ∈ S | lane i = k}).card + ({i ∈ {i ∈ S | T - p j < p i} | lane i = k}).card ≤ 2 := by
  have hbig : ({i ∈ {i ∈ S | T - p j < p i} | lane i = k}) ⊆ {i ∈ S | lane i = k} :=
    Finset.filter_subset_filter _ (Finset.filter_subset _ _)
  have hcard := Finset.card_le_card hbig
  have htwo : ({i ∈ S | lane i = k}).card ≤ 2 := by
    by_contra hmore
    have hsum : ({i ∈ S | lane i = k}).card • p j ≤ load p S lane k :=
      Finset.card_nsmul_le_sum _ _ _ fun i hi => hlong i (Finset.mem_of_mem_filter i hi)
    have hthree : 3 • p j ≤ ({i ∈ S | lane i = k}).card • p j :=
      nsmul_le_nsmul_left hpos (by omega)
    rw [nsmul_eq_mul] at hthree
    push_cast at hthree
    linarith
  rcases Nat.lt_or_ge ({i ∈ S | lane i = k}).card 2 with hone | hfull
  · omega
  · -- a big job shares its lane with no other
    obtain ⟨x, y, hxy, hpair⟩ := Finset.card_eq_two.mp (le_antisymm htwo hfull)
    have hnone : ({i ∈ {i ∈ S | T - p j < p i} | lane i = k}) = ∅ := by
      rw [Finset.eq_empty_iff_forall_notMem]
      intro z hz
      have hzS := hbig hz
      have hzbig : T - p j < p z := (Finset.mem_filter.mp (Finset.mem_filter.mp hz).1).2
      have hsum : load p S lane k = p x + p y := by rw [load, hpair, Finset.sum_pair hxy]
      have hx : p j ≤ p x := hlong x (Finset.mem_of_mem_filter x (hpair ▸ Finset.mem_insert_self x {y}))
      have hy : p j ≤ p y := hlong y (Finset.mem_of_mem_filter y
        (hpair ▸ Finset.mem_insert_of_mem (Finset.mem_singleton_self y)))
      rw [hpair, Finset.mem_insert, Finset.mem_singleton] at hzS
      rcases hzS with rfl | rfl <;> linarith
    rw [hnone, Finset.card_empty]
    omega

/-- On a lane with no room for the last job there are two jobs, or a big one. -/
theorem two_le_card_add_card (hroom : p j ≤ T) (hload : T - p j < load p S lane k) :
    2 ≤ ({i ∈ S | lane i = k}).card + ({i ∈ {i ∈ S | T - p j < p i} | lane i = k}).card := by
  rcases Nat.lt_or_ge ({i ∈ S | lane i = k}).card 2 with hfew | htwo
  · have hne : ({i ∈ S | lane i = k}).card ≠ 0 := by
      intro hzero
      rw [load, Finset.card_eq_zero.mp hzero, Finset.sum_empty] at hload
      linarith
    obtain ⟨x, hx⟩ := Finset.card_eq_one.mp (show ({i ∈ S | lane i = k}).card = 1 by omega)
    have hxmem : x ∈ ({i ∈ S | lane i = k}) := hx ▸ Finset.mem_singleton_self x
    rw [load, hx, Finset.sum_singleton] at hload
    have hbig : x ∈ ({i ∈ {i ∈ S | T - p j < p i} | lane i = k}) :=
      Finset.mem_filter.mpr ⟨Finset.mem_filter.mpr ⟨Finset.mem_of_mem_filter x hxmem, hload⟩,
        (Finset.mem_filter.mp hxmem).2⟩
    have := Finset.card_pos.mpr ⟨x, hbig⟩
    omega
  · omega

end

/-- A job that found no room on any lane is at most a third of what another assignment reaches. -/
theorem three_mul_le [DecidableEq ι] {S : Finset ι} {L : Finset κ} {j : ι} {lane other : ι → κ} {T : α}
    (hj : j ∉ S) (hlong : ∀ i ∈ S, p j ≤ p i) (hlane : ∀ i ∈ S, lane i ∈ L) (hother : ∀ i ∈ insert j S, other i ∈ L)
    (hp : ∀ i, 0 ≤ p i) (hfull : ∀ k ∈ L, T - p j < load p S lane k)
    (hopt : ∀ k ∈ L, load p (insert j S) other k ≤ T) : 3 * p j ≤ T := by
  by_contra hthird
  have hthird : T < 3 * p j := not_le.mp hthird
  have hroom : p j ≤ T :=
    (le_load hp (Finset.mem_insert_self j S) other).trans (hopt _ (hother j (Finset.mem_insert_self j S)))
  have hlong' : ∀ i ∈ insert j S, p j ≤ p i := by
    intro i hi
    rcases Finset.mem_insert.mp hi with rfl | hi
    · exact le_refl _
    · exact hlong i hi
  have hmost : (insert j S).card + ({i ∈ insert j S | T - p j < p i}).card ≤ L.card * 2 := by
    rw [Finset.card_eq_sum_card_fiberwise hother, Finset.card_eq_sum_card_fiberwise
      (fun i hi => hother i (Finset.mem_of_mem_filter i hi)), ← Finset.sum_add_distrib]
    exact Finset.sum_le_card_nsmul _ _ _ fun k hk => card_add_card_le_two (hp j) hlong' hthird (hopt k hk)
  have hleast : L.card * 2 ≤ S.card + ({i ∈ S | T - p j < p i}).card := by
    rw [Finset.card_eq_sum_card_fiberwise hlane, Finset.card_eq_sum_card_fiberwise
      (fun i hi => hlane i (Finset.mem_of_mem_filter i hi)), ← Finset.sum_add_distrib]
    exact Finset.card_nsmul_le_sum _ _ _ fun k hk => two_le_card_add_card hroom (hfull k hk)
  have hbig : ({i ∈ S | T - p j < p i}).card ≤ ({i ∈ insert j S | T - p j < p i}).card :=
    Finset.card_le_card (Finset.filter_subset_filter _ (Finset.subset_insert j S))
  rw [Finset.card_insert_of_notMem hj] at hmost
  omega

section
variable [DecidableEq ι]

/-- Each job of the list goes to a lane that carries least of the jobs before it. -/
def Greedy (p : ι → α) (L : Finset κ) (jobs : List ι) (lane : ι → κ) : Prop :=
  ∀ before j after, jobs = before ++ j :: after →
    ∀ k ∈ L, load p before.toFinset lane (lane j) ≤ load p before.toFinset lane k

omit [DecidableEq ι] in
/-- Its last job of a kind splits a list. -/
theorem exists_last {l : List ι} {P : ι → Prop} [DecidablePred P] (h : ∃ i ∈ l, P i) :
    ∃ before j after, l = before ++ j :: after ∧ P j ∧ ∀ i ∈ after, ¬P i := by
  induction l using List.reverseRecOn with
  | nil =>
    obtain ⟨i, hi, -⟩ := h
    cases hi
  | append_singleton l x ih =>
    by_cases hx : P x
    · exact ⟨l, x, [], rfl, hx, fun i hi => absurd hi List.not_mem_nil⟩
    · obtain ⟨i, hi, hPi⟩ := h
      have hil : i ∈ l := by
        rcases List.mem_append.mp hi with hi | hi
        · exact hi
        · exact absurd (List.mem_singleton.mp hi ▸ hPi) hx
      obtain ⟨before, j, after, rfl, hj, hafter⟩ := ih ⟨i, hil, hPi⟩
      refine ⟨before, j, after ++ [x], by simp, hj, fun i hi => ?_⟩
      rcases List.mem_append.mp hi with hi | hi
      · exact hafter i hi
      · exact List.mem_singleton.mp hi ▸ hx

/-- Longest jobs first, each on a least loaded lane: no lane carries more than `4/3 - 1/(3m)` times
what the lanes of any other assignment carry at most. -/
theorem lpt_load_le {L : Finset κ} {jobs : List ι} {lane other : ι → κ} {T : α}
    (hp : ∀ i, 0 ≤ p i) (hnodup : jobs.Nodup) (hsorted : jobs.Pairwise fun i j => p j ≤ p i)
    (hlane : ∀ i ∈ jobs, lane i ∈ L) (hother : ∀ i ∈ jobs, other i ∈ L) (hgreedy : Greedy p L jobs lane)
    (hopt : ∀ k ∈ L, load p jobs.toFinset other k ≤ T) {k : κ} (hk : k ∈ L) :
    load p jobs.toFinset lane k ≤ (4 / 3 - 1 / (3 * L.card)) * T := by
  replace hgreedy : ∀ before j after, jobs = before ++ j :: after →
      ∀ k ∈ L, load p before.toFinset lane (lane j) ≤ load p before.toFinset lane k := hgreedy
  have hm : (1 : α) ≤ L.card := by exact_mod_cast Finset.card_pos.mpr ⟨k, hk⟩
  have hT : 0 ≤ T := (load_nonneg hp _ other k).trans (hopt k hk)
  have hfactor : 1 / (3 * (L.card : α)) ≤ 1 / 3 :=
    one_div_le_one_div_of_le (by norm_num) (by linarith)
  rcases le_or_gt (load p jobs.toFinset lane k) T with hle | hgt
  · have : T ≤ (4 / 3 - 1 / (3 * L.card)) * T := by nlinarith
    exact hle.trans this
  · have hsome : ∃ i ∈ jobs, lane i = k := by
      by_contra hnone
      push Not at hnone
      have hempty : ({i ∈ jobs.toFinset | lane i = k}) = ∅ :=
        Finset.filter_eq_empty_iff.mpr fun i hi => hnone i (List.mem_toFinset.mp hi)
      rw [load, hempty, Finset.sum_empty] at hgt
      linarith
    obtain ⟨before, j, after, rfl, rfl, hafter⟩ := exists_last (P := fun i => lane i = k) hsome
    obtain ⟨-, hnodup', hdisj⟩ := List.nodup_append'.mp hnodup
    have hj : j ∉ before.toFinset := fun h => hdisj (List.mem_toFinset.mp h) (by simp)
    have hsub : insert j before.toFinset ⊆ (before ++ j :: after).toFinset := by
      intro i hi
      rw [List.mem_toFinset]
      rcases Finset.mem_insert.mp hi with rfl | hi
      · simp
      · exact List.mem_append_left _ (List.mem_toFinset.mp hi)
    have hlong : ∀ i ∈ before.toFinset, p j ≤ p i := fun i hi =>
      (List.pairwise_append.mp hsorted).2.2 i (List.mem_toFinset.mp hi) j (by simp)
    have hstart : load p (before ++ j :: after).toFinset lane (lane j) =
        p j + load p before.toFinset lane (lane j) := by
      have hlast : ({i ∈ (before ++ j :: after).toFinset | lane i = lane j}) =
          {i ∈ insert j before.toFinset | lane i = lane j} := by
        ext i
        simp only [Finset.mem_filter, List.mem_toFinset, Finset.mem_insert, List.mem_append, List.mem_cons]
        have := hafter i
        tauto
      have hinsert := load_insert (p := p) hj lane (lane j)
      rw [if_pos rfl] at hinsert
      rw [← hinsert, load, hlast]
      rfl
    have hfull : ∀ k ∈ L, T - p j < load p before.toFinset lane k := by
      intro k hk
      have := hgreedy before j after rfl k hk
      linarith
    have hthird : 3 * p j ≤ T := three_mul_le hj hlong
      (fun i hi => hlane i (List.mem_append_left _ (List.mem_toFinset.mp hi)))
      (fun i hi => hother i (List.mem_toFinset.mp (hsub hi))) hp hfull
      fun k hk => (load_mono hp hsub other k).trans (hopt k hk)
    -- all lanes carried at least as much before the last job of this one
    have hbefore : L.card * load p before.toFinset lane (lane j) ≤ ∑ i ∈ before.toFinset, p i := by
      rw [← sum_load fun i hi => hlane i (List.mem_append_left _ (List.mem_toFinset.mp hi)), ← nsmul_eq_mul]
      exact Finset.card_nsmul_le_sum _ _ _ fun k hk => hgreedy before j after rfl k hk
    have hwork : p j + ∑ i ∈ before.toFinset, p i ≤ L.card * T := by
      rw [← Finset.sum_insert hj, ← nsmul_eq_mul]
      refine (Finset.sum_le_sum_of_subset_of_nonneg hsub fun i _ _ => hp i).trans ?_
      rw [← sum_load fun i hi => hother i (List.mem_toFinset.mp hi)]
      exact Finset.sum_le_card_nsmul _ _ _ hopt
    have hpos : (0 : α) < L.card := by linarith
    refine le_of_mul_le_mul_left ?_ hpos
    have hscaled : (L.card : α) * ((4 / 3 - 1 / (3 * L.card)) * T) = (4 * L.card - 1) / 3 * T := by
      field_simp
    rw [hstart, hscaled]
    nlinarith [mul_le_mul_of_nonneg_left hthird (sub_nonneg.mpr hm)]

end

end Shapeflow.ListScheduling
