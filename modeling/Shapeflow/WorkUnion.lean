import Mathlib.MeasureTheory.Measure.Lebesgue.Basic
import Shapeflow.WorkAccounting

set_option autoImplicit false

/-!
# The union of the service intervals

The sweep keeps one stretch open and closes it at the first gap. What it has closed
together with the open stretch is the measure of what it has read, so its result is
the measure of the union and does not depend on the order of the events.
-/
namespace Shapeflow.Accounting
open Intervals MeasureTheory

/-- The instants of an interval, on the real line. -/
def instants (iv : ℚ × ℚ) : Set ℝ := Set.Icc (iv.1 : ℝ) (iv.2 : ℝ)

theorem volume_instants (iv : ℚ × ℚ) : volume (instants iv) = ENNReal.ofReal ((iv.2 - iv.1 : ℚ) : ℝ) := by
  rw [instants, Real.volume_Icc, Rat.cast_sub]

theorem measurableSet_instants (iv : ℚ × ℚ) : MeasurableSet (instants iv) := measurableSet_Icc

/-- The instants of a list of intervals. -/
def covered (l : List (ℚ × ℚ)) : Set ℝ := {x | ∃ iv ∈ l, x ∈ instants iv}

theorem covered_cons (iv : ℚ × ℚ) (l : List (ℚ × ℚ)) : covered (iv :: l) = instants iv ∪ covered l := by
  ext x
  simp [covered]

theorem covered_nil : covered [] = ∅ := by
  ext x
  simp [covered]

theorem covered_perm {l l' : List (ℚ × ℚ)} (h : l.Perm l') : covered l = covered l' := by
  ext x
  simp only [covered, Set.mem_setOf_eq, h.mem_iff]

theorem measurableSet_covered (l : List (ℚ × ℚ)) : MeasurableSet (covered l) := by
  induction l with
  | nil =>
    rw [covered_nil]
    exact MeasurableSet.empty
  | cons iv l ih =>
    rw [covered_cons]
    exact (measurableSet_instants iv).union ih

/-- Points are not seen by the measure. -/
theorem covered_proper_ae (l : List (ℚ × ℚ)) :
    covered (l.filter fun iv => iv.1 < iv.2) =ᵐ[volume] covered l := by
  induction l with
  | nil => exact Filter.EventuallyEq.rfl
  | cons iv l ih =>
    rw [List.filter_cons, covered_cons]
    split
    · rw [covered_cons]
      exact Filter.EventuallyEq.union Filter.EventuallyEq.rfl ih
    · rename_i hpoint
      have hle : iv.2 ≤ iv.1 := not_lt.mp fun h => hpoint (decide_eq_true h)
      have hnull : volume (instants iv) = 0 := by
        rw [volume_instants, ENNReal.ofReal_eq_zero]
        exact Rat.cast_nonpos.mpr (sub_nonpos.mpr hle)
      exact ih.trans (union_ae_eq_right_of_ae_eq_empty (ae_eq_empty.mpr hnull)).symm

/-- The duration of the stretch `c` extended along the sorted intervals `l`. -/
def extended (c : ℚ × ℚ) : List (ℚ × ℚ) → ℚ
  | [] => c.2 - c.1
  | iv :: l => if c.2 < iv.1 then (c.2 - c.1) + extended iv l else extended (c.1, max c.2 iv.2) l

theorem foldl_take (l : List (ℚ × ℚ)) (total : ℚ) (c : ℚ × ℚ) :
    (l.foldl Sweep.take ⟨total, some c⟩).finish = total + extended c l := by
  induction l generalizing total c with
  | nil => rfl
  | cons iv l ih =>
    rw [List.foldl_cons, extended]
    by_cases h : c.2 < iv.1
    · have hstep : Sweep.take ⟨total, some c⟩ iv = ⟨total + (c.2 - c.1), some iv⟩ := if_pos h
      rw [hstep, ih, if_pos h, add_assoc]
    · have hstep : Sweep.take ⟨total, some c⟩ iv = ⟨total, some (c.1, max c.2 iv.2)⟩ := if_neg h
      rw [hstep, ih, if_neg h]

theorem intervalUnionSeconds_eq (events : List RequestEvent) :
    intervalUnionSeconds events =
      match byStart (properIntervals events) with
      | [] => 0
      | c :: l => extended c l := by
  rw [intervalUnionSeconds]
  cases byStart (properIntervals events) with
  | nil => rfl
  | cons c l =>
    rw [List.foldl_cons]
    exact (foldl_take l 0 c).trans (zero_add _)

/-- Extending keeps the duration nonnegative. -/
theorem extended_nonneg {c : ℚ × ℚ} {l : List (ℚ × ℚ)} (hc : c.1 ≤ c.2) (hl : ∀ iv ∈ l, iv.1 ≤ iv.2) :
    0 ≤ extended c l := by
  induction l generalizing c with
  | nil => exact sub_nonneg.mpr hc
  | cons iv l ih =>
    have hrest : ∀ b ∈ l, b.1 ≤ b.2 := fun b hb => hl b (List.mem_cons_of_mem iv hb)
    rw [extended]
    split
    · exact add_nonneg (sub_nonneg.mpr hc) (ih (hl iv (by simp)) hrest)
    · exact ih (hc.trans (le_max_left _ _)) hrest

/-- Two stretches that meet are one. -/
theorem instants_union {c iv : ℚ × ℚ} (hle : c.1 ≤ iv.1) (hmeet : iv.1 ≤ c.2) :
    instants c ∪ instants iv = instants (c.1, max c.2 iv.2) := by
  have hle : (c.1 : ℝ) ≤ (iv.1 : ℝ) := Rat.cast_le.mpr hle
  have hmeet : (iv.1 : ℝ) ≤ (c.2 : ℝ) := Rat.cast_le.mpr hmeet
  simp only [instants, Rat.cast_max]
  ext x
  simp only [Set.mem_union, Set.mem_Icc, le_max_iff]
  constructor
  · rintro (⟨hlow, hhigh⟩ | ⟨hlow, hhigh⟩)
    · exact ⟨hlow, Or.inl hhigh⟩
    · exact ⟨hle.trans hlow, Or.inr hhigh⟩
  · rintro ⟨hlow, hhigh⟩
    rcases le_total x c.2 with hx | hx
    · exact Or.inl ⟨hlow, hx⟩
    · rcases hhigh with hhigh | hhigh
      · exact Or.inl ⟨hlow, hhigh⟩
      · exact Or.inr ⟨hmeet.trans hx, hhigh⟩

/-- A stretch that ends before the next start is apart from all that follows. -/
theorem not_covered {c : ℚ × ℚ} {l : List (ℚ × ℚ)} (h : ∀ iv ∈ l, c.2 < iv.1) {x : ℝ} (hx : x ∈ instants c) :
    x ∉ covered l := by
  rintro ⟨iv, hiv, hxiv⟩
  have hlt : (c.2 : ℝ) < (iv.1 : ℝ) := Rat.cast_lt.mpr (h iv hiv)
  exact absurd (hxiv.1.trans hx.2) hlt.not_ge

/-- The sweep over sorted intervals is the measure of what they cover. -/
theorem volume_covered_eq {c : ℚ × ℚ} {l : List (ℚ × ℚ)}
    (hsorted : (c :: l).Pairwise fun a b => a.1 ≤ b.1) (hforward : ∀ iv ∈ c :: l, iv.1 ≤ iv.2) :
    volume (covered (c :: l)) = ENNReal.ofReal (extended c l : ℚ) := by
  induction l generalizing c with
  | nil => rw [covered_cons, covered_nil, Set.union_empty, volume_instants, extended]
  | cons iv l ih =>
    obtain ⟨hc, hl⟩ := List.pairwise_cons.mp hsorted
    have hforward' : ∀ b ∈ iv :: l, b.1 ≤ b.2 := fun b hb => hforward b (List.mem_cons_of_mem c hb)
    have hc12 : c.1 ≤ c.2 := hforward c (by simp)
    rw [extended]
    split
    · rename_i hgap
      have hapart : ∀ b ∈ iv :: l, c.2 < b.1 := by
        intro b hb
        rcases List.mem_cons.mp hb with rfl | hb
        · exact hgap
        · exact hgap.trans_le ((List.pairwise_cons.mp hl).1 b hb)
      rw [covered_cons, measure_union (Set.disjoint_left.mpr fun x => not_covered hapart) (measurableSet_covered _),
        ih hl hforward', volume_instants, Rat.cast_add, ENNReal.ofReal_add]
      · exact Rat.cast_nonneg.mpr (sub_nonneg.mpr hc12)
      · exact Rat.cast_nonneg.mpr (extended_nonneg (hforward' iv (by simp))
          fun b hb => hforward' b (List.mem_cons_of_mem iv hb))
    · rename_i hmeet
      have hle : c.1 ≤ iv.1 := hc iv (by simp)
      have hone : covered (c :: iv :: l) = covered ((c.1, max c.2 iv.2) :: l) := by
        rw [covered_cons, covered_cons, covered_cons, ← Set.union_assoc, instants_union hle (not_lt.mp hmeet)]
      rw [hone]
      refine ih (List.pairwise_cons.mpr ⟨fun b hb => hc b (List.mem_cons_of_mem iv hb),
        (List.pairwise_cons.mp hl).2⟩) fun b hb => ?_
      rcases List.mem_cons.mp hb with rfl | hb
      · exact hc12.trans (le_max_left _ _)
      · exact hforward' b (List.mem_cons_of_mem iv hb)

/-! ## Against the sum of the durations -/

def durations (l : List (ℚ × ℚ)) : ℚ := (l.map fun iv => iv.2 - iv.1).sum

theorem durations_cons (iv : ℚ × ℚ) (l : List (ℚ × ℚ)) : durations (iv :: l) = (iv.2 - iv.1) + durations l := by
  rw [durations, List.map_cons, List.sum_cons]
  rfl

/-- Merging counts no instant twice, and loses nothing only along intervals that follow one another. -/
theorem extended_le_durations {c : ℚ × ℚ} {l : List (ℚ × ℚ)}
    (hsorted : (c :: l).Pairwise fun a b => a.1 ≤ b.1) (hproper : ∀ iv ∈ c :: l, iv.1 < iv.2) :
    extended c l ≤ durations (c :: l) ∧
      (extended c l = durations (c :: l) ↔ (c :: l).Pairwise Before) := by
  induction l generalizing c with
  | nil =>
    rw [durations_cons, extended, show durations [] = 0 from rfl, add_zero]
    exact ⟨le_refl _, fun _ => List.pairwise_singleton _ _, fun _ => rfl⟩
  | cons iv l ih =>
    obtain ⟨hc, hl⟩ := List.pairwise_cons.mp hsorted
    have hproper' : ∀ b ∈ iv :: l, b.1 < b.2 := fun b hb => hproper b (List.mem_cons_of_mem c hb)
    have hiv : iv.1 < iv.2 := hproper' iv (by simp)
    have hle : c.1 ≤ iv.1 := hc iv (by simp)
    rw [extended, durations_cons]
    split
    · rename_i hgap
      obtain ⟨hrest, hiff⟩ := ih hl hproper'
      refine ⟨by linarith, ?_⟩
      rw [add_right_inj, hiff, List.pairwise_cons (a := c)]
      refine ⟨fun h => ⟨fun b hb => ?_, h⟩, fun h => h.2⟩
      rcases List.mem_cons.mp hb with rfl | hb
      · exact hgap.le
      · exact hgap.le.trans ((List.pairwise_cons.mp hl).1 b hb)
    · rename_i hmeet
      have hmeet : iv.1 ≤ c.2 := not_lt.mp hmeet
      have hjoined : ∀ b ∈ (c.1, max c.2 iv.2) :: l, b.1 < b.2 := by
        intro b hb
        rcases List.mem_cons.mp hb with rfl | hb
        · exact (hproper c (by simp)).trans_le (le_max_left _ _)
        · exact hproper' b (List.mem_cons_of_mem iv hb)
      obtain ⟨hrest, hiff⟩ := ih (c := (c.1, max c.2 iv.2)) (List.pairwise_cons.mpr
        ⟨fun b hb => hc b (List.mem_cons_of_mem iv hb), (List.pairwise_cons.mp hl).2⟩) hjoined
      rw [durations_cons] at hrest hiff
      rw [durations_cons]
      rcases hmeet.eq_or_lt with htouch | hover
      · -- touching ends: nothing is lost here, and what follows starts after both
        have hmax : max c.2 iv.2 = iv.2 := max_eq_right (htouch ▸ hiv.le)
        rw [hmax] at hrest hiff ⊢
        simp only at hrest hiff
        refine ⟨by linarith, ?_⟩
        have hsum : extended (c.1, iv.2) l = c.2 - c.1 + (iv.2 - iv.1 + durations l) ↔
            extended (c.1, iv.2) l = iv.2 - c.1 + durations l := by
          constructor <;> intro h <;> linarith
        rw [hsum, hiff, List.pairwise_cons, List.pairwise_cons, List.pairwise_cons]
        constructor
        · rintro ⟨hfirst, hothers⟩
          refine ⟨fun b hb => ?_, hfirst, hothers⟩
          rcases List.mem_cons.mp hb with rfl | hb
          · exact htouch.ge
          · exact htouch.ge.trans ((List.pairwise_cons.mp hl).1 b hb)
        · rintro ⟨-, hfirst, hothers⟩
          exact ⟨hfirst, hothers⟩
      · have hmax : max c.2 iv.2 - c.1 < c.2 - c.1 + (iv.2 - iv.1) := by
          rcases max_choice c.2 iv.2 with h | h <;> rw [h] <;> linarith
        simp only at hrest
        refine ⟨by linarith, fun h => absurd h (by linarith), fun h => ?_⟩
        exact absurd ((List.pairwise_cons.mp h).1 iv (by simp)) (not_le.mpr hover)

/-! ## The union over the events -/

section
variable {events : List RequestEvent}

theorem properIntervals_proper : ∀ iv ∈ byStart (properIntervals events), iv.1 < iv.2 := fun _ hiv =>
  (mem_properIntervals.mp ((perm_byStart _).mem_iff.mp hiv)).1

theorem intervalUnionSeconds_nonneg : 0 ≤ intervalUnionSeconds events := by
  rw [intervalUnionSeconds_eq]
  have hproper := @properIntervals_proper events
  split
  · exact le_refl 0
  · rename_i c l heq
    rw [heq] at hproper
    exact extended_nonneg (hproper c (by simp)).le fun iv hiv => (hproper iv (List.mem_cons_of_mem c hiv)).le

/-- The sweep measures what the treatment intervals cover. -/
theorem volume_covered_events :
    volume (covered ((treatment events).map RequestEvent.interval)) =
      ENNReal.ofReal (intervalUnionSeconds events : ℚ) := by
  rw [← measure_congr (covered_proper_ae _), ← properIntervals_eq, ← covered_perm (perm_byStart _),
    intervalUnionSeconds_eq]
  have hproper := @properIntervals_proper events
  have hsorted := sorted_byStart (properIntervals events)
  split
  · rename_i heq
    rw [heq, covered_nil, measure_empty, Rat.cast_zero, ENNReal.ofReal_zero]
  · rename_i c l heq
    rw [heq] at hproper hsorted ⊢
    exact volume_covered_eq hsorted fun iv hiv => (hproper iv hiv).le

theorem intervalUnionSeconds_perm {events' : List RequestEvent} (h : events'.Perm events) :
    intervalUnionSeconds events' = intervalUnionSeconds events := by
  have hvolume : ENNReal.ofReal (intervalUnionSeconds events' : ℚ) =
      ENNReal.ofReal (intervalUnionSeconds events : ℚ) := by
    rw [← volume_covered_events, ← volume_covered_events, covered_perm ((treatment_perm h).map _)]
  rw [ENNReal.ofReal_eq_ofReal_iff (Rat.cast_nonneg.mpr intervalUnionSeconds_nonneg)
    (Rat.cast_nonneg.mpr intervalUnionSeconds_nonneg)] at hvolume
  exact Rat.cast_injective hvolume

theorem durations_perm {l l' : List (ℚ × ℚ)} (h : l.Perm l') : durations l = durations l' :=
  (h.map _).sum_eq

/-- Intervals without length last no time. -/
theorem durations_proper {l : List (ℚ × ℚ)} (hforward : ∀ iv ∈ l, iv.1 ≤ iv.2) :
    durations (l.filter fun iv => iv.1 < iv.2) = durations l := by
  induction l with
  | nil => rfl
  | cons iv l ih =>
    have hl := ih fun b hb => hforward b (List.mem_cons_of_mem iv hb)
    rw [List.filter_cons, durations_cons]
    split
    · rw [durations_cons, hl]
    · rename_i hpoint
      have hle : iv.2 ≤ iv.1 := not_lt.mp fun h => hpoint (decide_eq_true h)
      rw [hl, le_antisymm hle (hforward iv (by simp)), sub_self, zero_add]

theorem isolatedServiceWork_unverified (events : List RequestEvent) :
    isolatedServiceWork events false = .ok (durations ((treatment events).map RequestEvent.interval)) := by
  rw [durations, List.map_map]
  rfl

/-- The union is at most the sum, and the sum exactly when the intervals are serialized. -/
theorem intervalUnionSeconds_le (hforward : ∀ e ∈ events, e.upstreamDispatchTs ≤ e.upstreamResponseEndTs) :
    intervalUnionSeconds events ≤ durations ((treatment events).map RequestEvent.interval) ∧
      (intervalUnionSeconds events = durations ((treatment events).map RequestEvent.interval) ↔
        Serialized events) := by
  have hall : ∀ iv ∈ (treatment events).map RequestEvent.interval, iv.1 ≤ iv.2 := by
    intro iv hiv
    obtain ⟨e, he, rfl⟩ := List.mem_map.mp hiv
    exact hforward e (List.mem_of_mem_filter he)
  rw [← durations_proper hall, ← properIntervals_eq, ← durations_perm (perm_byStart _),
    serialized_iff_proper, ← (perm_byStart _).pairwise_iff not_overlap_symm, intervalUnionSeconds_eq]
  have hproper := @properIntervals_proper events
  have hsorted := sorted_byStart (properIntervals events)
  split
  · rename_i heq
    rw [heq]
    exact ⟨le_refl 0, fun _ => List.Pairwise.nil, fun _ => rfl⟩
  · rename_i c l heq
    rw [heq] at hproper hsorted ⊢
    rw [← pairwise_before_iff hsorted hproper]
    exact extended_le_durations hsorted hproper

/-- Wall-clock seconds are the measure of the union of the treatment intervals: the same for
every order of the events, at most the summed service, and the same as it only without overlap. -/
theorem intervalUnionSeconds_measure (events : List RequestEvent)
    (hforward : ∀ e ∈ events, e.upstreamDispatchTs ≤ e.upstreamResponseEndTs) :
    0 ≤ intervalUnionSeconds events ∧
    volume {x : ℝ | ∃ e ∈ treatment events,
      (e.upstreamDispatchTs : ℝ) ≤ x ∧ x ≤ (e.upstreamResponseEndTs : ℝ)} =
        ENNReal.ofReal (intervalUnionSeconds events : ℚ) ∧
    (∀ events' : List RequestEvent, events'.Perm events →
      intervalUnionSeconds events' = intervalUnionSeconds events) ∧
    ∃ work, isolatedServiceWork events false = .ok work ∧
      work = ((treatment events).map RequestEvent.serviceSeconds).sum ∧
      intervalUnionSeconds events ≤ work ∧
      (intervalUnionSeconds events = work ↔
        (treatment events).Pairwise fun a b => ¬Overlap a.interval b.interval) := by
  refine ⟨intervalUnionSeconds_nonneg, ?_, fun _ h => intervalUnionSeconds_perm h, _,
    isolatedServiceWork_unverified events, ?_, (intervalUnionSeconds_le hforward).1, ?_⟩
  · rw [← volume_covered_events]
    congr 1
    ext x
    constructor
    · rintro ⟨e, he, hx⟩
      exact ⟨e.interval, List.mem_map_of_mem he, hx⟩
    · rintro ⟨iv, hiv, hx⟩
      obtain ⟨e, he, rfl⟩ := List.mem_map.mp hiv
      exact ⟨e, he, hx⟩
  · rw [durations, List.map_map]
    rfl
  · rw [(intervalUnionSeconds_le hforward).2, Serialized, List.pairwise_map]

theorem intervalUnionSeconds_measure_nested :
    intervalUnionSeconds [⟨.pageP0Summary, 0, 5⟩, ⟨.researcherReact, 2, 2⟩, ⟨.finalWriter, 4, 7⟩] = 7 ∧
    volume {x : ℝ | ∃ e ∈ treatment [⟨.pageP0Summary, 0, 5⟩, ⟨.researcherReact, 2, 2⟩, ⟨.finalWriter, 4, 7⟩],
      (e.upstreamDispatchTs : ℝ) ≤ x ∧ x ≤ (e.upstreamResponseEndTs : ℝ)} =
        ENNReal.ofReal (intervalUnionSeconds
          [⟨.pageP0Summary, 0, 5⟩, ⟨.researcherReact, 2, 2⟩, ⟨.finalWriter, 4, 7⟩] : ℚ) :=
  ⟨by decide +kernel, (intervalUnionSeconds_measure _ (by decide)).2.1⟩

end

end Shapeflow.Accounting
