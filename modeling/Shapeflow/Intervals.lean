import Mathlib.Algebra.Order.Group.Int
import Mathlib.Algebra.Order.Ring.Int
import Mathlib.Data.List.Sort
import Mathlib.Data.List.Infix
import Mathlib.Algebra.BigOperators.Group.List.Basic
import Mathlib.Algebra.Order.BigOperators.Group.List
import Mathlib.Tactic.Linarith
import Mathlib.Tactic.Ring

set_option autoImplicit false

/-!
# Intervals on a line

An interval is a start and an end. Two of them overlap when they share a stretch of
positive length, so touching ends and points overlap nothing. How many of a list's
intervals are open at one instant is read off the running sum of its boundaries.
-/
namespace Shapeflow.Intervals

section
variable {α : Type*} [LinearOrder α]

/-- A stretch of positive length lies in both. -/
def Overlap (a b : α × α) : Prop := max a.1 b.1 < min a.2 b.2

instance (a b : α × α) : Decidable (Overlap a b) := inferInstanceAs (Decidable (_ < _))

theorem overlap_iff {a b : α × α} : Overlap a b ↔ a.1 < a.2 ∧ a.1 < b.2 ∧ b.1 < a.2 ∧ b.1 < b.2 := by
  rw [Overlap, max_lt_iff, lt_min_iff, lt_min_iff]
  tauto

theorem Overlap.symm {a b : α × α} (h : Overlap a b) : Overlap b a := by
  rw [Overlap, max_comm, min_comm]
  exact h

theorem not_overlap_symm {a b : α × α} (h : ¬Overlap a b) : ¬Overlap b a := fun hba => h hba.symm

/-- Nothing of the second is before the end of the first. -/
def Before (a b : α × α) : Prop := a.2 ≤ b.1

instance (a b : α × α) : Decidable (Before a b) := inferInstanceAs (Decidable (_ ≤ _))

theorem Before.not_overlap {a b : α × α} (h : Before a b) : ¬Overlap a b := fun ho =>
  absurd (overlap_iff.mp ho).2.2.1 h.not_gt

theorem before_of_not_overlap {a b : α × α} (ha : a.1 < a.2) (hb : b.1 < b.2) (hle : a.1 ≤ b.1)
    (h : ¬Overlap a b) : Before a b := by
  by_contra hlt
  exact h (overlap_iff.mpr ⟨ha, hle.trans_lt hb, not_le.mp hlt, hb⟩)

/-- In an order by starts, no overlap means one after the other. -/
theorem pairwise_before_iff {l : List (α × α)} (hsorted : l.Pairwise fun a b => a.1 ≤ b.1)
    (hproper : ∀ a ∈ l, a.1 < a.2) : l.Pairwise Before ↔ l.Pairwise fun a b => ¬Overlap a b := by
  constructor
  · exact fun h => h.imp Before.not_overlap
  · intro h
    refine (hsorted.and h).imp_of_mem ?_
    rintro a b ha hb ⟨hle, hnot⟩
    exact before_of_not_overlap (hproper a ha) (hproper b hb) hle hnot

/-- Ends do not run backwards along neighbours that follow one another. -/
theorem pairwise_before_of_isChain {l : List (α × α)} (hforward : ∀ a ∈ l, a.1 ≤ a.2)
    (h : l.IsChain Before) : l.Pairwise Before := by
  induction l with
  | nil => exact List.Pairwise.nil
  | cons a l ih =>
    cases l with
    | nil => exact List.pairwise_singleton _ a
    | cons c l =>
      obtain ⟨hac, htail⟩ := List.isChain_cons_cons.mp h
      have hl := ih (fun b hb => hforward b (List.mem_cons_of_mem a hb)) htail
      refine List.pairwise_cons.mpr ⟨fun b hb => ?_, hl⟩
      rcases List.mem_cons.mp hb with rfl | hb
      · exact hac
      · have hcb : Before c b := (List.pairwise_cons.mp hl).1 b hb
        exact hac.trans ((hforward c (by simp)).trans hcb)

/-! ## Open at an instant -/

/-- The intervals that have begun and not ended at `t`. -/
def openAt (t : α) (l : List (α × α)) : ℕ := l.countP fun a => a.1 ≤ t ∧ t < a.2

theorem openAt_le_one {l : List (α × α)} (h : l.Pairwise fun a b => ¬Overlap a b) (t : α) :
    openAt t l ≤ 1 := by
  induction l with
  | nil => exact Nat.zero_le 1
  | cons a l ih =>
    have hl := ih (List.pairwise_cons.mp h).2
    rw [openAt, List.countP_cons]
    split
    · rename_i ha
      have ha := of_decide_eq_true ha
      have hnone : l.countP (fun b => decide (b.1 ≤ t ∧ t < b.2)) = 0 := by
        refine List.countP_eq_zero.mpr fun b hb hopen => ?_
        have hopen := of_decide_eq_true hopen
        exact (List.pairwise_cons.mp h).1 b hb (overlap_iff.mpr
          ⟨ha.1.trans_lt ha.2, ha.1.trans_lt hopen.2, hopen.1.trans_lt ha.2, hopen.1.trans_lt hopen.2⟩)
      omega
    · exact hl

/-- Two are open at once exactly when two overlap. -/
theorem one_lt_openAt_iff {l : List (α × α)} :
    (∃ t, 1 < openAt t l) ↔ ¬l.Pairwise fun a b => ¬Overlap a b := by
  constructor
  · rintro ⟨t, ht⟩ h
    exact absurd (openAt_le_one h t) (by omega)
  · intro h
    rw [List.pairwise_iff_forall_sublist] at h
    push Not at h
    obtain ⟨a, b, hsub, ho⟩ := h
    have ho' := overlap_iff.mp ho
    refine ⟨max a.1 b.1, lt_of_lt_of_le ?_ (hsub.countP_le)⟩
    simp [ho']

/-! ## Boundaries -/

/-- What the boundaries at or before `t` add up to. -/
def levelAt (t : α) (bs : List (α × ℤ)) : ℤ := (bs.map fun b => if b.1 ≤ t then b.2 else 0).sum

/-- A start raises the level, an end lowers it. -/
def boundaries (l : List (α × α)) : List (α × ℤ) := l.flatMap fun a => [(a.1, 1), (a.2, -1)]

theorem levelAt_append (t : α) (bs cs : List (α × ℤ)) :
    levelAt t (bs ++ cs) = levelAt t bs + levelAt t cs := by
  rw [levelAt, List.map_append, List.sum_append]
  rfl

theorem levelAt_perm (t : α) {bs cs : List (α × ℤ)} (h : bs.Perm cs) : levelAt t bs = levelAt t cs :=
  (h.map _).sum_eq

theorem levelAt_boundaries (t : α) {l : List (α × α)} (hforward : ∀ a ∈ l, a.1 ≤ a.2) :
    levelAt t (boundaries l) = openAt t l := by
  induction l with
  | nil => rfl
  | cons a l ih =>
    have hl := ih fun b hb => hforward b (List.mem_cons_of_mem a hb)
    have ha := hforward a (by simp)
    have hcons : boundaries (a :: l) = [(a.1, 1), (a.2, -1)] ++ boundaries l := rfl
    rw [hcons, levelAt_append, hl, openAt, openAt, List.countP_cons]
    simp only [levelAt, List.map_cons, List.map_nil, List.sum_cons, List.sum_nil, decide_eq_true_eq]
    rcases lt_or_ge t a.2 with hend | hend
    · rcases le_or_gt a.1 t with hstart | hstart
      · rw [if_pos hstart, if_neg hend.not_ge, if_pos ⟨hstart, hend⟩]
        push_cast
        ring
      · rw [if_neg hstart.not_ge, if_neg hend.not_ge, if_neg fun h => hstart.not_ge h.1]
        push_cast
        ring
    · rw [if_pos (ha.trans hend), if_pos hend, if_neg fun h => hend.not_gt h.2]
      push_cast
      ring

/-- Ends come before starts at one instant. -/
def BoundaryLe (b c : α × ℤ) : Prop := b.1 < c.1 ∨ b.1 = c.1 ∧ b.2 ≤ c.2

instance (b c : α × ℤ) : Decidable (BoundaryLe b c) := inferInstanceAs (Decidable (_ ∨ _))

theorem BoundaryLe.fst_le {b c : α × ℤ} (h : BoundaryLe b c) : b.1 ≤ c.1 := by
  rcases h with h | ⟨h, -⟩
  · exact h.le
  · exact h.le

instance boundaryLe_total : Std.Total (BoundaryLe (α := α)) := ⟨fun b c => by
  rcases lt_trichotomy b.1 c.1 with h | h | h
  · exact Or.inl (Or.inl h)
  · rcases le_total b.2 c.2 with h2 | h2
    · exact Or.inl (Or.inr ⟨h, h2⟩)
    · exact Or.inr (Or.inr ⟨h.symm, h2⟩)
  · exact Or.inr (Or.inl h)⟩

instance boundaryLe_trans : IsTrans (α × ℤ) BoundaryLe := ⟨fun b c d hbc hcd => by
  rcases hbc with h | ⟨h, h2⟩
  · exact Or.inl (h.trans_le hcd.fst_le)
  · rcases hcd with h' | ⟨h', h2'⟩
    · exact Or.inl (h.trans_lt h')
    · exact Or.inr ⟨h.trans h', h2.trans h2'⟩⟩

instance boundaryLe_antisymm : Std.Antisymm (BoundaryLe (α := α)) := ⟨fun b c h h' => by
  have h1 : b.1 = c.1 := le_antisymm h.fst_le h'.fst_le
  rcases h with h | ⟨-, h2⟩
  · exact absurd h1 h.ne
  · rcases h' with h' | ⟨-, h2'⟩
    · exact absurd h1.symm h'.ne
    · exact Prod.ext h1 (le_antisymm h2 h2')⟩

/-- The sum of a run of boundaries up to a start is at most what is open then. -/
theorem sum_le_levelAt {before after : List (α × ℤ)} {t : α}
    (hbefore : ∀ b ∈ before, b.1 ≤ t) (hafter : ∀ b ∈ after, b.1 ≤ t → 0 ≤ b.2) :
    (before.map Prod.snd).sum ≤ levelAt t (before ++ after) := by
  have hfirst : levelAt t before = (before.map Prod.snd).sum := by
    rw [levelAt]
    exact congrArg List.sum (List.map_congr_left fun b hb => if_pos (hbefore b hb))
  have hlast : 0 ≤ levelAt t after := by
    refine List.sum_nonneg fun d hd => ?_
    obtain ⟨b, hb, rfl⟩ := List.mem_map.mp hd
    split
    · rename_i hle
      exact hafter b hb hle
    · exact le_refl 0
  rw [levelAt_append, hfirst]
  linarith

/-- Along sorted boundaries the level at `t` is the sum of a first run of them. -/
theorem exists_run_levelAt {bs : List (α × ℤ)} (hsorted : bs.Pairwise BoundaryLe) (t : α) :
    ∃ before, before <+: bs ∧ (before.map Prod.snd).sum = levelAt t bs := by
  induction bs with
  | nil => exact ⟨[], List.prefix_rfl, rfl⟩
  | cons b bs ih =>
    obtain ⟨hb, hbs⟩ := List.pairwise_cons.mp hsorted
    by_cases hle : b.1 ≤ t
    · obtain ⟨before, hpre, hsum⟩ := ih hbs
      refine ⟨b :: before, List.prefix_cons_inj b |>.mpr hpre, ?_⟩
      rw [List.map_cons, List.sum_cons, hsum, levelAt, levelAt, List.map_cons, List.sum_cons, if_pos hle]
    · refine ⟨[], List.nil_prefix, ?_⟩
      have hall : ∀ c ∈ b :: bs, ¬c.1 ≤ t := by
        intro c hc
        rcases List.mem_cons.mp hc with rfl | hc
        · exact hle
        · exact fun h => hle ((hb c hc).fst_le.trans h)
      rw [List.map_nil, List.sum_nil, levelAt, List.sum_eq_zero]
      intro d hd
      obtain ⟨c, hc, rfl⟩ := List.mem_map.mp hd
      exact if_neg (hall c hc)

end

end Shapeflow.Intervals
