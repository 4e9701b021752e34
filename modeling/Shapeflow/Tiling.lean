import Mathlib.Data.List.Forall2
import Mathlib.Order.Basic
import Mathlib.Data.Nat.Basic

set_option autoImplicit false

/-!
# Tilings up to blanks

Spans that follow each other through a range and leave out nothing but blank
positions. Tilings concatenate, refine, merge and shift.
-/
namespace Shapeflow.Tiling
variable {blank : ℕ → Prop} {lo mid hi : ℕ} {spans : List (ℕ × ℕ)}

/-- Every position from `lo` up to `hi`. -/
def BlankFrom (blank : ℕ → Prop) (lo hi : ℕ) : Prop := ∀ i, lo ≤ i → i < hi → blank i

theorem BlankFrom.trans (h : BlankFrom blank lo mid) (h' : BlankFrom blank mid hi) : BlankFrom blank lo hi := by
  intro i hlo hhi
  by_cases hmid : i < mid
  · exact h i hlo hmid
  · exact h' i (not_lt.mp hmid) hhi

inductive Tiles (blank : ℕ → Prop) : ℕ → ℕ → List (ℕ × ℕ) → Prop
  | done {lo hi : ℕ} (hle : lo ≤ hi) (hblank : BlankFrom blank lo hi) : Tiles blank lo hi []
  | next {lo hi start stop : ℕ} {spans : List (ℕ × ℕ)} (hlo : lo ≤ start) (hblank : BlankFrom blank lo start)
    (hspan : start ≤ stop) (hrest : Tiles blank stop hi spans) : Tiles blank lo hi ((start, stop) :: spans)

theorem Tiles.le (h : Tiles blank lo hi spans) : lo ≤ hi := by
  induction h with
  | done hle _ => exact hle
  | next hlo _ hspan _ ih => exact (hlo.trans hspan).trans ih

theorem Tiles.single (hle : lo ≤ hi) : Tiles blank lo hi [(lo, hi)] :=
  .next le_rfl (fun _ hlo hhi => absurd hhi (not_lt.mpr hlo)) hle
    (.done le_rfl fun _ hlo hhi => absurd hhi (not_lt.mpr hlo))

/-- Blank positions may be added in front. -/
theorem Tiles.lead (h : Tiles blank mid hi spans) (hle : lo ≤ mid) (hblank : BlankFrom blank lo mid) :
    Tiles blank lo hi spans := by
  cases h with
  | done hmid hrest => exact .done (hle.trans hmid) (hblank.trans hrest)
  | next hmid hrest hspan htail => exact .next (hle.trans hmid) (hblank.trans hrest) hspan htail

theorem Tiles.append {more : List (ℕ × ℕ)} (h : Tiles blank lo mid spans) (h' : Tiles blank mid hi more) :
    Tiles blank lo hi (spans ++ more) := by
  induction h with
  | done hle hblank => exact h'.lead hle hblank
  | next hlo hblank hspan _ ih => exact .next hlo hblank hspan (ih h')

/-- The end of a tiling may be tiled otherwise. -/
theorem Tiles.replace {front back back' : List (ℕ × ℕ)} (h : Tiles blank lo hi (front ++ back))
    (hback : ∀ mid, Tiles blank mid hi back → Tiles blank mid hi back') : Tiles blank lo hi (front ++ back') := by
  induction front generalizing lo with
  | nil => exact hback lo h
  | cons span front ih =>
    cases h with
    | next hlo hblank hspan hrest => exact .next hlo hblank hspan (ih hrest)

/-- Each span of a tiling may be tiled in turn. -/
theorem Tiles.refine {parts : List (List (ℕ × ℕ))} (h : Tiles blank lo hi spans)
    (hparts : List.Forall₂ (fun span part => Tiles blank span.1 span.2 part) spans parts) :
    Tiles blank lo hi parts.flatten := by
  induction h generalizing parts with
  | done hle hblank =>
    cases hparts
    exact .done hle hblank
  | next hlo hblank _ _ ih =>
    cases hparts with
    | cons hpart hrest =>
      rw [List.flatten_cons]
      exact (hpart.lead hlo hblank).append (ih hrest)

/-- A span of blanks may be left out. -/
theorem Tiles.skip {span : ℕ × ℕ} (h : Tiles blank lo hi (span :: spans)) (hempty : BlankFrom blank span.1 span.2) :
    Tiles blank lo hi spans := by
  cases h with
  | next hlo hblank hspan hrest => exact hrest.lead (hlo.trans hspan) (hblank.trans hempty)

/-- Neighbours may be joined to one span. -/
theorem Tiles.merge {first last : ℕ × ℕ} {run rest : List (ℕ × ℕ)} (h : Tiles blank lo hi (first :: run ++ rest))
    (hlast : last ∈ (first :: run).getLast?) : Tiles blank lo hi ((first.1, last.2) :: rest) := by
  induction run generalizing lo first with
  | nil =>
    cases hlast
    exact h
  | cons second run ih =>
    obtain ⟨start, stop⟩ := first
    cases h with
    | next hlo hblank hspan hrest =>
      have hjoined := ih hrest (by simpa using hlast)
      cases hjoined with
      | next hstop _ hle htail => exact .next hlo hblank ((hspan.trans hstop).trans hle) htail

theorem Tiles.mono {blank' : ℕ → Prop} (h : Tiles blank lo hi spans)
    (hblank : ∀ i, lo ≤ i → i < hi → blank i → blank' i) : Tiles blank' lo hi spans := by
  induction h with
  | done hle hempty => exact .done hle fun i hlo hhi => hblank i hlo hhi (hempty i hlo hhi)
  | next hlo hempty hspan hrest ih =>
    have hhi := hrest.le
    refine .next hlo (fun i hi hstart => ?_) hspan (ih fun i hi => hblank i (hlo.trans (hspan.trans hi)))
    exact hblank i hi (by omega) (hempty i hi hstart)

/-- A tiling moved by `d` positions. -/
theorem Tiles.shift {d : ℕ} (h : Tiles (fun i => blank (d + i)) lo hi spans) :
    Tiles blank (d + lo) (d + hi) (spans.map fun span => (d + span.1, d + span.2)) := by
  have hmove : ∀ {lo hi}, BlankFrom (fun i => blank (d + i)) lo hi → BlankFrom blank (d + lo) (d + hi) := by
    intro lo hi hempty i hlo hhi
    have hback : d + (i - d) = i := by omega
    have hblank := hempty (i - d) (by omega) (by omega)
    simp only [hback] at hblank
    exact hblank
  induction h with
  | done hle hempty => exact .done (by omega) (hmove hempty)
  | next hlo hempty hspan _ ih => exact .next (by omega) (hmove hempty) (by omega) ih

/-! ## What a tiling says -/

theorem Tiles.bounds (h : Tiles blank lo hi spans) : ∀ span ∈ spans, lo ≤ span.1 ∧ span.1 ≤ span.2 ∧ span.2 ≤ hi := by
  induction h with
  | done _ _ => exact fun _ hspan => (List.not_mem_nil hspan).elim
  | next hlo _ hle hrest ih =>
    intro span hmem
    obtain rfl | hmem := List.mem_cons.mp hmem
    · exact ⟨hlo, hle, hrest.le⟩
    · obtain ⟨hstart, hspan, hstop⟩ := ih span hmem
      exact ⟨(hlo.trans hle).trans hstart, hspan, hstop⟩

theorem Tiles.ordered (h : Tiles blank lo hi spans) : spans.Pairwise fun span later => span.2 ≤ later.1 := by
  induction h with
  | done _ _ => exact List.Pairwise.nil
  | next _ _ _ hrest ih => exact List.Pairwise.cons (fun span hmem => (hrest.bounds span hmem).1) ih

def holds (i : ℕ) (span : ℕ × ℕ) : Bool := span.1 ≤ i ∧ i < span.2

/-- A position that is not blank stands in one span. -/
theorem Tiles.once (h : Tiles blank lo hi spans) {i : ℕ} (hlo : lo ≤ i) (hhi : i < hi) (hfull : ¬ blank i) :
    spans.countP (holds i) = 1 := by
  induction h with
  | done _ hempty => exact absurd (hempty i hlo hhi) hfull
  | @next lo hi start stop spans hstart hempty hspan hrest ih =>
    have hin : start ≤ i := by
      by_contra hbefore
      exact hfull (hempty i hlo (not_le.mp hbefore))
    rw [List.countP_cons]
    by_cases hstop : i < stop
    · have hnone : spans.countP (holds i) = 0 := by
        rw [List.countP_eq_zero]
        intro span hmem
        have := (hrest.bounds span hmem).1
        simp only [holds, decide_eq_true_eq]
        omega
      have hone : holds i (start, stop) = true := by simp [holds, hin, hstop]
      rw [hnone, hone]
      rfl
    · have hzero : holds i (start, stop) = false := by simp [holds, not_lt.mp hstop]
      rw [ih (not_lt.mp hstop) hhi, hzero]
      rfl

end Shapeflow.Tiling
