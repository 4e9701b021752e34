import Mathlib.Data.List.Forall2

set_option autoImplicit false

/-!
# First occurrences

Of elements that share a key, the first one is kept, and those kept stay in their order.
-/
namespace Shapeflow
variable {α β κ : Type} [DecidableEq κ]

def firstOccurrences (key : α → κ) : List α → List α
  | [] => []
  | x :: xs => x :: (firstOccurrences key xs).filter fun y => key y ≠ key x

theorem firstOccurrences_concat (key : α → κ) (xs : List α) (x : α) :
    firstOccurrences key (xs ++ [x]) =
      if key x ∈ xs.map key then firstOccurrences key xs else firstOccurrences key xs ++ [x] := by
  induction xs with
  | nil => rfl
  | cons y ys ih =>
    rw [List.cons_append, firstOccurrences, ih, List.map_cons]
    by_cases hys : key x ∈ ys.map key
    · rw [if_pos hys, if_pos (List.mem_cons_of_mem _ hys), firstOccurrences]
    · rw [if_neg hys, List.filter_append]
      by_cases hy : key x = key y
      · rw [if_pos (by simp [hy])]
        simp [hy, firstOccurrences]
      · rw [if_neg (by simp [hy, hys])]
        simp [hy, firstOccurrences]

/-- Elements with equal keys are kept at equal places. -/
theorem forall₂_firstOccurrences {R : α → β → Prop} {key : α → κ} {key' : β → κ} {xs : List α} {ys : List β}
    (hkey : ∀ x y, R x y → key x = key' y) (h : List.Forall₂ R xs ys) :
    List.Forall₂ R (firstOccurrences key xs) (firstOccurrences key' ys) := by
  induction h with
  | nil => exact .nil
  | @cons x y xs ys hxy _ ih =>
    have hsame : ∀ a b, R a b → ((decide (key a ≠ key x)) ↔ (decide (key' b ≠ key' y))) := by
      intro a b hab
      rw [hkey a b hab, hkey x y hxy]
    exact .cons hxy (List.rel_filter (R := R) (fun {a b} hab => hsame a b hab) ih)

end Shapeflow
