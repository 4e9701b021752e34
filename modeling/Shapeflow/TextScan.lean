import Mathlib.Data.List.Basic

set_option autoImplicit false

/-!
# Scans of a text

The matches of a pattern in a text, leftmost first and without overlap, and the
longest of the prefixes of a text that is admitted.
-/
namespace Shapeflow.TextScan
variable {α β : Type}

/-- What matches at a position, given the text before it, reversed, and the text from it on: a length and a finding. -/
abbrev Pattern (α β : Type) : Type := List α → List α → Option (ℕ × β)

/-- The matches of a text, the characters of the last match still to be skipped. -/
def scan (p : Pattern α β) : ℕ → List α → List α → List β
  | _, _, [] => []
  | skip + 1, before, c :: rest => scan p skip (c :: before) rest
  | 0, before, c :: rest =>
    match p before (c :: rest) with
    | none => scan p 0 (c :: before) rest
    | some (length, found) => found :: scan p (length - 1) (c :: before) rest

/-- `pattern.finditer(text)` -/
def findAll (p : Pattern α β) (text : List α) : List β := scan p 0 [] text

theorem scan_eq_nil {p : Pattern α β} {before text : List α} (h : scan p 0 before text = []) :
    ∀ front c rest, text = front ++ c :: rest → p (front.reverse ++ before) (c :: rest) = none := by
  induction text generalizing before with
  | nil =>
    intro front c rest htext
    cases front with
    | nil => cases htext
    | cons d front => cases htext
  | cons d text ih =>
    intro front c rest htext
    rw [scan] at h
    cases hmatch : p before (d :: text) with
    | some found =>
      rw [hmatch] at h
      cases h
    | none =>
      rw [hmatch] at h
      cases front with
      | nil =>
        cases htext
        exact hmatch
      | cons e front =>
        obtain ⟨rfl, rfl⟩ := List.cons.inj htext
        have hrest := ih h front c rest rfl
        rw [List.reverse_cons, List.append_assoc]
        exact hrest

theorem scan_of_none {p : Pattern α β} {before text : List α}
    (h : ∀ front c rest, text = front ++ c :: rest → p (front.reverse ++ before) (c :: rest) = none) :
    scan p 0 before text = [] := by
  induction text generalizing before with
  | nil => rfl
  | cons d text ih =>
    rw [scan, show p before (d :: text) = none from h [] d text rfl]
    refine ih fun front c rest htext => ?_
    have hnone := h (d :: front) c rest (congrArg (d :: ·) htext)
    rwa [List.reverse_cons, List.append_assoc] at hnone

/-- Nothing is found exactly when the pattern matches nowhere. -/
theorem findAll_eq_nil {p : Pattern α β} {text : List α} :
    findAll p text = [] ↔ ∀ front c rest, text = front ++ c :: rest → p front.reverse (c :: rest) = none := by
  constructor
  · intro h front c rest htext
    have hnone := scan_eq_nil h front c rest htext
    rwa [List.append_nil] at hnone
  · intro h
    refine scan_of_none fun front c rest htext => ?_
    rw [List.append_nil]
    exact h front c rest htext

/-! ## The longest admitted prefix -/

/-- The first of the prefixes numbered `n` down to 0 that is admitted. -/
def longest (admits : List α → Bool) (cut : ℕ → List α) : ℕ → Option (List α)
  | 0 => if admits (cut 0) then some (cut 0) else none
  | n + 1 => if admits (cut (n + 1)) then some (cut (n + 1)) else longest admits cut n

variable {admits : List α → Bool} {cut : ℕ → List α}

theorem longest_some {n : ℕ} {body : List α} (h : longest admits cut n = some body) :
    admits body ∧ ∃ k ≤ n, body = cut k ∧ ∀ j, k < j → j ≤ n → ¬ admits (cut j) := by
  induction n with
  | zero =>
    rw [longest] at h
    split_ifs at h with hadmits
    cases h
    exact ⟨hadmits, 0, Nat.le_refl 0, rfl, fun j hlt hle => absurd hlt (Nat.not_lt.mpr hle)⟩
  | succ n ih =>
    rw [longest] at h
    split_ifs at h with hadmits
    · cases h
      exact ⟨hadmits, n + 1, Nat.le_refl _, rfl, fun j hlt hle => absurd hlt (Nat.not_lt.mpr hle)⟩
    · obtain ⟨hbody, k, hk, hcut, hlonger⟩ := ih h
      refine ⟨hbody, k, Nat.le_succ_of_le hk, hcut, fun j hlt hle => ?_⟩
      rcases Nat.lt_or_eq_of_le hle with hj | rfl
      · exact hlonger j hlt (Nat.lt_succ_iff.mp hj)
      · exact hadmits

/-- The longest prefix of all, where it is admitted. -/
theorem longest_of_admits {n : ℕ} (h : admits (cut n)) : longest admits cut n = some (cut n) := by
  cases n with
  | zero => rw [longest, if_pos h]
  | succ n => rw [longest, if_pos h]

end Shapeflow.TextScan
