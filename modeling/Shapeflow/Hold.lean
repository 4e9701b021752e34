import Mathlib.Algebra.Order.BigOperators.Group.List
import Shapeflow.Table

set_option autoImplicit false

/-!
# Amounts held on accounts

A hold sets an amount aside on an account until it is resolved at a charge. An
account's totals are sums over the holds on it; this module says how they move
when a hold is taken or resolved.
-/
namespace Shapeflow

structure Hold (α M : Type) where
  account : α
  amount : M
  /-- What the hold was resolved at, once it is. -/
  charge : Option M

namespace Hold
variable {α M : Type} [DecidableEq α]

section Totals
variable [AddCommMonoid M]

def openTotal (a : α) (holds : List (Hold α M)) : M :=
  ((holds.filter fun h => h.account = a ∧ h.charge.isNone).map (·.amount)).sum

def chargedTotal (a : α) (holds : List (Hold α M)) : M :=
  ((holds.filter fun h => h.account = a).map fun h => h.charge.getD 0).sum

/-- What one hold adds to the open total of `a`. -/
def openOn (a : α) (h : Hold α M) : M := if h.account = a ∧ h.charge.isNone then h.amount else 0

def chargedOn (a : α) (h : Hold α M) : M := if h.account = a then h.charge.getD 0 else 0

theorem openOn_open (a : α) (m : M) : openOn a ⟨a, m, none⟩ = m := by
  simp [openOn]

theorem openOn_charged (a b : α) (m c : M) : openOn a ⟨b, m, some c⟩ = 0 := by
  simp [openOn]

theorem chargedOn_open (a b : α) (m : M) : chargedOn a ⟨b, m, none⟩ = 0 := by
  simp [chargedOn]

theorem chargedOn_charged (a : α) (m c : M) : chargedOn a ⟨a, m, some c⟩ = c := by
  simp [chargedOn]

theorem openOn_of_ne {a : α} {h : Hold α M} (hne : h.account ≠ a) : openOn a h = 0 :=
  if_neg fun hc => hne hc.1

theorem chargedOn_of_ne {a : α} {h : Hold α M} (hne : h.account ≠ a) : chargedOn a h = 0 :=
  if_neg hne

theorem sum_filter_map {β : Type} (p : β → Prop) [DecidablePred p] (g : β → M) (xs : List β) :
    ((xs.filter fun x => p x).map g).sum = (xs.map fun x => if p x then g x else 0).sum := by
  induction xs with
  | nil => rfl
  | cons x xs ih =>
    by_cases hp : p x
    · simp [hp, ih]
    · simp [hp, ih]

theorem openTotal_eq_sum (a : α) (holds : List (Hold α M)) :
    openTotal a holds = (holds.map (openOn a)).sum :=
  sum_filter_map _ _ holds

theorem chargedTotal_eq_sum (a : α) (holds : List (Hold α M)) :
    chargedTotal a holds = (holds.map (chargedOn a)).sum :=
  sum_filter_map _ _ holds

theorem openTotal_append (a : α) (xs ys : List (Hold α M)) :
    openTotal a (xs ++ ys) = openTotal a xs + openTotal a ys := by
  simp only [openTotal_eq_sum, List.map_append, List.sum_append]

theorem chargedTotal_append (a : α) (xs ys : List (Hold α M)) :
    chargedTotal a (xs ++ ys) = chargedTotal a xs + chargedTotal a ys := by
  simp only [chargedTotal_eq_sum, List.map_append, List.sum_append]

theorem openTotal_singleton (a : α) (h : Hold α M) : openTotal a [h] = openOn a h := by
  simp [openTotal_eq_sum]

theorem chargedTotal_singleton (a : α) (h : Hold α M) : chargedTotal a [h] = chargedOn a h := by
  simp [chargedTotal_eq_sum]

/-- An account no hold is on has nothing held and nothing charged. -/
theorem totals_of_unused {a : α} {holds : List (Hold α M)} (h : ∀ x ∈ holds, x.account ≠ a) :
    openTotal a holds = 0 ∧ chargedTotal a holds = 0 := by
  constructor
  · rw [openTotal, List.filter_eq_nil_iff.mpr fun x hx => by simp [h x hx]]
    rfl
  · rw [chargedTotal, List.filter_eq_nil_iff.mpr fun x hx => by simp [h x hx]]
    rfl

/-- Rewriting the one row of a key moves the open total by what the row adds to it. -/
theorem openTotal_updated {ρ κ : Type} [DecidableEq κ] (a : α) (toHold : ρ → Hold α M) (key : ρ → κ)
    (f : ρ → ρ) {rows : List ρ} (hnodup : (rows.map key).Nodup) {r : ρ} (hr : r ∈ rows) :
    openTotal a ((Table.updated (fun q => key q = key r) f rows).map toHold) + openOn a (toHold r) =
      openTotal a (rows.map toHold) + openOn a (toHold (f r)) := by
  simp only [openTotal_eq_sum, List.map_map]
  exact Table.sum_updated key f (openOn a ∘ toHold) hnodup hr

theorem chargedTotal_updated {ρ κ : Type} [DecidableEq κ] (a : α) (toHold : ρ → Hold α M)
    (key : ρ → κ) (f : ρ → ρ) {rows : List ρ} (hnodup : (rows.map key).Nodup) {r : ρ} (hr : r ∈ rows) :
    chargedTotal a ((Table.updated (fun q => key q = key r) f rows).map toHold) +
        chargedOn a (toHold r) =
      chargedTotal a (rows.map toHold) + chargedOn a (toHold (f r)) := by
  simp only [chargedTotal_eq_sum, List.map_map]
  exact Table.sum_updated key f (chargedOn a ∘ toHold) hnodup hr

section Resolve
variable {ρ κ : Type} [DecidableEq κ] {toHold : ρ → Hold α M} {key : ρ → κ} {f : ρ → ρ} {rows : List ρ}
  {r : ρ} {a : α} {m c : M}

/-- Resolving an open hold takes its amount off the open total of its account. -/
theorem openTotal_resolved (hnodup : (rows.map key).Nodup) (hr : r ∈ rows)
    (hopen : toHold r = ⟨a, m, none⟩) (hcharged : toHold (f r) = ⟨a, m, some c⟩) :
    openTotal a ((Table.updated (fun q => key q = key r) f rows).map toHold) + m =
      openTotal a (rows.map toHold) := by
  have h := openTotal_updated a toHold key f hnodup hr
  rwa [hopen, hcharged, openOn_open, openOn_charged, add_zero] at h

/-- Resolving an open hold puts its charge on the charged total of its account. -/
theorem chargedTotal_resolved (hnodup : (rows.map key).Nodup) (hr : r ∈ rows)
    (hopen : toHold r = ⟨a, m, none⟩) (hcharged : toHold (f r) = ⟨a, m, some c⟩) :
    chargedTotal a ((Table.updated (fun q => key q = key r) f rows).map toHold) =
      chargedTotal a (rows.map toHold) + c := by
  have h := chargedTotal_updated a toHold key f hnodup hr
  rwa [hopen, hcharged, chargedOn_open, chargedOn_charged, add_zero] at h

/-- Resolving a hold leaves the totals of the other accounts. -/
theorem totals_resolved_of_ne {b : α} (hnodup : (rows.map key).Nodup) (hr : r ∈ rows)
    (hopen : toHold r = ⟨a, m, none⟩) (hcharged : toHold (f r) = ⟨a, m, some c⟩) (hne : a ≠ b) :
    openTotal b ((Table.updated (fun q => key q = key r) f rows).map toHold) =
        openTotal b (rows.map toHold) ∧
      chargedTotal b ((Table.updated (fun q => key q = key r) f rows).map toHold) =
        chargedTotal b (rows.map toHold) := by
  have h := openTotal_updated b toHold key f hnodup hr
  have h' := chargedTotal_updated b toHold key f hnodup hr
  rw [hopen, hcharged, openOn_of_ne hne, openOn_of_ne hne, add_zero, add_zero] at h
  rw [hopen, hcharged, chargedOn_of_ne hne, chargedOn_of_ne hne, add_zero, add_zero] at h'
  exact ⟨h, h'⟩

end Resolve

end Totals

section Order
variable [AddCommMonoid M] [PartialOrder M] [IsOrderedAddMonoid M]

theorem openTotal_nonneg (a : α) {holds : List (Hold α M)} (h : ∀ x ∈ holds, 0 ≤ x.amount) :
    0 ≤ openTotal a holds := by
  apply List.sum_nonneg
  intro m hm
  obtain ⟨x, hx, rfl⟩ := List.mem_map.mp hm
  exact h x (List.mem_filter.mp hx).1

theorem chargedTotal_nonneg (a : α) {holds : List (Hold α M)}
    (h : ∀ x ∈ holds, 0 ≤ x.charge.getD 0) : 0 ≤ chargedTotal a holds := by
  apply List.sum_nonneg
  intro m hm
  obtain ⟨x, hx, rfl⟩ := List.mem_map.mp hm
  exact h x (List.mem_filter.mp hx).1

end Order
end Hold
end Shapeflow
