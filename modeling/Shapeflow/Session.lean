import Shapeflow.Script

set_option autoImplicit false

/-!
# Processes that may die between transactions

A session is a store together with the number of transactions its process lives
to finish. Everything a script writes goes through `tx`, so a death can fall
before any transaction and nowhere else.
-/
namespace Shapeflow
open Script

/-- `life` is the number of transactions left, or `none` for a process that does not die. -/
structure Session (σ : Type) where
  store : σ
  life : Option ℕ

inductive Stopped (ε : Type)
  | died
  | raised (e : ε)

namespace Session
variable {σ ε α : Type}

/-- One transaction of a session. -/
def tx (body : Script σ ε α) : Script (Session σ) (Stopped ε) α := fun s =>
  if s.life = some 0 then (.error .died, s)
  else match transaction body s.store with
    | (.ok a, t) => (.ok a, ⟨t, s.life.map (· - 1)⟩)
    | (.error e, t) => (.error (.raised e), ⟨t, s.life.map (· - 1)⟩)

theorem tx_living {body : Script σ ε α} {s t : σ} {a : α} {life : Option ℕ} (hlife : life ≠ some 0)
    (h : body s = (.ok a, t)) : tx body ⟨s, life⟩ = (.ok a, ⟨t, life.map (· - 1)⟩) := by
  simp [tx, hlife, transaction_of_ok h]

/-- In a process that does not die a transaction is its body. -/
theorem tx_immortal {body : Script σ ε α} {s t : σ} {a : α} (h : body s = (.ok a, t)) :
    tx body ⟨s, none⟩ = (.ok a, ⟨t, none⟩) :=
  tx_living nofun h

theorem tx_ok {body : Script σ ε α} {s t : Session σ} {a : α} (h : tx body s = (.ok a, t)) :
    body s.store = (.ok a, t.store) := by
  unfold tx at h
  split at h
  · simp at h
  · split at h
    · rename_i hbody
      cases h
      exact transaction_ok.mp hbody
    · simp at h

theorem tx_raised {body : Script σ ε α} {s t : Session σ} {e : ε}
    (h : tx body s = (.error (.raised e), t)) : ∃ u, body s.store = (.error e, u) := by
  unfold tx at h
  split at h
  · simp at h
  · split at h
    · simp at h
    · rename_i hbody
      cases h
      unfold transaction at hbody
      split at hbody
      · simp at hbody
      · rename_i e' u hrun
        cases hbody
        exact ⟨u, hrun⟩

/-- A transaction that does not return leaves the store as it was. -/
theorem tx_error {body : Script σ ε α} {s t : Session σ} {e : Stopped ε}
    (h : tx body s = (.error e, t)) : t.store = s.store := by
  unfold tx at h
  split at h
  · cases h
    rfl
  · split at h
    · simp at h
    · rename_i hbody
      cases h
      exact transaction_error hbody

/-- What holds of the store before a transaction and of every store its body returns with
    holds after it, death included. -/
theorem tx_after {body : Script σ ε α} {s : Session σ} {P : σ → Prop} (hs : P s.store)
    (hok : ∀ a t, body s.store = (.ok a, t) → P t) : P ((tx body).after s).store := by
  unfold after
  cases h : tx body s with
  | mk r t =>
    cases r with
    | ok a => exact hok a t.store (tx_ok h)
    | error e =>
      have ht : t.store = s.store := tx_error h
      change P t.store
      rw [ht]
      exact hs

end Session
end Shapeflow
