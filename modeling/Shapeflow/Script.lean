import Mathlib.Data.Prod.Basic

set_option autoImplicit false

/-!
# Store scripts, raising and transactions

A script reads and writes a store and may raise. A raise hands back the store
as it stood when it happened; undoing the writes made before it is the work of
`transaction`. Nothing here depends on what the store holds.
-/
namespace Shapeflow

/-- A store computation that ends in a value or in a raise, with the store it leaves behind. -/
def Script (σ ε α : Type) : Type := σ → Except ε α × σ

namespace Script
variable {σ ε α β : Type}

def andThen (x : Script σ ε α) (f : α → Script σ ε β) : Script σ ε β := fun s =>
  match x s with
  | (.ok a, t) => f a t
  | (.error e, t) => (.error e, t)

instance : Monad (Script σ ε) where
  pure a := fun s => (.ok a, s)
  bind := andThen

def raise (e : ε) : Script σ ε α := fun s => (.error e, s)

def getStore : Script σ ε σ := fun s => (.ok s, s)

def setStore (t : σ) : Script σ ε Unit := fun _ => (.ok (), t)

/-- Run `body`; when it raises, put the store back to what it was at the start. -/
def transaction (body : Script σ ε α) : Script σ ε α := fun s =>
  match body s with
  | (.ok a, t) => (.ok a, t)
  | (.error e, _) => (.error e, s)

/-- Run `body`; when it raises something `handler` takes, go on with the handler
    on the store the raise left behind. -/
def catching (body : Script σ ε α) (handler : ε → Option (Script σ ε α)) : Script σ ε α := fun s =>
  match body s with
  | (.ok a, t) => (.ok a, t)
  | (.error e, t) =>
    match handler e with
    | some h => h t
    | none => (.error e, t)

/-- Run `f` on each element in turn, keeping the values, and stop at the first raise. -/
def forEach (f : α → Script σ ε β) : List α → Script σ ε (List β)
  | [] => pure []
  | a :: rest => do
    let b ← f a
    let bs ← forEach f rest
    pure (b :: bs)

/-- The store a script leaves behind, whether it returned or raised. -/
def after (x : Script σ ε α) (s : σ) : σ := (x s).2

@[simp] theorem pure_run (a : α) (s : σ) : (pure a : Script σ ε α) s = (.ok a, s) := rfl

@[simp] theorem raise_run (e : ε) (s : σ) : (raise e : Script σ ε α) s = (.error e, s) := rfl

@[simp] theorem getStore_run (s : σ) : (getStore : Script σ ε σ) s = (.ok s, s) := rfl

@[simp] theorem setStore_run (t s : σ) : (setStore t : Script σ ε Unit) s = (.ok (), t) := rfl

theorem bind_run (x : Script σ ε α) (f : α → Script σ ε β) (s : σ) :
    (x >>= f) s = match x s with
      | (.ok a, t) => f a t
      | (.error e, t) => (.error e, t) := rfl

@[simp] theorem getStore_bind (f : σ → Script σ ε β) (s : σ) : (getStore >>= f) s = f s s := rfl

theorem bind_of_ok {x : Script σ ε α} {f : α → Script σ ε β} {s t : σ} {a : α}
    (h : x s = (.ok a, t)) : (x >>= f) s = f a t := by
  simp only [bind_run, h]

theorem bind_of_error {x : Script σ ε α} {f : α → Script σ ε β} {s t : σ} {e : ε}
    (h : x s = (.error e, t)) : (x >>= f) s = (.error e, t) := by
  simp only [bind_run, h]

/-- A sequence returned exactly when both halves did. -/
theorem bind_ok {x : Script σ ε α} {f : α → Script σ ε β} {s u : σ} {b : β} :
    (x >>= f) s = (.ok b, u) ↔ ∃ a t, x s = (.ok a, t) ∧ f a t = (.ok b, u) := by
  constructor
  · intro h
    rw [bind_run] at h
    split at h
    · rename_i a t hx
      exact ⟨a, t, hx, h⟩
    · simp at h
  · rintro ⟨a, t, hx, hf⟩
    rw [bind_of_ok hx, hf]

/-- A sequence raised in its first half or, the first having returned, in its second. -/
theorem bind_error {x : Script σ ε α} {f : α → Script σ ε β} {s u : σ} {e : ε} :
    (x >>= f) s = (.error e, u) ↔
      x s = (.error e, u) ∨ ∃ a t, x s = (.ok a, t) ∧ f a t = (.error e, u) := by
  constructor
  · intro h
    rw [bind_run] at h
    split at h
    · rename_i a t hx
      exact .inr ⟨a, t, hx, h⟩
    · rename_i e' t hx
      simp only [Prod.mk.injEq, Except.error.injEq] at h
      exact .inl (by rw [hx, h.1, h.2])
  · rintro (hx | ⟨a, t, hx, hf⟩)
    · exact bind_of_error hx
    · rw [bind_of_ok hx, hf]

theorem transaction_of_ok {x : Script σ ε α} {s t : σ} {a : α} (h : x s = (.ok a, t)) :
    transaction x s = (.ok a, t) := by
  simp only [transaction, h]

theorem transaction_of_error {x : Script σ ε α} {s t : σ} {e : ε} (h : x s = (.error e, t)) :
    transaction x s = (.error e, s) := by
  simp only [transaction, h]

theorem transaction_ok {x : Script σ ε α} {s t : σ} {a : α} :
    transaction x s = (.ok a, t) ↔ x s = (.ok a, t) := by
  unfold transaction
  split
  · rename_i h
    rw [h]
  · rename_i h
    simp [h]

/-- All or nothing: a transaction that raises leaves the store as it found it. -/
theorem transaction_error {x : Script σ ε α} {s t : σ} {e : ε}
    (h : transaction x s = (.error e, t)) : t = s := by
  unfold transaction at h
  split at h
  · simp at h
  · simp only [Prod.mk.injEq] at h
    exact h.2.symm

/-- A script whose raise leaves no trace in the store. -/
def Atomic (x : Script σ ε α) : Prop := ∀ s e t, x s = (.error e, t) → t = s

theorem atomic_transaction (x : Script σ ε α) : Atomic (transaction x) :=
  fun _ _ _ h => transaction_error h

theorem atomic_raise (e : ε) : Atomic (raise e : Script σ ε α) := by
  intro s e' t h
  simp only [raise_run, Prod.mk.injEq] at h
  exact h.2.symm

theorem atomic_ite {p : Prop} [Decidable p] {x y : Script σ ε α} (hx : Atomic x) (hy : Atomic y) :
    Atomic (if p then x else y) := by
  split
  · exact hx
  · exact hy

/-- What holds of the store before an atomic script and of every store it returns with
    holds of what it leaves behind. -/
theorem Atomic.after_of {x : Script σ ε α} (hx : Atomic x) {P : σ → Prop} {s : σ} (hs : P s)
    (hok : ∀ a t, x s = (.ok a, t) → P t) : P (x.after s) := by
  unfold after
  cases h : x s with
  | mk r t =>
    cases r with
    | error e =>
      rw [hx s e t h]
      exact hs
    | ok a => exact hok a t h

theorem after_of_ok {x : Script σ ε α} {s t : σ} {a : α} (h : x s = (.ok a, t)) : x.after s = t := by
  simp only [after, h]

theorem after_of_error {x : Script σ ε α} {s t : σ} {e : ε} (h : x s = (.error e, t)) :
    x.after s = t := by
  simp only [after, h]

theorem after_bind_of_ok {x : Script σ ε α} {f : α → Script σ ε β} {s t : σ} {a : α}
    (h : x s = (.ok a, t)) : (x >>= f).after s = (f a).after t := by
  simp only [after, bind_of_ok h]

theorem after_bind_of_error {x : Script σ ε α} {f : α → Script σ ε β} {s t : σ} {e : ε}
    (h : x s = (.error e, t)) : (x >>= f).after s = t :=
  after_of_error (bind_of_error h)

/-- What a sequence leaves behind: its first half raised, or its second half ended it. -/
theorem after_bind {x : Script σ ε α} {f : α → Script σ ε β} {s : σ} {P : σ → Prop}
    (herror : ∀ e t, x s = (.error e, t) → P t)
    (hok : ∀ a t, x s = (.ok a, t) → P ((f a).after t)) : P ((x >>= f).after s) := by
  unfold after at hok ⊢
  rw [bind_run]
  cases h : x s with
  | mk r t =>
    cases r with
    | ok a => exact hok a t h
    | error e => exact herror e t h

/-- What a handled script leaves behind. -/
theorem after_catching {x : Script σ ε α} {handler : ε → Option (Script σ ε α)} {s : σ} {P : σ → Prop}
    (hok : ∀ a t, x s = (.ok a, t) → P t)
    (hnone : ∀ e t, x s = (.error e, t) → handler e = none → P t)
    (hsome : ∀ e t h, x s = (.error e, t) → handler e = some h → P (h.after t)) :
    P ((catching x handler).after s) := by
  unfold after catching at *
  cases hx : x s with
  | mk r t =>
    cases r with
    | ok a => exact hok a t hx
    | error e =>
      cases hh : handler e with
      | none => simpa [hh] using hnone e t hx hh
      | some h => simpa [hh] using hsome e t h hx hh

/-- What each turn of a loop keeps, the loop keeps. -/
theorem after_forEach {f : α → Script σ ε β} {P : σ → Prop} (hf : ∀ a s, P s → P ((f a).after s))
    (xs : List α) {s : σ} (hs : P s) : P ((forEach f xs).after s) := by
  induction xs generalizing s with
  | nil => exact hs
  | cons a rest ih =>
    refine after_bind ?_ ?_
    · intro e t h
      exact after_of_error h ▸ hf a s hs
    · intro b t h
      have ht : P t := after_of_ok h ▸ hf a s hs
      refine after_bind ?_ ?_
      · intro e u hu
        exact after_of_error hu ▸ ih ht
      · intro bs u hu
        exact after_of_ok hu ▸ ih ht

theorem forEach_nil_ok {f : α → Script σ ε β} {s t : σ} {bs : List β} :
    forEach f [] s = (.ok bs, t) ↔ bs = [] ∧ t = s := by
  simp only [forEach, pure_run, Prod.mk.injEq, Except.ok.injEq]
  exact ⟨fun ⟨h, e⟩ => ⟨h.symm, e.symm⟩, fun ⟨h, e⟩ => ⟨h.symm, e.symm⟩⟩

theorem forEach_cons_ok {f : α → Script σ ε β} {a : α} {rest : List α} {s t : σ} {bs : List β} :
    forEach f (a :: rest) s = (.ok bs, t) ↔
      ∃ b cs u, bs = b :: cs ∧ f a s = (.ok b, u) ∧ forEach f rest u = (.ok cs, t) := by
  simp only [forEach, bind_ok, pure_run, Prod.mk.injEq, Except.ok.injEq]
  constructor
  · rintro ⟨b, u, hf, cs, v, hrest, rfl, rfl⟩
    exact ⟨b, cs, u, rfl, hf, hrest⟩
  · rintro ⟨b, cs, u, rfl, hf, hrest⟩
    exact ⟨b, u, hf, cs, t, hrest, rfl, rfl⟩

end Script
end Shapeflow
