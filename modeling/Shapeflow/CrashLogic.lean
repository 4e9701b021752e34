import Shapeflow.Session

set_option autoImplicit false

/-!
# A logic of crashes

A specification of a script over sessions has a crash condition beside its
postcondition: however many transactions the process lives to finish, it dies in
a store of the one or ends with a result and a store of the other.
-/
namespace Shapeflow.Session
open Script

section
variable {σ ε α β : Type}

/-- A session that died satisfies `C`, one that ended with a result satisfies `Q`. -/
def Verdict (C : σ → Prop) (Q : Except ε α → σ → Prop) : Except (Stopped ε) α × Session σ → Prop
  | (.ok a, t) => Q (.ok a) t.store
  | (.error .died, t) => C t.store
  | (.error (.raised e), t) => Q (.error e) t.store

/-- Started on `s`, the script dies in `C` or ends in `Q`, however long its process lives. -/
def Ends (C : σ → Prop) (Q : Except ε α → σ → Prop) (x : Script (Session σ) (Stopped ε) α) (s : σ) : Prop :=
  ∀ life, Verdict C Q (x ⟨s, life⟩)

variable {C C' : σ → Prop} {Q Q' : Except ε α → σ → Prop} {x : Script (Session σ) (Stopped ε) α} {s : σ}

theorem Verdict.mono (hC : ∀ t, C t → C' t) (hQ : ∀ r t, Q r t → Q' r t)
    {end_ : Except (Stopped ε) α × Session σ} (h : Verdict C Q end_) : Verdict C' Q' end_ := by
  obtain ⟨r, t⟩ := end_
  cases r with
  | ok a => exact hQ _ _ h
  | error e =>
    cases e with
    | died => exact hC _ h
    | raised e => exact hQ _ _ h

theorem Ends.mono (h : Ends C Q x s) (hC : ∀ t, C t → C' t) (hQ : ∀ r t, Q r t → Q' r t) :
    Ends C' Q' x s := fun life => (h life).mono hC hQ

theorem ends_pure {a : α} (h : Q (.ok a) s) : Ends C Q (pure a : Script (Session σ) (Stopped ε) α) s :=
  fun _ => h

theorem ends_raise {e : ε} (h : Q (.error e) s) :
    Ends C Q (raise (.raised e) : Script (Session σ) (Stopped ε) α) s := fun _ => h

/-- A transaction dies before it writes; it returns with the store its body leaves, or raises with
    the store it found. -/
theorem ends_tx {body : Script σ ε α} (hC : C s) (hok : ∀ a t, body s = (.ok a, t) → Q (.ok a) t)
    (herror : ∀ e t, body s = (.error e, t) → Q (.error e) s) : Ends C Q (tx body) s := by
  intro life
  unfold tx
  by_cases hdead : life = some 0
  · rw [if_pos hdead]
    exact hC
  · rw [if_neg hdead]
    cases hbody : body s with
    | mk r t =>
      cases r with
      | ok a =>
        simp only [transaction_of_ok hbody]
        exact hok a t hbody
      | error e =>
        simp only [transaction_of_error hbody]
        exact herror e t hbody

theorem ends_tx_ok {body : Script σ ε α} {a : α} {t : σ} (hC : C s) (hbody : body s = (.ok a, t))
    (hQ : Q (.ok a) t) : Ends C Q (tx body) s := by
  apply ends_tx hC
  · intro b u h
    rw [hbody] at h
    cases h
    exact hQ
  · intro e u h
    rw [hbody] at h
    cases h

theorem ends_bind {f : α → Script (Session σ) (Stopped ε) β} {R : Except ε β → σ → Prop}
    (h : Ends C (fun r t => match r with
      | .ok a => Ends C R (f a) t
      | .error e => R (.error e) t) x s) : Ends C R (x >>= f) s := by
  intro life
  have hx := h life
  rw [bind_run]
  cases hrun : x ⟨s, life⟩ with
  | mk r t =>
    rw [hrun] at hx
    cases r with
    | ok a => exact hx t.life
    | error e =>
      cases e with
      | died => exact hx
      | raised e => exact hx

/-- A death is caught by no handler. -/
theorem ends_catching {handler : Stopped ε → Option (Script (Session σ) (Stopped ε) α)}
    (hdied : handler .died = none)
    (h : Ends C (fun r t => match r with
      | .ok a => Q (.ok a) t
      | .error e => match handler (.raised e) with
        | some y => Ends C Q y t
        | none => Q (.error e) t) x s) : Ends C Q (catching x handler) s := by
  intro life
  have hx := h life
  unfold catching
  cases hrun : x ⟨s, life⟩ with
  | mk r t =>
    rw [hrun] at hx
    cases r with
    | ok a => exact hx
    | error e =>
      cases e with
      | died =>
        simp only [hdied]
        exact hx
      | raised e =>
        simp only [Verdict] at hx
        cases hhandler : handler (.raised e) with
        | none =>
          simp only [hhandler] at hx ⊢
          exact hx
        | some y =>
          simp only [hhandler] at hx ⊢
          exact hx t.life

/-- Reading the store is no transaction. -/
def readStore : Script (Session σ) (Stopped ε) σ := do
  let s ← getStore
  pure s.store

theorem ends_readStore {f : σ → Script (Session σ) (Stopped ε) α} (h : Ends C Q (f s) s) :
    Ends C Q (readStore >>= f) s := fun life => h life

/-- What each turn of a loop keeps, crashes included, the loop keeps. -/
theorem ends_forEach {P : σ → Prop} {f : α → Script (Session σ) (Stopped ε) β} (xs : List α)
    (hf : ∀ a ∈ xs, ∀ s, P s → Ends P (fun _ t => P t) (f a) s) (hs : P s) :
    Ends P (fun _ t => P t) (forEach f xs) s := by
  induction xs generalizing s with
  | nil => exact ends_pure hs
  | cons a rest ih =>
    obtain ⟨ha, hrest⟩ := List.forall_mem_cons.mp hf
    apply ends_bind
    apply (ha s hs).mono (fun _ h => h)
    intro r t ht
    cases r with
    | error e => exact ht
    | ok b =>
      apply ends_bind
      apply (ih hrest ht).mono (fun _ h => h)
      intro r u hu
      cases r with
      | error e => exact hu
      | ok bs => exact ends_pure hu

/-- The store a process leaves behind, whether it died or ended. -/
theorem Ends.after {P : σ → Prop} (h : Ends P (fun _ t => P t) x s) (life : Option ℕ) :
    P (x.after ⟨s, life⟩).store := by
  have hx := h life
  unfold Script.after
  cases hrun : x ⟨s, life⟩ with
  | mk r t =>
    rw [hrun] at hx
    cases r with
    | ok a => exact hx
    | error e =>
      cases e with
      | died => exact hx
      | raised e => exact hx

end
end Shapeflow.Session
