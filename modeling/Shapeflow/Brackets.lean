import Shapeflow.Script

set_option autoImplicit false

/-!
# Brackets

A manager changes a store for the time of a body and puts back what it changed,
whether the body returned or raised, and whatever the body did meanwhile. What a
nest of managers puts back, and what its body may rely on, follow manager by
manager.
-/
namespace Shapeflow.Script
variable {σ ε ρ α ν μ : Type}

/-- Entering may raise, and then there is nothing to leave; leaving is told what the body raised, if it did. -/
structure Manager (σ ε ρ : Type) where
  enter : Script σ ε ρ
  leave : ρ → Option ε → Script σ ε Unit

/-- A manager that never raises: `set` the store on entry, `reset` it on exit. -/
def Manager.total (set : σ → ρ × σ) (reset : ρ → σ → σ) : Manager σ ε ρ where
  enter s := (.ok (set s).1, (set s).2)
  leave r _ := fun s => (.ok (), reset r s)

/-- What a body raised. -/
def raised : Except ε α → Option ε
  | .ok _ => none
  | .error e => some e

/-- A raise on leaving replaces what the body ended in. -/
def settle (ended : Except ε α) : Except ε Unit × σ → Except ε α × σ
  | (.ok (), t) => (ended, t)
  | (.error e, t) => (.error e, t)

def within (m : Manager σ ε ρ) (body : ρ → Script σ ε α) : Script σ ε α := fun s =>
  match m.enter s with
  | (.error e, t) => (.error e, t)
  | (.ok r, t) =>
    let ended := body r t
    settle ended.1 (m.leave r (raised ended.1) ended.2)

/-- The script leaves what `view` shows as it was. -/
def Keeps (view : σ → ν) (x : Script σ ε α) : Prop := ∀ s, view (x.after s) = view s

/-- The manager puts back what `view` shows, whatever became of it in between. -/
structure Restores (view : σ → ν) (m : Manager σ ε ρ) : Prop where
  refused : ∀ {s t e}, m.enter s = (.error e, t) → view t = view s
  restored : ∀ {s t r}, m.enter s = (.ok r, t) → ∀ how u, view ((m.leave r how).after u) = view s

/-- The manager does not touch what `view` shows. -/
structure Spares (view : σ → ν) (m : Manager σ ε ρ) : Prop where
  enter : Keeps view m.enter
  leave : ∀ {s t r}, m.enter s = (.ok r, t) → ∀ how, Keeps view (m.leave r how)

/-- Two scripts that do the same on the stores of `P`. -/
def AgreeOn (P : σ → Prop) (x y : Script σ ε α) : Prop := ∀ s, P s → x s = y s

section
variable {view : σ → ν} {m : Manager σ ε ρ} {body other : ρ → Script σ ε α}

theorem within_refused {s t : σ} {e : ε} (h : m.enter s = (.error e, t)) : within m body s = (.error e, t) := by
  rw [within, h]

theorem within_entered {s t : σ} {r : ρ} (h : m.enter s = (.ok r, t)) :
    within m body s = settle (body r t).1 (m.leave r (raised (body r t).1) (body r t).2) := by
  rw [within, h]

theorem settle_snd (ended : Except ε α) (left : Except ε Unit × σ) : (settle ended left).2 = left.2 := by
  unfold settle
  split <;> rfl

/-- Where the store ends up is a matter of the last step that was taken. -/
theorem within_after (m : Manager σ ε ρ) (body : ρ → Script σ ε α) (s : σ) :
    (∃ e, m.enter s = (.error e, (within m body).after s)) ∨
      ∃ r t how, m.enter s = (.ok r, t) ∧ (within m body).after s = (m.leave r how).after ((body r).after t) := by
  cases henter : m.enter s with
  | mk r t =>
    cases r with
    | error e => exact .inl ⟨e, by rw [after, within_refused henter]⟩
    | ok r => exact .inr ⟨r, t, _, rfl, by rw [after, within_entered henter, settle_snd]; rfl⟩

/-- What a manager restores is kept by any body. -/
theorem keeps_within_of_restores (hm : Restores view m) : Keeps view (within m body) := by
  intro s
  rcases within_after m body s with ⟨e, henter⟩ | ⟨r, t, how, henter, hafter⟩
  · exact hm.refused henter
  · rw [hafter]
    exact hm.restored henter how _

/-- What a manager spares is kept if the body keeps it. -/
theorem keeps_within_of_spares (hm : Spares view m) (hbody : ∀ r, Keeps view (body r)) :
    Keeps view (within m body) := by
  intro s
  rcases within_after m body s with ⟨e, henter⟩ | ⟨r, t, how, henter, hafter⟩
  · have h := hm.enter s
    rwa [after_of_error henter] at h
  · have h := hm.enter s
    rw [after_of_ok henter] at h
    rw [hafter, hm.leave henter how, hbody r, h]

/-- Only what a body does on the stores it is started on is seen. -/
theorem agreeOn_within {P : σ → Prop} {Q : ρ → σ → Prop}
    (hm : ∀ s r t, P s → m.enter s = (.ok r, t) → Q r t) (h : ∀ r, AgreeOn (Q r) (body r) (other r)) :
    AgreeOn P (within m body) (within m other) := by
  intro s hs
  cases henter : m.enter s with
  | mk r t =>
    cases r with
    | error e => rw [within_refused henter, within_refused henter]
    | ok r => rw [within_entered henter, within_entered henter, h r t (hm s r t hs henter)]

/-- A body that returned out of its manager was let out of it. -/
theorem within_ok {s v : σ} {a : α} (h : within m body s = (.ok a, v)) :
    ∃ r t u, m.enter s = (.ok r, t) ∧ body r t = (.ok a, u) ∧ m.leave r none u = (.ok (), v) := by
  cases henter : m.enter s with
  | mk r t =>
    cases r with
    | error e =>
      rw [within_refused henter] at h
      cases h
    | ok r =>
      rw [within_entered henter] at h
      cases hbody : body r t with
      | mk ended u =>
        rw [hbody] at h
        unfold settle at h
        split at h
        · rename_i w hleave
          cases h
          exact ⟨r, t, u, rfl, hbody, hleave⟩
        · cases h

theorem restores_total {set : σ → ρ × σ} {reset : ρ → σ → σ} (h : ∀ s u, view (reset (set s).1 u) = view s) :
    Restores view (Manager.total set reset : Manager σ ε ρ) where
  refused henter := by cases henter
  restored henter how u := by
    cases henter
    exact h _ u

theorem spares_total {set : σ → ρ × σ} {reset : ρ → σ → σ} (hset : ∀ s, view (set s).2 = view s)
    (hreset : ∀ s u, view (reset (set s).1 u) = view u) : Spares view (Manager.total set reset : Manager σ ε ρ) where
  enter := hset
  leave henter how u := by
    cases henter
    exact hreset _ u

end

end Shapeflow.Script
