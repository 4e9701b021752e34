import Mathlib.Data.List.Forall2

set_option autoImplicit false

/-!
# Sequences of fallible steps

Inversion of `Except` computations: a sequence returned when all its steps did,
and raised what its first failing step raised.
-/
namespace Shapeflow.Fallible
variable {α β ε : Type}

theorem mapM_ok {f : α → Except ε β} {xs : List α} {ys : List β} :
    xs.mapM f = .ok ys ↔ xs.map f = ys.map .ok := by
  induction xs generalizing ys with
  | nil =>
    cases ys with
    | nil => simp [pure, Except.pure]
    | cons y ys => simp [pure, Except.pure]
  | cons x xs ih =>
    rw [List.mapM_cons]
    cases hx : f x with
    | error e =>
      cases ys with
      | nil => simp [bind, Except.bind, hx]
      | cons y ys => simp [bind, Except.bind, hx]
    | ok b =>
      cases hxs : xs.mapM f with
      | error e =>
        have hnone : ∀ zs : List β, xs.map f ≠ zs.map .ok := by
          intro zs hzs
          rw [ih.mpr hzs] at hxs
          cases hxs
        cases ys with
        | nil => simp [bind, Except.bind]
        | cons y ys => simp [bind, Except.bind, hx, hnone ys]
      | ok bs =>
        have hbs := ih.mp hxs
        cases ys with
        | nil => simp [bind, Except.bind, pure, Except.pure]
        | cons y ys =>
          simp only [bind, Except.bind, pure, Except.pure, Except.ok.injEq, List.cons.injEq,
            List.map_cons, hx, hbs, and_congr_right_iff]
          intro _
          exact (List.map_inj_right fun _ _ h => Except.ok.inj h).symm

/-- A list is mapped element by element. -/
theorem mapM_forall₂ {f : α → Except ε β} {xs : List α} {ys : List β} :
    xs.mapM f = .ok ys ↔ List.Forall₂ (fun x y => f x = .ok y) xs ys := by
  rw [mapM_ok, ← List.forall₂_eq_eq_eq, List.forall₂_map_left_iff, List.forall₂_map_right_iff]

theorem mem_mapM {f : α → Except ε β} {xs : List α} {ys : List β} (h : xs.mapM f = .ok ys) {y : β} (hy : y ∈ ys) :
    ∃ x ∈ xs, f x = .ok y := by
  have hmem : .ok y ∈ xs.map f := mapM_ok.mp h ▸ List.mem_map_of_mem hy
  exact List.mem_map.mp hmem

theorem mapM_congr {f g : α → Except ε β} {xs : List α} (h : ∀ x ∈ xs, f x = g x) : xs.mapM f = xs.mapM g := by
  induction xs with
  | nil => rfl
  | cons x xs ih =>
    rw [List.mapM_cons, List.mapM_cons, h x List.mem_cons_self, ih fun y hy => h y (List.mem_cons_of_mem x hy)]

/-- Numbered elements are mapped in their order. -/
theorem mapM_zipIdx {R : α → β → Prop} {f : α × ℕ → Except ε β} {xs : List α} {ys : List β} {n : ℕ}
    (h : (xs.zipIdx n).mapM f = .ok ys) (hf : ∀ x ∈ xs, ∀ i, ∀ y ∈ ys, f (x, i) = .ok y → R x y) :
    List.Forall₂ R xs ys := by
  rw [mapM_forall₂] at h
  induction xs generalizing n ys with
  | nil =>
    cases h
    exact .nil
  | cons x xs ih =>
    obtain - | ⟨hx, hxs⟩ := h
    refine .cons (hf x List.mem_cons_self n _ List.mem_cons_self hx) (ih hxs fun x' hx' i y hy => ?_)
    exact hf x' (List.mem_cons_of_mem x hx') i y (List.mem_cons_of_mem _ hy)

theorem mapM_error {f : α → Except ε β} {xs : List α} {e : ε} (h : xs.mapM f = .error e) :
    ∃ x ∈ xs, f x = .error e := by
  induction xs with
  | nil => cases h
  | cons x xs ih =>
    rw [List.mapM_cons] at h
    cases hx : f x with
    | error e' =>
      simp only [bind, Except.bind, hx, Except.error.injEq] at h
      exact ⟨x, by simp, h ▸ hx⟩
    | ok b =>
      cases hxs : xs.mapM f with
      | error e' =>
        simp only [bind, Except.bind, hx, hxs, Except.error.injEq] at h
        subst h
        obtain ⟨y, hy, hye⟩ := ih hxs
        exact ⟨y, by simp [hy], hye⟩
      | ok bs =>
        simp [bind, Except.bind, hx, hxs, pure, Except.pure] at h

theorem ok_bind (a : α) (f : α → Except ε β) : ((.ok a : Except ε α) >>= f) = f a := rfl

theorem bind_ok {x : Except ε α} {f : α → Except ε β} {b : β} :
    (x >>= f) = .ok b ↔ ∃ a, x = .ok a ∧ f a = .ok b := by
  cases x with
  | error e => simp [bind, Except.bind]
  | ok a => simp [bind, Except.bind]

theorem bind_error {x : Except ε α} {f : α → Except ε β} {e : ε} :
    (x >>= f) = .error e ↔ x = .error e ∨ ∃ a, x = .ok a ∧ f a = .error e := by
  cases x with
  | error e => simp [bind, Except.bind]
  | ok a => simp [bind, Except.bind]

theorem mapError_ok {ε' : Type} {wrap : ε → ε'} {x : Except ε α} {a : α} : x.mapError wrap = .ok a ↔ x = .ok a := by
  cases x with
  | error e => simp [Except.mapError]
  | ok b => simp [Except.mapError]

/-! ## Computations that return -/

def Returns (x : Except ε α) : Prop := ∃ a, x = .ok a

@[simp] theorem returns_ok (a : α) : Returns (.ok a : Except ε α) := ⟨a, rfl⟩

@[simp] theorem returns_pure (a : α) : Returns (pure a : Except ε α) := ⟨a, rfl⟩

@[simp] theorem not_returns_error (e : ε) : ¬ Returns (.error e : Except ε α) := by
  rintro ⟨a, h⟩
  cases h

theorem returns_bind {x : Except ε α} {f : α → Except ε β} :
    Returns (x >>= f) ↔ ∃ a, x = .ok a ∧ Returns (f a) := by
  constructor
  · rintro ⟨b, hb⟩
    obtain ⟨a, ha, hfa⟩ := bind_ok.mp hb
    exact ⟨a, ha, b, hfa⟩
  · rintro ⟨a, ha, b, hfa⟩
    exact ⟨b, bind_ok.mpr ⟨a, ha, hfa⟩⟩

/-- A list is mapped when each of its elements is. -/
theorem returns_mapM {f : α → Except ε β} {xs : List α} :
    Returns (xs.mapM f) ↔ ∀ x ∈ xs, Returns (f x) := by
  constructor
  · rintro ⟨ys, hys⟩ x hx
    rw [mapM_ok] at hys
    have hmem : f x ∈ ys.map Except.ok := hys ▸ List.mem_map_of_mem hx
    obtain ⟨y, _, hy⟩ := List.mem_map.mp hmem
    exact ⟨y, hy.symm⟩
  · intro h
    cases hxs : xs.mapM f with
    | ok ys => exact returns_ok ys
    | error e =>
      obtain ⟨x, hx, hfx⟩ := mapM_error hxs
      exact absurd (hfx ▸ h x hx) (not_returns_error e)

end Shapeflow.Fallible
