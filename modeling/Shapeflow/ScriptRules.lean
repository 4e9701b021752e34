import Mathlib.Data.List.Forall2
import Shapeflow.Dict
import Shapeflow.Fallible
import Shapeflow.Script

set_option autoImplicit false

/-!
# Rules for scripts

Two judgements about scripts. `Gives` says how a script moves the store, raise or
not, and what holds of a value it returns; `Simulates` says that a script ends as
a pure computation does, on every store that keeps an invariant. A function that
looks its results up in a table is the case of `Simulates` the last section is about.
-/
namespace Shapeflow.Script
open Fallible
variable {σ ε α β γ δ κ ν : Type}

theorem exists_of_forall₂ {R : α → β → Prop} {as : List α} {bs : List β} (h : List.Forall₂ R as bs) {b : β}
    (hb : b ∈ bs) : ∃ a ∈ as, R a b := by
  induction h with
  | nil => cases hb
  | @cons a b' as bs hab _ ih =>
    rcases List.mem_cons.mp hb with rfl | hb
    · exact ⟨a, List.mem_cons_self, hab⟩
    · obtain ⟨a', ha', hR⟩ := ih hb
      exact ⟨a', List.mem_cons_of_mem _ ha', hR⟩

theorem forall₂_comp {R : α → β → Prop} {S : β → γ → Prop} {T : α → γ → Prop} {as : List α} {bs : List β}
    {cs : List γ} (hR : List.Forall₂ R as bs) (hS : List.Forall₂ S bs cs)
    (h : ∀ a ∈ as, ∀ b c, R a b → S b c → T a c) : List.Forall₂ T as cs := by
  induction hR generalizing cs with
  | nil =>
    cases hS
    exact .nil
  | @cons a b as bs hab _ ih =>
    obtain - | ⟨hbc, hS⟩ := hS
    exact .cons (h a List.mem_cons_self b _ hab hbc) (ih hS fun a' ha' => h a' (List.mem_cons_of_mem a ha'))

/-! ## What a script gives -/

/-- From a store in `P` the script moves along `R`, and a value it returns is in `Q`. -/
def Gives (P : σ → Prop) (R : σ → σ → Prop) (Q : α → σ → Prop) (x : Script σ ε α) : Prop :=
  ∀ s, P s → R s (x.after s) ∧ ∀ a t, x s = (.ok a, t) → Q a t

/-- Moves along `R` compose and keep `P`. -/
structure Frame (P : σ → Prop) (R : σ → σ → Prop) : Prop where
  refl : ∀ s, R s s
  trans : ∀ {s t u}, R s t → R t u → R s u
  keeps : ∀ {s t}, P s → R s t → P t

section
variable {P : σ → Prop} {R : σ → σ → Prop} {Q : α → σ → Prop}

theorem gives_pure (frame : Frame P R) {a : α} (h : ∀ s, P s → Q a s) : Gives P R Q (pure a : Script σ ε α) := by
  intro s hs
  refine ⟨frame.refl s, fun b t hrun => ?_⟩
  cases hrun
  exact h s hs

/-- A run that raised has only to move along `R`. -/
theorem gives_of_raised {x : Script σ ε α} {r s t : σ} {e : ε} (hrun : x s = (.error e, t)) (hR : R r t) :
    R r (x.after s) ∧ ∀ a u, x s = (.ok a, u) → Q a u := by
  rw [after_of_error hrun, hrun]
  refine ⟨hR, fun a u hreturned => ?_⟩
  cases hreturned

theorem gives_raise (frame : Frame P R) (e : ε) : Gives P R Q (raise e : Script σ ε α) :=
  fun s _ => gives_of_raised rfl (frame.refl s)

theorem gives_ite {p : Prop} [Decidable p] {x y : Script σ ε α} (hx : p → Gives P R Q x) (hy : ¬ p → Gives P R Q y) :
    Gives P R Q (if p then x else y) := by
  split
  · exact hx ‹p›
  · exact hy ‹¬ p›

/-- The rest of a script may rely on what its first half gave. -/
theorem gives_bind (frame : Frame P R) {M : β → σ → Prop} {x : Script σ ε β} {f : β → Script σ ε α}
    (hx : Gives P R M x) (hf : ∀ b, Gives (fun s => P s ∧ M b s) R Q (f b)) : Gives P R Q (x >>= f) := by
  intro s hs
  obtain ⟨hR, hM⟩ := hx s hs
  cases hrun : x s with
  | mk r t =>
    cases r with
    | error e =>
      rw [after_of_error hrun] at hR
      exact gives_of_raised (bind_of_error hrun) hR
    | ok b =>
      rw [after_bind_of_ok hrun, bind_of_ok hrun]
      rw [after_of_ok hrun] at hR
      obtain ⟨hfR, hfQ⟩ := hf b t ⟨frame.keeps hs hR, hM b t hrun⟩
      exact ⟨frame.trans hR hfR, hfQ⟩

theorem Frame.and (frame : Frame P R) {M : σ → Prop} (hM : ∀ s t, M s → R s t → M t) :
    Frame (fun s => P s ∧ M s) R where
  refl := frame.refl
  trans := frame.trans
  keeps hs h := ⟨frame.keeps hs.1 h, hM _ _ hs.2 h⟩

theorem Gives.weaken {P' : σ → Prop} {x : Script σ ε α} (h : Gives P R Q x) (hP : ∀ s, P' s → P s) :
    Gives P' R Q x := fun s hs => h s (hP s hs)

theorem Gives.mono {Q' : α → σ → Prop} {x : Script σ ε α} (h : Gives P R Q x) (hQ : ∀ a t, Q a t → Q' a t) :
    Gives P R Q' x := fun s hs => ⟨(h s hs).1, fun a t hrun => hQ a t ((h s hs).2 a t hrun)⟩

/-- The turns of a loop give what each of them gives, when later turns do not take it away. -/
theorem gives_forEach (frame : Frame P R) {Q : α → β → σ → Prop} {f : α → Script σ ε β} {xs : List α}
    (hQ : ∀ a b s t, Q a b s → R s t → Q a b t) (hf : ∀ a ∈ xs, Gives P R (Q a) (f a)) :
    Gives P R (fun bs t => List.Forall₂ (fun a b => Q a b t) xs bs) (forEach f xs) := by
  induction xs with
  | nil => exact gives_pure frame fun _ _ => .nil
  | cons a rest ih =>
    intro s hs
    obtain ⟨hR, hfirst⟩ := hf a List.mem_cons_self s hs
    cases hrun : f a s with
    | mk r t =>
      cases r with
      | error e =>
        rw [after_of_error hrun] at hR
        exact gives_of_raised (bind_of_error hrun) hR
      | ok b =>
        rw [after_of_ok hrun] at hR
        rw [forEach, after_bind_of_ok hrun, bind_of_ok hrun]
        obtain ⟨hrest, hothers⟩ := ih (fun a' ha' => hf a' (List.mem_cons_of_mem a ha')) t (frame.keeps hs hR)
        cases hruns : forEach f rest t with
        | mk q u =>
          cases q with
          | error e =>
            rw [after_of_error hruns] at hrest
            exact gives_of_raised (bind_of_error hruns) (frame.trans hR hrest)
          | ok bs =>
            rw [after_of_ok hruns] at hrest
            rw [after_bind_of_ok hruns, bind_of_ok hruns]
            refine ⟨frame.trans hR hrest, fun cs v hcs => ?_⟩
            cases hcs
            exact .cons (hQ a b t u (hfirst b t hrun) hrest) (hothers bs u hruns)

end

/-! ## Scripts that compute -/

/-- Both return, values that `Q` relates, or both raise the same. -/
inductive Agree (Q : α → β → Prop) : Except ε α → Except ε β → Prop
  | ok {a : α} {b : β} : Q a b → Agree Q (.ok a) (.ok b)
  | error (e : ε) : Agree Q (.error e) (.error e)

/-- From every store in `I` the script ends as `r` does, and in `I`. -/
def Simulates (I : σ → Prop) (Q : α → β → Prop) (r : Except ε α) (x : Script σ ε β) : Prop :=
  ∀ s, I s → ∃ q t, x s = (q, t) ∧ I t ∧ Agree Q r q

section
variable {I : σ → Prop} {Q : α → β → Prop}

theorem simulates_pure {a : α} {b : β} (h : Q a b) : Simulates I Q (.ok a) (pure b : Script σ ε β) :=
  fun s hs => ⟨.ok b, s, rfl, hs, .ok h⟩

theorem simulates_bind {M : γ → δ → Prop} {r : Except ε γ} {x : Script σ ε δ} {g : γ → Except ε α}
    {f : δ → Script σ ε β} (hx : Simulates I M r x) (hf : ∀ c d, M c d → Simulates I Q (g c) (f d)) :
    Simulates I Q (r >>= g) (x >>= f) := by
  intro s hs
  obtain ⟨q, t, hrun, ht, hagree⟩ := hx s hs
  cases hagree with
  | error e => exact ⟨.error e, t, bind_of_error hrun, ht, .error e⟩
  | @ok c d hM =>
    obtain ⟨q, u, hu, hIu, hagree⟩ := hf c d hM t ht
    exact ⟨q, u, by rw [bind_of_ok hrun, hu], hIu, hagree⟩

theorem simulates_forEach {g : γ → Except ε α} {f : γ → Script σ ε β} (hf : ∀ c, Simulates I Q (g c) (f c))
    (xs : List γ) : Simulates I (List.Forall₂ Q) (xs.mapM g) (forEach f xs) := by
  induction xs with
  | nil => exact simulates_pure .nil
  | cons c rest ih =>
    rw [List.mapM_cons]
    exact simulates_bind (hf c) fun a b hab => simulates_bind ih fun as bs hrest => simulates_pure (.cons hab hrest)

/-- A loop whose turns compute, computes. -/
theorem simulates_forEach_eq {g : γ → Except ε α} {f : γ → Script σ ε α} (hf : ∀ c, Simulates I Eq (g c) (f c))
    (xs : List γ) : Simulates I Eq (xs.mapM g) (forEach f xs) := by
  have h := simulates_forEach hf xs
  rwa [List.forall₂_eq_eq_eq] at h

end

/-! ## Tables of results -/

section
variable [DecidableEq κ] (f : κ → Except ε (Option ν))

/-- The result in the table, or a new one, which the table then holds; a failure and a miss are not kept. -/
def memoise (k : κ) : Script (Dict κ ν) ε (Option ν) := do
  let table ← getStore
  match table.get? k with
  | some v => pure (some v)
  | none =>
    match f k with
    | .error e => raise e
    | .ok none => pure none
    | .ok (some v) => do
      setStore (table.set k v)
      pure (some v)

/-- What the table holds are results. -/
def Recalls (table : Dict κ ν) : Prop := ∀ k v, table.get? k = some v → f k = .ok (some v)

theorem recalls_empty : Recalls f Dict.empty := nofun

theorem Recalls.set {f : κ → Except ε (Option ν)} {table : Dict κ ν} (h : Recalls f table) {k : κ} {v : ν}
    (hv : f k = .ok (some v)) : Recalls f (table.set k v) := by
  intro j w hw
  rw [Dict.get?_set] at hw
  split at hw
  · rename_i hj
    cases hw
    rw [hj, hv]
  · exact h j w hw

/-- Looking a result up instead of computing it is not seen. -/
theorem simulates_memoise (k : κ) : Simulates (Recalls f) Eq (f k) (memoise f k) := by
  intro table htable
  unfold memoise
  rw [getStore_bind]
  cases hget : table.get? k with
  | some v => exact ⟨.ok (some v), table, rfl, htable, by rw [htable k v hget]; exact .ok rfl⟩
  | none =>
    cases hf : f k with
    | error e => exact ⟨.error e, table, rfl, htable, .error e⟩
    | ok found =>
      cases found with
      | none => exact ⟨.ok none, table, rfl, htable, .ok rfl⟩
      | some v => exact ⟨.ok (some v), table.set k v, rfl, htable.set hf, .ok rfl⟩

end

end Shapeflow.Script
