import Shapeflow.CrashLogic

set_option autoImplicit false

/-!
# Redoing a list of statements

Statements that do nothing once they are done may be started again from the
first of them, after any of them: doing a prefix and then the whole list is
doing the list. Nothing here depends on what the statements are.
-/
namespace Shapeflow.Redo
open Script Session
variable {σ ι ε : Type}

def perform (act : ι → σ → σ) (xs : List ι) (s : σ) : σ := xs.foldl (fun s x => act x s) s

/-- Each statement is ready when its turn comes. -/
def InTurn (act : ι → σ → σ) (ready : ι → σ → Prop) : σ → List ι → Prop
  | _, [] => True
  | s, x :: xs => ready x s ∧ InTurn act ready (act x s) xs

structure Redoable (act : ι → σ → σ) (ready done : ι → σ → Prop) : Prop where
  after : ∀ x s, ready x s → done x (act x s)
  skip : ∀ x s, done x s → act x s = s
  keeps : ∀ x y s, done x s → done x (act y s)

variable {act : ι → σ → σ} {ready done : ι → σ → Prop}

theorem perform_append (xs ys : List ι) (s : σ) :
    perform act (xs ++ ys) s = perform act ys (perform act xs s) :=
  List.foldl_append

theorem inTurn_append {xs ys : List ι} {s : σ} :
    InTurn act ready s (xs ++ ys) ↔ InTurn act ready s xs ∧ InTurn act ready (perform act xs s) ys := by
  induction xs generalizing s with
  | nil => simp [InTurn, perform]
  | cons x xs ih => simp [InTurn, ih, perform, and_assoc]

/-- Statements that an invariant makes ready, and that keep it, are ready in turn. -/
theorem inTurn_of_invariant {P : σ → Prop} {xs : List ι} (hready : ∀ x ∈ xs, ∀ s, P s → ready x s)
    (hact : ∀ x ∈ xs, ∀ s, P s → P (act x s)) {s : σ} (hs : P s) : InTurn act ready s xs := by
  induction xs generalizing s with
  | nil => trivial
  | cons x xs ih =>
    obtain ⟨hx, hxs⟩ := List.forall_mem_cons.mp hready
    obtain ⟨hkeep, hkeeps⟩ := List.forall_mem_cons.mp hact
    exact ⟨hx s hs, ih hxs hkeeps (hkeep s hs)⟩

/-- What every statement keeps, the list keeps. -/
theorem perform_induction {P : σ → Prop} {xs : List ι} (hact : ∀ x ∈ xs, ∀ s, P s → P (act x s)) {s : σ}
    (hs : P s) : P (perform act xs s) := by
  induction xs generalizing s with
  | nil => exact hs
  | cons x xs ih =>
    obtain ⟨hx, hxs⟩ := List.forall_mem_cons.mp hact
    exact ih hxs (hx s hs)

namespace Redoable

theorem keeps_perform (h : Redoable act ready done) {x : ι} (xs : List ι) {s : σ} (hx : done x s) :
    done x (perform act xs s) :=
  perform_induction (fun y _ t ht => h.keeps x y t ht) hx

theorem skip_perform (h : Redoable act ready done) {xs : List ι} {s : σ} (hxs : ∀ x ∈ xs, done x s) :
    perform act xs s = s := by
  induction xs with
  | nil => rfl
  | cons x xs ih =>
    obtain ⟨hx, hrest⟩ := List.forall_mem_cons.mp hxs
    change perform act xs (act x s) = s
    rw [h.skip x s hx]
    exact ih hrest

theorem done_perform (h : Redoable act ready done) {xs : List ι} {s : σ} (hturn : InTurn act ready s xs) :
    ∀ x ∈ xs, done x (perform act xs s) := by
  induction xs generalizing s with
  | nil => simp
  | cons x xs ih =>
    intro y hy
    rcases List.mem_cons.mp hy with rfl | hmem
    · exact h.keeps_perform xs (h.after y s hturn.1)
    · exact ih hturn.2 y hmem

/-- A prefix done and done again is done once. -/
theorem redo_prefix (h : Redoable act ready done) {xs : List ι} {s : σ} (hturn : InTurn act ready s xs)
    (m n : ℕ) : perform act (xs.take n) (perform act (xs.take m) s) = perform act (xs.take (max m n)) s := by
  have hdone : ∀ k, ∀ x ∈ xs.take k, done x (perform act (xs.take k) s) := by
    intro k
    apply h.done_perform
    rw [← List.take_append_drop k xs, inTurn_append] at hturn
    exact hturn.1
  have hstart : ∀ k l, k ≤ l → xs.take l = xs.take k ++ (xs.take l).drop k := by
    intro k l hkl
    have htake := (List.take_append_drop k (xs.take l)).symm
    rw [List.take_take, Nat.min_eq_left hkl] at htake
    exact htake
  by_cases hmn : m ≤ n
  · rw [Nat.max_eq_right hmn, hstart m n hmn, perform_append, perform_append, h.skip_perform (hdone m)]
  · have hle : n ≤ m := by omega
    rw [Nat.max_eq_left hle]
    apply h.skip_perform
    intro x hx
    apply hdone m
    rw [hstart n m hle]
    exact List.mem_append_left _ hx

end Redoable

/-! ## Statements as transactions of a process -/

/-- Every statement in a transaction of its own. -/
def performTx (act : ι → σ → σ) (xs : List ι) : Script (Session σ) (Stopped ε) Unit := do
  let _ ← forEach (fun x => tx fun s => (.ok (), act x s)) xs
  pure ()

theorem performTx_nil (s : Session σ) :
    (performTx act [] : Script (Session σ) (Stopped ε) Unit) s = (.ok (), s) := rfl

theorem performTx_cons {x : ι} {xs : List ι} {s : σ} {life : Option ℕ} (hlife : life ≠ some 0) :
    (performTx act (x :: xs) : Script (Session σ) (Stopped ε) Unit) ⟨s, life⟩ =
      performTx act xs ⟨act x s, life.map (· - 1)⟩ := by
  have hx : tx (fun s => (.ok (), act x s) : Script σ ε Unit) ⟨s, life⟩ =
      (.ok (), ⟨act x s, life.map (· - 1)⟩) := by
    unfold tx
    rw [if_neg hlife]
    rfl
  unfold performTx
  simp only [forEach, bind_run, hx]
  generalize forEach (fun x => tx fun s => (.ok (), act x s)) xs ⟨act x s, life.map (· - 1)⟩ = rest
  obtain ⟨r, t⟩ := rest
  cases r with
  | ok units => rfl
  | error e => rfl

theorem performTx_immortal (xs : List ι) (s : σ) :
    (performTx act xs : Script (Session σ) (Stopped ε) Unit) ⟨s, none⟩ = (.ok (), ⟨perform act xs s, none⟩) := by
  induction xs generalizing s with
  | nil => rfl
  | cons x xs ih =>
    rw [performTx_cons (by simp)]
    exact ih (act x s)

/-- A process that lives to finish them all has that many transactions less to live. -/
theorem performTx_lives {xs : List ι} {n : ℕ} (hn : xs.length ≤ n) (s : σ) :
    (performTx act xs : Script (Session σ) (Stopped ε) Unit) ⟨s, some n⟩ =
      (.ok (), ⟨perform act xs s, some (n - xs.length)⟩) := by
  induction xs generalizing n s with
  | nil => rfl
  | cons x xs ih =>
    rw [List.length_cons] at hn
    rw [performTx_cons (by simp; omega), Option.map_some, ih (by omega), List.length_cons]
    have hsub : n - 1 - xs.length = n - (xs.length + 1) := by omega
    rw [hsub]
    rfl

/-- A process that does not leaves the statements done that it lived to finish. -/
theorem performTx_dies {xs : List ι} {n : ℕ} (hn : n < xs.length) (s : σ) :
    (performTx act xs : Script (Session σ) (Stopped ε) Unit) ⟨s, some n⟩ =
      (.error .died, ⟨perform act (xs.take n) s, some 0⟩) := by
  induction xs generalizing n s with
  | nil => simp at hn
  | cons x xs ih =>
    cases n with
    | zero => rfl
    | succ n =>
      rw [List.length_cons] at hn
      rw [performTx_cons (by simp), Option.map_some, Nat.add_sub_cancel, ih (by omega)]
      rfl

/-- A process dies with a prefix of the statements done, or does them all. -/
theorem performTx_cases (act : ι → σ → σ) (xs : List ι) (s : σ) (life : Option ℕ) :
    (∃ n, n < xs.length ∧ life = some n ∧ (performTx act xs : Script (Session σ) (Stopped ε) Unit) ⟨s, life⟩ =
        (.error .died, ⟨perform act (xs.take n) s, some 0⟩)) ∨
      (performTx act xs : Script (Session σ) (Stopped ε) Unit) ⟨s, life⟩ =
        (.ok (), ⟨perform act xs s, life.map (· - xs.length)⟩) ∧ ∀ n, life = some n → xs.length ≤ n := by
  cases life with
  | none => exact .inr ⟨performTx_immortal xs s, by simp⟩
  | some n =>
    by_cases hn : n < xs.length
    · exact .inl ⟨n, hn, rfl, performTx_dies hn s⟩
    · have hle : xs.length ≤ n := by omega
      refine .inr ⟨performTx_lives hle s, ?_⟩
      intro k hk
      cases hk
      exact hle

end Shapeflow.Redo
