import Mathlib.Data.List.Infix

set_option autoImplicit false

/-!
# Runs of a deterministic step

A run folds a step over a list of operations. A condition on single steps,
`ok`, is read along the run by `Allowed`; the rules below turn facts about one
step into facts about every state a run goes through.
-/
namespace Shapeflow.Run
variable {σ ω : Type}

def run (step : σ → ω → σ) (s : σ) (ops : List ω) : σ := ops.foldl step s

/-- Every step of the run meets `ok` in the state it starts from. -/
def Allowed (step : σ → ω → σ) (ok : σ → ω → Prop) : σ → List ω → Prop
  | _, [] => True
  | s, op :: ops => ok s op ∧ Allowed step ok (step s op) ops

variable {step : σ → ω → σ} {ok : σ → ω → Prop}

instance allowedDecidable [∀ s op, Decidable (ok s op)] :
    ∀ (s : σ) (ops : List ω), Decidable (Allowed step ok s ops)
  | _, [] => .isTrue trivial
  | s, op :: ops =>
    have := allowedDecidable (step s op) ops
    inferInstanceAs (Decidable (_ ∧ _))

@[simp] theorem run_nil (s : σ) : run step s [] = s := rfl

@[simp] theorem run_cons (s : σ) (op : ω) (ops : List ω) :
    run step s (op :: ops) = run step (step s op) ops := rfl

theorem run_append (s : σ) (xs ys : List ω) : run step s (xs ++ ys) = run step (run step s xs) ys :=
  List.foldl_append

theorem allowed_append (s : σ) (xs ys : List ω) :
    Allowed step ok s (xs ++ ys) ↔ Allowed step ok s xs ∧ Allowed step ok (run step s xs) ys := by
  induction xs generalizing s with
  | nil => simp [Allowed]
  | cons op xs ih => simp [Allowed, ih, and_assoc]

theorem Allowed.mono {ok' : σ → ω → Prop} (h : ∀ s op, ok s op → ok' s op) {s : σ} {ops : List ω}
    (ha : Allowed step ok s ops) : Allowed step ok' s ops := by
  induction ops generalizing s with
  | nil => trivial
  | cons op ops ih => exact ⟨h s op ha.1, ih ha.2⟩

theorem Allowed.and {ok' : σ → ω → Prop} {s : σ} {ops : List ω} (h : Allowed step ok s ops)
    (h' : Allowed step ok' s ops) : Allowed step (fun s op => ok s op ∧ ok' s op) s ops := by
  induction ops generalizing s with
  | nil => trivial
  | cons op ops ih => exact ⟨⟨h.1, h'.1⟩, ih h.2 h'.2⟩

theorem allowed_true (s : σ) (ops : List ω) : Allowed step (fun _ _ => True) s ops := by
  induction ops generalizing s with
  | nil => trivial
  | cons op ops ih => exact ⟨trivial, ih _⟩

/-- What every allowed step keeps, every allowed run keeps. -/
theorem invariant {I : σ → Prop} (hstep : ∀ s op, I s → ok s op → I (step s op))
    {s : σ} {ops : List ω} (hs : I s) (ha : Allowed step ok s ops) : I (run step s ops) := by
  induction ops generalizing s with
  | nil => exact hs
  | cons op ops ih => exact ih (hstep s op hs ha.1) ha.2

/-- What every step keeps, every run keeps. -/
theorem invariant_all {I : σ → Prop} (hstep : ∀ s op, I s → I (step s op))
    {s : σ} (ops : List ω) (hs : I s) : I (run step s ops) :=
  invariant (fun s op h _ => hstep s op h) hs (allowed_true s ops)

/-- A relation that an allowed step establishes between the states around it
    holds across an allowed run, under an invariant of the allowed steps. -/
theorem relation {I : σ → Prop} {R : σ → σ → Prop} (hrefl : ∀ s, R s s)
    (htrans : ∀ {s t u}, R s t → R t u → R s u)
    (hinv : ∀ s op, I s → ok s op → I (step s op))
    (hstep : ∀ s op, I s → ok s op → R s (step s op))
    {s : σ} {ops : List ω} (hs : I s) (ha : Allowed step ok s ops) : R s (run step s ops) := by
  induction ops generalizing s with
  | nil => exact hrefl s
  | cons op ops ih => exact htrans (hstep s op hs ha.1) (ih (hinv s op hs ha.1) ha.2)

/-- When `ok` is enough for a step to keep `I` and needed for it to keep the weaker `J`,
    the runs that stay in `J` throughout are exactly the allowed ones. -/
theorem always_iff_allowed {I J : σ → Prop} (hweak : ∀ s, I s → J s)
    (hkeep : ∀ s op, I s → ok s op → I (step s op))
    (hneed : ∀ s op, I s → J (step s op) → ok s op) {s : σ} (ops : List ω) (hs : I s) :
    (∀ before, before <+: ops → J (run step s before)) ↔ Allowed step ok s ops := by
  induction ops generalizing s with
  | nil =>
    simp only [List.prefix_nil, Allowed, iff_true]
    rintro before rfl
    exact hweak s hs
  | cons op ops ih =>
    constructor
    · intro h
      have hop : ok s op := hneed s op hs (h [op] (by simp))
      refine ⟨hop, (ih (hkeep s op hs hop)).mp ?_⟩
      intro before hb
      exact h (op :: before) (by simpa using hb)
    · rintro ⟨hop, hrest⟩ before hb
      cases before with
      | nil => exact hweak s hs
      | cons o before =>
        obtain ⟨rfl, hrun⟩ := List.cons_prefix_cons.mp hb
        exact (ih (hkeep s o hs hop)).mpr hrest before hrun

end Shapeflow.Run
