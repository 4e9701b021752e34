import Mathlib.Tactic.Linarith
import Shapeflow.BudgetAccounting

set_option autoImplicit false

/-!
# Accounts within their caps

Totals never go negative. They can pass the cap: a settlement above its
reservation is charged in full, and a cap may be declared or tightened below
what is already committed. The runs in which neither happens are exactly the
runs that stay within the caps.
-/
namespace Shapeflow.Budget
open Script Database Table Hold Run

theorem Balanced.totals_nonneg {s : Database} (h : Balanced s) {a : BudgetAccountRow}
    (ha : a ∈ s.budgetAccounts.rows) : 0 ≤ a.reservedTotal ∧ 0 ≤ a.settledTotal := by
  obtain ⟨hopen, hcharged⟩ := h.conserved a ha
  rw [hopen, hcharged]
  constructor
  · apply openTotal_nonneg
    intro x hx
    obtain ⟨r, hr, rfl⟩ := List.mem_map.mp hx
    exact h.amount_nonneg r hr
  · apply chargedTotal_nonneg
    intro x hx
    obtain ⟨r, hr, rfl⟩ := List.mem_map.mp hx
    unfold holdOf
    cases r.state with
    | reserved => exact le_refl 0
    | settled => exact h.settled_nonneg r hr

def committed (a : BudgetAccountRow) : ℚ := a.reservedTotal + a.settledTotal

def WithinCap (s : Database) : Prop := ∀ a ∈ s.budgetAccounts.rows, committed a ≤ a.cap

instance (s : Database) : Decidable (WithinCap s) := inferInstanceAs (Decidable (∀ _ ∈ _, _))

/-! ## The accounts after a group has been resolved -/

/-- What resolving the row `r` does to an account. -/
def chargedBy (now : ℚ) (actualOf : String → ℚ → ℚ) (a : BudgetAccountRow) (r : ReservationRow) :
    BudgetAccountRow :=
  if r.state = .reserved ∧ a.resource = r.resource then
    charging now r.amount (max 0 (actualOf r.resource r.amount)) a
  else a

/-- By how much the charges of the reserved rows on `resource` pass their reservations. -/
def overrun (actualOf : String → ℚ → ℚ) (rows : List ReservationRow) (resource : String) : ℚ :=
  ((rows.filter fun r => r.state = .reserved ∧ r.resource = resource).map fun r =>
    max 0 (actualOf r.resource r.amount) - r.amount).sum

theorem foldl_settleOne_accounts (now : ℚ) (actualOf : String → ℚ → ℚ) (rows : List ReservationRow)
    (s : Database) :
    (rows.foldl (settleOne now actualOf) s).budgetAccounts.rows =
      s.budgetAccounts.rows.map fun a => rows.foldl (chargedBy now actualOf) a := by
  induction rows generalizing s with
  | nil => simp
  | cons r rest ih =>
    have hone : (settleOne now actualOf s r).budgetAccounts.rows =
        s.budgetAccounts.rows.map fun a => chargedBy now actualOf a r := by
      by_cases hstate : r.state = .reserved
      · simp [settleOne, hstate, accountMoved, updated, chargedBy]
      · simp [settleOne, hstate, chargedBy]
    rw [List.foldl_cons, ih, hone, List.map_map]
    rfl

theorem foldl_chargedBy (now : ℚ) (actualOf : String → ℚ → ℚ) (rows : List ReservationRow)
    (a : BudgetAccountRow) :
    (rows.foldl (chargedBy now actualOf) a).resource = a.resource ∧
    (rows.foldl (chargedBy now actualOf) a).cap = a.cap ∧
    committed (rows.foldl (chargedBy now actualOf) a) = committed a + overrun actualOf rows a.resource := by
  induction rows generalizing a with
  | nil => simp [overrun]
  | cons r rest ih =>
    obtain ⟨hres, hcap, hsum⟩ := ih (chargedBy now actualOf a r)
    rw [List.foldl_cons]
    by_cases hit : r.state = .reserved ∧ a.resource = r.resource
    · have hone : chargedBy now actualOf a r = charging now r.amount (max 0 (actualOf r.resource r.amount)) a :=
        if_pos hit
      rw [hone] at hres hcap hsum ⊢
      refine ⟨hres, hcap, hsum.trans ?_⟩
      have hfilter : overrun actualOf (r :: rest) a.resource =
          (max 0 (actualOf r.resource r.amount) - r.amount) + overrun actualOf rest a.resource := by
        simp [overrun, hit.1, hit.2]
      rw [hfilter]
      simp only [committed, charging]
      abel
    · have hone : chargedBy now actualOf a r = a := if_neg hit
      rw [hone] at hres hcap hsum ⊢
      refine ⟨hres, hcap, hsum.trans ?_⟩
      have hfilter : overrun actualOf (r :: rest) a.resource = overrun actualOf rest a.resource := by
        unfold overrun
        rw [List.filter_cons_of_neg]
        intro h
        have h := of_decide_eq_true h
        exact hit ⟨h.1, h.2.symm⟩
      rw [hfilter]

/-- Resolving a group keeps the caps exactly when each account has room for what the
    charges on it pass their reservations by. -/
theorem withinCap_resolved (b : Budget) (now : ℚ) (group : ReservationGroup) (actualOf : String → ℚ → ℚ)
    (s : Database) :
    WithinCap (b.resolved now group actualOf s) ↔
      ∀ a ∈ s.budgetAccounts.rows,
        committed a + overrun actualOf (b.groupRows s group) a.resource ≤ a.cap := by
  unfold WithinCap resolved
  rw [foldl_settleOne_accounts, List.forall_mem_map]
  constructor
  · intro h a ha
    obtain ⟨-, hcap, hsum⟩ := foldl_chargedBy now actualOf (b.groupRows s group) a
    rw [← hsum, ← hcap]
    exact h a ha
  · intro h a ha
    obtain ⟨-, hcap, hsum⟩ := foldl_chargedBy now actualOf (b.groupRows s group) a
    rw [hsum, hcap]
    exact h a ha

/-- Charges that pass no reservation need no room. -/
theorem overrun_nonpos {actualOf : String → ℚ → ℚ} (rows : List ReservationRow) (resource : String)
    (h : ∀ r ∈ rows, max 0 (actualOf r.resource r.amount) ≤ r.amount) :
    overrun actualOf rows resource ≤ 0 := by
  refine (List.sum_le_card_nsmul _ 0 ?_).trans (by simp)
  intro x hx
  obtain ⟨r, hr, rfl⟩ := List.mem_map.mp hx
  exact sub_nonpos.mpr (h r (List.mem_filter.mp hr).1)

theorem WithinCap.resolved {b : Budget} {s : Database} (h : WithinCap s) (now : ℚ)
    (group : ReservationGroup) {actualOf : String → ℚ → ℚ}
    (hactual : ∀ r ∈ s.budgetReservations.rows, max 0 (actualOf r.resource r.amount) ≤ r.amount) :
    WithinCap (b.resolved now group actualOf s) := by
  rw [withinCap_resolved]
  intro a ha
  have hover := overrun_nonpos (b.groupRows s group) a.resource
    fun r hr => hactual r (mem_groupRows hr)
  have := h a ha
  linarith

/-! ## The other operations -/

/-- A reservation only goes through within the headroom. -/
theorem WithinCap.reserveLoop {b : Budget} {now : ℚ} {g : String} {k c at_ : Option String}
    {entries : List (String × ℚ)} {s t : Database} {us : List Unit} (hs : WithinCap s)
    (h : forEach (b.reserveResource now g k c at_) entries s = (.ok us, t)) : WithinCap t := by
  induction entries generalizing s us with
  | nil =>
    obtain ⟨-, rfl⟩ := forEach_nil_ok.mp h
    exact hs
  | cons entry rest ih =>
    obtain ⟨u, vs, m, -, hone, hrest⟩ := forEach_cons_ok.mp h
    obtain ⟨-, ⟨acct, hacct, hfits⟩, hkeys, rfl⟩ := reserveResource_ok hone
    refine ih ?_ hrest
    intro a ha
    obtain ⟨q, hq, rfl⟩ := mem_updated.mp ha
    by_cases hres : q.resource = entry.1
    · rw [if_pos (decide_eq_true hres)]
      have hqa : q = acct := by
        have hfetch := fetchAccount_of_mem hq
        rw [hres, hacct] at hfetch
        exact (Option.some.inj hfetch).symm
      subst hqa
      simp only [committed, holding]
      linarith
    · rw [if_neg (by simpa using hres)]
      exact hs q hq

/-- A cap at or above what is committed on the account keeps it within its cap, and no other does. -/
theorem withinCap_withCap {s : Database} (hs : WithinCap s) (now : ℚ) (resource : String) (cap : ℚ) :
    WithinCap (withCap now resource cap s) ↔
      ∀ a ∈ s.budgetAccounts.rows, a.resource = resource → committed a ≤ cap := by
  constructor
  · intro h a ha hres
    have hmem : { a with cap, updatedAt := now } ∈ (withCap now resource cap s).budgetAccounts.rows :=
      mem_updated.mpr ⟨a, ha, by simp [hres]⟩
    exact h _ hmem
  · intro h a ha
    obtain ⟨q, hq, rfl⟩ := mem_updated.mp ha
    by_cases hres : q.resource = resource
    · rw [if_pos (decide_eq_true hres)]
      exact h q hq hres
    · rw [if_neg (by simpa using hres)]
      exact hs q hq

/-! ## Runs -/

/-- The call declares no cap below what is committed on its account (nothing, on a new one),
    and settles no group above its reservations by more than the room on their accounts. -/
def KeepsCaps (b : Budget) (s : Database) (call : Call) : Prop :=
  match call.op with
  | .ensureAccount resource cap =>
    (∀ a ∈ s.budgetAccounts.rows, a.resource = resource → committed a ≤ cap) ∧
      ((∀ a ∈ s.budgetAccounts.rows, a.resource ≠ resource) → 0 ≤ cap)
  | .settle group actuals =>
    ∀ a ∈ s.budgetAccounts.rows,
      committed a + overrun (fun resource _ => max 0 (actuals.get resource)) (b.groupRows s group) a.resource
        ≤ a.cap
  | _ => True

instance (b : Budget) (s : Database) : ∀ call, Decidable (KeepsCaps b s call)
  | ⟨_, .ensureAccount ..⟩ => inferInstanceAs (Decidable (_ ∧ _))
  | ⟨_, .settle ..⟩ => inferInstanceAs (Decidable (∀ _ ∈ _, _))
  | ⟨_, .authorizeCapRaise ..⟩ | ⟨_, .reserve ..⟩ | ⟨_, .keepWorstCase _⟩ | ⟨_, .release _⟩ => .isTrue trivial

theorem step_withinCap {b : Budget} {s : Database} {call : Call} (hb : Balanced s) (hs : WithinCap s)
    (hok : KeepsCaps b s call) : WithinCap (step b s call) := by
  obtain ⟨clock, op⟩ := call
  cases op with
  | ensureAccount resource cap =>
    change WithinCap ((ensureAccount clock resource cap).after s)
    rcases ensureAccount_after clock resource cap s with
      ⟨hnew, hkeys, hafter⟩ | ⟨a, -, -, hafter⟩ | ⟨a, -, -, hafter⟩
    · rw [hafter]
      intro a ha
      rcases List.mem_append.mp ha with ha | ha
      · exact hs a ha
      · rw [List.mem_singleton.mp ha]
        simpa [committed] using hok.2 (fetchAccount_none hnew)
    · rw [hafter]
      exact (withinCap_withCap hs clock resource cap).mpr hok.1
    · rw [hafter]
      exact hs
  | authorizeCapRaise resource cap auth reason =>
    change WithinCap ((b.authorizeCapRaise clock resource cap auth reason).after s)
    rcases authorizeCapRaise_after b clock resource cap auth reason s with ⟨a, i, hfetch, hlt, hafter⟩ | hafter
    · rw [hafter]
      refine (withinCap_withCap hs clock resource cap).mpr ?_
      intro q hq hres
      have hqa := fetchAccount_of_mem hq
      rw [hres, hfetch] at hqa
      cases hqa
      exact (hs a hq).trans hlt.le
    · rw [hafter]
      exact hs
  | reserve amounts k c a =>
    refine (atomic_transaction _).after_of (P := WithinCap) hs ?_
    intro g t ht
    obtain ⟨-, -, us, hloop⟩ := reserveIn_ok (transaction_ok.mp ht)
    exact hs.reserveLoop hloop
  | settle group actuals =>
    rw [step_resolves b s (g := group) rfl]
    exact (withinCap_resolved b clock group _ s).mpr hok
  | keepWorstCase group =>
    rw [step_resolves b s (g := group) rfl]
    exact hs.resolved clock group fun r hr => by rw [max_eq_right (hb.amount_nonneg r hr)]
  | release group =>
    rw [step_resolves b s (g := group) rfl]
    exact hs.resolved clock group fun r hr => by simpa using hb.amount_nonneg r hr

theorem keepsCaps_of_step {b : Budget} {s : Database} {call : Call} (hs : WithinCap s)
    (hcap : WithinCap (step b s call)) : KeepsCaps b s call := by
  obtain ⟨clock, op⟩ := call
  cases op with
  | ensureAccount resource cap =>
    change WithinCap ((ensureAccount clock resource cap).after s) at hcap
    rcases ensureAccount_after clock resource cap s with
      ⟨hnew, hkeys, hafter⟩ | ⟨a, hfetch, -, hafter⟩ | ⟨a, hfetch, hle, hafter⟩
    · rw [hafter] at hcap
      refine ⟨fun a ha hres => absurd hres (fetchAccount_none hnew a ha), fun _ => ?_⟩
      simpa [committed] using hcap ⟨resource, cap, 0, 0, clock⟩ (List.mem_append_right _ (by simp))
    · rw [hafter] at hcap
      refine ⟨(withinCap_withCap hs clock resource cap).mp hcap, fun hnone => ?_⟩
      obtain ⟨ha, hres⟩ := fetchAccount_some hfetch
      exact absurd hres (hnone a ha)
    · obtain ⟨ha, hres⟩ := fetchAccount_some hfetch
      refine ⟨fun q hq hqres => ?_, fun hnone => absurd hres (hnone a ha)⟩
      have hqa := fetchAccount_of_mem hq
      rw [hqres, hfetch] at hqa
      cases hqa
      exact (hs a hq).trans hle
  | settle group actuals =>
    rw [step_resolves b s (g := group) rfl] at hcap
    exact (withinCap_resolved b clock group _ s).mp hcap
  | _ => trivial

/-- Totals never go negative, and the runs that stay within the caps are exactly those that
    declare no cap below the committed amount and settle nothing past its reservation and the
    room left on the account. -/
theorem budget_withinCap_iff (b : Budget) (hids : b.DistinctReservationIds) (calls : List Call) :
    (∀ before, before <+: calls → ∀ a ∈ (run (step b) .empty before).budgetAccounts.rows,
      0 ≤ a.reservedTotal ∧ 0 ≤ a.settledTotal) ∧
    ((∀ before, before <+: calls → WithinCap (run (step b) .empty before)) ↔
      Allowed (step b) (KeepsCaps b) .empty calls) := by
  constructor
  · intro before _ a ha
    exact (balanced_run hids before).totals_nonneg ha
  · refine always_iff_allowed (I := fun s => Balanced s ∧ WithinCap s) ?_ ?_ ?_ calls ?_
    · exact fun s hs => hs.2
    · exact fun s call hs hok => ⟨hs.1.writes (step_writes hids s call), step_withinCap hs.1 hs.2 hok⟩
    · exact fun s call hs hcap => keepsCaps_of_step hs.2 hcap
    · refine ⟨balanced_empty, ?_⟩
      intro a ha
      cases ha

/-- A dispatch that costs more than its worst case. -/
def settledAt (actual : ℚ) : List Call :=
  [⟨0, .ensureAccount "usd" 10⟩, ⟨1, .reserve (amountsOf "usd" 1) none (some "c") (some "x")⟩,
    ⟨2, .settle ⟨"x", amountsOf "usd" 1⟩ (amountsOf "usd" actual)⟩]

theorem budget_withinCap_iff_settledAt :
    Allowed (step sampleBudget) (KeepsCaps sampleBudget) .empty (settledAt 3) ∧
      ∀ before, before <+: settledAt 3 → WithinCap (run (step sampleBudget) .empty before) :=
  have hok : Allowed (step sampleBudget) (KeepsCaps sampleBudget) .empty (settledAt 3) := by decide +kernel
  ⟨hok, (budget_withinCap_iff sampleBudget sampleBudget_distinct (settledAt 3)).2.mpr hok⟩

theorem settlement_passes_the_cap :
    ¬ ∀ (b : Budget) (calls : List Call), ∀ a ∈ (run (step b) .empty calls).budgetAccounts.rows,
      0 ≤ a.reservedTotal ∧ 0 ≤ a.settledTotal ∧ a.reservedTotal + a.settledTotal ≤ a.cap := by
  intro h
  have hrun := h sampleBudget (settledAt 12)
  revert hrun
  decide +kernel

end Shapeflow.Budget
