import Mathlib.Algebra.Order.BigOperators.Group.List
import Mathlib.Algebra.Order.Ring.Nat
import Shapeflow.CoordinatorTurn

set_option autoImplicit false

/-!
# Whole runs of the coordinator

The loop has one turn for each pending item and one for each retry these items
have left. It ends without an exception whenever no item that it may reopen or
claim has a committed attempt; late failures are what leaves such items behind.
-/
namespace Shapeflow
namespace Coordinator
open Script Database Table WorkLedger

variable {Raw : Type}

/-- The turns the loop can still take. -/
def turnsLeft (wi : WorkItemRow) : ℕ :=
  if wi.state = .pending then (wi.maxRetries - wi.retryCount).toNat + 1 else 0

def workLeft (s : Database) : ℕ := (s.workItems.rows.map turnsLeft).sum

def committedCount (s : Database) : ℕ := s.workItems.rows.countP fun wi => wi.state = .committed

/-- No item that the loop may claim has a committed attempt. -/
def Clear (s : Database) : Prop :=
  ∀ wi ∈ s.workItems.rows, wi.state = .pending →
    ∀ r ∈ s.attempts.rows, r.workKey = wi.workKey → r.state ≠ .committed

structure Ready (ids : DerivedIds) (s : Database) : Prop where
  derived : IdsDerived ids s
  clear : Clear s

/-! ## One turn -/

section
variable {ids : DerivedIds} {s t : Database} {k : String} {target : WorkState} {row : AttemptRow}
  {wi : WorkItemRow} {summary summary' : RunSummary} {accepting : Prop}

theorem idsDerived_turn (h : IdsDerived ids s) (ht : Took ids s t k target row) : IdsDerived ids t := by
  intro r hr
  rw [ht.attempts] at hr
  rcases List.mem_append.mp hr with hin | hin
  · exact h r hin
  · rw [List.mem_singleton.mp hin, ht.key]
    exact ht.derived

theorem ready_turn (h : Ready ids s) (ht : Took ids s t k target row) (hwi : fetchWorkItem s k = some wi)
    (hst : wi.state = .pending) (hres : TurnResult wi summary summary' accepting target row) :
    Ready ids t := by
  refine ⟨idsDerived_turn h.derived ht, ?_⟩
  obtain ⟨hmem, hkey⟩ := fetchWorkItem_some hwi
  obtain ⟨now, hitems⟩ := ht.items
  intro wi' hwi' hpending r hr hrk
  rw [hitems] at hwi'
  obtain ⟨q, hq, rfl⟩ := mem_updated.mp hwi'
  rw [ht.attempts] at hr
  by_cases hqk : q.workKey = k
  · have heq : q = wi := eq_of_key s.workItems.sound hq hmem (hqk.trans hkey.symm)
    subst heq
    simp only [hqk, decide_true, if_true] at hpending hrk
    rw [routedRow_workKey] at hrk
    rcases List.mem_append.mp hr with hin | hin
    · exact h.clear q hq hst r hin hrk
    · rw [List.mem_singleton.mp hin]
      cases hres with
      | committed _ hrow hsummary =>
        rw [routedRow_of_ne (by simp)] at hpending
        cases hpending
      | failed _ _ hrow htarget hevents hcommitted hnot => exact hrow
  · simp only [hqk, decide_false, Bool.false_eq_true, if_false] at hpending hrk
    rcases List.mem_append.mp hr with hin | hin
    · exact h.clear q hq hpending r hin hrk
    · rw [List.mem_singleton.mp hin, ht.key] at hrk
      exact absurd hrk.symm hqk

theorem workKeys_turn (ht : Took ids s t k target row) :
    t.workItems.rows.map (·.workKey) = s.workItems.rows.map (·.workKey) := by
  obtain ⟨now, hitems⟩ := ht.items
  rw [hitems]
  exact workKeys_moved (routedRow_workKey now target)

theorem workLeft_turn (ht : Took ids s t k target row) (hwi : fetchWorkItem s k = some wi)
    (hst : wi.state = .pending) (hres : TurnResult wi summary summary' accepting target row) :
    workLeft t < workLeft s := by
  obtain ⟨hmem, hkey⟩ := fetchWorkItem_some hwi
  obtain ⟨now, hitems⟩ := ht.items
  have hsum := sum_updated WorkItemRow.workKey (routedRow now target) turnsLeft
    s.workItems.sound hmem
  have hbefore : turnsLeft wi = (wi.maxRetries - wi.retryCount).toNat + 1 := if_pos hst
  have hafter : turnsLeft (routedRow now target wi) < turnsLeft wi := by
    rw [hbefore]
    cases hres with
    | committed _ hrow hsummary =>
      rw [routedRow_of_ne (by simp)]
      simp [turnsLeft]
    | failed _ _ hrow htarget hevents hcommitted hnot =>
      rcases htarget with rfl | ⟨rfl, hleft⟩
      · rw [routedRow_of_ne (by simp)]
        simp [turnsLeft]
      · have hle : (wi.retryCount : ℤ) + 1 ≤ wi.maxRetries := hleft
        have hrow' : turnsLeft (routedRow now .pending wi) =
            (wi.maxRetries - ((wi.retryCount + 1 : ℕ) : ℤ)).toNat + 1 := rfl
        rw [hrow']
        push_cast
        omega
  unfold workLeft
  rw [hitems, itemsMoved, ← hkey]
  omega

theorem committedCount_turn (ht : Took ids s t k target row) (hwi : fetchWorkItem s k = some wi)
    (hst : wi.state = .pending) (hres : TurnResult wi summary summary' accepting target row) :
    committedCount t + summary.committed = committedCount s + summary'.committed := by
  obtain ⟨hmem, hkey⟩ := fetchWorkItem_some hwi
  obtain ⟨now, hitems⟩ := ht.items
  have hcount := countP_updated WorkItemRow.workKey (routedRow now target)
    (fun wi => decide (wi.state = .committed)) s.workItems.sound hmem
  unfold committedCount
  rw [hitems, itemsMoved, ← hkey]
  cases hres with
  | committed _ hrow hsummary =>
    have hafter : (routedRow now .committed wi).state = .committed := by
      rw [routedRow_of_ne (by simp)]
    simp only [hst, hafter, decide_true, if_true, reduceCtorEq, decide_false, Bool.false_eq_true,
      if_false] at hcount
    rw [hsummary]
    change _ + _ = _ + (summary.committed + 1)
    omega
  | failed _ _ hrow htarget hevents hcommitted hnot =>
    have hafter : (routedRow now target wi).state ≠ .committed := by
      rcases htarget with rfl | ⟨rfl, -⟩
      · rw [routedRow_of_ne (by simp)]
        simp
      · simp [routedRow, reopenRow]
    simp only [hst, hafter, reduceCtorEq, decide_false, Bool.false_eq_true, if_false] at hcount
    omega

theorem events_turn (hres : TurnResult wi summary summary' accepting target row) :
    summary'.events ≠ summary.events := by
  cases hres with
  | committed _ hrow hsummary =>
    rw [hsummary]
    simp only [RunSummary.events]
    omega
  | failed _ _ hrow htarget hevents hcommitted hnot => omega

end

/-! ## The loop -/

theorem pendingKeys_nil {s : Database} (h : pendingKeys s 1 = []) :
    ∀ wi ∈ s.workItems.rows, wi.state ≠ .pending := by
  intro wi hwi hst
  have hmem : wi ∈ (s.workItems.rows.filter fun r => r.state = .pending).insertionSort
      fun a b => a.createdAt ≤ b.createdAt :=
    (List.mem_insertionSort _).mpr (List.mem_filter.mpr ⟨hwi, by simp [hst]⟩)
  simp only [pendingKeys, List.map_eq_nil_iff, List.take_eq_nil_iff, Nat.one_ne_zero, false_or] at h
  rw [h] at hmem
  cases hmem

theorem pendingKeys_cons {s : Database} {k : String} {rest : List String} {n : ℕ}
    (h : pendingKeys s n = k :: rest) : ∃ wi, fetchWorkItem s k = some wi ∧ wi.state = .pending := by
  have hk : k ∈ pendingKeys s n := by
    rw [h]
    simp
  obtain ⟨wi, hwi, rfl⟩ := List.mem_map.mp hk
  have hmem := (List.mem_insertionSort _).mp (List.mem_of_mem_take hwi)
  obtain ⟨hmem, hst⟩ := List.mem_filter.mp hmem
  exact ⟨wi, fetchWorkItem_of_mem hmem, of_decide_eq_true hst⟩

theorem turnsLeft_le_workLeft {s : Database} {wi : WorkItemRow} (h : wi ∈ s.workItems.rows) :
    turnsLeft wi ≤ workLeft s :=
  List.single_le_sum (fun _ _ => Nat.zero_le _) _ (List.mem_map_of_mem h)

theorem loop_unlimited (c : Coordinator Raw) (fuel turn : ℕ) (summary : RunSummary) (s : Database) :
    loop c none none (fuel + 1) turn summary s =
      (match pendingKeys s 1 with
        | [] => pure (some summary)
        | key :: _ => do
          let summary' ← process c turn key summary
          if summary'.events = summary.events then pure (some summary')
          else if summary'.fatal then pure (some summary')
          else loop c none none fuel (turn + 1) summary' : Db (Option RunSummary)) s := rfl

/-- What the loop has done when it ends. -/
structure Finished (s t : Database) (summary summary' : RunSummary) : Prop where
  keys : t.workItems.rows.map (·.workKey) = s.workItems.rows.map (·.workKey)
  settled : summary'.fatal = false → ∀ wi ∈ t.workItems.rows, wi.state ≠ .pending
  count : committedCount t + summary.committed = committedCount s + summary'.committed
  kept : ∀ k wi, fetchWorkItem s k = some wi → wi.state ≠ .pending → fetchWorkItem t k = some wi

theorem loop_finishes (c : Coordinator Raw) (hids : AttemptIdsDistinct c.ledger.ids) (n turn : ℕ)
    (summary : RunSummary) (s : Database) (hn : workLeft s ≤ n) (hs : Ready c.ledger.ids s) :
    ∃ summary' t, (∀ fuel, n < fuel → loop c none none fuel turn summary s = (.ok (some summary'), t)) ∧
      Finished s t summary summary' := by
  induction n generalizing turn summary s with
  | zero =>
    have hidle : ∀ wi ∈ s.workItems.rows, wi.state ≠ .pending := by
      intro wi hwi hst
      have hle := turnsLeft_le_workLeft hwi
      have hpos : turnsLeft wi = (wi.maxRetries - wi.retryCount).toNat + 1 := if_pos hst
      omega
    have hnil : pendingKeys s 1 = [] := by
      cases hkeys : pendingKeys s 1 with
      | nil => rfl
      | cons k rest =>
        obtain ⟨wi, hwi, hst⟩ := pendingKeys_cons hkeys
        exact absurd hst (hidle wi (fetchWorkItem_some hwi).1)
    refine ⟨summary, s, ?_, rfl, fun _ => hidle, rfl, fun _ _ h _ => h⟩
    intro fuel hfuel
    obtain ⟨fuel, rfl⟩ : ∃ m, fuel = m + 1 := ⟨fuel - 1, by omega⟩
    rw [loop_unlimited, hnil]
    rfl
  | succ n ih =>
    cases hkeys : pendingKeys s 1 with
    | nil =>
      refine ⟨summary, s, ?_, rfl, fun _ => pendingKeys_nil hkeys, rfl, fun _ _ h _ => h⟩
      intro fuel hfuel
      obtain ⟨fuel, rfl⟩ : ∃ m, fuel = m + 1 := ⟨fuel - 1, by omega⟩
      rw [loop_unlimited, hkeys]
      rfl
    | cons k rest =>
      obtain ⟨wi, hwi, hst⟩ := pendingKeys_cons hkeys
      obtain ⟨hmem, hkey⟩ := fetchWorkItem_some hwi
      obtain ⟨summary₁, t₁, target, row, hrun, htook, hres⟩ := process_turn c turn summary hids
        hs.derived hwi hst fun r hr hrk => hs.clear wi hmem hst r hr (hrk.trans hkey.symm)
      have hless := workLeft_turn htook hwi hst hres
      have hcount := committedCount_turn htook hwi hst hres
      have hother : ∀ j wj, fetchWorkItem s j = some wj → wj.state ≠ .pending →
          fetchWorkItem t₁ j = some wj := by
        intro j wj hj hjst
        have hne : j ≠ k := by
          rintro rfl
          rw [hwi] at hj
          exact hjst ((Option.some.inj hj) ▸ hst)
        rw [htook.fetchOther hne, hj]
      have hstep : ∀ fuel, loop c none none (fuel + 1) turn summary s =
          (if summary₁.fatal then (pure (some summary₁) : Db (Option RunSummary))
            else loop c none none fuel (turn + 1) summary₁) t₁ := by
        intro fuel
        rw [loop_unlimited, hkeys]
        exact (bind_of_ok hrun).trans (congrFun (if_neg (events_turn hres)) t₁)
      by_cases hfatal : summary₁.fatal = true
      · refine ⟨summary₁, t₁, ?_, workKeys_turn htook, ?_, hcount, hother⟩
        · intro fuel hfuel
          obtain ⟨fuel, rfl⟩ : ∃ m, fuel = m + 1 := ⟨fuel - 1, by omega⟩
          rw [hstep, if_pos hfatal]
          rfl
        · intro hcon
          rw [hfatal] at hcon
          cases hcon
      · obtain ⟨summary', t, hloop, hfin⟩ := ih (turn + 1) summary₁ t₁ (by omega)
          (ready_turn hs htook hwi hst hres)
        refine ⟨summary', t, ?_, hfin.keys.trans (workKeys_turn htook), hfin.settled, ?_, ?_⟩
        · intro fuel hfuel
          obtain ⟨fuel, rfl⟩ : ∃ m, fuel = m + 1 := ⟨fuel - 1, by omega⟩
          rw [hstep, if_neg hfatal]
          exact hloop fuel (by omega)
        · have hrest := hfin.count
          omega
        · exact fun j wj hj hjst => hfin.kept j wj (hother j wj hj hjst) hjst

/-- An accepting coordinator that returns has not touched an item with a committed attempt. -/
theorem loop_leaves_committed (c : Coordinator Raw) (hids : AttemptIdsDistinct c.ledger.ids)
    (hacc : Accepting c) (k : String) (fuel turn : ℕ) (summary summary' : RunSummary) (s t : Database)
    (hderived : IdsDerived c.ledger.ids s)
    (hpending : ∃ wi, fetchWorkItem s k = some wi ∧ wi.state = .pending)
    (htwice : ∃ r ∈ s.attempts.rows, r.workKey = k ∧ r.state = .committed)
    (hfatal : summary.fatal = false)
    (h : loop c none none fuel turn summary s = (.ok (some summary'), t)) :
    summary'.fatal = false ∧ ∃ wi ∈ t.workItems.rows, wi.state = .pending := by
  induction fuel generalizing turn summary s with
  | zero => simp [loop] at h
  | succ fuel ih =>
    obtain ⟨wi, hwi, hst⟩ := hpending
    rw [loop_unlimited] at h
    cases hkeys : pendingKeys s 1 with
    | nil => exact absurd hst (pendingKeys_nil hkeys wi (fetchWorkItem_some hwi).1)
    | cons j rest =>
      simp only [hkeys] at h
      obtain ⟨wj, hwj, hjst⟩ := pendingKeys_cons hkeys
      obtain ⟨summary₁, t₁, hrun, hrest⟩ := bind_ok.mp h
      have hclear : ∀ r ∈ s.attempts.rows, r.workKey = j → r.state ≠ .committed := by
        intro r hr hrj hrc
        exact process_refused c turn summary hids hderived hwj hjst hacc ⟨r, hr, hrj, hrc⟩ _ _ hrun
      obtain ⟨summary₂, t₂, target, row, hrun', htook, hres⟩ := process_turn c turn summary hids
        hderived hwj hjst hclear
      rw [hrun] at hrun'
      simp only [Prod.mk.injEq, Except.ok.injEq] at hrun'
      obtain ⟨rfl, rfl⟩ := hrun'
      have hfatal₁ : summary₁.fatal = false := by
        cases hres with
        | committed _ hrow hsummary =>
          rw [hsummary]
          exact hfatal
        | failed _ _ hrow htarget hevents hcommitted hnot => exact absurd hacc hnot
      rw [if_neg (events_turn hres), hfatal₁] at hrest
      simp only [Bool.false_eq_true, if_false] at hrest
      obtain ⟨r, hr, hrk, hrc⟩ := htwice
      have hne : k ≠ j := by
        rintro rfl
        exact hclear r hr hrk hrc
      refine ih (turn + 1) summary₁ t₁ (idsDerived_turn hderived htook) ?_ ?_ hfatal₁ hrest
      · exact ⟨wi, by rw [htook.fetchOther hne, hwi], hst⟩
      · refine ⟨r, ?_, hrk, hrc⟩
        rw [htook.attempts]
        exact List.mem_append_left _ hr

/-! ## The run -/

def committedIn (s : Database) (k : String) : Bool := (fetchWorkItem s k).any fun wi => wi.state = .committed

/-- The items that are committed in `t` and were not in `s`. -/
def becameCommitted (s t : Database) : ℕ :=
  t.workItems.rows.countP fun wi => decide (wi.state = .committed) && !committedIn s wi.workKey

/-- With enough fuel the run returns a summary; without a fatal error nothing is left pending,
    and the committed count is the number of items that became committed. -/
def Succeeds (c : Coordinator Raw) (s : Database) : Prop :=
  ∃ n summary t, (∀ fuel, n ≤ fuel → run c fuel none none s = (.ok (some summary), t)) ∧
    (summary.fatal = false → ∀ wi ∈ t.workItems.rows, wi.state ≠ .pending) ∧
    summary.committed = becameCommitted s t

/-- Whether a reclaim at `now` leaves the item pending. -/
def OpenAfterReclaim (s : Database) (now : ℚ) (wi : WorkItemRow) : Prop :=
  if (staleAttempts s now).countP (fun r => r.workKey = wi.workKey) = 0 then wi.state = .pending
  else wi.sideEffecting = false ∧
    (wi.retryCount : ℤ) + (staleAttempts s now).countP (fun r => r.workKey = wi.workKey) ≤ wi.maxRetries

instance (s : Database) (now : ℚ) (wi : WorkItemRow) : Decidable (OpenAfterReclaim s now wi) := by
  unfold OpenAfterReclaim
  split <;> infer_instance

/-- No item that is pending, or that the reclaim at `now` reopens, has a committed attempt. -/
def NoCommittedReopened (s : Database) (now : ℚ) : Prop :=
  ∀ wi ∈ s.workItems.rows, OpenAfterReclaim s now wi →
    ∀ r ∈ s.attempts.rows, r.workKey = wi.workKey → r.state ≠ .committed

instance (s : Database) (now : ℚ) : Decidable (NoCommittedReopened s now) :=
  inferInstanceAs (Decidable (∀ _ ∈ _, _ → ∀ _ ∈ _, _))

section
variable {ids : DerivedIds} {s t : Database} {now : ℚ}

/-- The state a run's loop starts from. -/
structure Resumed (s t : Database) (now : ℚ) : Prop where
  shapes : t.attempts.rows.map shape = s.attempts.rows.map shape
  items : ∀ k, fetchWorkItem t k = (fetchWorkItem s k).map
    (reclaimedRow now)^[(staleAttempts s now).countP fun att => att.workKey = k]
  keys : t.workItems.rows.map (·.workKey) = s.workItems.rows.map (·.workKey)

theorem resume_runs (c : Coordinator Raw) (hs : Owned s) :
    ∃ ks t, resume c s = (.ok ks, t) ∧ Resumed s t (c.now 0 0) := by
  obtain ⟨ks, t, hrun, -⟩ := reclaimStale_evolves (fun _ _ _ => True) (c.now 0 0) none
    (fun _ _ _ _ => trivial) hs
  obtain ⟨hshape, hitems, hkeys, -⟩ := reclaimStale_shape hs hrun
  exact ⟨ks, t, hrun, hshape, hitems, hkeys⟩

theorem Resumed.item (h : Resumed s t now) {wi : WorkItemRow} (hwi : wi ∈ t.workItems.rows) :
    ∃ q ∈ s.workItems.rows, q.workKey = wi.workKey ∧ (wi.state = .pending ↔ OpenAfterReclaim s now q) := by
  have hfetch := h.items wi.workKey
  rw [fetchWorkItem_of_mem hwi] at hfetch
  obtain ⟨q, hq, hqwi⟩ := Option.map_eq_some_iff.mp hfetch.symm
  obtain ⟨hmem, hkey⟩ := fetchWorkItem_some hq
  refine ⟨q, hmem, hkey, ?_⟩
  have hpending := reclaimed_pending now ((staleAttempts s now).countP fun r => r.workKey = wi.workKey) q
  rw [hqwi] at hpending
  rw [hpending]
  unfold OpenAfterReclaim
  rw [hkey]

theorem Resumed.clear_iff (h : Resumed s t now) : Clear t ↔ NoCommittedReopened s now := by
  constructor
  · intro hclear q hq hopen r hr hrk hrc
    have hkey : q.workKey ∈ t.workItems.rows.map (·.workKey) := by
      rw [h.keys]
      exact List.mem_map_of_mem hq
    obtain ⟨wi, hwi, hwik⟩ := List.mem_map.mp hkey
    obtain ⟨q', hq', hq'k, hiff⟩ := h.item hwi
    have heq : q' = q := eq_of_key s.workItems.sound hq' hq (hq'k.trans hwik)
    subst heq
    obtain ⟨x, hx, hxr⟩ := mem_of_shape h.shapes.symm hr
    simp only [shape, Prod.mk.injEq, decide_eq_decide] at hxr
    exact hclear wi hwi (hiff.mpr hopen) x hx (hxr.2.1.trans (hrk.trans hq'k)) (hxr.2.2.2.mpr hrc)
  · intro hno wi hwi hst r hr hrk hrc
    obtain ⟨q, hq, hqk, hiff⟩ := h.item hwi
    obtain ⟨x, hx, hxr⟩ := mem_of_shape h.shapes hr
    simp only [shape, Prod.mk.injEq, decide_eq_decide] at hxr
    exact hno q hq (hiff.mp hst) x hx (hxr.2.1.trans (hrk.trans hqk.symm)) (hxr.2.2.2.mpr hrc)

theorem reclaimedRow_ne_committed (now : ℚ) (r : WorkItemRow) : (reclaimedRow now r).state ≠ .committed := by
  have hroute := (reclaimTarget_routes .empty r).not_live.2
  unfold reclaimedRow routedRow
  split
  · simp [reopenRow]
  · exact hroute

theorem Resumed.committed (h : Resumed s t now) {k : String} (hk : committedIn t k) : committedIn s k := by
  unfold committedIn at hk ⊢
  rw [h.items] at hk
  cases hq : fetchWorkItem s k with
  | none => simp [hq] at hk
  | some q =>
    simp only [hq, Option.map_some, Option.any_some, decide_eq_true_eq] at hk ⊢
    cases hn : (staleAttempts s now).countP (fun att => att.workKey = k) with
    | zero =>
      rw [hn] at hk
      exact hk
    | succ n =>
      rw [hn, Function.iterate_succ_apply'] at hk
      exact absurd hk (reclaimedRow_ne_committed now _)

theorem countP_split {α : Type} (p q : α → Bool) (xs : List α) :
    xs.countP p = xs.countP (fun x => p x && !q x) + xs.countP (fun x => p x && q x) := by
  induction xs with
  | nil => rfl
  | cons x xs ih =>
    simp only [List.countP_cons, ih]
    cases p x <;> cases q x <;> simp <;> omega

theorem committedIn_iff {k : String} :
    committedIn s k = true ↔ ∃ wi, fetchWorkItem s k = some wi ∧ wi.state = .committed := by
  unfold committedIn
  cases fetchWorkItem s k with
  | none => simp
  | some wi => simp

theorem committedIn_of_mem {wi : WorkItemRow} (h : wi ∈ s.workItems.rows) :
    committedIn s wi.workKey = decide (wi.state = .committed) := by
  unfold committedIn
  rw [fetchWorkItem_of_mem h]
  rfl

/-- The loop's own count of commits is the number of items that became committed since before
    the reclaim: an item that was committed before and is again was never touched. -/
theorem becameCommitted_of_finished {u : Database} {summary : RunSummary} (hs : WellKept ids s)
    (h : Resumed s t now) (hclear : Clear t) (hfin : Finished t u {} summary) :
    summary.committed = becameCommitted s u := by
  have hback : ∀ wi ∈ u.workItems.rows, (decide (wi.state = .committed) && committedIn s wi.workKey) =
      committedIn t wi.workKey := by
    intro wi hwi
    have hkey : wi.workKey ∈ t.workItems.rows.map (·.workKey) := hfin.keys ▸ List.mem_map_of_mem hwi
    obtain ⟨q, hq, hqk⟩ := List.mem_map.mp hkey
    have hqt : committedIn t wi.workKey = decide (q.state = .committed) := hqk ▸ committedIn_of_mem hq
    rw [hqt, Bool.eq_iff_iff, Bool.and_eq_true, decide_eq_true_eq, decide_eq_true_eq]
    constructor
    · rintro ⟨hwic, hsc⟩
      by_cases hqp : q.state = .pending
      · -- A committed item of `s` has a committed attempt, which the reclaim left alone.
        obtain ⟨x, hx, hxc⟩ := committedIn_iff.mp hsc
        obtain ⟨hxmem, hxk⟩ := fetchWorkItem_some hx
        obtain ⟨y, hy, hyd⟩ := hs.done _ _ (lifeOf_of_mem hxmem) hxc
        obtain ⟨r, hr, rfl⟩ := List.mem_map.mp hy
        obtain ⟨hrmem, hrk⟩ := List.mem_filter.mp hr
        obtain ⟨z, hz, hzr⟩ := mem_of_shape h.shapes.symm hrmem
        simp only [shape, Prod.mk.injEq, decide_eq_decide] at hzr
        have hzk : z.workKey = q.workKey :=
          hzr.2.1.trans ((of_decide_eq_true hrk).trans (hxk.trans hqk.symm))
        exact absurd (hzr.2.2.2.mpr (of_decide_eq_true hyd)) (hclear q hq hqp z hz hzk)
      · have hkept := hfin.kept _ _ (fetchWorkItem_of_mem hq) hqp
        rw [hqk, fetchWorkItem_of_mem hwi] at hkept
        rw [← Option.some.inj hkept]
        exact hwic
    · intro hqc
      have hqp : q.state ≠ .pending := by
        rw [hqc]
        simp
      have hkept := hfin.kept _ _ (fetchWorkItem_of_mem hq) hqp
      rw [hqk, fetchWorkItem_of_mem hwi] at hkept
      refine ⟨Option.some.inj hkept ▸ hqc, h.committed ?_⟩
      rw [hqt, hqc]
      rfl
  have hcount : u.workItems.rows.countP (fun wi => decide (wi.state = .committed) &&
      committedIn s wi.workKey) = committedCount t := by
    rw [List.countP_congr fun wi hwi => by rw [hback wi hwi]]
    have hmap : ∀ v : Database, v.workItems.rows.countP (fun wi => committedIn t wi.workKey) =
        (v.workItems.rows.map (·.workKey)).countP (committedIn t) := by
      intro v
      rw [List.countP_map]
      rfl
    rw [hmap, hfin.keys, ← hmap]
    exact List.countP_congr fun wi hwi => by rw [committedIn_of_mem hwi]
  have hsplit := countP_split (fun wi : WorkItemRow => decide (wi.state = .committed))
    (fun wi => committedIn s wi.workKey) u.workItems.rows
  have hloop := hfin.count
  change committedCount u + 0 = _ at hloop
  unfold becameCommitted
  unfold committedCount at hloop hcount
  omega

/-- The coordinator copes with every ledger that leaves it no committed item to redo. -/
theorem succeeds_of_noCommittedReopened (c : Coordinator Raw) (hids : AttemptIdsDistinct c.ledger.ids)
    (hs : WellKept c.ledger.ids s) (h : NoCommittedReopened s (c.now 0 0)) : Succeeds c s := by
  obtain ⟨ks, t, hresume, hres⟩ := resume_runs c hs.owned
  have hclear := hres.clear_iff.mpr h
  obtain ⟨summary, u, hloop, hfin⟩ := loop_finishes c hids (workLeft t) 0 {} t le_rfl
    ⟨hs.derived.of_shape hres.shapes, hclear⟩
  refine ⟨workLeft t + 1, summary, u, ?_, hfin.settled, becameCommitted_of_finished hs hres hclear hfin⟩
  intro fuel hfuel
  unfold run
  rw [bind_of_ok hresume]
  exact hloop fuel (by omega)

/-- Callables that accept everything. -/
def accepting (ledger : Ledger) (now : ℚ) : Coordinator Unit where
  ledger := ledger
  now _ _ := now
  putBytes _ _ := ⟨"blob", 4, 4⟩
  executor _ _ := .returned ()

/-- A reopened item with a committed attempt makes even the most accepting run raise. -/
theorem noCommittedReopened_of_succeeds (ledger : Ledger) (hids : AttemptIdsDistinct ledger.ids)
    (hs : WellKept ledger.ids s) (h : Succeeds (accepting ledger now) s) : NoCommittedReopened s now := by
  by_contra hnot
  obtain ⟨ks, t, hresume, hres⟩ := resume_runs (accepting ledger now) hs.owned
  replace hnot : ¬ Clear t := mt hres.clear_iff.mp hnot
  unfold Clear at hnot
  push Not at hnot
  obtain ⟨wi, hwi, hst, r, hr, hrk, hrc⟩ := hnot
  obtain ⟨n, summary, u, hrun, hsettled, -⟩ := h
  have hloop := hrun n le_rfl
  unfold run at hloop
  rw [bind_of_ok hresume] at hloop
  obtain ⟨hfatal, wi', hwi', hst'⟩ := loop_leaves_committed (accepting ledger now) hids
    ⟨fun _ _ => ⟨(), rfl⟩, rfl⟩ wi.workKey n 0 {} summary t u (hs.derived.of_shape hres.shapes)
    ⟨wi, fetchWorkItem_of_mem hwi, hst⟩ ⟨r, hr, hrk, hrc⟩ rfl hloop
  exact hsettled hfatal wi' hwi' hst'

end

theorem hashes_inj {n m : ℕ} {xs ys : List Char}
    (h : List.replicate n '#' ++ '/' :: xs = List.replicate m '#' ++ '/' :: ys) : n = m ∧ xs = ys := by
  induction n generalizing m with
  | zero =>
    cases m with
    | zero => simpa using h
    | succ m => simp [List.replicate_succ] at h
  | succ n ih =>
    cases m with
    | zero => simp [List.replicate_succ] at h
    | succ m =>
      simp only [List.replicate_succ, List.cons_append, List.cons.injEq, true_and] at h
      obtain ⟨hn, hxs⟩ := ih h
      exact ⟨by omega, hxs⟩

theorem plain_attemptIdsDistinct : AttemptIdsDistinct .plain := by
  intro k n k' n' h
  obtain ⟨hn, hk⟩ := hashes_inj (String.ofList_inj.mp h)
  exact ⟨String.toList_inj.mp hk, hn⟩

/-- The failure of the first worker reopens the committed item, and the coordinator that picks
    it up is refused its commit. -/
def reopenedCommit : List Call :=
  commitThenFailure ++ [⟨36, .fail "#/t1" .failedRetryable "Timeout" "" ""⟩]

end Coordinator
end Shapeflow
