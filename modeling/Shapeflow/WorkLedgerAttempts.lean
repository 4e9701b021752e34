import Mathlib.Logic.Function.Iterate
import Shapeflow.WorkLedgerSafety

set_option autoImplicit false

/-!
# Attempts and retries over a run

The id of every attempt is the one derived from its item and its ordinal, a
committed item has a committed attempt, and retries bound the attempts. None of
this asks anything of the calls. The last section says what a whole lease
reclaim does to an item that several stale attempts claim to hold.
-/
namespace Shapeflow.WorkLedger
open Script Database Table WorkItemLife Relation Run

def IdsDerived (ids : DerivedIds) (s : Database) : Prop :=
  ∀ r ∈ s.attempts.rows, r.attemptId = ids.attempt r.workKey r.attemptOrdinal

/-- What never changes in an attempt row, and whether it is committed. -/
def shape (r : AttemptRow) : String × String × ℕ × Bool :=
  (r.attemptId, r.workKey, r.attemptOrdinal, decide (r.state = .committed))

theorem mem_of_shape {xs ys : List AttemptRow} (h : xs.map shape = ys.map shape) {r : AttemptRow}
    (hr : r ∈ xs) : ∃ q ∈ ys, shape q = shape r := by
  have hmem : shape r ∈ ys.map shape := h ▸ List.mem_map_of_mem hr
  exact List.mem_map.mp hmem

theorem IdsDerived.of_shape {ids : DerivedIds} {s t : Database} (h : IdsDerived ids s)
    (hshape : t.attempts.rows.map shape = s.attempts.rows.map shape) : IdsDerived ids t := by
  intro r hr
  obtain ⟨q, hq, hqr⟩ := mem_of_shape hshape hr
  simp only [shape, Prod.mk.injEq] at hqr
  rw [← hqr.1, ← hqr.2.1, ← hqr.2.2.1]
  exact h q hq

theorem IdsDerived.updated {ids : DerivedIds} {s t : Database} (h : IdsDerived ids s)
    {p : AttemptRow → Bool} {g : AttemptRow → AttemptRow}
    (hatts : t.attempts.rows = Table.updated p g s.attempts.rows)
    (hg : ∀ r, (g r).attemptId = r.attemptId ∧ (g r).workKey = r.workKey ∧
      (g r).attemptOrdinal = r.attemptOrdinal) : IdsDerived ids t := by
  intro r hr
  rw [hatts] at hr
  obtain ⟨q, hq, rfl⟩ := mem_updated.mp hr
  split
  · obtain ⟨h₁, h₂, h₃⟩ := hg q
    rw [h₁, h₂, h₃]
    exact h q hq
  · exact h q hq

/-! ## A whole reclaim -/

/-- The item row after one of its stale attempts was reclaimed. -/
def reclaimedRow (now : ℚ) (r : WorkItemRow) : WorkItemRow := routedRow now (reclaimTarget r) r

theorem reclaim_shape {clock now : ℚ} {s t : Database} {att : AttemptRow} {r : Option String}
    (hmem : att ∈ s.attempts.rows) (hprog : att.state ∈ inProgress) (hs : Owned s)
    (h : reclaim clock now att s = (.ok r, t)) :
    t.attempts.rows.map shape = s.attempts.rows.map shape ∧
      t.attempts.rows = attemptsMoved s att.attemptId (expiredRow now) ∧
      (∀ k, fetchWorkItem t k =
        (fetchWorkItem s k).map fun wi => if att.workKey = k then reclaimedRow now wi else wi) ∧
      t.workItems.rows.map (·.workKey) = s.workItems.rows.map (·.workKey) ∧ Owned t := by
  obtain ⟨wi, hwi⟩ := hs.item hmem
  obtain ⟨t', ht', hrows⟩ := reclaim_rows clock now hwi
  rw [h] at ht'
  obtain ⟨-, rfl⟩ := Prod.mk.inj ht'
  simp only [workRows, Prod.mk.injEq] at hrows
  obtain ⟨hitems, hatts, -⟩ := hrows
  have hkey := (fetchWorkItem_some hwi).2
  refine ⟨?_, hatts, ?_, ?_, ?_⟩
  · rw [hatts]
    refine map_updated _ fun q hq hqa => ?_
    have heq : q = att := eq_of_key s.attempts.sound.1 hq hmem (of_decide_eq_true hqa)
    subst heq
    have hnot : q.state ≠ .committed := by
      intro hc
      simp [hc, inProgress] at hprog
    simp [shape, expiredRow, hnot]
  · intro k
    rw [fetchWorkItem_moved hitems (routedRow_workKey now _)]
    by_cases hk : att.workKey = k
    · subst hk
      simp only [hwi, Option.map_some, hkey, if_true]
      rfl
    · cases hr : fetchWorkItem s k with
      | none => rfl
      | some r =>
        have hrk : r.workKey ≠ att.workKey := fun e => hk (e.symm.trans (fetchWorkItem_some hr).2)
        simp only [Option.map_some, hrk, hk, if_false]
  · rw [hitems]
    exact workKeys_moved (routedRow_workKey now _)
  · exact hs.moved hitems (routedRow_workKey now _) fun r hr =>
      .inl (attempts_moved_keys hatts (fun _ => rfl) r hr)

/-- After the loop each item has been reclaimed once for each of its stale attempts. -/
theorem reclaims_shape {clock now : ℚ} {atts : List AttemptRow} {s t : Database}
    {rs : List (Option String)} (hmem : ∀ att ∈ atts, att ∈ s.attempts.rows)
    (hprog : ∀ att ∈ atts, att.state ∈ inProgress) (hdistinct : (atts.map (·.attemptId)).Nodup)
    (hs : Owned s) (h : forEach (reclaim clock now) atts s = (.ok rs, t)) :
    t.attempts.rows.map shape = s.attempts.rows.map shape ∧
      (∀ k, fetchWorkItem t k = (fetchWorkItem s k).map
        (reclaimedRow now)^[atts.countP fun att => att.workKey = k]) ∧
      t.workItems.rows.map (·.workKey) = s.workItems.rows.map (·.workKey) ∧ Owned t := by
  induction atts generalizing s rs with
  | nil =>
    obtain ⟨-, rfl⟩ := forEach_nil_ok.mp h
    refine ⟨rfl, fun k => ?_, rfl, hs⟩
    cases fetchWorkItem t k <;> rfl
  | cons att atts ih =>
    obtain ⟨r, rs', u, -, hone, hrest⟩ := forEach_cons_ok.mp h
    simp only [List.map_cons, List.nodup_cons] at hdistinct
    obtain ⟨hshape, hatts, hitem, hkeys, hu⟩ :=
      reclaim_shape (hmem att (by simp)) (hprog att (by simp)) hs hone
    have hstill : ∀ b ∈ atts, b ∈ u.attempts.rows := by
      intro b hb
      rw [hatts]
      refine mem_updated.mpr ⟨b, hmem b (by simp [hb]), ?_⟩
      have hne : b.attemptId ≠ att.attemptId := fun e => hdistinct.1 (e ▸ List.mem_map_of_mem hb)
      simp [hne]
    obtain ⟨hshape', hitem', hkeys', ht⟩ :=
      ih hstill (fun b hb => hprog b (by simp [hb])) hdistinct.2 hu hrest
    refine ⟨hshape'.trans hshape, fun k => ?_, hkeys'.trans hkeys, ht⟩
    rw [hitem', hitem, Option.map_map]
    cases fetchWorkItem s k with
    | none => rfl
    | some wi =>
      rw [List.countP_cons]
      by_cases hk : att.workKey = k
      · simp [hk]
      · simp [hk]

theorem reclaimStale_shape {clock : ℚ} {now : Option ℚ} {s t : Database} {ks : List String}
    (hs : Owned s) (h : reclaimStale clock now s = (.ok ks, t)) :
    t.attempts.rows.map shape = s.attempts.rows.map shape ∧
      (∀ k, fetchWorkItem t k = (fetchWorkItem s k).map (reclaimedRow (now.getD clock))^[
        (staleAttempts s (now.getD clock)).countP fun att => att.workKey = k]) ∧
      t.workItems.rows.map (·.workKey) = s.workItems.rows.map (·.workKey) ∧ Owned t := by
  have hbody := transaction_ok.mp h
  rw [getStore_bind] at hbody
  obtain ⟨rs, u, hloop, hend⟩ := bind_ok.mp hbody
  simp only [pure_run, Prod.mk.injEq] at hend
  obtain ⟨-, rfl⟩ := hend
  have hnodup : ((staleAttempts s (now.getD clock)).map (·.attemptId)).Nodup :=
    List.Nodup.sublist (List.Sublist.map _ List.filter_sublist) s.attempts.sound.1
  exact reclaims_shape (fun att h => (staleAttempts_live h).1) (fun att h => (staleAttempts_live h).2)
    hnodup hs hloop

/-- Reclaiming an item `n` times reopens it only when that many retries are left. -/
theorem reclaimed_pending (now : ℚ) (n : ℕ) (r : WorkItemRow) :
    ((reclaimedRow now)^[n] r).state = .pending ↔
      if n = 0 then r.state = .pending
      else r.sideEffecting = false ∧ (r.retryCount : ℤ) + n ≤ r.maxRetries := by
  induction n generalizing r with
  | zero => rfl
  | succ n ih =>
    rw [Function.iterate_succ_apply, ih]
    have hne : n + 1 ≠ 0 := by omega
    rw [if_neg hne]
    by_cases hopen : r.sideEffecting = false ∧ retriesLeft r
    · have hrow : reclaimedRow now r = reopenRow now r := by
        simp [reclaimedRow, reclaimTarget, hopen, routedRow]
      have hleft : (r.retryCount : ℤ) + 1 ≤ r.maxRetries := hopen.2
      rw [hrow]
      by_cases hn : n = 0
      · subst hn
        simp [reopenRow, hopen.1, hleft]
      · simp only [hn, if_false, reopenRow, hopen.1, true_and]
        push_cast
        omega
    · have hrow : reclaimedRow now r =
          { r with
            state := if r.sideEffecting then .failedUnknown else .failedFinal, updatedAt := now } := by
        have htarget : reclaimTarget r = if r.sideEffecting then .failedUnknown else .failedFinal :=
          if_neg hopen
        unfold reclaimedRow
        rw [htarget]
        refine if_neg ?_
        split <;> simp
      have hnot : ¬ (r.sideEffecting = false ∧ (r.retryCount : ℤ) + 1 ≤ r.maxRetries) := hopen
      rw [hrow]
      by_cases hn : n = 0
      · subst hn
        cases hside : r.sideEffecting with
        | false =>
          simp only [hside, true_and] at hnot
          simp [hnot]
        | true => simp
      · simp only [hn, if_false]
        push_cast
        constructor
        · rintro ⟨hside, hle⟩
          exact absurd ⟨hside, by omega⟩ hnot
        · rintro ⟨hside, hle⟩
          exact absurd ⟨hside, by omega⟩ hnot

/-! ## Every run -/

theorem step_idsDerived (ledger : Ledger) {s : Database} {call : Call} (hs : Owned s)
    (h : IdsDerived ledger.ids s) : IdsDerived ledger.ids (step ledger s call) := by
  obtain ⟨clock, op⟩ := call
  let P : Database → Prop := IdsDerived ledger.ids
  cases op with
  | ensureWorkItem c side m =>
    have hrows := ensureWorkItem_rows ledger clock c side m s
    have hatts : (step ledger s ⟨clock, .ensureWorkItem c side m⟩).attempts.rows = s.attempts.rows := by
      split at hrows
      all_goals
        simp only [workRows, Prod.mk.injEq] at hrows
        exact hrows.2.1
    exact h.of_shape (by rw [hatts])
  | claim k w lease runId =>
    refine (atomic_claim ledger clock k w lease runId).after_of (P := P) h fun v t hv => ?_
    rcases claim_ok hv with ⟨-, rfl⟩ | ⟨wi, hwi, hst, hnew, -, hrows⟩
    · exact h
    · simp only [workRows, claimRows, Prod.mk.injEq] at hrows
      intro r hr
      rw [hrows.2.1] at hr
      rcases List.mem_append.mp hr with hin | hin
      · exact h r hin
      · rw [List.mem_singleton.mp hin]
        rfl
  | heartbeat a lease =>
    have hrows := heartbeat_rows clock lease a s
    simp only [workRows, Prod.mk.injEq] at hrows
    exact h.updated hrows.2.1 fun _ => ⟨rfl, rfl, rfl⟩
  | advance a target reason =>
    refine (atomic_advance clock a target reason).after_of (P := P) h fun v t hv => ?_
    obtain ⟨att, wi, -, -, -, -, -, hrows⟩ := advance_ok hv
    simp only [workRows, Prod.mk.injEq] at hrows
    exact h.updated hrows.2.1 fun _ => ⟨rfl, rfl, rfl⟩
  | commit a ref reason =>
    refine (atomic_commit clock a ref reason).after_of (P := P) h fun v t hv => ?_
    obtain ⟨att, wi, -, -, -, -, hrows⟩ := commit_ok hv
    simp only [workRows, Prod.mk.injEq] at hrows
    exact h.updated hrows.2.1 fun _ => ⟨rfl, rfl, rfl⟩
  | fail a d err reason ref =>
    refine (atomic_fail clock a d err reason ref).after_of (P := P) h fun v t hv => ?_
    obtain ⟨hd, att, wi, hatt, hwi⟩ := fail_ok hv
    obtain ⟨t', ht', hrows⟩ := fail_rows clock err reason ref
      hd hatt hwi
    rw [hv] at ht'
    obtain ⟨-, rfl⟩ := Prod.mk.inj ht'
    simp only [workRows, Prod.mk.injEq] at hrows
    exact h.updated hrows.2.1 fun _ => ⟨rfl, rfl, rfl⟩
  | blockBudget k reason =>
    refine (atomic_blockBudget clock k reason).after_of (P := P) h fun v t hv => ?_
    obtain ⟨wi, -, -, hrows⟩ := blockBudget_ok hv
    simp only [workRows, Prod.mk.injEq] at hrows
    exact h.of_shape (congrArg (List.map shape) hrows.2.1)
  | reclaimStale now =>
    obtain ⟨ks, t, hrun, -⟩ := reclaimStale_evolves (fun _ _ _ => True) clock now
      (fun _ _ _ _ => trivial) hs
    have hstep : step ledger s ⟨clock, .reclaimStale now⟩ = t := after_of_ok hrun
    rw [hstep]
    exact h.of_shape (reclaimStale_shape hs hrun).1

/-- What every ledger that was only ever written through its operations looks like. -/
structure WellKept (ids : DerivedIds) (s : Database) : Prop where
  owned : Owned s
  derived : IdsDerived ids s
  bounded : ∀ k l, lifeOf s k = some l → Bounded l
  done : ∀ k l, lifeOf s k = some l → l.state = .committed → ∃ t ∈ l.tries, t.done

theorem reports_true (s : Database) (call : Call) : Reports (fun _ _ _ => True) s call := by
  obtain ⟨clock, op⟩ := call
  cases op with
  | fail a d err reason ref => exact fun _ _ _ _ _ => trivial
  | _ => trivial

theorem step_wellKept (ledger : Ledger) {s : Database} {call : Call} (h : WellKept ledger.ids s) :
    WellKept ledger.ids (step ledger s call) := by
  obtain ⟨hev, howned⟩ := step_evolves (fun _ _ _ => True) ledger h.owned
    (fun _ _ _ _ => trivial) (reports_true s call)
  refine ⟨howned, step_idsDerived ledger h.owned h.derived, ?_, ?_⟩
  · exact hev.all bounded_fresh (fun _ _ hl hsteps => hl.steps hsteps) h.bounded
  · refine hev.all (P := fun l => l.state = .committed → ∃ t ∈ l.tries, t.done) ?_ ?_ h.done
    · intro n hcom
      cases hcom
    · exact fun _ _ hl hsteps => done_of_steps hl hsteps

theorem run_wellKept (ledger : Ledger) (calls : List Call) :
    WellKept ledger.ids (run (step ledger) .empty calls) := by
  refine invariant_all (fun s call h => step_wellKept ledger h) calls ⟨owned_empty, ?_, ?_, ?_⟩
  · intro r hr
    cases hr
  · intro k l hl
    cases hl
  · intro k l hl
    cases hl

/-- Retries stay within their budget and bound the attempts. -/
def RetryBound (s : Database) : Prop :=
  ∀ wi ∈ s.workItems.rows, 0 ≤ wi.maxRetries →
    (wi.retryCount : ℤ) ≤ wi.maxRetries ∧ ((attemptsOf s wi.workKey).length : ℤ) ≤ wi.maxRetries + 1

theorem WellKept.retryBound {ids : DerivedIds} {s : Database} (h : WellKept ids s) : RetryBound s := by
  intro wi hwi hmax
  obtain ⟨hretries, htries⟩ := h.bounded _ _ (lifeOf_of_mem hwi)
  change (wi.retryCount : ℤ) ≤ max 0 wi.maxRetries at hretries
  have hlen : (lifeOfItem s wi).tries.length = (attemptsOf s wi.workKey).length := List.length_map ..
  have hone : (lifeOfItem s wi).tries.length ≤ wi.retryCount + 1 := by
    refine htries.trans ?_
    change wi.retryCount + _ ≤ _
    split <;> omega
  rw [hlen] at hone
  rw [max_eq_right hmax] at hretries
  refine ⟨hretries, ?_⟩
  omega

end Shapeflow.WorkLedger
