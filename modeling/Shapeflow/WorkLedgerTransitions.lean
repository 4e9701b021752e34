import Shapeflow.WorkLedgerAttempts
import Shapeflow.WorkLedgerSafety

set_option autoImplicit false

/-!
# The transition log

The rows of an item are the path its state has taken. Every operation that moves
an item reads its state in the transaction that writes the row.
-/
namespace Shapeflow

/-- Steps that lead from one place to another, each beginning where the one before ended. -/
def Trail {ρ σ : Type} (source target : ρ → σ) : σ → List ρ → σ → Prop
  | a, [], b => a = b
  | a, r :: rest, b => source r = a ∧ Trail source target (target r) rest b

theorem trail_append {ρ σ : Type} {source target : ρ → σ} {a c : σ} {xs ys : List ρ} :
    Trail source target a (xs ++ ys) c ↔ ∃ b, Trail source target a xs b ∧ Trail source target b ys c := by
  induction xs generalizing a with
  | nil => simp [Trail]
  | cons r xs ih => simp [Trail, ih, and_assoc]

theorem Trail.snoc {ρ σ : Type} {source target : ρ → σ} {a : σ} {xs : List ρ} {r : ρ}
    (h : Trail source target a xs (source r)) : Trail source target a (xs ++ [r]) (target r) :=
  trail_append.mpr ⟨source r, h, rfl, rfl⟩

namespace WorkLedger
open Script Database Table

def transitionsOf (s : Database) (k : String) : List TransitionRow :=
  s.transitions.rows.filter fun r => r.workKey = k

/-- The rows of an item lead from `PENDING` to its state. -/
def Chained (s : Database) (wi : WorkItemRow) : Prop :=
  Trail TransitionRow.fromState TransitionRow.toState .pending (transitionsOf s wi.workKey) wi.state

structure Logged (s : Database) : Prop where
  known : ∀ r ∈ s.transitions.rows, r.workKey ∈ s.workItems.rows.map (·.workKey)
  chained : ∀ wi ∈ s.workItems.rows, Chained s wi

theorem logged_empty : Logged .empty := by
  constructor
  · intro r hr
    cases hr
  · intro wi hwi
    cases hwi

section
variable {s t : Database} {k : String}

theorem Logged.of_same (h : Logged s) (hitems : t.workItems.rows = s.workItems.rows)
    (hlog : t.transitions.rows = s.transitions.rows) : Logged t := by
  have hrows : ∀ j, transitionsOf t j = transitionsOf s j := by
    intro j
    unfold transitionsOf
    rw [hlog]
  constructor
  · rw [hlog, hitems]
    exact h.known
  · intro wi hwi
    rw [hitems] at hwi
    unfold Chained
    rw [hrows]
    exact h.chained wi hwi

/-- A new item has no rows and is pending. -/
theorem Logged.added (h : Logged s) {wi : WorkItemRow}
    (hitems : t.workItems.rows = s.workItems.rows ++ [wi]) (hnew : fetchWorkItem s wi.workKey = none)
    (hst : wi.state = .pending) (hlog : t.transitions.rows = s.transitions.rows) : Logged t := by
  have hrows : ∀ j, transitionsOf t j = transitionsOf s j := by
    intro j
    unfold transitionsOf
    rw [hlog]
  constructor
  · intro r hr
    rw [hlog] at hr
    rw [hitems, List.map_append]
    exact List.mem_append_left _ (h.known r hr)
  · intro q hq
    unfold Chained
    rw [hrows]
    rw [hitems] at hq
    rcases List.mem_append.mp hq with hin | hin
    · exact h.chained q hin
    · rw [List.mem_singleton.mp hin, hst]
      have hnone : transitionsOf s wi.workKey = [] := by
        apply List.filter_eq_nil_iff.mpr
        intro r hr hk
        rw [decide_eq_true_eq] at hk
        exact fetchWorkItem_none.mp hnew (hk ▸ h.known r hr)
      rw [hnone]
      rfl

/-- Moving one item and logging the move from the state it was in. -/
theorem Logged.moved (h : Logged s) {wi : WorkItemRow} {f : WorkItemRow → WorkItemRow} {row : TransitionRow}
    (hwi : fetchWorkItem s k = some wi) (hitems : t.workItems.rows = itemsMoved s k f)
    (hf : ∀ r, (f r).workKey = r.workKey) (hlog : t.transitions.rows = s.transitions.rows ++ [row])
    (hkey : row.workKey = k) (hfrom : row.fromState = wi.state) (hto : row.toState = (f wi).state) :
    Logged t := by
  obtain ⟨hmem, hwk⟩ := fetchWorkItem_some hwi
  have hkeys : t.workItems.rows.map (·.workKey) = s.workItems.rows.map (·.workKey) := by
    rw [hitems]
    exact workKeys_moved hf
  constructor
  · intro r hr
    rw [hkeys]
    rw [hlog] at hr
    rcases List.mem_append.mp hr with hin | hin
    · exact h.known r hin
    · rw [List.mem_singleton.mp hin, hkey, ← hwk]
      exact List.mem_map_of_mem hmem
  · intro q hq
    rw [hitems] at hq
    obtain ⟨q₀, hq₀, rfl⟩ := mem_updated.mp hq
    by_cases hqk : q₀.workKey = k
    · have heq : q₀ = wi := eq_of_key s.workItems.sound hq₀ hmem (hqk.trans hwk.symm)
      subst heq
      have hrows : transitionsOf t q₀.workKey = transitionsOf s q₀.workKey ++ [row] := by
        unfold transitionsOf
        rw [hlog, List.filter_append]
        congr 1
        simp [hkey, hqk]
      unfold Chained
      simp only [hqk, decide_true, if_true]
      rw [hf, hrows, ← hto]
      apply Trail.snoc
      rw [hfrom]
      exact h.chained q₀ hq₀
    · have hrows : transitionsOf t q₀.workKey = transitionsOf s q₀.workKey := by
        unfold transitionsOf
        rw [hlog, List.filter_append]
        have hnone : [row].filter (fun r => r.workKey = q₀.workKey) = [] := by
          simp [hkey, Ne.symm hqk]
        rw [hnone, List.append_nil]
      unfold Chained
      simp only [hqk, decide_false, Bool.false_eq_true, if_false]
      rw [hrows]
      exact h.chained q₀ hq₀

end

theorem routedRow_state (now : ℚ) (target : WorkState) (r : WorkItemRow) :
    (routedRow now target r).state = target := by
  unfold routedRow
  split
  · rename_i htarget
    rw [htarget]
    rfl
  · rfl

/-- The loop of a reclaim logs one row a turn. -/
theorem reclaims_logged (clock now : ℚ) {atts : List AttemptRow} {s : Database} (h : Logged s)
    (hs : Owned s) (hmem : ∀ att ∈ atts, att ∈ s.attempts.rows)
    (hprog : ∀ att ∈ atts, att.state ∈ inProgress) (hdistinct : (atts.map (·.attemptId)).Nodup) :
    ∃ rs t, forEach (reclaim clock now) atts s = (.ok rs, t) ∧ Logged t := by
  induction atts generalizing s with
  | nil => exact ⟨[], s, rfl, h⟩
  | cons att atts ih =>
    rw [List.map_cons, List.nodup_cons] at hdistinct
    obtain ⟨wi, hwi⟩ := hs.item (hmem att List.mem_cons_self)
    obtain ⟨t, hrun, hrows⟩ := reclaim_rows clock now hwi
    obtain ⟨r, t', hrun', -, ht, hatts⟩ := @reclaim_evolves (fun _ _ _ => True) clock now _ _
      (fun _ _ _ _ => trivial) (hmem att List.mem_cons_self) (hprog att List.mem_cons_self) hs
    have hsame : t' = t := congrArg Prod.snd (hrun'.symm.trans hrun)
    rw [hsame] at ht hatts
    simp only [workRows, Prod.mk.injEq] at hrows
    have hlogged : Logged t := h.moved hwi hrows.1 (routedRow_workKey now (reclaimTarget wi)) hrows.2.2 rfl rfl
      (routedRow_state now (reclaimTarget wi) wi).symm
    have hrest : ∀ b ∈ atts, b ∈ t.attempts.rows := by
      intro b hb
      rw [hatts]
      have hne : b.attemptId ≠ att.attemptId := fun e => hdistinct.1 (e ▸ List.mem_map_of_mem hb)
      exact mem_updated.mpr ⟨b, hmem b (List.mem_cons_of_mem _ hb), by simp [hne]⟩
    obtain ⟨rs, u, hloop, hu⟩ := ih hlogged ht hrest (fun b hb => hprog b (List.mem_cons_of_mem _ hb))
      hdistinct.2
    exact ⟨_, u, forEach_cons_ok.mpr ⟨_, rs, t, rfl, hrun, hloop⟩, hu⟩

theorem reclaimStale_logged (clock : ℚ) (now : Option ℚ) {s : Database} (h : Logged s) (hs : Owned s) :
    Logged ((reclaimStale clock now).after s) := by
  have hnodup : ((staleAttempts s (now.getD clock)).map (·.attemptId)).Nodup :=
    List.Nodup.sublist (List.Sublist.map _ List.filter_sublist) s.attempts.sound.1
  obtain ⟨rs, t, hrun, ht⟩ := reclaims_logged clock (now.getD clock) h hs
    (fun att hatt => (staleAttempts_live hatt).1) (fun att hatt => (staleAttempts_live hatt).2) hnodup
  have hall : reclaimStale clock now s = (.ok (rs.filterMap id), t) := by
    apply transaction_of_ok
    rw [getStore_bind, bind_of_ok hrun]
    rfl
  rw [after_of_ok hall]
  exact ht

theorem step_logged (ledger : Ledger) {s : Database} {call : Call} (h : Logged s) (hs : Owned s) :
    Logged (step ledger s call) := by
  obtain ⟨clock, op⟩ := call
  cases op with
  | ensureWorkItem c side m =>
    have hrows := ensureWorkItem_rows ledger clock c side m s
    by_cases hnew : fetchWorkItem s (ledger.ids.workItem c) = none
    · rw [if_pos hnew] at hrows
      simp only [workRows, Prod.mk.injEq] at hrows
      exact h.added hrows.1 hnew rfl hrows.2.2
    · rw [if_neg hnew] at hrows
      simp only [workRows, Prod.mk.injEq] at hrows
      exact h.of_same hrows.1 hrows.2.2
  | claim k w lease runId =>
    apply (atomic_claim ledger clock k w lease runId).after_of (P := Logged) h
    intro v t hv
    rcases claim_ok hv with ⟨-, rfl⟩ | ⟨wi, hwi, hst, -, -, hrows⟩
    · exact h
    · simp only [workRows, claimRows, Prod.mk.injEq] at hrows
      exact h.moved hwi hrows.1 (fun _ => rfl) hrows.2.2 rfl hst.symm rfl
  | heartbeat a lease =>
    have hrows := heartbeat_rows clock lease a s
    simp only [workRows, Prod.mk.injEq] at hrows
    exact h.of_same hrows.1 hrows.2.2
  | advance a target reason =>
    apply (atomic_advance clock a target reason).after_of (P := Logged) h
    intro v t hv
    obtain ⟨att, wi, -, hwi, hst, -, -, hrows⟩ := advance_ok hv
    simp only [workRows, Prod.mk.injEq] at hrows
    exact h.moved hwi hrows.1 (fun _ => rfl) hrows.2.2 rfl hst.symm rfl
  | commit a ref reason =>
    apply (atomic_commit clock a ref reason).after_of (P := Logged) h
    intro v t hv
    obtain ⟨att, wi, -, hwi, -, hst, hrows⟩ := commit_ok hv
    simp only [workRows, Prod.mk.injEq] at hrows
    exact h.moved hwi hrows.1 (fun _ => rfl) hrows.2.2 rfl hst.symm rfl
  | fail a d err reason ref =>
    apply (atomic_fail clock a d err reason ref).after_of (P := Logged) h
    intro v t hv
    obtain ⟨hd, att, wi, hatt, hwi⟩ := fail_ok hv
    obtain ⟨t', ht', hrows⟩ := fail_rows clock err reason ref hd hatt hwi
    have hsame : t = t' := congrArg Prod.snd (hv.symm.trans ht')
    rw [hsame]
    simp only [workRows, Prod.mk.injEq] at hrows
    exact h.moved hwi hrows.1 (routedRow_workKey clock (failTarget wi d)) hrows.2.2 rfl rfl
      (routedRow_state clock (failTarget wi d) wi).symm
  | blockBudget k reason =>
    apply (atomic_blockBudget clock k reason).after_of (P := Logged) h
    intro v t hv
    obtain ⟨wi, hwi, hst, hrows⟩ := blockBudget_ok hv
    simp only [workRows, Prod.mk.injEq] at hrows
    exact h.moved hwi hrows.1 (fun _ => rfl) hrows.2.2 rfl hst.symm rfl
  | reclaimStale now => exact reclaimStale_logged clock now h hs

/-- In every run each item's rows, in the order of their insertion, are a chain from `PENDING` to
    its present state. -/
theorem transitions_chained (ledger : Ledger) (calls : List Call) :
    ∀ wi ∈ (Run.run (step ledger) .empty calls).workItems.rows,
      Trail TransitionRow.fromState TransitionRow.toState .pending
        (transitionsOf (Run.run (step ledger) .empty calls) wi.workKey) wi.state := by
  have hkeep : ∀ s call, Logged s ∧ Owned s → Logged (step ledger s call) ∧ Owned (step ledger s call) := by
    intro s call h
    have howned := (step_evolves (fun _ _ _ => True) ledger h.2 (fun _ _ _ _ => trivial)
      (reports_true s call)).2
    exact ⟨step_logged ledger h.1 h.2, howned⟩
  exact (Run.invariant_all hkeep calls ⟨logged_empty, owned_empty⟩).1.chained

theorem transitions_chained_lateFailure :
    ∃ wi ∈ (Run.run (step sampleLedger) .empty lateFailure).workItems.rows,
      Trail TransitionRow.fromState TransitionRow.toState .pending
        (transitionsOf (Run.run (step sampleLedger) .empty lateFailure) wi.workKey) wi.state := by
  have hlength : 0 < (Run.run (step sampleLedger) .empty lateFailure).workItems.rows.length := by
    decide +kernel
  have hmem := List.head_mem (List.ne_nil_of_length_pos hlength)
  exact ⟨_, hmem, transitions_chained sampleLedger lateFailure _ hmem⟩

end WorkLedger
end Shapeflow
