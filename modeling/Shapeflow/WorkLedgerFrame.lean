import Shapeflow.WorkLedgerAttempts

set_option autoImplicit false

/-!
# What a ledger call leaves alone

A call that works on one item leaves the rows of every other item as they are,
and only a commit makes an attempt committed. A lease reclaim ends the stale
attempts in one sweep and leaves every item without one alone.
-/
namespace Shapeflow.WorkLedger
open Script Database Table Run

/-- Every item but `k`, with its attempts, is as it was. -/
structure OnlyItem (k : String) (s t : Database) : Prop where
  items : ∀ j, j ≠ k → fetchWorkItem t j = fetchWorkItem s j
  attempts : ∀ j, j ≠ k → attemptsOf t j = attemptsOf s j

/-- No attempt became committed, and no committed one was changed. -/
def CommitsNothing (s t : Database) : Prop :=
  ∀ r ∈ t.attempts.rows, r.state = .committed → r ∈ s.attempts.rows

section
variable {s t u : Database} {k a reason : String} {now : ℚ}

theorem OnlyItem.refl (k : String) (s : Database) : OnlyItem k s s := ⟨fun _ _ => rfl, fun _ _ => rfl⟩

theorem OnlyItem.trans (h : OnlyItem k s t) (h' : OnlyItem k t u) : OnlyItem k s u := by
  constructor
  · intro j hj
    rw [h'.items j hj, h.items j hj]
  · intro j hj
    rw [h'.attempts j hj, h.attempts j hj]

theorem OnlyItem.of_workRows (k : String) (h : workRows t = workRows s) : OnlyItem k s t := by
  simp only [workRows, Prod.mk.injEq] at h
  obtain ⟨hitems, hatts, -⟩ := h
  constructor
  · intro j hj
    exact fetchWorkItem_congr hitems j
  · intro j hj
    unfold attemptsOf
    rw [hatts]

theorem OnlyItem.moved {f : WorkItemRow → WorkItemRow} (hitems : t.workItems.rows = itemsMoved s k f)
    (hf : ∀ r, (f r).workKey = r.workKey) (hatts : ∀ j, j ≠ k → attemptsOf t j = attemptsOf s j) :
    OnlyItem k s t := by
  refine ⟨fun j hj => ?_, hatts⟩
  rw [fetchWorkItem_moved hitems hf]
  cases hr : fetchWorkItem s j with
  | none => rfl
  | some r =>
    have hne : r.workKey ≠ k := fun e => hj ((fetchWorkItem_some hr).2.symm.trans e)
    simp only [Option.map_some, hne, if_false]

theorem CommitsNothing.of_workRows (h : workRows t = workRows s) : CommitsNothing s t := by
  simp only [workRows, Prod.mk.injEq] at h
  intro r hr hc
  rw [h.2.1] at hr
  exact hr

/-- Rewriting one attempt to a row that is not committed. -/
theorem CommitsNothing.moved {g : AttemptRow → AttemptRow} (hatts : t.attempts.rows = attemptsMoved s a g)
    (hg : ∀ r, (g r).state ≠ .committed) : CommitsNothing s t := by
  intro r hr hc
  rw [hatts] at hr
  obtain ⟨q, hq, rfl⟩ := mem_updated.mp hr
  split at hc
  · exact absurd hc (hg q)
  · rename_i hqa
    rw [if_neg hqa]
    exact hq

/-- The attempt that was rewritten is found under its id again. -/
theorem fetchAttempt_moved {att : AttemptRow} {g : AttemptRow → AttemptRow}
    (hatts : t.attempts.rows = attemptsMoved s a g) (hg : ∀ r, (g r).attemptId = r.attemptId)
    (hatt : fetchAttempt s a = some att) : fetchAttempt t a = some (g att) := by
  unfold fetchAttempt at hatt ⊢
  rw [hatts]
  unfold attemptsMoved
  rw [find?_updated fun r _ _ => by rw [hg], hatt]
  have hid : att.attemptId = a := (mem_of_find? hatt).2
  simp only [Option.map_some, hid, decide_true, if_true]

/-! ## The calls on one item -/

theorem claim_frame {ledger : Ledger} {lease : ℚ} {worker runId : String} {r : Option Attempt}
    (h : claim ledger now k worker lease runId s = (.ok r, t)) :
    OnlyItem k s t ∧ CommitsNothing s t ∧
      ∀ attempt, r = some attempt → ∃ att, fetchAttempt t attempt.attemptId = some att ∧
        att.workKey = k ∧ att.state ∈ inProgress := by
  rcases claim_ok h with ⟨rfl, rfl⟩ | ⟨wi, hwi, hst, hnew, rfl, hrows⟩
  · refine ⟨.refl k t, fun r hr _ => hr, ?_⟩
    intro attempt hattempt
    cases hattempt
  · simp only [workRows, claimRows, Prod.mk.injEq] at hrows
    obtain ⟨hitems, hatts, -⟩ := hrows
    refine ⟨.moved hitems (fun _ => rfl) ?_, ?_, ?_⟩
    · intro j hj
      unfold attemptsOf
      rw [hatts, List.filter_append]
      have hnone : [claimedRow ledger s now k worker lease runId].filter (fun r => r.workKey = j) = [] := by
        simp [claimedRow, Ne.symm hj]
      rw [hnone, List.append_nil]
    · intro r hr hc
      rw [hatts] at hr
      rcases List.mem_append.mp hr with hin | hin
      · exact hin
      · rw [List.mem_singleton.mp hin] at hc
        cases hc
    · intro attempt hattempt
      obtain rfl := Option.some.inj hattempt
      refine ⟨claimedRow ledger s now k worker lease runId, ?_, rfl, by simp [claimedRow, inProgress]⟩
      have hmem : claimedRow ledger s now k worker lease runId ∈ t.attempts.rows := by
        rw [hatts]
        simp
      exact fetchAttempt_of_mem hmem

theorem advance_frame {target : WorkState} {v : Unit} {att : AttemptRow} (hatt : fetchAttempt s a = some att)
    (h : advance now a target reason s = (.ok v, t)) :
    OnlyItem att.workKey s t ∧ CommitsNothing s t ∧
      fetchAttempt t a = some (advancedRow target att) ∧ target ∈ inProgress := by
  obtain ⟨att', wi, hatt', hwi, hsame, hlegal, htarget, hrows⟩ := advance_ok h
  rw [hatt] at hatt'
  obtain rfl := Option.some.inj hatt'
  simp only [workRows, Prod.mk.injEq] at hrows
  obtain ⟨hitems, hatts, -⟩ := hrows
  have hlive : target ∈ inProgress ∧ target ≠ .committed := by
    simp only [List.mem_cons, List.not_mem_nil, or_false] at htarget
    rcases htarget with rfl | rfl <;> simp [inProgress]
  refine ⟨.moved hitems (fun _ => rfl) ?_, .moved hatts fun _ => hlive.2, ?_, hlive.1⟩
  · exact fun j hj => attemptsOf_moved_other hatts (fun _ => rfl) hatt hj
  · exact fetchAttempt_moved hatts (fun _ => rfl) hatt

theorem commit_frame {ref : String} {v : Unit} {att : AttemptRow} (hatt : fetchAttempt s a = some att)
    (h : commit now a ref reason s = (.ok v, t)) :
    OnlyItem att.workKey s t ∧ ∀ r ∈ t.attempts.rows, r.state = .committed →
      r ∈ s.attempts.rows ∨ r.workKey = att.workKey ∧ r.resultObjectRef = some ref := by
  obtain ⟨att', wi, hatt', hwi, hval, hst, hrows⟩ := commit_ok h
  rw [hatt] at hatt'
  obtain rfl := Option.some.inj hatt'
  simp only [workRows, Prod.mk.injEq] at hrows
  obtain ⟨hitems, hatts, -⟩ := hrows
  constructor
  · exact .moved hitems (fun _ => rfl) fun j hj => attemptsOf_moved_other hatts (fun _ => rfl) hatt hj
  · intro r hr hc
    rw [hatts] at hr
    obtain ⟨q, hq, rfl⟩ := mem_updated.mp hr
    split
    · rename_i hqa
      obtain ⟨hmem, hid⟩ := fetchAttempt_some hatt
      have hqatt : q = att := eq_of_key s.attempts.sound.1 hq hmem ((of_decide_eq_true hqa).trans hid.symm)
      subst hqatt
      exact .inr ⟨rfl, rfl⟩
    · exact .inl hq

theorem fail_frame {err ref : String} {d v : WorkState} {att : AttemptRow} (hatt : fetchAttempt s a = some att)
    (h : fail now a d err reason ref s = (.ok v, t)) : OnlyItem att.workKey s t ∧ CommitsNothing s t := by
  obtain ⟨hd, att', wi, hatt', hwi⟩ := fail_ok h
  rw [hatt] at hatt'
  obtain rfl := Option.some.inj hatt'
  obtain ⟨t', ht', hrows⟩ := fail_rows now err reason ref hd hatt hwi
  rw [h] at ht'
  obtain ⟨-, rfl⟩ := Prod.mk.inj ht'
  simp only [workRows, Prod.mk.injEq] at hrows
  obtain ⟨hitems, hatts, -⟩ := hrows
  constructor
  · exact .moved hitems (routedRow_workKey now _) fun j hj => attemptsOf_moved_other hatts (fun _ => rfl) hatt hj
  · exact .moved hatts fun r => (WorkItemLife.disposition_not_live hd).2

theorem registerArtifact_frame {ref kind : String} {m n : ℕ} {key : Option String} {v : Unit}
    (h : registerArtifact now ref kind m n key s = (.ok v, t)) : workRows t = workRows s := by
  obtain ⟨u, hu, hrows⟩ := Slot.insertOrIgnore_run (ε := Raised) artifactsSlot ⟨ref, kind, m, n, key, now⟩ s
  rw [transaction_ok.mp h] at hu
  obtain ⟨-, rfl⟩ := Prod.mk.inj hu
  rcases hrows with rfl | ⟨hkeys, rfl⟩
  · rfl
  · rfl

theorem recordIncident_frame {severity kind detail : String} {key : Option String} {v : Unit}
    (h : recordIncident now severity kind detail key s = (.ok v, t)) : workRows t = workRows s := by
  obtain ⟨-, rfl⟩ := Slot.insert_ok.mp (transaction_ok.mp h)
  rfl

theorem ensureWorkItem_attempts (ledger : Ledger) (c : Coordinates) (side : Bool) (m : Option ℤ) :
    ((ensureWorkItem ledger now c side m).after s).attempts.rows = s.attempts.rows := by
  have hrows := ensureWorkItem_rows ledger now c side m s
  split at hrows
  all_goals
    simp only [workRows, Prod.mk.injEq] at hrows
    exact hrows.2.1

/-- Enqueueing work leaves every item there is as it was. -/
theorem ensureWorkItem_spares (ledger : Ledger) (c : Coordinates) (side : Bool) (m : Option ℤ) {wi : WorkItemRow}
    (hwi : fetchWorkItem s k = some wi) :
    fetchWorkItem ((ensureWorkItem ledger now c side m).after s) k = some wi := by
  have hrows := ensureWorkItem_rows ledger now c side m s
  split at hrows
  · simp only [workRows, Prod.mk.injEq] at hrows
    unfold fetchWorkItem at hwi ⊢
    rw [hrows.1, List.find?_append, hwi]
    rfl
  · simp only [workRows, Prod.mk.injEq] at hrows
    exact (fetchWorkItem_congr hrows.1 k).trans hwi

/-! ## A whole reclaim -/

/-- The loop ends each of its attempts and no other. -/
theorem reclaims_attempts {clock : ℚ} {atts : List AttemptRow} {rs : List (Option String)}
    (hmem : ∀ att ∈ atts, att ∈ s.attempts.rows) (hprog : ∀ att ∈ atts, att.state ∈ inProgress)
    (hdistinct : (atts.map (·.attemptId)).Nodup) (hs : Owned s)
    (h : forEach (reclaim clock now) atts s = (.ok rs, t)) :
    t.attempts.rows = updated (fun r => r.attemptId ∈ atts.map (·.attemptId)) (expiredRow now) s.attempts.rows := by
  induction atts generalizing s rs with
  | nil =>
    obtain ⟨-, rfl⟩ := forEach_nil_ok.mp h
    exact (updated_eq_self fun _ _ => rfl).symm
  | cons att atts ih =>
    obtain ⟨r, rs', u, -, hone, hrest⟩ := forEach_cons_ok.mp h
    simp only [List.map_cons, List.nodup_cons] at hdistinct
    obtain ⟨-, hatts, -, -, hu⟩ := reclaim_shape (hmem att (by simp)) (hprog att (by simp)) hs hone
    have hstill : ∀ b ∈ atts, b ∈ u.attempts.rows := by
      intro b hb
      rw [hatts]
      refine mem_updated.mpr ⟨b, hmem b (by simp [hb]), ?_⟩
      have hne : b.attemptId ≠ att.attemptId := fun e => hdistinct.1 (e ▸ List.mem_map_of_mem hb)
      simp [hne]
    rw [ih hstill (fun b hb => hprog b (by simp [hb])) hdistinct.2 hu hrest, hatts]
    unfold attemptsMoved updated
    rw [List.map_map]
    apply List.map_congr_left
    intro q _
    simp only [Function.comp_apply, decide_eq_true_eq, List.map_cons, List.mem_cons]
    by_cases hq : q.attemptId = att.attemptId
    · have hnot : (expiredRow now q).attemptId ∉ atts.map (·.attemptId) := by
        rw [← hq] at hdistinct
        exact hdistinct.1
      rw [if_pos hq, if_neg hnot, if_pos (.inl hq)]
    · simp only [hq, if_false, false_or]

/-- Whether the attempt is in progress with its lease run out before `now`. -/
def Stale (now : ℚ) (r : AttemptRow) : Bool := decide (r.state ∈ inProgress) && leaseExpired now r

theorem reclaimStale_attempts {clock : ℚ} {given : Option ℚ} {ks : List String} (hs : Owned s)
    (h : reclaimStale clock given s = (.ok ks, t)) :
    t.attempts.rows = updated (Stale (given.getD clock)) (expiredRow (given.getD clock)) s.attempts.rows := by
  have hbody := transaction_ok.mp h
  rw [getStore_bind] at hbody
  obtain ⟨rs, u, hloop, hend⟩ := bind_ok.mp hbody
  simp only [pure_run, Prod.mk.injEq] at hend
  obtain ⟨-, rfl⟩ := hend
  have hnodup : ((staleAttempts s (given.getD clock)).map (·.attemptId)).Nodup :=
    List.Nodup.sublist (List.Sublist.map _ List.filter_sublist) s.attempts.sound.1
  rw [reclaims_attempts (fun att h => (staleAttempts_live h).1) (fun att h => (staleAttempts_live h).2)
    hnodup hs hloop]
  apply List.map_congr_left
  intro r hr
  -- Ids are unique, so the attempts with a stale attempt's id are the stale attempts.
  have hiff : r.attemptId ∈ (staleAttempts s (given.getD clock)).map (·.attemptId) ↔
      Stale (given.getD clock) r = true := by
    unfold Stale
    rw [Bool.and_eq_true, decide_eq_true_eq]
    constructor
    · intro hid
      obtain ⟨q, hq, hqr⟩ := List.mem_map.mp hid
      obtain ⟨hqmem, hqst⟩ := List.mem_filter.mp hq
      obtain rfl := eq_of_key s.attempts.sound.1 hqmem hr hqr
      exact of_decide_eq_true hqst
    · intro hst
      exact List.mem_map_of_mem (List.mem_filter.mpr ⟨hr, decide_eq_true hst⟩)
  by_cases hst : Stale (given.getD clock) r = true
  · rw [if_pos (decide_eq_true (hiff.mpr hst)), if_pos hst]
  · rw [if_neg (mt (fun h => hiff.mp (of_decide_eq_true h)) hst), if_neg hst]

/-! ## One item of a reclaim -/

def attemptIds (s : Database) (k : String) : List String := (attemptsOf s k).map (·.attemptId)

/-- The lease of whoever holds the item ran out before `now`. -/
def LeaseOver (s : Database) (k : String) (now : ℚ) : Prop := ∀ att ∈ liveAttempts s k, leaseExpired now att

instance (s : Database) (k : String) (now : ℚ) : Decidable (LeaseOver s k now) :=
  inferInstanceAs (Decidable (∀ _ ∈ _, _))

theorem stale_count (s : Database) (k : String) (now : ℚ) :
    ((staleAttempts s now).countP fun att => att.workKey = k) = (liveAttempts s k).countP (leaseExpired now) := by
  unfold staleAttempts liveAttempts attemptsOf
  rw [List.countP_filter, List.countP_filter, List.countP_filter]
  apply List.countP_congr
  intro r _
  simp only [Bool.and_eq_true, decide_eq_true_eq]
  tauto

theorem attemptIds_reclaimStale {clock : ℚ} {ks : List String} (hs : Owned s)
    (h : reclaimStale clock none s = (.ok ks, t)) : attemptIds t k = attemptIds s k := by
  unfold attemptIds attemptsOf
  rw [reclaimStale_attempts hs h, filter_updated (f := expiredRow _) fun _ _ _ => rfl]
  exact map_updated _ fun _ _ _ => rfl

/-- An item whose lease has not run out, or that nobody holds, is left alone. -/
theorem reclaimStale_spares {clock : ℚ} {ks : List String} (hs : Owned s)
    (h : reclaimStale clock none s = (.ok ks, t)) (hnone : ∀ att ∈ liveAttempts s k, leaseExpired clock att = false) :
    fetchWorkItem t k = fetchWorkItem s k ∧ attemptsOf t k = attemptsOf s k := by
  obtain ⟨-, hitems, -, -⟩ := reclaimStale_shape hs h
  have hcount : (liveAttempts s k).countP (leaseExpired clock) = 0 :=
    List.countP_eq_zero.mpr fun att hatt hexpired => by
      rw [hnone att hatt] at hexpired
      cases hexpired
  constructor
  · rw [hitems, Option.getD_none, stale_count, hcount]
    cases fetchWorkItem s k <;> rfl
  · unfold attemptsOf
    rw [reclaimStale_attempts hs h, filter_updated (f := expiredRow _) fun _ _ _ => rfl]
    refine updated_eq_self fun r hr => ?_
    by_cases hlive : r.state ∈ inProgress
    · have hmem : r ∈ liveAttempts s k := List.mem_filter.mpr ⟨hr, decide_eq_true hlive⟩
      simp [Stale, hnone r hmem]
    · simp [Stale, hlive]

/-- An item whose one live attempt lost its lease is reclaimed once. -/
theorem reclaimStale_reclaims {clock : ℚ} {ks : List String} (hs : Owned s)
    (h : reclaimStale clock none s = (.ok ks, t)) (hone : (liveAttempts s k).length = 1)
    (hover : LeaseOver s k clock) : fetchWorkItem t k = (fetchWorkItem s k).map (reclaimedRow clock) := by
  obtain ⟨-, hitems, -, -⟩ := reclaimStale_shape hs h
  have hcount : (liveAttempts s k).countP (leaseExpired clock) = 1 := by
    rw [List.countP_eq_length.mpr hover, hone]
  rw [hitems, Option.getD_none, stale_count, hcount]
  rfl

end
end Shapeflow.WorkLedger
