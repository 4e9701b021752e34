import Shapeflow.WorkLedger

set_option autoImplicit false

/-!
# What one ledger call does to the rows

One lemma for each operation: under its guard the rows it leaves behind, and
otherwise the database as it was. Later modules cite these and never unfold an
operation again.
-/
namespace Shapeflow.WorkLedger
open Script Database Table

/-- The rows of the three tables the work ledger writes. -/
def workRows (s : Database) : List WorkItemRow × List AttemptRow × List TransitionRow :=
  (s.workItems.rows, s.attempts.rows, s.transitions.rows)

def itemsMoved (s : Database) (workKey : String) (f : WorkItemRow → WorkItemRow) : List WorkItemRow :=
  updated (fun r => r.workKey = workKey) f s.workItems.rows

def attemptsMoved (s : Database) (attemptId : String) (f : AttemptRow → AttemptRow) : List AttemptRow :=
  updated (fun r => r.attemptId = attemptId) f s.attempts.rows

/-! ## Keys survive the updates -/

theorem workItemKeys_updated {p : WorkItemRow → Bool} {f : WorkItemRow → WorkItemRow}
    {rows : List WorkItemRow} (h : WorkItemKeys rows) (hf : ∀ r, (f r).workKey = r.workKey) :
    WorkItemKeys (updated p f rows) := by
  unfold WorkItemKeys
  rw [map_updated _ fun r _ _ => hf r]
  exact h

/-- An update that commits no attempt keeps the partial index `ux_one_commit`. -/
theorem attemptKeys_updated {p : AttemptRow → Bool} {f : AttemptRow → AttemptRow}
    {rows : List AttemptRow} (h : AttemptKeys rows) (hid : ∀ r, (f r).attemptId = r.attemptId)
    (hkey : ∀ r, (f r).workKey = r.workKey) (hord : ∀ r, (f r).attemptOrdinal = r.attemptOrdinal)
    (hstate : ∀ r, (f r).state = .committed → r.state = .committed) :
    AttemptKeys (updated p f rows) := by
  obtain ⟨h₁, h₂, h₃⟩ := h
  refine ⟨?_, ?_, ?_⟩
  · rw [map_updated _ fun r _ _ => hid r]
    exact h₁
  · rw [map_updated _ fun r _ _ => by rw [hkey, hord]]
    exact h₂
  · refine List.Nodup.sublist (index_updated_sublist hkey ?_) h₃
    exact fun r hr => decide_eq_true (hstate r (of_decide_eq_true hr))

/-! ## Lookups -/

theorem fetchWorkItem_some {s : Database} {k : String} {wi : WorkItemRow}
    (h : fetchWorkItem s k = some wi) : wi ∈ s.workItems.rows ∧ wi.workKey = k :=
  mem_of_find? h

theorem fetchWorkItem_of_mem {s : Database} {wi : WorkItemRow} (h : wi ∈ s.workItems.rows) :
    fetchWorkItem s wi.workKey = some wi :=
  find?_of_mem s.workItems.sound h

theorem fetchAttempt_some {s : Database} {a : String} {att : AttemptRow}
    (h : fetchAttempt s a = some att) : att ∈ s.attempts.rows ∧ att.attemptId = a :=
  mem_of_find? h

theorem fetchAttempt_of_mem {s : Database} {att : AttemptRow} (h : att ∈ s.attempts.rows) :
    fetchAttempt s att.attemptId = some att :=
  find?_of_mem s.attempts.sound.1 h

theorem requireAttempt_ok {s t : Database} {a : String} {att : AttemptRow} :
    requireAttempt a s = (.ok att, t) ↔ fetchAttempt s a = some att ∧ t = s := by
  simp only [requireAttempt, getStore_bind]
  cases h : fetchAttempt s a with
  | none => simp
  | some row =>
    simp only [pure_run, Prod.mk.injEq, Except.ok.injEq, Option.some.injEq]
    exact ⟨fun ⟨a, b⟩ => ⟨a, b.symm⟩, fun ⟨a, b⟩ => ⟨a, b.symm⟩⟩

/-- The one row of a key that is in state `from` is the row the key finds. -/
theorem countP_key_state (s : Database) (k : String) (from_ : WorkState) :
    (s.workItems.rows.countP fun r => r.workKey = k ∧ r.state = from_) = 1 ↔
      ∃ wi, fetchWorkItem s k = some wi ∧ wi.state = from_ := by
  have hle : s.workItems.rows.countP (fun r => r.workKey = k ∧ r.state = from_) ≤ 1 := by
    have h := List.nodup_iff_count_le_one.mp s.workItems.sound k
    rw [List.count, List.countP_map] at h
    refine le_trans (List.countP_mono_left ?_) h
    intro r _ hr
    simp only [decide_eq_true_eq] at hr
    simp [hr.1]
  constructor
  · intro h
    obtain ⟨wi, hwi, hp⟩ := List.countP_pos_iff.mp (by omega :
      0 < s.workItems.rows.countP fun r => decide (r.workKey = k ∧ r.state = from_))
    simp only [decide_eq_true_eq] at hp
    exact ⟨wi, hp.1 ▸ fetchWorkItem_of_mem hwi, hp.2⟩
  · rintro ⟨wi, hwi, hst⟩
    obtain ⟨hmem, hkey⟩ := fetchWorkItem_some hwi
    have hpos : 0 < s.workItems.rows.countP fun r => r.workKey = k ∧ r.state = from_ :=
      List.countP_pos_iff.mpr ⟨wi, hmem, by simp [hkey, hst]⟩
    omega

/-- Updating the row of key `k` in state `from` is updating the row of key `k`,
    once that row is known to be in that state. -/
theorem updated_key_state {s : Database} {k : String} {from_ : WorkState} {wi : WorkItemRow}
    (hwi : fetchWorkItem s k = some wi) (hst : wi.state = from_) (f : WorkItemRow → WorkItemRow) :
    updated (fun r => r.workKey = k ∧ r.state = from_) f s.workItems.rows = itemsMoved s k f := by
  obtain ⟨hmem, hkey⟩ := fetchWorkItem_some hwi
  apply List.map_congr_left
  intro r hr
  by_cases hk : r.workKey = k
  · have : r = wi := eq_of_key s.workItems.sound hr hmem (hk.trans hkey.symm)
    simp [this, hkey, hst]
  · simp [hk]

/-- `_set_state` returns exactly on a legal edge from the item's own state. -/
theorem setState_ok {now : ℚ} {k reason : String} {from_ to_ : WorkState} {s t : Database}
    {u : Unit} (h : setState now k from_ to_ reason s = (.ok u, t)) :
    to_ ∈ legal from_ ∧ (∃ wi, fetchWorkItem s k = some wi ∧ wi.state = from_) ∧
      workRows t = (itemsMoved s k (fun r => { r with state := to_, updatedAt := now }),
        s.attempts.rows, s.transitions.rows ++ [⟨k, none, from_, to_, now, reason⟩]) := by
  unfold setState at h
  split at h
  · simp at h
  · rename_i hlegal
    obtain ⟨n, m, hu, hrest⟩ := bind_ok.mp h
    obtain ⟨rfl, hkeys, rfl⟩ := Slot.update_ok.mp hu
    split at hrest
    · simp at hrest
    · rename_i hone
      obtain ⟨wi, hwi, hst⟩ := (countP_key_state s k from_).mp (not_not.mp hone)
      obtain ⟨_, rfl⟩ := Slot.insert_ok.mp hrest
      refine ⟨not_not.mp hlegal, ⟨wi, hwi, hst⟩, ?_⟩
      simp only [workRows, ← updated_key_state hwi hst]
      rfl

theorem setState_run (now : ℚ) (from_ to_ : WorkState) (reason : String) {k : String} {s : Database}
    {wi : WorkItemRow} (hlegal : to_ ∈ legal from_) (hwi : fetchWorkItem s k = some wi)
    (hst : wi.state = from_) : ∃ t, setState now k from_ to_ reason s = (.ok (), t) := by
  have hone : (workItemsSlot.get s).rows.countP (fun r => r.workKey = k ∧ r.state = from_) = 1 :=
    (countP_key_state s k from_).mpr ⟨wi, hwi, hst⟩
  have hkeys : WorkItemKeys (updated (fun r => r.workKey = k ∧ r.state = from_)
      (fun r => { r with state := to_, updatedAt := now }) s.workItems.rows) :=
    workItemKeys_updated s.workItems.sound fun _ => rfl
  have hu := Slot.update_of_schema workItemsSlot Raised.integrityError
    (s := s) hkeys
  unfold setState
  rw [if_neg (not_not.mpr hlegal), bind_of_ok hu, if_neg (not_not.mpr hone)]
  exact ⟨_, Slot.insert_of_schema _ _ trivial⟩

/-! ## The operations -/

theorem atomic_claim (ledger : Ledger) (now : ℚ) (k worker : String) (lease : ℚ) (runId : String) :
    Atomic (claim ledger now k worker lease runId) :=
  atomic_transaction _

theorem atomic_advance (now : ℚ) (a : String) (target : WorkState) (reason : String) :
    Atomic (advance now a target reason) :=
  atomic_ite (atomic_raise _) (atomic_transaction _)

theorem atomic_commit (now : ℚ) (a ref reason : String) : Atomic (commit now a ref reason) :=
  atomic_transaction _

theorem atomic_fail (now : ℚ) (a : String) (d : WorkState) (err reason ref : String) :
    Atomic (fail now a d err reason ref) :=
  atomic_ite (atomic_raise _) (atomic_transaction _)

theorem atomic_blockBudget (now : ℚ) (k reason : String) : Atomic (blockBudget now k reason) :=
  atomic_transaction _

/-- The row `ensure_work_item` adds. -/
def freshItem (ledger : Ledger) (now : ℚ) (c : Coordinates) (side : Bool) (m : Option ℤ) : WorkItemRow :=
  { workKey := ledger.ids.workItem c, coordinates := c, sideEffecting := side,
    maxRetries := m.getD ledger.defaultMaxRetries,
    retryCount := 0, state := .pending, createdAt := now, updatedAt := now }

theorem fetchWorkItem_none {s : Database} {k : String} :
    fetchWorkItem s k = none ↔ k ∉ s.workItems.rows.map (·.workKey) := by
  simp [fetchWorkItem, List.find?_eq_none]

theorem ensureWorkItem_rows (ledger : Ledger) (now : ℚ) (c : Coordinates) (side : Bool)
    (m : Option ℤ) (s : Database) :
    workRows ((ensureWorkItem ledger now c side m).after s) =
      if fetchWorkItem s (ledger.ids.workItem c) = none then
        (s.workItems.rows ++ [freshItem ledger now c side m], s.attempts.rows, s.transitions.rows)
      else workRows s := by
  have hkeys : WorkItemKeys (s.workItems.rows ++ [freshItem ledger now c side m]) ↔
      fetchWorkItem s (ledger.ids.workItem c) = none := by
    have hs : (s.workItems.rows.map (·.workKey)).Nodup := s.workItems.sound
    simp [WorkItemKeys, fetchWorkItem_none, freshItem, List.nodup_append, hs]
  by_cases h : WorkItemKeys (s.workItems.rows ++ [freshItem ledger now c side m])
  · rw [if_pos (hkeys.mp h)]
    have hrun : transaction (workItemsSlot.insertOrIgnore (freshItem ledger now c side m)) s =
        ((.ok (), workItemsSlot.put ⟨_, h⟩ s) : Except Raised Unit × Database) :=
      transaction_of_ok (dif_pos h)
    have hall : ensureWorkItem ledger now c side m s =
        (.ok (ledger.ids.workItem c), workItemsSlot.put ⟨_, h⟩ s) := bind_of_ok hrun
    rw [after_of_ok hall]
    rfl
  · rw [if_neg (mt hkeys.mpr h)]
    have hrun : transaction (workItemsSlot.insertOrIgnore (freshItem ledger now c side m)) s =
        ((.ok (), s) : Except Raised Unit × Database) := transaction_of_ok (dif_neg h)
    have hall : ensureWorkItem ledger now c side m s = (.ok (ledger.ids.workItem c), s) :=
      bind_of_ok hrun
    rw [after_of_ok hall]

/-- The attempt row `claim` adds. -/
def claimedRow (ledger : Ledger) (s : Database) (now : ℚ) (k worker : String) (lease : ℚ)
    (runId : String) : AttemptRow :=
  { attemptId := ledger.ids.attempt k (nextOrdinal s k), workKey := k,
    attemptOrdinal := nextOrdinal s k, runId, workerId := worker, state := .claimed,
    leaseExpiresAt := some (now + lease), startedAt := now }

/-- The rows after a claim that was won. -/
def claimRows (ledger : Ledger) (s : Database) (now : ℚ) (k worker : String) (lease : ℚ)
    (runId : String) : List WorkItemRow × List AttemptRow × List TransitionRow :=
  (itemsMoved s k (fun r => { r with state := .claimed, updatedAt := now }),
    s.attempts.rows ++ [claimedRow ledger s now k worker lease runId],
    s.transitions.rows ++ [⟨k, none, .pending, .claimed, now, s!"claim:{worker}"⟩])

theorem claim_ok {ledger : Ledger} {now lease : ℚ} {k worker runId : String} {s t : Database}
    {r : Option Attempt} (h : claim ledger now k worker lease runId s = (.ok r, t)) :
    (r = none ∧ t = s) ∨
      ∃ wi, fetchWorkItem s k = some wi ∧ wi.state = .pending ∧
        fetchAttempt s (ledger.ids.attempt k (nextOrdinal s k)) = none ∧
        r = some ⟨ledger.ids.attempt k (nextOrdinal s k), k, nextOrdinal s k, worker, .claimed,
          some (now + lease), none⟩ ∧
        workRows t = claimRows ledger s now k worker lease runId := by
  have hbody := transaction_ok.mp h
  rw [getStore_bind] at hbody
  cases hwi : fetchWorkItem s k with
  | none => simp [hwi] at hbody
  | some wi =>
    simp only [hwi] at hbody
    split at hbody
    · simp only [pure_run, Prod.mk.injEq, Except.ok.injEq] at hbody
      exact .inl ⟨hbody.1.symm, hbody.2.symm⟩
    · rename_i hst
      obtain ⟨_, u, hins, hrest⟩ := bind_ok.mp hbody
      obtain ⟨_, v, hset, hend⟩ := bind_ok.mp hrest
      obtain ⟨hkeys, rfl⟩ := Slot.insert_ok.mp hins
      obtain ⟨_, _, hrows⟩ := setState_ok hset
      simp only [pure_run, Prod.mk.injEq, Except.ok.injEq] at hend
      obtain ⟨rfl, rfl⟩ := hend
      refine .inr ⟨wi, rfl, not_not.mp hst, ?_, rfl, hrows⟩
      have hnew := hkeys.1
      simp only [List.map_append, List.map_cons, List.map_nil, List.nodup_append,
        List.mem_singleton] at hnew
      refine List.find?_eq_none.mpr fun r hr => ?_
      simpa using hnew.2.2 _ (List.mem_map_of_mem hr) _ rfl

theorem ordinal_lt_next {s : Database} {k : String} {r : AttemptRow} (hr : r ∈ s.attempts.rows)
    (hk : r.workKey = k) : r.attemptOrdinal < nextOrdinal s k := by
  have hmem : r.attemptOrdinal ∈
      (s.attempts.rows.filter fun r => r.workKey = k).map (·.attemptOrdinal) :=
    List.mem_map_of_mem (List.mem_filter.mpr ⟨hr, by simp [hk]⟩)
  unfold nextOrdinal
  cases hmax : ((s.attempts.rows.filter fun r => r.workKey = k).map (·.attemptOrdinal)).max? with
  | none =>
    rw [List.max?_eq_none_iff.mp hmax] at hmem
    cases hmem
  | some m =>
    have hle : r.attemptOrdinal ≤ m := (List.max?_le_iff hmax).mp le_rfl _ hmem
    change r.attemptOrdinal < m + 1
    omega

/-- A pending item is claimed whenever the id of its next attempt is free. -/
theorem claim_run (ledger : Ledger) (now lease : ℚ) (worker runId : String) {k : String} {s : Database}
    {wi : WorkItemRow} (hwi : fetchWorkItem s k = some wi) (hst : wi.state = .pending)
    (hfree : fetchAttempt s (ledger.ids.attempt k (nextOrdinal s k)) = none) :
    ∃ t, claim ledger now k worker lease runId s =
      (.ok (some ⟨ledger.ids.attempt k (nextOrdinal s k), k, nextOrdinal s k, worker, .claimed,
        some (now + lease), none⟩), t) := by
  obtain ⟨hid, hord, hone⟩ := s.attempts.sound
  have hkeys : AttemptKeys (s.attempts.rows ++ [claimedRow ledger s now k worker lease runId]) := by
    refine ⟨?_, ?_, ?_⟩
    · simp only [List.map_append, List.map_cons, List.map_nil, List.nodup_append, List.mem_singleton]
      refine ⟨hid, List.nodup_singleton _, ?_⟩
      rintro a ha b rfl rfl
      obtain ⟨r, hr, hra⟩ := List.mem_map.mp ha
      exact List.find?_eq_none.mp hfree r hr (decide_eq_true hra)
    · simp only [List.map_append, List.map_cons, List.map_nil, List.nodup_append, List.mem_singleton]
      refine ⟨hord, List.nodup_singleton _, ?_⟩
      rintro a ha b rfl rfl
      obtain ⟨r, hr, hra⟩ := List.mem_map.mp ha
      obtain ⟨hk, hn⟩ := Prod.mk.inj hra
      have hlt : r.attemptOrdinal < nextOrdinal s k := ordinal_lt_next hr hk
      change r.attemptOrdinal = nextOrdinal s k at hn
      omega
    · simp only [List.filter_append]
      have hnew : [claimedRow ledger s now k worker lease runId].filter
          (fun r => r.state = .committed) = [] := rfl
      rw [hnew, List.append_nil]
      exact hone
  have hins := Slot.insert_of_schema attemptsSlot Raised.integrityError
    (s := s) hkeys
  obtain ⟨t, ht⟩ := setState_run now .pending .claimed s!"claim:{worker}"
    (k := k) (s := attemptsSlot.put ⟨_, hkeys⟩ s) (by simp [legal]) hwi hst
  refine ⟨t, transaction_of_ok ?_⟩
  rw [getStore_bind, hwi]
  refine (congrFun (if_neg (not_not.mpr hst)) s).trans ?_
  exact (bind_of_ok hins).trans (bind_of_ok ht)

/-- The attempt row after a heartbeat. -/
def leasedRow (expires : ℚ) (r : AttemptRow) : AttemptRow := { r with leaseExpiresAt := some expires }

theorem heartbeat_rows (now lease : ℚ) (a : String) (s : Database) :
    workRows ((heartbeat now a lease).after s) =
      (s.workItems.rows, updated (fun r => r.attemptId = a ∧ r.state ∈ inProgress)
        (leasedRow (now + lease)) s.attempts.rows, s.transitions.rows) := by
  have hkeys : AttemptKeys (updated (fun r => r.attemptId = a ∧ r.state ∈ inProgress)
      (leasedRow (now + lease)) s.attempts.rows) :=
    attemptKeys_updated s.attempts.sound (fun _ => rfl) (fun _ => rfl) (fun _ => rfl) fun _ => id
  have hu := Slot.update_of_schema attemptsSlot Raised.integrityError
    (s := s) hkeys
  have hall : heartbeat now a lease s = (.ok (), attemptsSlot.put ⟨_, hkeys⟩ s) :=
    transaction_of_ok (bind_of_ok hu)
  rw [after_of_ok hall]
  rfl

/-- The attempt row after an advance. -/
def advancedRow (target : WorkState) (r : AttemptRow) : AttemptRow := { r with state := target }

theorem advance_ok {now : ℚ} {a reason : String} {to_ : WorkState} {s t : Database} {u : Unit}
    (h : advance now a to_ reason s = (.ok u, t)) :
    ∃ att wi, fetchAttempt s a = some att ∧ fetchWorkItem s att.workKey = some wi ∧
      wi.state = att.state ∧ to_ ∈ legal att.state ∧ to_ ∈ [WorkState.materialized, .validated] ∧
      workRows t = (itemsMoved s att.workKey (fun r => { r with state := to_, updatedAt := now }),
        attemptsMoved s a (advancedRow to_),
        s.transitions.rows ++ [⟨att.workKey, none, att.state, to_, now, reason⟩]) := by
  unfold advance at h
  split at h
  · simp at h
  · rename_i hto
    obtain ⟨att, v, hreq, hafter⟩ := bind_ok.mp (transaction_ok.mp h)
    obtain ⟨hatt, rfl⟩ := requireAttempt_ok.mp hreq
    obtain ⟨_, w, hset, hrest⟩ := bind_ok.mp hafter
    obtain ⟨hlegal, ⟨wi, hwi, hst⟩, hrows⟩ := setState_ok hset
    obtain ⟨_, x, hupd, hend⟩ := bind_ok.mp hrest
    obtain ⟨_, _, rfl⟩ := Slot.update_ok.mp hupd
    simp only [pure_run, Prod.mk.injEq, true_and] at hend
    subst hend
    simp only [workRows, Prod.mk.injEq] at hrows
    obtain ⟨hitems, hatts, hlog⟩ := hrows
    refine ⟨att, wi, hatt, hwi, hst, hlegal, not_not.mp hto, ?_⟩
    simp only [workRows, Prod.mk.injEq]
    refine ⟨hitems, ?_, hlog⟩
    change updated _ _ w.attempts.rows = _
    rw [hatts]
    rfl

theorem advance_run (now : ℚ) (reason : String) {a : String} {target : WorkState} {s : Database}
    {att : AttemptRow} {wi : WorkItemRow} (hatt : fetchAttempt s a = some att)
    (hwi : fetchWorkItem s att.workKey = some wi) (hsame : wi.state = att.state)
    (hlegal : target ∈ legal att.state) (htarget : target ∈ [WorkState.materialized, .validated]) :
    ∃ t, advance now a target reason s = (.ok (), t) := by
  have htarget' : target ≠ .committed := by
    rintro rfl
    simp at htarget
  obtain ⟨u, hu⟩ := setState_run now att.state target reason hlegal hwi hsame
  have hreq : requireAttempt a s = (.ok att, s) := requireAttempt_ok.mpr ⟨hatt, rfl⟩
  have hkeys : AttemptKeys (attemptsMoved u a (advancedRow target)) :=
    attemptKeys_updated u.attempts.sound (fun _ => rfl) (fun _ => rfl) (fun _ => rfl)
      fun _ h => absurd h htarget'
  have hupd := Slot.update_of_schema attemptsSlot Raised.integrityError
    (s := u) hkeys
  unfold advance
  rw [if_neg (not_not.mpr htarget)]
  exact ⟨_, transaction_of_ok ((bind_of_ok hreq).trans ((bind_of_ok hu).trans (bind_of_ok hupd)))⟩

/-- The attempt row after its commit. -/
def committedRow (now : ℚ) (ref : String) (r : AttemptRow) : AttemptRow :=
  { r with
    state := .committed, endedAt := some now, terminalStatus := some .committed,
    resultObjectRef := some ref }

theorem commit_ok {now : ℚ} {a ref reason : String} {s t : Database} {u : Unit}
    (h : commit now a ref reason s = (.ok u, t)) :
    ∃ att wi, fetchAttempt s a = some att ∧ fetchWorkItem s att.workKey = some wi ∧
      att.state = .validated ∧ wi.state = .validated ∧
      workRows t = (itemsMoved s att.workKey (fun r => { r with state := .committed, updatedAt := now }),
        attemptsMoved s a (committedRow now ref),
        s.transitions.rows ++
          [⟨att.workKey, none, .validated, .committed, now, orElse reason "commit"⟩]) := by
  obtain ⟨att, v, hreq, hafter⟩ := bind_ok.mp (transaction_ok.mp h)
  obtain ⟨hatt, rfl⟩ := requireAttempt_ok.mp hreq
  split at hafter
  · simp at hafter
  · rename_i hval
    obtain ⟨_, w, hset, hrest⟩ := bind_ok.mp hafter
    obtain ⟨_, ⟨wi, hwi, hst⟩, hrows⟩ := setState_ok hset
    obtain ⟨_, x, hupd, hend⟩ := bind_ok.mp hrest
    obtain ⟨_, _, rfl⟩ := Slot.update_ok.mp hupd
    simp only [pure_run, Prod.mk.injEq, true_and] at hend
    subst hend
    simp only [workRows, Prod.mk.injEq] at hrows
    obtain ⟨hitems, hatts, hlog⟩ := hrows
    refine ⟨att, wi, hatt, hwi, not_not.mp hval, hst, ?_⟩
    simp only [workRows, Prod.mk.injEq]
    refine ⟨hitems, ?_, hlog⟩
    change updated _ _ w.attempts.rows = _
    rw [hatts]
    rfl

/-- A validated attempt of a validated item is committed unless the item has a committed one. -/
theorem commit_run (now : ℚ) (ref reason : String) {a : String} {s : Database} {att : AttemptRow}
    {wi : WorkItemRow} (hatt : fetchAttempt s a = some att)
    (hwi : fetchWorkItem s att.workKey = some wi) (hval : att.state = .validated)
    (hitem : wi.state = .validated)
    (hone : ∀ r ∈ s.attempts.rows, r.workKey = att.workKey → r.state ≠ .committed) :
    ∃ t, commit now a ref reason s = (.ok (), t) := by
  obtain ⟨hmem, hid⟩ := fetchAttempt_some hatt
  obtain ⟨u, hu⟩ := setState_run now .validated .committed (orElse reason "commit") (by simp [legal]) hwi hitem
  have hreq : requireAttempt a s = (.ok att, s) := requireAttempt_ok.mpr ⟨hatt, rfl⟩
  have hrows : u.attempts.rows = s.attempts.rows := by
    have h := (setState_ok hu).2.2
    simp only [workRows, Prod.mk.injEq] at h
    exact h.2.1
  have hkeys : AttemptKeys (attemptsMoved u a (committedRow now ref)) := by
    obtain ⟨h₁, h₂, h₃⟩ := u.attempts.sound
    refine ⟨?_, ?_, ?_⟩
    · unfold attemptsMoved
      rw [map_updated (f := committedRow now ref) _ fun _ _ _ => rfl]
      exact h₁
    · unfold attemptsMoved
      rw [map_updated (f := committedRow now ref) _ fun _ _ _ => rfl]
      exact h₂
    · rw [hrows] at h₃
      unfold attemptsMoved
      rw [hrows]
      subst hid
      exact index_updated_nodup s.attempts.sound.1 h₃ hmem rfl fun r hr hk => decide_eq_false (hone r hr hk)
  have hupd := Slot.update_of_schema attemptsSlot
    (Raised.ledgerError s!"work item {att.workKey} already has a committed attempt")
    (s := u) hkeys
  refine ⟨attemptsSlot.put ⟨_, hkeys⟩ u, transaction_of_ok ((bind_of_ok hreq).trans ?_)⟩
  refine (congrFun (if_neg (not_not.mpr hval)) s).trans ?_
  exact (bind_of_ok hu).trans (bind_of_ok hupd)

theorem blockBudget_ok {now : ℚ} {k reason : String} {s t : Database} {u : Unit}
    (h : blockBudget now k reason s = (.ok u, t)) :
    ∃ wi, fetchWorkItem s k = some wi ∧ wi.state = .pending ∧
      workRows t = (itemsMoved s k (fun r => { r with state := .blockedBudget, updatedAt := now }),
        s.attempts.rows,
        s.transitions.rows ++ [⟨k, none, .pending, .blockedBudget, now, orElse reason "budget"⟩]) := by
  have hbody := transaction_ok.mp h
  rw [getStore_bind] at hbody
  cases hwi : fetchWorkItem s k with
  | none => simp [hwi] at hbody
  | some wi =>
    simp only [hwi] at hbody
    obtain ⟨hlegal, -, hrows⟩ := setState_ok hbody
    have hst : wi.state = .pending := by
      cases hs : wi.state <;> simp [hs, legal] at hlegal ⊢
    rw [hst] at hrows
    exact ⟨wi, rfl, hst, hrows⟩

/-! ## The two operations that write without a compare-and-swap -/

/-- The attempt row after `fail`. -/
def failedRow (now : ℚ) (d : WorkState) (err ref : String) (r : AttemptRow) : AttemptRow :=
  { r with
    state := d, endedAt := some now, terminalStatus := some d, errorClass := some err,
    resultObjectRef := if ref = "" then r.resultObjectRef else some ref }

/-- Where `fail` sends the item. -/
def failTarget (wi : WorkItemRow) (d : WorkState) : WorkState :=
  if d = .failedRetryable ∧ retriesLeft wi then .pending else failedAs d

/-- The item row after `fail`, or after a reclaim that ends in `target`. -/
def routedRow (now : ℚ) (target : WorkState) (r : WorkItemRow) : WorkItemRow :=
  if target = .pending then reopenRow now r else { r with state := target, updatedAt := now }

theorem failedAs_ne_pending (d : WorkState) : failedAs d ≠ .pending := by
  cases d <;> simp [failedAs]

theorem mem_dispositions {d : WorkState} :
    d ∈ dispositions ↔ d = .failedRetryable ∨ d = .failedFinal ∨ d = .failedUnknown := by
  simp [dispositions]

/-- Writing the item and logging the transition, the tail of `fail` and of a reclaim. -/
theorem route_run {α : Type} (atTime : ℚ) (k a reason : String) (from_ target : WorkState)
    (f : WorkItemRow → WorkItemRow) (hf : ∀ r, (f r).workKey = r.workKey) (v : α) (s : Database) :
    ∃ t, (do
        let _ ← workItemsSlot.update .integrityError (fun r => r.workKey = k) f
        logTransition atTime k (some a) from_ target reason
        pure v : Db α) s = (.ok v, t) ∧
      workRows t = (itemsMoved s k f, s.attempts.rows,
        s.transitions.rows ++ [⟨k, some a, from_, target, atTime, reason⟩]) := by
  have hitems : WorkItemKeys (itemsMoved s k f) := workItemKeys_updated s.workItems.sound hf
  have hu := Slot.update_of_schema workItemsSlot Raised.integrityError
    (s := s) hitems
  exact ⟨_, (bind_of_ok hu).trans (bind_of_ok (Slot.insert_of_schema _ _ trivial)), rfl⟩

/-- `fail` on a known attempt always goes through, whatever the states are. -/
theorem fail_rows (now : ℚ) (err reason ref : String) {a : String} {d : WorkState} {s : Database}
    {att : AttemptRow} {wi : WorkItemRow} (hd : d ∈ dispositions)
    (hatt : fetchAttempt s a = some att) (hwi : fetchWorkItem s att.workKey = some wi) :
    ∃ t, fail now a d err reason ref s = (.ok (failTarget wi d), t) ∧
      workRows t = (itemsMoved s att.workKey (routedRow now (failTarget wi d)),
        attemptsMoved s a (failedRow now d err ref),
        s.transitions.rows ++ [⟨att.workKey, some a, wi.state, failTarget wi d, now,
          orElse reason (if failTarget wi d = .pending then "retry" else err)⟩]) := by
  have hcommit : ∀ r : AttemptRow, (failedRow now d err ref r).state = .committed →
      r.state = .committed := by
    intro r hr
    simp only [failedRow] at hr
    rcases mem_dispositions.mp hd with h | h | h <;> simp [h] at hr
  have hkeys : AttemptKeys (attemptsMoved s a (failedRow now d err ref)) :=
    attemptKeys_updated s.attempts.sound (fun _ => rfl) (fun _ => rfl) (fun _ => rfl) hcommit
  have hu := Slot.update_of_schema attemptsSlot Raised.integrityError
    (s := s) hkeys
  have hreq : requireAttempt a s = (.ok att, s) := requireAttempt_ok.mpr ⟨hatt, rfl⟩
  unfold fail
  rw [if_neg (not_not.mpr hd)]
  by_cases hr : d = .failedRetryable ∧ retriesLeft wi
  · have htarget : failTarget wi d = .pending := if_pos hr
    obtain ⟨t, ht, hrows⟩ := route_run now att.workKey a (orElse reason "retry") wi.state .pending
      (reopenRow now) (fun _ => rfl) WorkState.pending (attemptsSlot.put ⟨_, hkeys⟩ s)
    rw [htarget]
    refine ⟨t, transaction_of_ok ?_, hrows⟩
    refine (bind_of_ok hreq).trans ?_
    rw [getStore_bind, hwi]
    refine (bind_of_ok hu).trans ?_
    rw [if_pos hr]
    exact ht
  · have htarget : failTarget wi d = failedAs d := if_neg hr
    have hne := failedAs_ne_pending d
    have hrouted : routedRow now (failedAs d) =
        fun r => { r with state := failedAs d, updatedAt := now } := by
      funext r
      exact if_neg hne
    obtain ⟨t, ht, hrows⟩ := route_run now att.workKey a (orElse reason err) wi.state (failedAs d)
      (fun r => { r with state := failedAs d, updatedAt := now }) (fun _ => rfl) (failedAs d)
      (attemptsSlot.put ⟨_, hkeys⟩ s)
    rw [htarget, hrouted, if_neg hne]
    refine ⟨t, transaction_of_ok ?_, hrows⟩
    refine (bind_of_ok hreq).trans ?_
    rw [getStore_bind, hwi]
    refine (bind_of_ok hu).trans ?_
    rw [if_neg hr]
    exact ht

/-- The attempt row after a lease reclaim. -/
def expiredRow (now : ℚ) (r : AttemptRow) : AttemptRow :=
  { r with
    state := .failedUnknown, endedAt := some now, terminalStatus := some .failedUnknown,
    errorClass := some "lease_expired" }

/-- Where a lease reclaim sends the item. -/
def reclaimTarget (wi : WorkItemRow) : WorkState :=
  if wi.sideEffecting = false ∧ retriesLeft wi then .pending
  else if wi.sideEffecting then .failedUnknown else .failedFinal

theorem reclaim_rows (clock now : ℚ) {s : Database} {att : AttemptRow} {wi : WorkItemRow}
    (hwi : fetchWorkItem s att.workKey = some wi) :
    ∃ t, reclaim clock now att s =
        (.ok (if reclaimTarget wi = .pending then some att.workKey else none), t) ∧
      workRows t = (itemsMoved s att.workKey (routedRow now (reclaimTarget wi)),
        attemptsMoved s att.attemptId (expiredRow now),
        s.transitions.rows ++ [⟨att.workKey, some att.attemptId, wi.state, reclaimTarget wi, clock,
          "lease_reclaim"⟩]) := by
  have hcommit : ∀ r : AttemptRow, (expiredRow now r).state = .committed → r.state = .committed := by
    intro r hr
    simp [expiredRow] at hr
  have hkeys : AttemptKeys (attemptsMoved s att.attemptId (expiredRow now)) :=
    attemptKeys_updated s.attempts.sound (fun _ => rfl) (fun _ => rfl) (fun _ => rfl) hcommit
  have hu := Slot.update_of_schema attemptsSlot Raised.integrityError
    (s := s) hkeys
  unfold reclaim
  rw [getStore_bind, hwi]
  by_cases hr : wi.sideEffecting = false ∧ retriesLeft wi
  · have htarget : reclaimTarget wi = .pending := if_pos hr
    obtain ⟨t, ht, hrows⟩ := route_run clock att.workKey att.attemptId "lease_reclaim" wi.state .pending
      (reopenRow now) (fun _ => rfl) (some att.workKey) (attemptsSlot.put ⟨_, hkeys⟩ s)
    rw [htarget]
    refine ⟨t, (bind_of_ok hu).trans ?_, hrows⟩
    rw [if_pos hr]
    exact ht
  · have htarget : reclaimTarget wi = if wi.sideEffecting then .failedUnknown else .failedFinal := if_neg hr
    have hne : (if wi.sideEffecting then WorkState.failedUnknown else .failedFinal) ≠ .pending := by
      cases wi.sideEffecting <;> simp
    have hrouted : routedRow now (if wi.sideEffecting then WorkState.failedUnknown else .failedFinal) =
        fun r => { r with
          state := if wi.sideEffecting then .failedUnknown else .failedFinal, updatedAt := now } := by
      funext r
      exact if_neg hne
    obtain ⟨t, ht, hrows⟩ := route_run clock att.workKey att.attemptId "lease_reclaim" wi.state
      (if wi.sideEffecting then .failedUnknown else .failedFinal)
      (fun r => { r with
        state := if wi.sideEffecting then .failedUnknown else .failedFinal, updatedAt := now })
      (fun _ => rfl) (none : Option String) (attemptsSlot.put ⟨_, hkeys⟩ s)
    rw [htarget, hrouted, if_neg hne]
    refine ⟨t, (bind_of_ok hu).trans ?_, hrows⟩
    rw [if_neg hr]
    exact ht

end Shapeflow.WorkLedger
