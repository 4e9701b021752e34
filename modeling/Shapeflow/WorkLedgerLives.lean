import Shapeflow.WorkLedgerSteps
import Shapeflow.WorkItemLife

set_option autoImplicit false

/-!
# Every ledger call is a stretch of each item's life

The life of an item is read off the two tables. A call moves the lives of the
items it touches along `Next` and leaves the others where they are; a lease
reclaim moves one life for each stale attempt.
-/
namespace Shapeflow.WorkLedger
open Script Database Table WorkItemLife Relation

def tryOf (r : AttemptRow) : Try String String := ⟨r.attemptId, r.state, r.resultObjectRef⟩

def attemptsOf (s : Database) (k : String) : List AttemptRow :=
  s.attempts.rows.filter fun r => r.workKey = k

def lifeOfItem (s : Database) (wi : WorkItemRow) : Life String String :=
  ⟨wi.state, wi.retryCount, wi.maxRetries, (attemptsOf s wi.workKey).map tryOf⟩

def lifeOf (s : Database) (k : String) : Option (Life String String) :=
  (fetchWorkItem s k).map (lifeOfItem s)

/-- Every attempt belongs to a work item. -/
def Owned (s : Database) : Prop :=
  ∀ r ∈ s.attempts.rows, r.workKey ∈ s.workItems.rows.map (·.workKey)

theorem Owned.item {s : Database} (h : Owned s) {r : AttemptRow} (hr : r ∈ s.attempts.rows) :
    ∃ wi, fetchWorkItem s r.workKey = some wi := by
  cases hwi : fetchWorkItem s r.workKey with
  | none => exact absurd (h r hr) (fetchWorkItem_none.mp hwi)
  | some wi => exact ⟨wi, rfl⟩

variable {ok : Life String String → Try String String → WorkState → Prop}

/-- Each life of `t` continues one of `s`, or started after it. -/
structure Evolves (ok : Life String String → Try String String → WorkState → Prop)
    (s t : Database) : Prop where
  goes : ∀ k l, lifeOf s k = some l → ∃ m, lifeOf t k = some m ∧ ReflTransGen (Next ok) l m
  starts : ∀ k m, lifeOf s k = none → lifeOf t k = some m →
    ∃ n, ReflTransGen (Next ok) (fresh n) m

theorem Evolves.of_same {s t : Database} (h : ∀ k, lifeOf t k = lifeOf s k) : Evolves ok s t where
  goes k l hl := ⟨l, (h k).trans hl, .refl⟩
  starts k m hnone hm := by
    rw [h k, hnone] at hm
    cases hm

theorem Evolves.trans {s t u : Database} (h : Evolves ok s t) (h' : Evolves ok t u) :
    Evolves ok s u where
  goes k l hl := by
    obtain ⟨m, hm, hlm⟩ := h.goes k l hl
    obtain ⟨n, hn, hmn⟩ := h'.goes k m hm
    exact ⟨n, hn, hlm.trans hmn⟩
  starts k m hnone hm := by
    cases ht : lifeOf t k with
    | none => exact h'.starts k m ht hm
    | some x =>
      obtain ⟨n, hn⟩ := h.starts k x hnone ht
      obtain ⟨y, hy, hxy⟩ := h'.goes k x ht
      rw [hm] at hy
      cases hy
      exact ⟨n, hn.trans hxy⟩

/-- What holds of a fresh life and is kept by its events holds of every life. -/
theorem Evolves.all {P : Life String String → Prop} {s t : Database} (h : Evolves ok s t)
    (hfresh : ∀ n, P (fresh n)) (hkeep : ∀ l m, P l → ReflTransGen (Next ok) l m → P m)
    (hs : ∀ k l, lifeOf s k = some l → P l) : ∀ k m, lifeOf t k = some m → P m := by
  intro k m hm
  cases hl : lifeOf s k with
  | none =>
    obtain ⟨n, hn⟩ := h.starts k m hl hm
    exact hkeep _ _ (hfresh n) hn
  | some l =>
    obtain ⟨m', hm', hlm⟩ := h.goes k l hl
    rw [hm] at hm'
    cases hm'
    exact hkeep _ _ (hs k l hl) hlm

/-! ## Reading lives off changed rows -/

theorem fetchWorkItem_congr {s t : Database} (h : t.workItems.rows = s.workItems.rows) (k : String) :
    fetchWorkItem t k = fetchWorkItem s k := by
  simp only [fetchWorkItem, h]

theorem fetchWorkItem_moved {s t : Database} {k : String} {f : WorkItemRow → WorkItemRow}
    (h : t.workItems.rows = itemsMoved s k f) (hf : ∀ r, (f r).workKey = r.workKey) (j : String) :
    fetchWorkItem t j = (fetchWorkItem s j).map fun r => if r.workKey = k then f r else r := by
  unfold fetchWorkItem
  rw [h, itemsMoved, find?_updated fun r _ _ => by rw [hf]]
  simp

theorem workKeys_moved {s : Database} {k : String} {f : WorkItemRow → WorkItemRow}
    (hf : ∀ r, (f r).workKey = r.workKey) :
    (itemsMoved s k f).map (·.workKey) = s.workItems.rows.map (·.workKey) :=
  map_updated _ fun r _ _ => hf r

theorem attemptsOf_moved {s t : Database} {a : String} {g : AttemptRow → AttemptRow}
    (h : t.attempts.rows = attemptsMoved s a g) (hg : ∀ r, (g r).workKey = r.workKey) (k : String) :
    attemptsOf t k = updated (fun r => r.attemptId = a) g (attemptsOf s k) := by
  unfold attemptsOf
  rw [h]
  exact filter_updated fun r _ _ => by rw [hg]

theorem attemptsOf_moved_other {s t : Database} {a : String} {att : AttemptRow}
    {g : AttemptRow → AttemptRow} (h : t.attempts.rows = attemptsMoved s a g)
    (hg : ∀ r, (g r).workKey = r.workKey) (hatt : fetchAttempt s a = some att) {k : String}
    (hk : k ≠ att.workKey) : attemptsOf t k = attemptsOf s k := by
  obtain ⟨hmem, hid⟩ := fetchAttempt_some hatt
  rw [attemptsOf_moved h hg]
  refine updated_eq_self fun r hr => ?_
  obtain ⟨hr, hrk⟩ := List.mem_filter.mp hr
  simp only [decide_eq_true_eq] at hrk
  refine decide_eq_false fun hra => hk ?_
  rw [← hrk, eq_of_key s.attempts.sound.1 hr hmem (hra.trans hid.symm)]

theorem tries_updated {rows : List AttemptRow} {a : String} {g : AttemptRow → AttemptRow}
    {g' : Try String String → Try String String} (h : ∀ r, tryOf (g r) = g' (tryOf r)) :
    (updated (fun r => r.attemptId = a) g rows).map tryOf =
      updated (fun t => t.id = a) g' (rows.map tryOf) := by
  simp only [updated, List.map_map]
  apply List.map_congr_left
  intro r _
  by_cases hr : r.attemptId = a
  · have hid : (tryOf r).id = a := hr
    simp only [Function.comp_apply, hr, hid, decide_true, if_true, h]
  · have hid : (tryOf r).id ≠ a := hr
    simp only [Function.comp_apply, hr, hid, decide_false, Bool.false_eq_true, if_false]

/-- An event of one item, read off the rows. -/
theorem evolves_moved {s t : Database} {k : String} {f : WorkItemRow → WorkItemRow} {wi : WorkItemRow}
    (hitems : t.workItems.rows = itemsMoved s k f) (hf : ∀ r, (f r).workKey = r.workKey)
    (hwi : fetchWorkItem s k = some wi)
    (hothers : ∀ j, j ≠ k → attemptsOf t j = attemptsOf s j)
    (hnext : Next ok (lifeOfItem s wi) (lifeOfItem t (f wi))) : Evolves ok s t := by
  have hkey := (fetchWorkItem_some hwi).2
  have hk : lifeOf t k = some (lifeOfItem t (f wi)) := by
    simp [lifeOf, fetchWorkItem_moved hitems hf, hwi, hkey]
  have hj : ∀ j, j ≠ k → lifeOf t j = lifeOf s j := by
    intro j hjk
    unfold lifeOf
    rw [fetchWorkItem_moved hitems hf]
    cases hr : fetchWorkItem s j with
    | none => rfl
    | some r =>
      have hrj := (fetchWorkItem_some hr).2
      have hrk : r.workKey ≠ k := fun e => hjk (hrj.symm.trans e)
      simp only [Option.map_some, hrk, if_false, lifeOfItem, hothers r.workKey hrk]
  refine ⟨?_, ?_⟩
  · intro j l hl
    by_cases hjk : j = k
    · subst hjk
      have hls : lifeOf s j = some (lifeOfItem s wi) := by
        simp [lifeOf, hwi]
      rw [hls] at hl
      cases hl
      exact ⟨_, hk, .single hnext⟩
    · exact ⟨l, (hj j hjk).trans hl, .refl⟩
  · intro j m hnone hm
    have hjk : j ≠ k := by
      rintro rfl
      simp [lifeOf, hwi] at hnone
    rw [hj j hjk, hnone] at hm
    cases hm

theorem Owned.moved {s t : Database} (h : Owned s) {k : String} {f : WorkItemRow → WorkItemRow}
    (hitems : t.workItems.rows = itemsMoved s k f) (hf : ∀ r, (f r).workKey = r.workKey)
    (hatts : ∀ r ∈ t.attempts.rows, (∃ q ∈ s.attempts.rows, q.workKey = r.workKey) ∨
      ∃ wi, fetchWorkItem s r.workKey = some wi) : Owned t := by
  intro r hr
  rw [hitems, workKeys_moved hf]
  rcases hatts r hr with ⟨q, hq, hqr⟩ | ⟨wi, hwi⟩
  · exact hqr ▸ h q hq
  · obtain ⟨hmem, hkey⟩ := fetchWorkItem_some hwi
    exact hkey ▸ List.mem_map_of_mem hmem

theorem attempts_moved_keys {s t : Database} {a : String} {g : AttemptRow → AttemptRow}
    (h : t.attempts.rows = attemptsMoved s a g) (hg : ∀ r, (g r).workKey = r.workKey) :
    ∀ r ∈ t.attempts.rows, ∃ q ∈ s.attempts.rows, q.workKey = r.workKey := by
  intro r hr
  rw [h] at hr
  obtain ⟨q, hq, rfl⟩ := mem_updated.mp hr
  refine ⟨q, hq, ?_⟩
  split
  · exact (hg q).symm
  · rfl

theorem same_of_workRows {s t : Database} (h : workRows t = workRows s) (hs : Owned s) :
    Evolves ok s t ∧ Owned t := by
  simp only [workRows, Prod.mk.injEq] at h
  obtain ⟨hitems, hatts, -⟩ := h
  refine ⟨.of_same fun k => ?_, ?_⟩
  · simp only [lifeOf, fetchWorkItem_congr hitems]
    congr 1
    funext wi
    simp only [lifeOfItem, attemptsOf, hatts]
  · unfold Owned
    rw [hitems, hatts]
    exact hs

theorem tryOf_mem {s : Database} {a : String} {att : AttemptRow} {wi : WorkItemRow}
    (hatt : fetchAttempt s a = some att) (hwi : fetchWorkItem s att.workKey = some wi) :
    tryOf att ∈ (lifeOfItem s wi).tries := by
  have hkey := (fetchWorkItem_some hwi).2
  refine List.mem_map_of_mem (List.mem_filter.mpr ⟨(fetchAttempt_some hatt).1, ?_⟩)
  simp [hkey]

/-! ## The operations as events -/

theorem ensureWorkItem_evolves (ledger : Ledger) (now : ℚ) (c : Coordinates) (side : Bool)
    (m : Option ℤ) {s : Database} (hs : Owned s) :
    Evolves ok s ((ensureWorkItem ledger now c side m).after s) ∧
      Owned ((ensureWorkItem ledger now c side m).after s) := by
  have hrows := ensureWorkItem_rows ledger now c side m s
  generalize (ensureWorkItem ledger now c side m).after s = t at hrows
  split at hrows
  · rename_i hnone
    simp only [workRows, Prod.mk.injEq] at hrows
    obtain ⟨hitems, hatts, -⟩ := hrows
    have hold : ∀ k wi, fetchWorkItem s k = some wi → fetchWorkItem t k = some wi := by
      intro k wi hwi
      unfold fetchWorkItem at hwi ⊢
      rw [hitems, List.find?_append, hwi]
      rfl
    refine ⟨⟨?_, ?_⟩, ?_⟩
    · intro k l hl
      obtain ⟨wi, hwi, rfl⟩ := Option.map_eq_some_iff.mp hl
      refine ⟨lifeOfItem s wi, ?_, .refl⟩
      simp only [lifeOf, hold k wi hwi, Option.map_some, lifeOfItem, attemptsOf, hatts]
    · intro k l hl hm
      obtain ⟨wi, hwi, rfl⟩ := Option.map_eq_some_iff.mp hm
      have hnew : fetchWorkItem s k = none := by simpa [lifeOf] using hl
      have hfresh : wi = freshItem ledger now c side m := by
        obtain ⟨hmem, hkey⟩ := fetchWorkItem_some hwi
        rw [hitems] at hmem
        rcases List.mem_append.mp hmem with hin | hin
        · exact absurd (List.mem_map_of_mem hin) (hkey ▸ fetchWorkItem_none.mp hnew)
        · exact List.mem_singleton.mp hin
      have hempty : attemptsOf t wi.workKey = [] := by
        refine List.filter_eq_nil_iff.mpr fun r hr => ?_
        rw [hatts] at hr
        have hkey := (fetchWorkItem_some hwi).2
        have hin := hs r hr
        simp only [decide_eq_true_eq, hkey]
        rintro rfl
        exact fetchWorkItem_none.mp hnew hin
      refine ⟨wi.maxRetries, ?_⟩
      have hlife : lifeOfItem t wi = fresh wi.maxRetries := by
        unfold lifeOfItem
        rw [hempty, hfresh]
        rfl
      rw [hlife]
    · intro r hr
      rw [hatts] at hr
      rw [hitems, List.map_append]
      exact List.mem_append_left _ (hs r hr)
  · exact same_of_workRows hrows hs

theorem claim_evolves {ledger : Ledger} {now lease : ℚ} {k worker runId : String} {s t : Database}
    {r : Option Attempt} (h : claim ledger now k worker lease runId s = (.ok r, t)) (hs : Owned s) :
    Evolves ok s t ∧ Owned t := by
  rcases claim_ok h with ⟨-, rfl⟩ | ⟨wi, hwi, hst, hnew, -, hrows⟩
  · exact same_of_workRows rfl hs
  · simp only [workRows, claimRows, Prod.mk.injEq] at hrows
    obtain ⟨hitems, hatts, -⟩ := hrows
    have hkey := (fetchWorkItem_some hwi).2
    have hother : ∀ j, j ≠ k → attemptsOf t j = attemptsOf s j := by
      intro j hj
      simp [attemptsOf, hatts, List.filter_append, claimedRow, hj.symm]
    have hown : attemptsOf t k = attemptsOf s k ++ [claimedRow ledger s now k worker lease runId] := by
      simp [attemptsOf, hatts, List.filter_append, claimedRow]
    refine ⟨evolves_moved hitems (fun _ => rfl) hwi hother ?_, hs.moved hitems (fun _ => rfl) ?_⟩
    · have hlife : lifeOfItem t { wi with state := .claimed, updatedAt := now } =
          (lifeOfItem s wi).claimed (ledger.ids.attempt k (nextOrdinal s k)) := by
        simp only [lifeOfItem, Life.claimed, hkey, hown, List.map_append]
        rfl
      rw [hlife]
      refine .claimed _ _ hst ?_
      intro x hx
      obtain ⟨r, hr, rfl⟩ := List.mem_map.mp hx
      intro hid
      have hfree := List.find?_eq_none.mp hnew r (List.mem_filter.mp hr).1
      exact hfree (by simpa [tryOf] using hid)
    · intro r hr
      rw [hatts] at hr
      rcases List.mem_append.mp hr with hin | hin
      · exact .inl ⟨r, hin, rfl⟩
      · rw [List.mem_singleton.mp hin]
        exact .inr ⟨wi, hwi⟩

theorem heartbeat_evolves (now lease : ℚ) (a : String) {s : Database} (hs : Owned s) :
    Evolves ok s ((heartbeat now a lease).after s) ∧ Owned ((heartbeat now a lease).after s) := by
  have hrows := heartbeat_rows now lease a s
  generalize (heartbeat now a lease).after s = t at hrows
  simp only [workRows, Prod.mk.injEq] at hrows
  obtain ⟨hitems, hatts, -⟩ := hrows
  have htries : ∀ k, (attemptsOf t k).map tryOf = (attemptsOf s k).map tryOf := by
    intro k
    unfold attemptsOf
    rw [hatts]
    rw [filter_updated (f := leasedRow (now + lease)) fun _ _ _ => rfl]
    exact map_updated _ fun _ _ _ => rfl
  refine ⟨.of_same fun k => ?_, ?_⟩
  · simp only [lifeOf, fetchWorkItem_congr hitems]
    congr 1
    funext wi
    simp only [lifeOfItem, htries]
  · intro r hr
    rw [hatts] at hr
    obtain ⟨q, hq, rfl⟩ := mem_updated.mp hr
    rw [hitems]
    split <;> exact hs q hq

theorem advance_evolves {now : ℚ} {a reason : String} {target : WorkState} {s t : Database} {u : Unit}
    (h : advance now a target reason s = (.ok u, t)) (hs : Owned s) : Evolves ok s t ∧ Owned t := by
  obtain ⟨att, wi, hatt, hwi, hsame, hlegal, htarget, hrows⟩ := advance_ok h
  simp only [workRows, Prod.mk.injEq] at hrows
  obtain ⟨hitems, hatts, -⟩ := hrows
  have hid := (fetchAttempt_some hatt).2
  refine ⟨evolves_moved hitems (fun _ => rfl) hwi ?_ ?_, hs.moved hitems (fun _ => rfl) ?_⟩
  · exact fun j hj => attemptsOf_moved_other hatts (fun _ => rfl) hatt hj
  · have hlife : lifeOfItem t { wi with state := target, updatedAt := now } =
        (lifeOfItem s wi).advanced (tryOf att).id target := by
      simp only [lifeOfItem, Life.advanced, Life.tried, attemptsOf_moved hatts fun _ => rfl, tryOf, hid]
      congr 1
      exact tries_updated fun _ => rfl
    rw [hlife]
    exact .advanced _ _ _ (tryOf_mem hatt hwi) hsame hlegal htarget
  · exact fun r hr => .inl (attempts_moved_keys hatts (fun _ => rfl) r hr)

theorem commit_evolves {now : ℚ} {a ref reason : String} {s t : Database} {u : Unit}
    (h : commit now a ref reason s = (.ok u, t)) (hs : Owned s) : Evolves ok s t ∧ Owned t := by
  obtain ⟨att, wi, hatt, hwi, hval, hitem, hrows⟩ := commit_ok h
  simp only [workRows, Prod.mk.injEq] at hrows
  obtain ⟨hitems, hatts, -⟩ := hrows
  have hid := (fetchAttempt_some hatt).2
  refine ⟨evolves_moved hitems (fun _ => rfl) hwi ?_ ?_, hs.moved hitems (fun _ => rfl) ?_⟩
  · exact fun j hj => attemptsOf_moved_other hatts (fun _ => rfl) hatt hj
  · have hlife : lifeOfItem t { wi with state := .committed, updatedAt := now } =
        (lifeOfItem s wi).committed (tryOf att).id ref := by
      simp only [lifeOfItem, Life.committed, Life.tried, attemptsOf_moved hatts fun _ => rfl, tryOf, hid]
      congr 1
      exact tries_updated fun _ => rfl
    rw [hlife]
    exact .committed _ _ _ (tryOf_mem hatt hwi) (hitem.trans hval.symm) hval
  · exact fun r hr => .inl (attempts_moved_keys hatts (fun _ => rfl) r hr)

theorem blockBudget_evolves {now : ℚ} {k reason : String} {s t : Database} {u : Unit}
    (h : blockBudget now k reason s = (.ok u, t)) (hs : Owned s) : Evolves ok s t ∧ Owned t := by
  obtain ⟨wi, hwi, hst, hrows⟩ := blockBudget_ok h
  simp only [workRows, Prod.mk.injEq] at hrows
  obtain ⟨hitems, hatts, -⟩ := hrows
  have hsame : ∀ j, attemptsOf t j = attemptsOf s j := by
    intro j
    simp only [attemptsOf, hatts]
  refine ⟨evolves_moved hitems (fun _ => rfl) hwi (fun j _ => hsame j) ?_,
    hs.moved hitems (fun _ => rfl) ?_⟩
  · have hlife : lifeOfItem t { wi with state := .blockedBudget, updatedAt := now } =
        (lifeOfItem s wi).blocked := by
      simp only [lifeOfItem, Life.blocked, hsame]
    rw [hlife]
    exact .blocked _ hst
  · intro r hr
    rw [hatts] at hr
    exact .inl ⟨r, hr, rfl⟩

theorem routedRow_workKey (now : ℚ) (target : WorkState) (r : WorkItemRow) :
    (routedRow now target r).workKey = r.workKey := by
  unfold routedRow
  split <;> rfl

/-- The rows that `fail` and a reclaim write are the end of a try. -/
theorem lifeOfItem_ended (now : ℚ) {s t : Database} {att : AttemptRow} {wi : WorkItemRow}
    {d target : WorkState} {g : AttemptRow → AttemptRow} {res : Option String → Option String}
    (hatts : t.attempts.rows = attemptsMoved s att.attemptId g)
    (hg : ∀ r, (g r).workKey = r.workKey)
    (htry : ∀ r, tryOf (g r) = ⟨r.attemptId, d, res r.resultObjectRef⟩) :
    lifeOfItem t (routedRow now target wi) = (lifeOfItem s wi).ended (tryOf att).id d res target := by
  have htries : (attemptsOf t wi.workKey).map tryOf = updated (fun x => x.id = att.attemptId)
      (fun x => { x with state := d, result := res x.result })
      ((attemptsOf s wi.workKey).map tryOf) := by
    rw [attemptsOf_moved hatts hg]
    exact tries_updated fun r => htry r
  unfold lifeOfItem Life.ended Life.tried
  rw [routedRow_workKey, htries]
  by_cases hp : target = .pending
  · simp only [routedRow, reopenRow, hp, if_true, tryOf]
    rfl
  · simp only [routedRow, hp, if_false, tryOf]
    rfl

theorem ended_evolves (d : WorkState) (res : Option String → Option String) {s t : Database} {now : ℚ}
    {att : AttemptRow} {wi : WorkItemRow} {target : WorkState} {g : AttemptRow → AttemptRow}
    (hatt : fetchAttempt s att.attemptId = some att) (hwi : fetchWorkItem s att.workKey = some wi)
    (hitems : t.workItems.rows = itemsMoved s att.workKey (routedRow now target))
    (hatts : t.attempts.rows = attemptsMoved s att.attemptId g)
    (hg : ∀ r, (g r).workKey = r.workKey)
    (htry : ∀ r, tryOf (g r) = ⟨r.attemptId, d, res r.resultObjectRef⟩)
    (hd : d ∈ dispositions) (hroute : (lifeOfItem s wi).Routes target)
    (hok : ok (lifeOfItem s wi) (tryOf att) target) (hs : Owned s) : Evolves ok s t ∧ Owned t := by
  have hkeep := routedRow_workKey now target
  refine ⟨evolves_moved hitems hkeep hwi ?_ ?_, hs.moved hitems hkeep ?_⟩
  · exact fun j hj => attemptsOf_moved_other hatts hg hatt hj
  · rw [lifeOfItem_ended now hatts hg htry]
    exact .ended _ _ _ _ _ (tryOf_mem hatt hwi) hd hroute hok
  · exact fun r hr => .inl (attempts_moved_keys hatts hg r hr)

theorem failTarget_routes (s : Database) (wi : WorkItemRow) (d : WorkState) :
    (lifeOfItem s wi).Routes (failTarget wi d) := by
  unfold failTarget
  split
  · rename_i h
    exact .inl ⟨rfl, h.2⟩
  · cases d <;> simp [failedAs, Life.Routes]

theorem reclaimTarget_routes (s : Database) (wi : WorkItemRow) :
    (lifeOfItem s wi).Routes (reclaimTarget wi) := by
  unfold reclaimTarget
  split
  · rename_i h
    exact .inl ⟨rfl, h.2⟩
  · split <;> simp [Life.Routes]

theorem fail_evolves {now : ℚ} {a err reason ref : String} {d : WorkState} {s t : Database}
    {att : AttemptRow} {wi : WorkItemRow} {v : WorkState} (hd : d ∈ dispositions)
    (hatt : fetchAttempt s a = some att) (hwi : fetchWorkItem s att.workKey = some wi)
    (hok : ok (lifeOfItem s wi) (tryOf att) (failTarget wi d))
    (h : fail now a d err reason ref s = (.ok v, t)) (hs : Owned s) : Evolves ok s t ∧ Owned t := by
  obtain ⟨t', ht', hrows⟩ := fail_rows now err reason ref hd hatt hwi
  rw [h] at ht'
  obtain ⟨-, rfl⟩ := Prod.mk.inj ht'
  simp only [workRows, Prod.mk.injEq] at hrows
  obtain ⟨hitems, hatts, -⟩ := hrows
  obtain ⟨hmem, rfl⟩ := fetchAttempt_some hatt
  exact ended_evolves d (fun r => if ref = "" then r else some ref) hatt hwi hitems hatts
    (fun _ => rfl) (fun _ => rfl) hd (failTarget_routes s wi d) hok hs

/-- One turn of the reclaim loop on an attempt that is still as it was selected. -/
theorem reclaim_evolves (clock now : ℚ) {s : Database} {att : AttemptRow}
    (hlive : ∀ l x target, Try.live x → ok l x target) (hmem : att ∈ s.attempts.rows)
    (hprog : att.state ∈ inProgress) (hs : Owned s) :
    ∃ r t, reclaim clock now att s = (.ok r, t) ∧ Evolves ok s t ∧ Owned t ∧
      t.attempts.rows = attemptsMoved s att.attemptId (expiredRow now) := by
  obtain ⟨wi, hwi⟩ := hs.item hmem
  obtain ⟨t, ht, hrows⟩ := reclaim_rows clock now hwi
  simp only [workRows, Prod.mk.injEq] at hrows
  obtain ⟨hitems, hatts, -⟩ := hrows
  have hev := ended_evolves .failedUnknown id (fetchAttempt_of_mem hmem) hwi
    hitems hatts (fun _ => rfl) (fun _ => rfl) (by simp [dispositions]) (reclaimTarget_routes s wi)
    (hlive _ _ _ (decide_eq_true hprog)) hs
  exact ⟨_, t, ht, hev.1, hev.2, hatts⟩

/-- The reclaim loop runs through and moves one life a turn. The attempts still to come
    are untouched rows, since no two share an id. -/
theorem reclaims_evolve (clock now : ℚ) (hlive : ∀ l x target, Try.live x → ok l x target)
    {atts : List AttemptRow} {s : Database} (hmem : ∀ att ∈ atts, att ∈ s.attempts.rows)
    (hprog : ∀ att ∈ atts, att.state ∈ inProgress) (hdistinct : (atts.map (·.attemptId)).Nodup)
    (hs : Owned s) :
    ∃ rs t, forEach (reclaim clock now) atts s = (.ok rs, t) ∧ Evolves ok s t ∧ Owned t := by
  induction atts generalizing s with
  | nil => exact ⟨[], s, rfl, .of_same fun _ => rfl, hs⟩
  | cons att atts ih =>
    simp only [List.map_cons, List.nodup_cons] at hdistinct
    obtain ⟨r, t, hrun, hev, ht, hatts⟩ := reclaim_evolves clock now hlive
      (hmem att (by simp)) (hprog att (by simp)) hs
    have hrest : ∀ b ∈ atts, b ∈ t.attempts.rows := by
      intro b hb
      rw [hatts]
      refine mem_updated.mpr ⟨b, hmem b (by simp [hb]), ?_⟩
      have hne : b.attemptId ≠ att.attemptId := fun e => hdistinct.1 (e ▸ List.mem_map_of_mem hb)
      simp [hne]
    obtain ⟨rs, u, hrun', hev', hu⟩ := ih hrest (fun b hb => hprog b (by simp [hb])) hdistinct.2 ht
    exact ⟨r :: rs, u, forEach_cons_ok.mpr ⟨r, rs, t, rfl, hrun, hrun'⟩, hev.trans hev', hu⟩

theorem staleAttempts_live {s : Database} {now : ℚ} {att : AttemptRow} (h : att ∈ staleAttempts s now) :
    att ∈ s.attempts.rows ∧ att.state ∈ inProgress := by
  obtain ⟨hmem, hp⟩ := List.mem_filter.mp h
  simp only [decide_eq_true_eq] at hp
  exact ⟨hmem, hp.1⟩

theorem reclaimStale_evolves (ok : Life String String → Try String String → WorkState → Prop)
    (clock : ℚ) (now : Option ℚ)
    (hlive : ∀ l x target, Try.live x → ok l x target) {s : Database} (hs : Owned s) :
    ∃ ks t, reclaimStale clock now s = (.ok ks, t) ∧ Evolves ok s t ∧ Owned t := by
  have hnodup : ((staleAttempts s (now.getD clock)).map (·.attemptId)).Nodup :=
    List.Nodup.sublist (List.Sublist.map _ List.filter_sublist) s.attempts.sound.1
  obtain ⟨rs, t, hrun, hev, ht⟩ := reclaims_evolve clock (now.getD clock) hlive
    (fun att h => (staleAttempts_live h).1) (fun att h => (staleAttempts_live h).2) hnodup hs
  refine ⟨rs.filterMap id, t, transaction_of_ok ?_, hev, ht⟩
  rw [getStore_bind, bind_of_ok hrun]
  rfl

/-! ## Every call -/

/-- What `ok` says of the failure that a call reports. -/
def Reports (ok : Life String String → Try String String → WorkState → Prop) (s : Database)
    (call : Call) : Prop :=
  match call.op with
  | .fail a d _ _ _ => d ∈ dispositions → ∀ att wi, fetchAttempt s a = some att →
      fetchWorkItem s att.workKey = some wi → ok (lifeOfItem s wi) (tryOf att) (failTarget wi d)
  | _ => True

theorem fail_ok {now : ℚ} {a err reason ref : String} {d v : WorkState} {s t : Database}
    (h : fail now a d err reason ref s = (.ok v, t)) :
    d ∈ dispositions ∧ ∃ att wi, fetchAttempt s a = some att ∧ fetchWorkItem s att.workKey = some wi := by
  unfold fail at h
  split at h
  · simp at h
  · rename_i hd
    obtain ⟨att, u, hreq, hafter⟩ := bind_ok.mp (transaction_ok.mp h)
    obtain ⟨hatt, rfl⟩ := requireAttempt_ok.mp hreq
    rw [getStore_bind] at hafter
    cases hwi : fetchWorkItem u att.workKey with
    | none => simp [hwi] at hafter
    | some wi => exact ⟨not_not.mp hd, att, wi, hatt, hwi⟩

theorem step_evolves (ok : Life String String → Try String String → WorkState → Prop) (ledger : Ledger) {s : Database} {call : Call} (hs : Owned s)
    (hlive : ∀ l x target, Try.live x → ok l x target) (hreports : Reports ok s call) :
    Evolves ok s (step ledger s call) ∧ Owned (step ledger s call) := by
  obtain ⟨clock, op⟩ := call
  have hsame : Evolves ok s s ∧ Owned s := same_of_workRows rfl hs
  let P : Database → Prop := fun t => Evolves ok s t ∧ Owned t
  cases op with
  | ensureWorkItem c side m => exact ensureWorkItem_evolves ledger clock c side m hs
  | claim k w lease runId =>
    exact (atomic_claim ledger clock k w lease runId).after_of (P := P) hsame fun _ _ h =>
      claim_evolves h hs
  | heartbeat a lease => exact heartbeat_evolves clock lease a hs
  | advance a target reason =>
    exact (atomic_advance clock a target reason).after_of (P := P) hsame fun _ _ h => advance_evolves h hs
  | commit a ref reason =>
    exact (atomic_commit clock a ref reason).after_of (P := P) hsame fun _ _ h => commit_evolves h hs
  | fail a d err reason ref =>
    refine (atomic_fail clock a d err reason ref).after_of (P := P) hsame fun _ _ h => ?_
    obtain ⟨hd, att, wi, hatt, hwi⟩ := fail_ok h
    exact fail_evolves hd hatt hwi (hreports hd att wi hatt hwi) h hs
  | blockBudget k reason =>
    exact (atomic_blockBudget clock k reason).after_of (P := P) hsame fun _ _ h => blockBudget_evolves h hs
  | reclaimStale now =>
    obtain ⟨ks, t, hrun, hev, ht⟩ := reclaimStale_evolves ok clock now hlive hs
    have hstep : step ledger s ⟨clock, .reclaimStale now⟩ = t := after_of_ok hrun
    rw [hstep]
    exact ⟨hev, ht⟩

end Shapeflow.WorkLedger
