import Shapeflow.Coordinator
import Shapeflow.WorkLedgerAttempts

set_option autoImplicit false

/-!
# One turn of the coordinator

A turn on a pending item adds one attempt and moves the one item. Only the
commit can raise, and does exactly when the item has a committed attempt already.
-/
namespace Shapeflow
namespace Coordinator
open Script Database Table WorkLedger

variable {Raw : Type}

/-- Since `s`, item `k` has moved to `target` and got the new attempt `row`. -/
structure Took (ids : DerivedIds) (s t : Database) (k : String) (target : WorkState)
    (row : AttemptRow) : Prop where
  items : ∃ now, t.workItems.rows = itemsMoved s k (routedRow now target)
  attempts : t.attempts.rows = s.attempts.rows ++ [row]
  new : ∀ r ∈ s.attempts.rows, r.attemptId ≠ row.attemptId
  key : row.workKey = k
  derived : row.attemptId = ids.attempt k row.attemptOrdinal

/-- Distinct attempts have distinct derived ids. -/
def AttemptIdsDistinct (ids : DerivedIds) : Prop :=
  ∀ k n k' n', ids.attempt k n = ids.attempt k' n' → k = k' ∧ n = n'

theorem routedRow_of_ne {target : WorkState} (h : target ≠ .pending) (now : ℚ) :
    routedRow now target = fun r => { r with state := target, updatedAt := now } := by
  funext r
  exact if_neg h

theorem routedRow_routedRow {first : WorkState} (h : first ≠ .pending) (now then_ : ℚ)
    (target : WorkState) (r : WorkItemRow) :
    routedRow then_ target (routedRow now first r) = routedRow then_ target r := by
  rw [routedRow_of_ne h]
  unfold routedRow reopenRow
  split <;> rfl

section
variable {ids : DerivedIds} {s t u : Database} {k : String} {st target : WorkState} {row : AttemptRow}
  {wi : WorkItemRow}

theorem Took.fetchAttempt (h : Took ids s t k st row) : fetchAttempt t row.attemptId = some row := by
  refine fetchAttempt_of_mem ?_
  rw [h.attempts]
  simp

theorem Took.fetchItem (h : Took ids s t k st row) (hwi : fetchWorkItem s k = some wi) :
    ∃ now, fetchWorkItem t k = some (routedRow now st wi) := by
  obtain ⟨now, hitems⟩ := h.items
  refine ⟨now, ?_⟩
  have hkey := (fetchWorkItem_some hwi).2
  simp [fetchWorkItem_moved hitems (routedRow_workKey now st), hwi, hkey]

theorem Took.fetchOther (h : Took ids s t k st row) {j : String} (hj : j ≠ k) :
    fetchWorkItem t j = fetchWorkItem s j := by
  obtain ⟨now, hitems⟩ := h.items
  rw [fetchWorkItem_moved hitems (routedRow_workKey now st)]
  cases hr : fetchWorkItem s j with
  | none => rfl
  | some r =>
    have hrk : r.workKey ≠ k := fun e => hj ((fetchWorkItem_some hr).2.symm.trans e)
    simp only [Option.map_some, hrk, if_false]

/-- Moving the item and its new attempt on. -/
theorem Took.andThen (h : Took ids s t k st row) (hst : st ≠ .pending) {g : AttemptRow → AttemptRow}
    (hitems : ∃ now, u.workItems.rows = itemsMoved t k (routedRow now target))
    (hatts : u.attempts.rows = attemptsMoved t row.attemptId g)
    (hg : ∀ r, (g r).attemptId = r.attemptId ∧ (g r).workKey = r.workKey ∧
      (g r).attemptOrdinal = r.attemptOrdinal) : Took ids s u k target (g row) := by
  obtain ⟨now, hfirst⟩ := h.items
  obtain ⟨then_, hsecond⟩ := hitems
  obtain ⟨hid, hkey, hord⟩ := hg row
  refine ⟨⟨then_, ?_⟩, ?_, ?_, hkey.trans h.key, ?_⟩
  · rw [hsecond]
    unfold itemsMoved
    rw [hfirst, itemsMoved, updated_updated fun r => by rw [routedRow_workKey]]
    simp only [routedRow_routedRow hst]
  · rw [hatts]
    unfold attemptsMoved
    rw [h.attempts, updated, List.map_append]
    congr 1
    · exact updated_eq_self fun r hr => decide_eq_false (h.new r hr)
    · simp
  · rw [hid]
    exact h.new
  · rw [hid, hord]
    exact h.derived

/-- Writing another table changes nothing here. -/
theorem Took.of_workRows (h : Took ids s t k st row) (hu : workRows u = workRows t) :
    Took ids s u k st row := by
  simp only [workRows, Prod.mk.injEq] at hu
  obtain ⟨hitems, hatts, -⟩ := hu
  obtain ⟨now, hmoved⟩ := h.items
  exact ⟨⟨now, hitems.trans hmoved⟩, hatts.trans h.attempts, h.new, h.key, h.derived⟩

theorem registerArtifact_took (h : Took ids s t k st row) (now : ℚ) (ref kind : String) (m n : ℕ)
    (key : Option String) :
    ∃ u, registerArtifact now ref kind m n key t = (.ok (), u) ∧ Took ids s u k st row := by
  obtain ⟨u, hu, hrows⟩ := Slot.insertOrIgnore_run (ε := Raised) artifactsSlot
    ⟨ref, kind, m, n, key, now⟩ t
  refine ⟨u, transaction_of_ok hu, h.of_workRows ?_⟩
  rcases hrows with rfl | ⟨hkeys, rfl⟩
  · rfl
  · rfl

theorem recordIncident_took (h : Took ids s t k st row) (now : ℚ) (severity kind detail : String)
    (key : Option String) :
    ∃ u, recordIncident now severity kind detail key t = (.ok (), u) ∧ Took ids s u k st row :=
  ⟨_, transaction_of_ok (Slot.insert_of_schema _ _ trivial), h.of_workRows rfl⟩

theorem claim_took {ledger : Ledger} (hids : AttemptIdsDistinct ledger.ids)
    (hderived : IdsDerived ledger.ids s) (hwi : fetchWorkItem s k = some wi) (hst : wi.state = .pending)
    (now lease : ℚ) (worker runId : String) :
    ∃ a t row, claim ledger now k worker lease runId s = (.ok (some a), t) ∧
      a.attemptId = row.attemptId ∧ row.state = .claimed ∧ Took ledger.ids s t k .claimed row := by
  have hfree : WorkLedger.fetchAttempt s (ledger.ids.attempt k (nextOrdinal s k)) = none := by
    refine List.find?_eq_none.mpr fun r hr hid => ?_
    rw [decide_eq_true_eq, hderived r hr] at hid
    obtain ⟨hk, hn⟩ := hids _ _ _ _ hid
    have hlt := ordinal_lt_next hr hk
    omega
  obtain ⟨t, ht⟩ := claim_run ledger now lease worker runId hwi hst hfree
  refine ⟨_, t, claimedRow ledger s now k worker lease runId, ht, rfl, rfl, ?_⟩
  rcases claim_ok ht with ⟨hnone, -⟩ | ⟨wi', hwi', -, -, -, hrows⟩
  · cases hnone
  · simp only [workRows, claimRows, Prod.mk.injEq] at hrows
    refine ⟨⟨now, ?_⟩, hrows.2.1, ?_, rfl, rfl⟩
    · rw [routedRow_of_ne (by simp)]
      exact hrows.1
    · intro r hr hid
      exact List.find?_eq_none.mp hfree r hr (decide_eq_true hid)

theorem advance_took (target : WorkState) (h : Took ids s t k st row) (hwi : fetchWorkItem s k = some wi)
    (hrow : row.state = st) (hst : st ≠ .pending) (hlegal : target ∈ legal st)
    (htarget : target ∈ [WorkState.materialized, .validated]) (now : ℚ) :
    ∃ u, advance now row.attemptId target "" t = (.ok (), u) ∧
      Took ids s u k target (advancedRow target row) := by
  obtain ⟨then_, hitem⟩ := h.fetchItem hwi
  have hsame : (routedRow then_ st wi).state = row.state := by
    rw [routedRow_of_ne hst, hrow]
  rw [← h.key] at hitem
  obtain ⟨u, hu⟩ := advance_run now "" h.fetchAttempt hitem hsame
    (hrow ▸ hlegal) htarget
  refine ⟨u, hu, ?_⟩
  obtain ⟨att, wi', hatt, -, -, -, -, hrows⟩ := advance_ok hu
  rw [h.fetchAttempt] at hatt
  obtain rfl := Option.some.inj hatt
  simp only [workRows, Prod.mk.injEq] at hrows
  have hne : target ≠ .pending := by
    rintro rfl
    simp at htarget
  refine h.andThen (g := advancedRow target) hst ⟨now, ?_⟩ hrows.2.1
    fun _ => ⟨rfl, rfl, rfl⟩
  rw [routedRow_of_ne hne, ← h.key]
  exact hrows.1

theorem commit_took (h : Took ids s t k .validated row) (hwi : fetchWorkItem s k = some wi)
    (hrow : row.state = .validated)
    (hclear : ∀ r ∈ s.attempts.rows, r.workKey = k → r.state ≠ .committed) (now : ℚ) (ref : String) :
    ∃ u, commit now row.attemptId ref "" t = (.ok (), u) ∧
      Took ids s u k .committed (committedRow now ref row) := by
  obtain ⟨then_, hitem⟩ := h.fetchItem hwi
  rw [← h.key] at hitem
  have hone : ∀ r ∈ t.attempts.rows, r.workKey = row.workKey → r.state ≠ .committed := by
    intro r hr hk
    rw [h.attempts] at hr
    rcases List.mem_append.mp hr with hin | hin
    · exact hclear r hin (hk.trans h.key)
    · rw [List.mem_singleton.mp hin, hrow]
      simp
  obtain ⟨u, hu⟩ := commit_run now ref "" h.fetchAttempt hitem hrow
    (by rw [routedRow_of_ne (by simp)]) hone
  refine ⟨u, hu, ?_⟩
  obtain ⟨att, wi', hatt, -, -, -, hrows⟩ := commit_ok hu
  rw [h.fetchAttempt] at hatt
  obtain rfl := Option.some.inj hatt
  simp only [workRows, Prod.mk.injEq] at hrows
  refine h.andThen (g := committedRow now ref) (by simp) ⟨now, ?_⟩ hrows.2.1 fun _ => ⟨rfl, rfl, rfl⟩
  rw [routedRow_of_ne (by simp), ← h.key]
  exact hrows.1

/-- The index `ux_one_commit` refuses a second committed attempt. -/
theorem commit_refused (h : Took ids s t k .validated row) (hwi : fetchWorkItem s k = some wi)
    (hrow : row.state = .validated)
    (htwice : ∃ r ∈ s.attempts.rows, r.workKey = k ∧ r.state = .committed) (now : ℚ) (ref : String) :
    ∃ message v, commit now row.attemptId ref "" t = (.error (.ledgerError message), v) := by
  obtain ⟨r, hr, hrk, hrc⟩ := htwice
  obtain ⟨then_, hitem⟩ := h.fetchItem hwi
  rw [← h.key] at hitem
  obtain ⟨u, hu⟩ := setState_run now .validated .committed (orElse "" "commit")
    (by simp [legal]) hitem (by rw [routedRow_of_ne (by simp)])
  have hrows : u.attempts.rows = s.attempts.rows ++ [row] := by
    have hset := (setState_ok hu).2.2
    simp only [workRows, Prod.mk.injEq] at hset
    exact hset.2.1.trans h.attempts
  have hmoved : attemptsMoved u row.attemptId (committedRow now ref) =
      s.attempts.rows ++ [committedRow now ref row] := by
    unfold attemptsMoved
    rw [hrows, updated, List.map_append]
    congr 1
    · exact updated_eq_self fun q hq => decide_eq_false (h.new q hq)
    · simp
  have hbroken : ¬ AttemptKeys (attemptsMoved u row.attemptId (committedRow now ref)) := by
    rintro ⟨-, -, hone⟩
    rw [hmoved, List.filter_append, List.map_append, List.nodup_append] at hone
    refine hone.2.2 k (List.mem_map.mpr ⟨r, List.mem_filter.mpr ⟨hr, by simp [hrc]⟩, hrk⟩) k ?_ rfl
    simp [committedRow, h.key]
  have hupd := Slot.update_of_not_schema attemptsSlot
    (Raised.ledgerError s!"work item {row.workKey} already has a committed attempt") hbroken
  have hreq : requireAttempt row.attemptId t = (.ok row, t) := requireAttempt_ok.mpr ⟨h.fetchAttempt, rfl⟩
  refine ⟨s!"work item {row.workKey} already has a committed attempt", t,
    transaction_of_error (t := u) ((bind_of_ok hreq).trans ?_)⟩
  refine (congrFun (if_neg (not_not.mpr hrow)) t).trans ?_
  exact (bind_of_ok hu).trans (bind_of_error hupd)

theorem fail_took (h : Took ids s t k st row) (hwi : fetchWorkItem s k = some wi) (hst : st ≠ .pending)
    {d : WorkState} (hd : d ∈ dispositions) (now : ℚ) (err reason : String) (ref : String := "") :
    ∃ u, fail now row.attemptId d err reason ref t = (.ok (failTarget wi d), u) ∧
      Took ids s u k (failTarget wi d) (failedRow now d err ref row) := by
  obtain ⟨then_, hitem⟩ := h.fetchItem hwi
  rw [← h.key] at hitem
  obtain ⟨u, hu, hrows⟩ := fail_rows now err reason ref
    hd h.fetchAttempt hitem
  have hsame : failTarget (routedRow then_ st wi) d = failTarget wi d := by
    rw [routedRow_of_ne hst]
    rfl
  rw [hsame] at hu hrows
  simp only [workRows, Prod.mk.injEq] at hrows
  refine ⟨u, hu, h.andThen hst ⟨now, ?_⟩ hrows.2.1 fun _ => ⟨rfl, rfl, rfl⟩⟩
  rw [← h.key]
  exact hrows.1

end

/-! ## The body of the turn -/

/-- The callables accept every item. -/
def Accepting (c : Coordinator Raw) : Prop :=
  (∀ turn item, ∃ raw, c.executor turn item = .returned raw) ∧ c.validator = none

/-- An exception that `_process` routes itself. -/
def Routed (e : Raised) : Prop :=
  ∃ errorClass message, e = .retryableError errorClass message ∨ e = .fatalProtocolError errorClass message

theorem invoke_cases {α : Type} (o : Outcome α) :
    (∃ value, o = .returned value ∧ invoke o = pure value) ∨
      ∃ e, Routed e ∧ (∀ value, o ≠ .returned value) ∧ invoke o = raise e := by
  cases o with
  | returned value => exact .inl ⟨value, rfl, rfl⟩
  | retryable errorClass message =>
    exact .inr ⟨_, ⟨errorClass, message, .inl rfl⟩, by simp, rfl⟩
  | fatal errorClass message =>
    exact .inr ⟨_, ⟨errorClass, message, .inr rfl⟩, by simp, rfl⟩

theorem validate_cases (c : Coordinator Raw) (turn : ℕ) (item : WorkItemRow) (raw : Raw) :
    validate c turn item raw = pure () ∨
      ∃ e, Routed e ∧ ¬ Accepting c ∧ validate c turn item raw = raise e := by
  unfold validate
  cases hv : c.validator with
  | none => exact .inl rfl
  | some validator =>
    rcases invoke_cases (validator turn item raw) with ⟨value, -, h⟩ | ⟨e, he, -, h⟩
    · exact .inl h
    · refine .inr ⟨e, he, ?_, h⟩
      rintro ⟨-, hnone⟩
      rw [hv] at hnone
      cases hnone

section
variable {s t : Database} {k : String} {row : AttemptRow} {wi : WorkItemRow}

/-- The body up to the commit: either one of the callables raised, or the commit is next. -/
theorem attemptItem_before_commit (c : Coordinator Raw) (turn : ℕ) (item : WorkItemRow)
    (summary : RunSummary) (h : Took c.ledger.ids s t k .claimed row)
    (hwi : fetchWorkItem s k = some wi) (hrow : row.state = .claimed) :
    (∃ e u st row', attemptItem c turn k item row.attemptId summary t = (.error e, u) ∧ Routed e ∧
      ¬ Accepting c ∧ st ≠ .pending ∧ row'.attemptId = row.attemptId ∧
      Took c.ledger.ids s u k st row') ∨
    ∃ u row' ref, row'.attemptId = row.attemptId ∧ row'.state = .validated ∧
      Took c.ledger.ids s u k .validated row' ∧
      attemptItem c turn k item row.attemptId summary t =
        (commit (c.now turn 5) row'.attemptId ref >>= fun _ =>
          (pure { summary with committed := summary.committed + 1 } : Db RunSummary)) u := by
  unfold attemptItem
  rcases invoke_cases (c.executor turn item) with ⟨raw, -, hexec⟩ | ⟨e, he, hnot, hexec⟩
  · obtain ⟨t₁, hreg, h₁⟩ := registerArtifact_took h (c.now turn 2) (c.putBytes turn raw).key
      "work_output" (c.putBytes turn raw).rawSize (c.putBytes turn raw).storedSize (some k)
    obtain ⟨t₂, hadv, h₂⟩ := advance_took .materialized h₁ hwi hrow (by simp)
      (by simp [legal]) (by simp) (c.now turn 3)
    obtain ⟨t₃, hadv', h₃⟩ := advance_took .validated h₂ hwi rfl (by simp)
      (by simp [legal]) (by simp) (c.now turn 4)
    have hstart : ∀ {α : Type} (rest : Raw → Db α), (invoke (c.executor turn item) >>= rest) t = rest raw t := by
      intro α rest
      rw [hexec]
      rfl
    rw [hstart, bind_of_ok hreg, bind_of_ok hadv]
    rcases validate_cases c turn item raw with hval | ⟨e, he, hnot, hval⟩
    · refine .inr ⟨t₃, advancedRow .validated (advancedRow .materialized row), (c.putBytes turn raw).key,
        rfl, rfl, h₃, ?_⟩
      have hok : validate c turn item raw t₂ = (.ok (), t₂) := by
        rw [hval]
        rfl
      refine (bind_of_ok (x := validate c turn item raw) hok).trans ?_
      exact bind_of_ok hadv'
    · refine .inl ⟨e, t₂, .materialized, advancedRow .materialized row, ?_, he, hnot, by simp, rfl, h₂⟩
      have herr : validate c turn item raw t₂ = (.error e, t₂) := by
        rw [hval]
        rfl
      exact bind_of_error (x := validate c turn item raw) herr
  · refine .inl ⟨e, t, .claimed, row, ?_, he, ?_, by simp, rfl, h⟩
    · rw [hexec]
      rfl
    · intro hacc
      obtain ⟨raw, hraw⟩ := hacc.1 turn item
      exact hnot raw hraw

/-- What a turn on a pending item without a committed attempt comes to. -/
inductive TurnResult (wi : WorkItemRow) (summary summary' : RunSummary) (accepting : Prop) :
    WorkState → AttemptRow → Prop
  | committed (row : AttemptRow) (hrow : row.state = .committed)
      (hsummary : summary' = { summary with committed := summary.committed + 1 }) :
      TurnResult wi summary summary' accepting .committed row
  | failed (target : WorkState) (row : AttemptRow) (hrow : row.state ≠ .committed)
      (htarget : target = .failedFinal ∨ target = .pending ∧ retriesLeft wi)
      (hevents : summary.events < summary'.events) (hcommitted : summary'.committed = summary.committed)
      (hnot : ¬ accepting) : TurnResult wi summary summary' accepting target row

theorem handled_turn (c : Coordinator Raw) (turn : ℕ) (summary : RunSummary) {st : WorkState} {e : Raised}
    (h : Took c.ledger.ids s t k st row) (hwi : fetchWorkItem s k = some wi) (hst : st ≠ .pending)
    (he : Routed e) (hnot : ¬ Accepting c) :
    ∃ handler summary' u target row', handleFailure c turn k row.attemptId summary e = some handler ∧
      handler t = (.ok summary', u) ∧ Took c.ledger.ids s u k target row' ∧
      TurnResult wi summary summary' (Accepting c) target row' := by
  obtain ⟨errorClass, message, rfl | rfl⟩ := he
  · obtain ⟨u, hu, hu'⟩ := fail_took h hwi hst (d := .failedRetryable) (by simp [dispositions])
      (c.now turn 6) errorClass message
    refine ⟨_, _, u, failTarget wi .failedRetryable, _, rfl, bind_of_ok hu, hu', ?_⟩
    refine .failed _ _ (by simp [failedRow]) ?_ ?_ rfl hnot
    · by_cases hr : retriesLeft wi
      · exact .inr ⟨if_pos ⟨rfl, hr⟩, hr⟩
      · exact .inl (if_neg fun hcon => hr hcon.2)
    · simp only [RunSummary.events]
      split <;> omega
  · obtain ⟨u, hu, hu'⟩ := fail_took h hwi hst (d := .failedFinal) (by simp [dispositions])
      (c.now turn 6) errorClass message
    obtain ⟨v, hv, hv'⟩ := recordIncident_took hu' (c.now turn 7) "fatal" "protocol_error" message (some k)
    refine ⟨_, _, v, failTarget wi .failedFinal, _, rfl, (bind_of_ok hu).trans (bind_of_ok hv), hv', ?_⟩
    refine .failed _ _ (by simp [failedRow]) (.inl ?_) ?_ rfl hnot
    · exact if_neg (by simp)
    · simp only [RunSummary.events]
      omega

theorem process_start (c : Coordinator Raw) (turn : ℕ) (summary : RunSummary)
    (hids : AttemptIdsDistinct c.ledger.ids) (hderived : IdsDerived c.ledger.ids s)
    (hwi : fetchWorkItem s k = some wi) (hst : wi.state = .pending) :
    ∃ t row, Took c.ledger.ids s t k .claimed row ∧ row.state = .claimed ∧
      process c turn k summary s = catching (attemptItem c turn k wi row.attemptId summary)
        (handleFailure c turn k row.attemptId summary) t := by
  obtain ⟨a, t, row, hclaim, hid, hrow, htook⟩ := claim_took hids hderived hwi hst (c.now turn 1)
    c.lease c.workerId ""
  refine ⟨t, row, htook, hrow, ?_⟩
  unfold process
  rw [getStore_bind, hwi]
  refine (congrFun (if_neg (not_not.mpr hst)) s).trans ((bind_of_ok hclaim).trans ?_)
  rw [← hid]

theorem process_turn (c : Coordinator Raw) (turn : ℕ) (summary : RunSummary)
    (hids : AttemptIdsDistinct c.ledger.ids) (hderived : IdsDerived c.ledger.ids s)
    (hwi : fetchWorkItem s k = some wi) (hst : wi.state = .pending)
    (hclear : ∀ r ∈ s.attempts.rows, r.workKey = k → r.state ≠ .committed) :
    ∃ summary' t target row, process c turn k summary s = (.ok summary', t) ∧
      Took c.ledger.ids s t k target row ∧ TurnResult wi summary summary' (Accepting c) target row := by
  obtain ⟨t, row, htook, hrow, hprocess⟩ := process_start c turn summary hids hderived hwi hst
  rw [hprocess]
  rcases attemptItem_before_commit c turn wi summary htook hwi hrow with
    ⟨e, u, st, row', hrun, he, hnot, hst', hid, hu⟩ | ⟨u, row', ref, hid, hrow', hu, hrun⟩
  · obtain ⟨handler, summary', v, target, row'', hh, hv, hv', hres⟩ :=
      handled_turn c turn summary hu hwi hst' he hnot
    rw [hid] at hh
    refine ⟨summary', v, target, row'', ?_, hv', hres⟩
    simp only [catching, hrun, hh, hv]
  · obtain ⟨v, hv, hv'⟩ := commit_took hu hwi hrow' hclear (c.now turn 5) ref
    rw [bind_of_ok hv] at hrun
    refine ⟨_, v, .committed, _, ?_, hv', .committed _ rfl rfl⟩
    simp only [catching, hrun, pure_run]

/-- An accepting coordinator raises on an item that has a committed attempt. -/
theorem process_refused (c : Coordinator Raw) (turn : ℕ) (summary : RunSummary)
    (hids : AttemptIdsDistinct c.ledger.ids) (hderived : IdsDerived c.ledger.ids s)
    (hwi : fetchWorkItem s k = some wi) (hst : wi.state = .pending) (hacc : Accepting c)
    (htwice : ∃ r ∈ s.attempts.rows, r.workKey = k ∧ r.state = .committed)
    (summary' : RunSummary) (v : Database) : process c turn k summary s ≠ (.ok summary', v) := by
  obtain ⟨t, row, htook, hrow, hprocess⟩ := process_start c turn summary hids hderived hwi hst
  rw [hprocess]
  rcases attemptItem_before_commit c turn wi summary htook hwi hrow with
    ⟨e, u, st, row', -, -, hnot, -⟩ | ⟨u, row', ref, -, hrow', hu, hrun⟩
  · exact absurd hacc hnot
  · obtain ⟨message, w, hcommit⟩ := commit_refused hu hwi hrow' htwice (c.now turn 5) ref
    rw [bind_of_error hcommit] at hrun
    simp only [catching, hrun, handleFailure]
    simp

end

end Coordinator
end Shapeflow
