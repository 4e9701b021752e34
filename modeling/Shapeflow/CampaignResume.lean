import Shapeflow.CampaignCell

set_option autoImplicit false

/-!
# What a resumed run redoes

`cell_states` judges a cell by its verified blob, the execution of a cell by the
state of its work item. A run settles every owned cell exactly when the two
agree on what is left, and what is left can be recorded.
-/
namespace Shapeflow.Campaign
open Script Database WorkLedger Coordinator ObjectStore

section
variable {β γ α : Type} {r : CampaignRunner β γ} {s t u : Lane β} {k : String}

/-! ## Lanes that agree on an item -/

/-- The item `k`, its attempts and its epoch are the same in both lanes. -/
structure Untouched (s t : Lane β) (k : String) : Prop where
  item : fetchWorkItem t.database k = fetchWorkItem s.database k
  attempts : (t.database.attempts.rows.filter fun q => q.workKey = k) =
    s.database.attempts.rows.filter fun q => q.workKey = k
  epoch : t.cellEpochs.get? k = s.cellEpochs.get? k

theorem Untouched.refl (s : Lane β) (k : String) : Untouched s s k := ⟨rfl, rfl, rfl⟩

theorem Untouched.trans (h : Untouched s t k) (h' : Untouched t u k) : Untouched s u k :=
  ⟨h'.item.trans h.item, h'.attempts.trans h.attempts, h'.epoch.trans h.epoch⟩

theorem Untouched.mem_iff (h : Untouched s t k) {q : AttemptRow} (hq : q.workKey = k) :
    q ∈ t.database.attempts.rows ↔ q ∈ s.database.attempts.rows := by
  have hmem : q ∈ (t.database.attempts.rows.filter fun q => q.workKey = k) ↔
      q ∈ s.database.attempts.rows.filter fun q => q.workKey = k := by rw [h.attempts]
  simpa [List.mem_filter, hq] using hmem

theorem committedRef_filter (s : Database) (k : String) :
    committedRef s k =
      ((s.attempts.rows.filter fun q => q.workKey = k).find? fun q => q.state = .committed).bind
        (·.resultObjectRef) := by
  have hfind : (s.attempts.rows.filter fun q => q.workKey = k).find? (fun q => q.state = .committed) =
      s.attempts.rows.find? fun q => q.workKey = k ∧ q.state = .committed := by
    rw [List.find?_filter]
    congr 1
    funext q
    simp
  rw [hfind]
  unfold committedRef
  cases s.attempts.rows.find? fun q => q.workKey = k ∧ q.state = .committed with
  | none => rfl
  | some q => rfl

theorem Untouched.committedRef (h : Untouched s t k) :
    WorkLedger.committedRef t.database k = WorkLedger.committedRef s.database k := by
  rw [committedRef_filter, committedRef_filter, h.attempts]

theorem Untouched.committedBefore_iff (h : Untouched s t k) :
    CommittedBefore t.database k ↔ CommittedBefore s.database k := by
  constructor
  · rintro ⟨q, hq, hk, hc⟩
    exact ⟨q, (h.mem_iff hk).mp hq, hk, hc⟩
  · rintro ⟨q, hq, hk, hc⟩
    exact ⟨q, (h.mem_iff hk).mpr hq, hk, hc⟩

/-- An execution leaves the other items alone. -/
theorem Ran.untouched {st : WorkState} {row : AttemptRow} (h : Ran r s t k st row) {j : String}
    (hj : j ≠ k) : Untouched s t j := by
  refine ⟨h.took.fetchOther hj, ?_, h.epochs j hj⟩
  rw [h.took.attempts, List.filter_append]
  have hrow : ([row].filter fun q => q.workKey = j) = [] := by
    apply List.filter_eq_nil_iff.mpr
    intro q hq hqj
    rw [List.mem_singleton.mp hq, decide_eq_true_eq, h.took.key] at hqj
    exact hj hqj.symm
  rw [hrow, List.append_nil]

/-! ## Cells that are done -/

/-- `cell_states` reports a terminal state for the item. -/
def Finished (r : CampaignRunner β γ) (s : Lane β) (k : String) : Prop :=
  ∃ state, reported r s k = .ok state ∧ state ∈ terminalStates

/-- The item failed terminally, or is committed with a blob that verifies. -/
def Settled (r : CampaignRunner β γ) (s : Lane β) (k : String) : Prop :=
  ∃ item, fetchWorkItem s.database k = some item ∧
    (item.state ∈ [WorkState.failedFinal, .failedUnknown, .blockedBudget] ∨
      item.state = .committed ∧
        ∃ ref, committedRef s.database k = some ref ∧ Verifies r.hash s.objects ref)

theorem verifies_ne_empty {hash : β → String} {objects : ObjectStore β} {ref : String}
    (h : Verifies hash objects ref) : ref ≠ "" := by
  obtain ⟨raw, hraw⟩ := h
  obtain ⟨hkey, -, -⟩ := getBytes_ok.mp hraw
  rintro rfl
  simp [isKey] at hkey

theorem reported_of_item {item : WorkItemRow} (h : fetchWorkItem s.database k = some item)
    (hne : item.state ≠ .committed) : reported r s k = .ok item.state := by
  unfold reported
  rw [h]
  exact if_neg hne

theorem reported_of_none (h : fetchWorkItem s.database k = none) : reported r s k = .ok .pending := by
  unfold reported
  rw [h]

theorem reported_committed {item : WorkItemRow} (h : fetchWorkItem s.database k = some item)
    (hc : item.state = .committed) :
    reported r s k = .ok .committed ↔
      ∃ ref, committedRef s.database k = some ref ∧ Verifies r.hash s.objects ref := by
  unfold reported
  simp only [h, if_pos hc]
  cases href : committedRef s.database k with
  | none => simp
  | some ref =>
    simp only [Option.some.injEq, exists_eq_left']
    by_cases hempty : ref = ""
    · simp only [if_pos hempty]
      constructor
      · intro hcon
        cases hcon
      · intro hv
        exact absurd hempty (verifies_ne_empty hv)
    · simp only [if_neg hempty, ← verify_true]
      cases hverify : s.objects.verify r.hash ref with
      | error e => simp
      | ok b => cases b <;> simp

/-- The reported state of a committed item is COMMITTED or PENDING. -/
theorem reported_committed_cases {item : WorkItemRow} {state : WorkState}
    (h : fetchWorkItem s.database k = some item) (hc : item.state = .committed)
    (hrep : reported r s k = .ok state) : state = .committed ∨ state = .pending := by
  unfold reported at hrep
  simp only [h, if_pos hc] at hrep
  split at hrep
  · cases hrep
    exact .inr rfl
  · split at hrep
    · cases hrep
      exact .inr rfl
    · split at hrep
      · cases hrep
        exact .inl rfl
      · cases hrep
        exact .inr rfl
      · cases hrep

theorem finished_iff_settled : Finished r s k ↔ Settled r s k := by
  constructor
  · rintro ⟨state, hrep, hterminal⟩
    cases hitem : fetchWorkItem s.database k with
    | none =>
      rw [reported_of_none hitem] at hrep
      cases hrep
      simp [terminalStates] at hterminal
    | some item =>
      refine ⟨item, hitem, ?_⟩
      by_cases hc : item.state = .committed
      · rcases reported_committed_cases hitem hc hrep with rfl | rfl
        · exact .inr ⟨hc, (reported_committed hitem hc).mp hrep⟩
        · simp [terminalStates] at hterminal
      · rw [reported_of_item hitem hc] at hrep
        cases hrep
        left
        simp only [terminalStates, List.mem_cons, List.not_mem_nil, or_false] at hterminal ⊢
        rcases hterminal with h | h | h | h
        · exact absurd h hc
        · exact .inl h
        · exact .inr (.inl h)
        · exact .inr (.inr h)
  · rintro ⟨item, hitem, hfailed | ⟨hc, hv⟩⟩
    · have hne : item.state ≠ .committed := by
        intro hc
        rw [hc] at hfailed
        simp at hfailed
      refine ⟨item.state, reported_of_item hitem hne, ?_⟩
      simp only [terminalStates, List.mem_cons, List.not_mem_nil, or_false] at hfailed ⊢
      exact .inr hfailed
    · exact ⟨.committed, (reported_committed hitem hc).mpr hv, by simp [terminalStates]⟩

theorem Settled.mono (h : Settled r s k) (hsame : Untouched s t k)
    (hgrown : Grown r.hash s.objects t.objects) : Settled r t k := by
  obtain ⟨item, hitem, hcase⟩ := h
  refine ⟨item, hsame.item.trans hitem, ?_⟩
  rcases hcase with hfailed | ⟨hc, ref, href, hv⟩
  · exact .inl hfailed
  · exact .inr ⟨hc, ref, hsame.committedRef.trans href, hgrown.verifies hv⟩

/-! ## Cells that can be redone -/

/-- What an execution of the cell needs to end it: a question, an engine epoch that may be recorded,
    a pending item and, if its run is going to be committed, no committed attempt and no damaged
    file where its output goes. -/
structure Redoable (r : CampaignRunner β γ) (world : Cell → CellWorld β γ)
    (questions : String → Option String) (phaseId split : String) (s : Lane β) (cell : Cell) : Prop where
  question : (questions cell.taskId).isSome
  pending : ∀ item, fetchWorkItem s.database (workKeyOf r phaseId split cell) = some item →
    item.state = .pending
  epoch : ∃ start, (world cell).startEpoch = some start ∧
    EpochFree s (workKeyOf r phaseId split cell) (world cell) start ∧
    ∀ result, committing r (world cell) start = some result →
      ¬ CommittedBefore s.database (workKeyOf r phaseId split cell) ∧
      ¬ Damaged r.hash s.objects
        (r.hash (outputBytes r (world cell) phaseId (workKeyOf r phaseId split cell) start cell result))

variable {world : Cell → CellWorld β γ} {questions : String → Option String} {phaseId split : String}
  {cell : Cell}

theorem Redoable.of_untouched (h : Redoable r world questions phaseId split s cell)
    (hsame : Untouched s t (workKeyOf r phaseId split cell))
    (hdamage : ∀ key, Damaged r.hash t.objects key → Damaged r.hash s.objects key) :
    Redoable r world questions phaseId split t cell := by
  obtain ⟨start, hstart, hfree, hcommit⟩ := h.epoch
  refine ⟨h.question, ?_, start, hstart, ?_, ?_⟩
  · intro item hitem
    exact h.pending item (hsame.item.symm.trans hitem)
  · unfold EpochFree
    rw [hsame.epoch]
    exact hfree
  · intro result hresult
    obtain ⟨hbefore, hgood⟩ := hcommit result hresult
    exact ⟨fun hb => hbefore (hsame.committedBefore_iff.mp hb), fun hd => hgood (hdamage _ hd)⟩

theorem Untouched.symm (h : Untouched s t k) : Untouched t s k :=
  ⟨h.item.symm, h.attempts.symm, h.epoch.symm⟩

theorem Redoable.untouched_iff (hsame : Untouched s t (workKeyOf r phaseId split cell))
    (hgrown : Grown r.hash s.objects t.objects) :
    Redoable r world questions phaseId split t cell ↔ Redoable r world questions phaseId split s cell := by
  constructor
  · intro h
    exact h.of_untouched hsame.symm fun _ hd => hgrown.damaged_iff.mpr hd
  · intro h
    exact h.of_untouched hsame fun _ hd => hgrown.damaged_iff.mp hd

/-! ## One execution -/

/-- A cell whose item exists is not ensured anew. -/
theorem ensureWorkItem_present (ledger : Ledger) (now : ℚ) (c : Coordinates) (side : Bool) {s : Database}
    (h : fetchWorkItem s (ledger.ids.workItem c) ≠ none) :
    ensureWorkItem ledger now c side none s = (.ok (ledger.ids.workItem c), s) := by
  have hkeys : ¬ WorkItemKeys (s.workItems.rows ++ [freshItem ledger now c side none]) := by
    intro hkeys
    refine h (fetchWorkItem_none.mpr ?_)
    intro hmem
    rw [WorkItemKeys, List.map_append, List.nodup_append] at hkeys
    exact hkeys.2.2 _ hmem (ledger.ids.workItem c) (by simp [freshItem]) rfl
  have hrun : transaction (workItemsSlot.insertOrIgnore (freshItem ledger now c side none)) s =
      ((.ok (), s) : Except Raised Unit × Database) := transaction_of_ok (dif_neg hkeys)
  exact bind_of_ok hrun

theorem workKeyFor_present (now : ℚ) (phaseId split : String) (cell : Cell)
    (h : fetchWorkItem t.database (workKeyOf r phaseId split cell) ≠ none) :
    workKeyFor r now phaseId split cell (alive t) = (.ok (workKeyOf r phaseId split cell), alive t) :=
  onLedger_ok (ensureWorkItem_present r.ledger now (coordinatesOf r phaseId split cell) true h)

/-- What executing a cell whose item exists comes to: it raises; it does nothing, the item not being
    pending; or it runs the cell to its end. -/
inductive Executed (r : CampaignRunner β γ) (w : CellWorld β γ) (phaseId split : String) (cell : Cell)
    (s : Lane β) (k : String) : Prop
  | raised (e : Stopped LaneRaised) (u : Session (Lane β))
      (hrun : executeCell r w phaseId split cell (alive s) = (.error e, u))
      (hnot : ∀ start, w.startEpoch = some start → ¬ (EpochFree s k w start ∧
        ∀ result, committing r w start = some result → ¬ CommittedBefore s.database k))
  | idle (item : WorkItemRow) (outcome : CellOutcome) (hitem : fetchWorkItem s.database k = some item)
      (hst : item.state ≠ .pending)
      (hrun : executeCell r w phaseId split cell (alive s) = (.ok outcome, alive s))
  | ended (start : String) (outcome : CellOutcome) (u : Lane β) (target : WorkState) (row : AttemptRow)
      (hrun : executeCell r w phaseId split cell (alive s) = (.ok outcome, alive u))
      (hpending : ∀ item, fetchWorkItem s.database k = some item → item.state = .pending)
      (hstart : w.startEpoch = some start) (hfree : EpochFree s k w start)
      (hclear : ∀ result, committing r w start = some result → ¬ CommittedBefore s.database k)
      (hran : Ran r s u k target row) (hended : Ended r w phaseId start cell s u k row target)

theorem executeCell_cases (hids : AttemptIdsDistinct r.ledger.ids) (w : CellWorld β γ)
    (hderived : IdsDerived r.ledger.ids s.database) {item : WorkItemRow}
    (hitem : fetchWorkItem s.database (workKeyOf r phaseId split cell) = some item) :
    Executed r w phaseId split cell s (workKeyOf r phaseId split cell) := by
  have hpresent : fetchWorkItem s.database (workKeyOf r phaseId split cell) ≠ none := by simp [hitem]
  have hkey := workKeyFor_present (w.now 0) phaseId split cell hpresent
  cases hstart : w.startEpoch with
  | none =>
    refine .raised (.raised (.runtimeError "no vLLM engine epoch")) (alive s) ?_ ?_
    · unfold executeCell
      rw [bind_of_ok hkey, hstart]
      exact bind_of_error (refuse_run _ _)
    · intro start hsome
      rw [hstart] at hsome
      cases hsome
  | some start =>
    have hepoch : currentEngineEpoch w.startEpoch (alive s) = (.ok start, alive s) := by
      rw [hstart]
      rfl
    by_cases hst : item.state = .pending
    · obtain ⟨a, t, row, hclaim, hid, hrow, hran, hepochs, -⟩ :=
        Ran.claimed hids hderived hitem hst (w.now 1)
      have hrun : executeCell r w phaseId split cell (alive s) =
          runClaimed r w phaseId (workKeyOf r phaseId split cell) start cell row.attemptId (alive t) := by
        unfold executeCell
        rw [bind_of_ok hkey, bind_of_ok hepoch, bind_of_ok (readLane_run s), hitem]
        refine (congrFun (if_neg (not_not.mpr hst)) _).trans ((bind_of_ok hclaim).trans ?_)
        rw [← hid]
      by_cases hcond : EpochFree s (workKeyOf r phaseId split cell) w start ∧
          ∀ result, committing r w start = some result →
            ¬ CommittedBefore s.database (workKeyOf r phaseId split cell)
      · obtain ⟨outcome, u, target, row', hend, -, hu, hended⟩ :=
          runClaimed_ends phaseId cell hran hitem hrow hepochs hcond.1 hcond.2
        refine .ended start outcome u target row' (hrun.trans hend) ?_ hstart hcond.1 hcond.2 hu hended
        intro item' hitem'
        rw [hitem] at hitem'
        cases hitem'
        exact hst
      · obtain ⟨e, u, hend⟩ := runClaimed_refused phaseId cell hran hitem hrow hepochs hcond
        refine .raised e u (hrun.trans hend) ?_
        intro start' hstart'
        rw [hstart] at hstart'
        cases hstart'
        exact hcond
    · refine .idle item ⟨cellKey cell, .work item.state, "", false, ""⟩ hitem hst ?_
      unfold executeCell
      rw [bind_of_ok hkey, bind_of_ok hepoch, bind_of_ok (readLane_run s), hitem]
      exact congrFun (if_pos hst) _

/-! ## The loop -/

/-- The item has an attempt beyond those it had. -/
def NewAttempt (s t : Lane β) (k : String) : Prop :=
  ∃ q ∈ t.database.attempts.rows, q.workKey = k ∧
    ∀ p ∈ s.database.attempts.rows, p.workKey = k → p.attemptId ≠ q.attemptId

theorem Untouched.newAttempt_iff (h : Untouched s t k) : NewAttempt t u k ↔ NewAttempt s u k := by
  constructor
  · rintro ⟨q, hq, hk, hnew⟩
    exact ⟨q, hq, hk, fun p hp hpk => hnew p ((h.mem_iff hpk).mpr hp) hpk⟩
  · rintro ⟨q, hq, hk, hnew⟩
    exact ⟨q, hq, hk, fun p hp hpk => hnew p ((h.mem_iff hpk).mp hp) hpk⟩

theorem Untouched.no_newAttempt (h : Untouched s t k) : ¬ NewAttempt s t k := by
  rintro ⟨q, hq, hk, hnew⟩
  exact hnew q ((h.mem_iff hk).mp hq) hk rfl

/-- Between `s` and `t` only the items `ks` moved; attempts and documents were only added. -/
structure Passed (r : CampaignRunner β γ) (s t : Lane β) (ks : List String) : Prop where
  grown : Grown r.hash s.objects t.objects
  attempts : ∀ q ∈ s.database.attempts.rows, q ∈ t.database.attempts.rows
  untouched : ∀ k, k ∉ ks → Untouched s t k

theorem Passed.refl (r : CampaignRunner β γ) (s : Lane β) (ks : List String) : Passed r s s ks :=
  ⟨Grown.refl _, fun _ h => h, fun k _ => Untouched.refl s k⟩

theorem Ran.passed {st : WorkState} {row : AttemptRow} (h : Ran r s t k st row) {ks : List String}
    (hk : k ∈ ks) : Passed r s t ks := by
  refine ⟨h.grown, ?_, ?_⟩
  · intro q hq
    rw [h.took.attempts]
    exact List.mem_append_left _ hq
  · intro j hj
    apply h.untouched
    rintro rfl
    exact hj hk

theorem Passed.trans {ks : List String} (h : Passed r s t ks) (h' : Passed r t u ks) : Passed r s u ks :=
  ⟨h.grown.trans h'.grown, fun q hq => h'.attempts q (h.attempts q hq),
    fun k hk => (h.untouched k hk).trans (h'.untouched k hk)⟩

theorem Passed.mono {ks js : List String} (h : Passed r s t ks) (hsub : ks ⊆ js) : Passed r s t js :=
  ⟨h.grown, h.attempts, fun k hk => h.untouched k fun hmem => hk (hsub hmem)⟩

/-- Nothing stops the loop before its last cell. -/
structure Unhindered (r : CampaignRunner β γ) (world : Cell → CellWorld β γ) : Prop where
  stop : ∀ cell, (world cell).stopRequested = false
  limit : r.config.maxCells = none

theorem cellLoop_terminal {states : Dict String CellState} (rest : List Cell) (n : ℕ)
    (outs : List CellOutcome) (hterminal : isTerminal (states.get? (cellKey cell)) = true) :
    cellLoop r world phaseId split questions (cell :: rest) states n outs =
      cellLoop r world phaseId split questions rest states n outs := by
  rw [cellLoop, if_pos hterminal]

theorem cellLoop_cons (hgo : Unhindered r world) {states : Dict String CellState} (rest : List Cell)
    (n : ℕ) (outs : List CellOutcome) (hterminal : isTerminal (states.get? (cellKey cell)) = false)
    {question : String} (hquestion : questions cell.taskId = some question) :
    cellLoop r world phaseId split questions (cell :: rest) states n outs =
      executeCell r (world cell) phaseId split cell >>= fun outcome =>
        cellLoop r world phaseId split questions rest (states.set (cellKey cell) outcome.state) (n + 1)
          (outs ++ [outcome]) := by
  rw [cellLoop, if_neg (by simp [hterminal]), if_neg (by simp [hgo.stop]),
    if_neg (by simp [hgo.limit, limitReached]), hquestion]

theorem cellLoop_no_question (hgo : Unhindered r world) {states : Dict String CellState}
    (rest : List Cell) (n : ℕ) (outs : List CellOutcome)
    (hterminal : isTerminal (states.get? (cellKey cell)) = false)
    (hquestion : questions cell.taskId = none) :
    cellLoop r world phaseId split questions (cell :: rest) states n outs =
      refuse (.keyError cell.taskId) := by
  rw [cellLoop, if_neg (by simp [hterminal]), if_neg (by simp [hgo.stop]),
    if_neg (by simp [hgo.limit, limitReached]), hquestion]

/-- The cells of a loop, each with an item of its own that exists. -/
structure Loaded (r : CampaignRunner β γ) (phaseId split : String) (s : Lane β) (cells : List Cell) :
    Prop where
  distinct : (cells.map cellKey).Nodup
  works : (cells.map (workKeyOf r phaseId split)).Nodup
  present : ∀ cell ∈ cells, fetchWorkItem s.database (workKeyOf r phaseId split cell) ≠ none

theorem Loaded.tail {rest : List Cell} (h : Loaded r phaseId split s (cell :: rest)) :
    Loaded r phaseId split s rest :=
  ⟨(List.nodup_cons.mp h.distinct).2, (List.nodup_cons.mp h.works).2,
    fun c hc => h.present c (List.mem_cons_of_mem _ hc)⟩

theorem Loaded.work_ne {rest : List Cell} (h : Loaded r phaseId split s (cell :: rest)) {c : Cell}
    (hc : c ∈ rest) : workKeyOf r phaseId split c ≠ workKeyOf r phaseId split cell := by
  intro heq
  exact (List.nodup_cons.mp h.works).1 (heq ▸ List.mem_map_of_mem hc)

theorem Loaded.key_ne {rest : List Cell} (h : Loaded r phaseId split s (cell :: rest)) {c : Cell}
    (hc : c ∈ rest) : cellKey c ≠ cellKey cell := by
  intro heq
  exact (List.nodup_cons.mp h.distinct).1 (heq ▸ List.mem_map_of_mem hc)

/-- What executing the head leaves the tail with. -/
theorem Loaded.ran {rest : List Cell} (h : Loaded r phaseId split s (cell :: rest)) {st : WorkState}
    {row : AttemptRow} (hran : Ran r s t (workKeyOf r phaseId split cell) st row) :
    Loaded r phaseId split t rest := by
  refine ⟨h.tail.distinct, h.tail.works, ?_⟩
  intro c hc
  rw [(hran.untouched (h.work_ne hc)).item]
  exact h.tail.present c hc

theorem idsDerived_ran {st : WorkState} {row : AttemptRow} (hderived : IdsDerived r.ledger.ids s.database)
    (h : Ran r s t k st row) : IdsDerived r.ledger.ids t.database := by
  intro q hq
  rw [h.took.attempts] at hq
  rcases List.mem_append.mp hq with hin | hin
  · exact hderived q hin
  · rw [List.mem_singleton.mp hin, h.took.key]
    exact h.took.derived

/-- A loop that returns touched no items but those of its cells. -/
theorem cellLoop_passed (hids : AttemptIdsDistinct r.ledger.ids) (hgo : Unhindered r world)
    (cells : List Cell) (states : Dict String CellState) (n : ℕ) (outs : List CellOutcome)
    (hderived : IdsDerived r.ledger.ids s.database) (hloaded : Loaded r phaseId split s cells)
    {outcomes : List CellOutcome} {v : Session (Lane β)}
    (hrun : cellLoop r world phaseId split questions cells states n outs (alive s) = (.ok outcomes, v)) :
    ∃ t, v = alive t ∧ Passed r s t (cells.map (workKeyOf r phaseId split)) := by
  induction cells generalizing s states n outs with
  | nil =>
    cases hrun
    exact ⟨s, rfl, Passed.refl r s _⟩
  | cons cell rest ih =>
    have hsub : rest.map (workKeyOf r phaseId split) ⊆ (cell :: rest).map (workKeyOf r phaseId split) :=
      List.subset_cons_self _ _
    cases hterminal : isTerminal (states.get? (cellKey cell)) with
    | true =>
      rw [cellLoop_terminal rest n outs hterminal] at hrun
      obtain ⟨t, hv, ht⟩ := ih states n outs hderived hloaded.tail hrun
      exact ⟨t, hv, ht.mono hsub⟩
    | false =>
      cases hquestion : questions cell.taskId with
      | none =>
        rw [cellLoop_no_question hgo rest n outs hterminal hquestion] at hrun
        cases hrun
      | some question =>
        rw [cellLoop_cons hgo rest n outs hterminal hquestion] at hrun
        obtain ⟨item, hitem⟩ := Option.ne_none_iff_exists'.mp (hloaded.present cell (by simp))
        cases executeCell_cases hids (world cell) hderived hitem with
        | raised e u hexec hnot =>
          rw [bind_of_error hexec] at hrun
          cases hrun
        | idle item' outcome hitem' hst hexec =>
          rw [bind_of_ok hexec] at hrun
          obtain ⟨t, hv, ht⟩ := ih _ _ _ hderived hloaded.tail hrun
          exact ⟨t, hv, ht.mono hsub⟩
        | ended start outcome u target row hexec hpending hstart hfree hclear hran hended =>
          rw [bind_of_ok hexec] at hrun
          obtain ⟨t, hv, ht⟩ := ih _ _ _ (idsDerived_ran hderived hran) (hloaded.ran hran) hrun
          exact ⟨t, hv, (hran.passed (by simp)).trans (ht.mono hsub)⟩

/-! ## The head of the loop -/

/-- The item of an execution that ended. -/
theorem Ran.item {st : WorkState} {row : AttemptRow} (h : Ran r s t k st row) (hne : st ≠ .pending)
    {wi : WorkItemRow} (hwi : fetchWorkItem s.database k = some wi) :
    ∃ item, fetchWorkItem t.database k = some item ∧ item.state = st := by
  obtain ⟨now, hitem⟩ := h.took.fetchItem hwi
  refine ⟨_, hitem, ?_⟩
  rw [routedRow_of_ne hne]

/-- The committed reference is that of the attempt just committed. -/
theorem Ran.committedRef {st : WorkState} {row : AttemptRow} (h : Ran r s t k st row)
    (hclear : ¬ CommittedBefore s.database k) (hrow : row.state = .committed) :
    WorkLedger.committedRef t.database k = row.resultObjectRef := by
  have hold : (s.database.attempts.rows.find? fun q => q.workKey = k ∧ q.state = .committed) = none := by
    apply List.find?_eq_none.mpr
    intro q hq hcon
    rw [decide_eq_true_eq] at hcon
    exact hclear ⟨q, hq, hcon.1, hcon.2⟩
  have hfind : (t.database.attempts.rows.find? fun q => q.workKey = k ∧ q.state = .committed) = some row := by
    rw [h.took.attempts, List.find?_append, hold, Option.none_or, List.find?_cons_of_pos]
    simp [h.took.key, hrow]
  unfold WorkLedger.committedRef
  rw [hfind]

/-- Executed to its end, an item is settled unless its output met a damaged file. -/
theorem Ended.settled_iff {w : CellWorld β γ} {start : String} {target : WorkState} {row : AttemptRow}
    {wi : WorkItemRow} (hhash : ∀ raw, isKey (r.hash raw)) (hran : Ran r s t k target row)
    (hended : Ended r w phaseId start cell s t k row target)
    (hwi : fetchWorkItem s.database k = some wi)
    (hclear : ∀ result, committing r w start = some result → ¬ CommittedBefore s.database k) :
    Settled r t k ↔ ∀ result, committing r w start = some result →
      ¬ Damaged r.hash s.objects (r.hash (outputBytes r w phaseId k start cell result)) := by
  cases hended with
  | failed target htarget hrow hnone =>
    have hne : target ≠ .pending := by
      rcases htarget with rfl | rfl
      · simp
      · simp
    obtain ⟨item, hitem, hst⟩ := hran.item hne hwi
    constructor
    · intro _ result hresult
      rw [hnone] at hresult
      cases hresult
    · intro _
      refine ⟨item, hitem, .inl ?_⟩
      rw [hst]
      rcases htarget with rfl | rfl
      · simp
      · simp
  | committed result hcommit hrow href before hbefore hafter =>
    obtain ⟨item, hitem, hst⟩ := hran.item (by simp) hwi
    have hcref := hran.committedRef (hclear result hcommit) hrow
    rw [href] at hcref
    constructor
    · rintro ⟨item', hitem', hcase⟩ result' hresult' hdamaged
      rw [hcommit] at hresult'
      cases hresult'
      rw [hitem] at hitem'
      cases hitem'
      rcases hcase with hfailed | ⟨-, ref, href', hv⟩
      · rw [hst] at hfailed
        simp at hfailed
      · rw [hcref] at href'
        cases href'
        exact not_verifies_of_damaged (hran.grown.damaged_iff.mpr hdamaged) hv
    · intro hgood
      refine ⟨item, hitem, .inr ⟨hst, _, hcref, ?_⟩⟩
      apply hafter.verifies
      apply verifies_putBytes (hhash _)
      intro hdamaged
      exact hgood result hcommit (hbefore.damaged_iff.mp hdamaged)

theorem Settled.untouched_iff (hsame : Untouched s t k) (hgrown : Grown r.hash s.objects t.objects)
    (hitem : ∀ item ref, fetchWorkItem s.database k = some item → item.state = .committed →
      committedRef s.database k = some ref → Verifies r.hash s.objects ref ∨ Damaged r.hash s.objects ref) :
    Settled r t k ↔ Settled r s k := by
  constructor
  · rintro ⟨item, hget, hcase⟩
    refine ⟨item, hsame.item.symm.trans hget, ?_⟩
    rcases hcase with hfailed | ⟨hc, ref, href, hv⟩
    · exact .inl hfailed
    · rw [hsame.committedRef] at href
      rw [hsame.item] at hget
      rcases hitem item ref hget hc href with hv' | hd
      · exact .inr ⟨hc, ref, href, hv'⟩
      · exact absurd hv (not_verifies_of_damaged (hgrown.damaged_iff.mpr hd))
  · intro h
    exact h.mono hsame hgrown

/-- After an execution the blob under the committed reference is there, whole or damaged. -/
theorem Ended.blob {w : CellWorld β γ} {start : String} {target : WorkState} {row : AttemptRow}
    {wi : WorkItemRow} (hhash : ∀ raw, isKey (r.hash raw)) (hran : Ran r s t k target row)
    (hended : Ended r w phaseId start cell s t k row target)
    (hwi : fetchWorkItem s.database k = some wi)
    (hclear : ∀ result, committing r w start = some result → ¬ CommittedBefore s.database k) :
    ∀ item ref, fetchWorkItem t.database k = some item → item.state = .committed →
      committedRef t.database k = some ref → Verifies r.hash t.objects ref ∨ Damaged r.hash t.objects ref := by
  intro item ref hitem hc href
  cases hended with
  | failed target htarget hrow hnone =>
    have hne : target ≠ .pending := by
      rcases htarget with rfl | rfl
      · simp
      · simp
    obtain ⟨item', hitem', hst⟩ := hran.item hne hwi
    rw [hitem'] at hitem
    cases hitem
    rw [hst] at hc
    rw [hc] at htarget
    simp at htarget
  | committed result hcommit hrow href' before hbefore hafter =>
    rw [hran.committedRef (hclear result hcommit) hrow, href'] at href
    cases href
    by_cases hdamaged : Damaged r.hash before (r.hash (outputBytes r w phaseId k start cell result))
    · have hput := (grown_putBytes before (outputBytes r w phaseId k start cell result)).damaged_iff.mpr hdamaged
      exact .inr (hafter.damaged_iff.mpr hput)
    · exact .inl (hafter.verifies (verifies_putBytes (hhash _) hdamaged))

/-! ## The loop settles what can be redone -/

/-- The loop returns, having executed and settled every cell it had to. -/
def LoopSettles (r : CampaignRunner β γ) (world : Cell → CellWorld β γ) (phaseId split : String)
    (questions : String → Option String) (cells : List Cell) (states : Dict String CellState) (n : ℕ)
    (outs : List CellOutcome) (s : Lane β) : Prop :=
  ∃ outcomes t, cellLoop r world phaseId split questions cells states n outs (alive s) =
      (.ok outcomes, alive t) ∧
    ∀ cell ∈ cells, isTerminal (states.get? (cellKey cell)) = false →
      NewAttempt s t (workKeyOf r phaseId split cell) ∧ Settled r t (workKeyOf r phaseId split cell)

theorem cellLoop_settles_iff (hids : AttemptIdsDistinct r.ledger.ids) (hhash : ∀ raw, isKey (r.hash raw))
    (hgo : Unhindered r world) (cells : List Cell) (states : Dict String CellState) (n : ℕ)
    (outs : List CellOutcome) (hderived : IdsDerived r.ledger.ids s.database)
    (hloaded : Loaded r phaseId split s cells) :
    LoopSettles r world phaseId split questions cells states n outs s ↔
      ∀ cell ∈ cells, isTerminal (states.get? (cellKey cell)) = false →
        Redoable r world questions phaseId split s cell := by
  induction cells generalizing s states n outs with
  | nil =>
    constructor
    · intro _ cell hcell
      cases hcell
    · intro _
      exact ⟨outs, s, rfl, fun cell hcell => by cases hcell⟩
  | cons cell rest ih =>
    cases hterminal : isTerminal (states.get? (cellKey cell)) with
    | true =>
      have hih := ih states n outs hderived hloaded.tail
      unfold LoopSettles at hih ⊢
      rw [cellLoop_terminal rest n outs hterminal]
      simp only [List.forall_mem_cons, hterminal, Bool.true_eq_false, false_implies, true_and]
      exact hih
    | false =>
      simp only [List.forall_mem_cons, hterminal, true_implies]
      cases hquestion : questions cell.taskId with
      | none =>
        constructor
        · rintro ⟨outcomes, t, hrun, -⟩
          rw [cellLoop_no_question hgo rest n outs hterminal hquestion] at hrun
          cases hrun
        · rintro ⟨hredo, -⟩
          have hq := hredo.question
          rw [hquestion] at hq
          cases hq
      | some question =>
        have hcons : cellLoop r world phaseId split questions (cell :: rest) states n outs = _ :=
          cellLoop_cons hgo rest n outs hterminal hquestion
        obtain ⟨item, hitem⟩ := Option.ne_none_iff_exists'.mp (hloaded.present cell (by simp))
        cases executeCell_cases hids (world cell) hderived hitem with
        | raised e u hexec hnot =>
          constructor
          · rintro ⟨outcomes, t, hrun, -⟩
            rw [hcons, bind_of_error hexec] at hrun
            cases hrun
          · rintro ⟨hredo, -⟩
            obtain ⟨start, hstart, hfree, hcommit⟩ := hredo.epoch
            exact absurd ⟨hfree, fun result hresult => (hcommit result hresult).1⟩ (hnot start hstart)
        | idle item' outcome hitem' hst hexec =>
          constructor
          · rintro ⟨outcomes, t, hrun, hall⟩
            rw [hcons, bind_of_ok hexec] at hrun
            obtain ⟨t', ht', hpassed⟩ := cellLoop_passed hids hgo rest _ _ _ hderived hloaded.tail hrun
            cases ht'
            have hnew := (List.forall_mem_cons.mp hall).1 hterminal
            have hout : workKeyOf r phaseId split cell ∉ rest.map (workKeyOf r phaseId split) :=
              (List.nodup_cons.mp hloaded.works).1
            exact absurd hnew.1 (hpassed.untouched _ hout).no_newAttempt
          · rintro ⟨hredo, -⟩
            exact absurd (hredo.pending item' hitem') hst
        | ended start outcome u target row hexec hpending hstart hfree hclear hran hended =>
          have hout : workKeyOf r phaseId split cell ∉ rest.map (workKeyOf r phaseId split) :=
            (List.nodup_cons.mp hloaded.works).1
          have hih := ih (states.set (cellKey cell) outcome.state) (n + 1) (outs ++ [outcome])
            (idsDerived_ran hderived hran) (hloaded.ran hran)
          have hstates : ∀ c ∈ rest, (states.set (cellKey cell) outcome.state).get? (cellKey c) =
              states.get? (cellKey c) := fun c hc => Dict.get?_set_ne _ _ (hloaded.key_ne hc)
          have hredo : ∀ c ∈ rest, Redoable r world questions phaseId split u c ↔
              Redoable r world questions phaseId split s c := fun c hc =>
            Redoable.untouched_iff (hran.untouched (hloaded.work_ne hc)) hran.grown
          have hblob := hended.blob hhash hran hitem hclear
          have hhead := hended.settled_iff hhash hran hitem hclear
          -- the head stays as its execution left it while the rest of the loop runs
          have hsettled : ∀ t, Passed r u t (rest.map (workKeyOf r phaseId split)) →
              (Settled r t (workKeyOf r phaseId split cell) ↔ Settled r u (workKeyOf r phaseId split cell)) :=
            fun t ht => Settled.untouched_iff (ht.untouched _ hout) ht.grown hblob
          constructor
          · rintro ⟨outcomes, t, hrun, hall⟩
            rw [hcons, bind_of_ok hexec] at hrun
            obtain ⟨t', ht', hpassed⟩ := cellLoop_passed hids hgo rest _ _ _
              (idsDerived_ran hderived hran) (hloaded.ran hran) hrun
            cases ht'
            obtain ⟨hfirst, hrest⟩ := List.forall_mem_cons.mp hall
            refine ⟨⟨by rw [hquestion]; rfl, hpending, start, hstart, hfree, ?_⟩, ?_⟩
            · intro result hresult
              exact ⟨hclear result hresult,
                hhead.mp ((hsettled t hpassed).mp (hfirst hterminal).2) result hresult⟩
            · have hloop : LoopSettles r world phaseId split questions rest
                  (states.set (cellKey cell) outcome.state) (n + 1) (outs ++ [outcome]) u := by
                refine ⟨outcomes, t, hrun, ?_⟩
                intro c hc hopen
                rw [hstates c hc] at hopen
                obtain ⟨hnew, hdone⟩ := hrest c hc hopen
                exact ⟨(hran.untouched (hloaded.work_ne hc)).newAttempt_iff.mpr hnew, hdone⟩
              intro c hc hopen
              refine (hredo c hc).mp (hih.mp hloop c hc ?_)
              rw [hstates c hc]
              exact hopen
          · rintro ⟨hfirst, hrest⟩
            have hloop := hih.mpr fun c hc hopen => (hredo c hc).mpr (hrest c hc (by rwa [hstates c hc] at hopen))
            obtain ⟨outcomes, t, hrun, hall⟩ := hloop
            obtain ⟨t', ht', hpassed⟩ := cellLoop_passed hids hgo rest _ _ _
              (idsDerived_ran hderived hran) (hloaded.ran hran) hrun
            cases ht'
            obtain ⟨start', hstart', -, hcommit⟩ := hfirst.epoch
            rw [hstart] at hstart'
            cases hstart'
            refine ⟨outcomes, t, ?_, ?_⟩
            · rw [hcons, bind_of_ok hexec]
              exact hrun
            · refine List.forall_mem_cons.mpr ⟨?_, ?_⟩
              · intro _
                refine ⟨⟨row, hpassed.attempts row ?_, hran.took.key, ?_⟩, ?_⟩
                · rw [hran.took.attempts]
                  simp
                · intro p hp _
                  exact hran.took.new p hp
                · exact (hsettled t hpassed).mpr (hhead.mpr fun result hresult => (hcommit result hresult).2)
              · intro c hc hopen
                obtain ⟨hnew, hdone⟩ := hall c hc (by rwa [hstates c hc])
                exact ⟨(hran.untouched (hloaded.work_ne hc)).newAttempt_iff.mp hnew, hdone⟩

end
end Shapeflow.Campaign
