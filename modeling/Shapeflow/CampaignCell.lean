import Shapeflow.CampaignRunner
import Shapeflow.CoordinatorTurn

set_option autoImplicit false

/-!
# One cell, executed to its end

What a process that does not die makes of a claimed cell: one new attempt, the
one item moved to a terminal state, and documents added to the object store.
-/
namespace Shapeflow.Campaign
open Script Database WorkLedger Coordinator ObjectStore

section
variable {β γ α : Type}

/-- A process that does not die. -/
def alive (s : Lane β) : Session (Lane β) := ⟨s, none⟩

theorem onLedger_ok {body : Db α} {s : Lane β} {t : Database} {a : α} (h : body s.database = (.ok a, t)) :
    onLedger body (alive s) = (.ok a, alive { s with database := t }) := by
  apply Session.tx_immortal
  simp only [onDatabase, h]

theorem onLedger_error {body : Db α} {s : Lane β} {t : Database} {e : Raised}
    (h : body s.database = (.error e, t)) :
    onLedger body (alive s) = (.error (.raised (.ledger e)), alive s) := by
  simp [onLedger, Session.tx, alive, transaction, onDatabase, h]

theorem readLane_run (s : Lane β) : readLane (alive s) = (.ok s, alive s) := rfl

theorem putBytes_run (r : CampaignRunner β γ) (raw : β) (s : Lane β) :
    putBytes r raw (alive s) = (.ok ⟨r.hash raw, r.rawSize raw, r.storedSize raw⟩,
      alive { s with objects := s.objects.putBytes r.hash raw }) := rfl

theorem refuse_run (e : LaneRaised) (s : Session (Lane β)) :
    (refuse e : Steps β α) s = (.error (.raised e), s) := rfl

/-- Since `s`, the item `k` has moved to `st` and got the attempt `row`; documents were added. -/
structure Ran (r : CampaignRunner β γ) (s t : Lane β) (k : String) (st : WorkState) (row : AttemptRow) :
    Prop where
  took : Took r.ledger.ids s.database t.database k st row
  grown : Grown r.hash s.objects t.objects
  epochs : ∀ j, j ≠ k → t.cellEpochs.get? j = s.cellEpochs.get? j

variable {r : CampaignRunner β γ} {s t : Lane β} {k : String} {st : WorkState} {row : AttemptRow}
  {wi : WorkItemRow}

theorem Ran.claimed (hids : AttemptIdsDistinct r.ledger.ids) (hderived : IdsDerived r.ledger.ids s.database)
    (hwi : fetchWorkItem s.database k = some wi) (hst : wi.state = .pending) (now : ℚ) :
    ∃ a t row, onLedger (claim r.ledger now k r.config.workerId r.config.leaseSeconds r.config.runId)
        (alive s) = (.ok (some a), alive t) ∧
      a.attemptId = row.attemptId ∧ row.state = .claimed ∧ Ran r s t k .claimed row ∧
      t.cellEpochs = s.cellEpochs ∧ t.objects = s.objects := by
  obtain ⟨a, t, row, hclaim, hid, hrow, htook⟩ := claim_took hids hderived hwi hst now
    r.config.leaseSeconds r.config.workerId r.config.runId
  exact ⟨a, { s with database := t }, row, onLedger_ok hclaim, hid, hrow,
    ⟨htook, Grown.refl s.objects, fun _ _ => rfl⟩, rfl, rfl⟩

theorem Ran.artifact (h : Ran r s t k st row) (now : ℚ) (kind : String) (key : Option String) (raw : β) :
    ∃ u, storeArtifact r now kind key raw (alive t) =
        (.ok ⟨r.hash raw, r.rawSize raw, r.storedSize raw⟩, alive u) ∧
      Ran r s u k st row ∧ u.cellEpochs = t.cellEpochs ∧ u.objects = t.objects.putBytes r.hash raw := by
  obtain ⟨u, hreg, htook⟩ := registerArtifact_took h.took now (r.hash raw) kind (r.rawSize raw)
    (r.storedSize raw) key
  refine ⟨{ t with database := u, objects := t.objects.putBytes r.hash raw }, ?_, ?_, rfl, rfl⟩
  · refine (bind_of_ok (putBytes_run r raw t)).trans ?_
    exact bind_of_ok (onLedger_ok hreg)
  · exact ⟨htook, h.grown.trans (grown_putBytes t.objects raw), h.epochs⟩

theorem Ran.stored (h : Ran r s t k st row) (now : ℚ) (docs : List (String × β)) :
    ∃ refs u, forEach (fun e => storeArtifact r now e.1 none e.2) docs (alive t) = (.ok refs, alive u) ∧
      Ran r s u k st row ∧ u.cellEpochs = t.cellEpochs := by
  induction docs generalizing t with
  | nil => exact ⟨[], t, rfl, h, rfl⟩
  | cons doc docs ih =>
    obtain ⟨u, hstore, hu, hepochs, -⟩ := h.artifact now doc.1 none doc.2
    obtain ⟨refs, v, hrest, hv, hepochs'⟩ := ih hu
    exact ⟨_, v, (bind_of_ok hstore).trans (bind_of_ok hrest), hv, hepochs'.trans hepochs⟩

/-- The epoch is recorded unless another one is. -/
theorem Ran.epoch (h : Ran r s t k st row) {epoch : String}
    (hfree : t.cellEpochs.get? k = none ∨ t.cellEpochs.get? k = some epoch) :
    ∃ u, Session.tx (recordEngineEpoch k epoch) (alive t) = (.ok (), alive u) ∧ Ran r s u k st row ∧
      u.objects = t.objects ∧ u.cellEpochs.get? k = some epoch := by
  rcases hfree with hnone | hsame
  · refine ⟨{ t with cellEpochs := t.cellEpochs.set k epoch }, ?_, ?_, rfl, Dict.get?_set_self _ _ _⟩
    · apply Session.tx_immortal
      unfold recordEngineEpoch
      rw [getStore_bind, hnone]
      rfl
    · refine ⟨h.took, h.grown, ?_⟩
      intro j hj
      change (t.cellEpochs.set k epoch).get? j = _
      rw [Dict.get?_set_ne _ _ hj]
      exact h.epochs j hj
  · refine ⟨t, ?_, h, rfl, hsame⟩
    apply Session.tx_immortal
    unfold recordEngineEpoch
    rw [getStore_bind, hsame]
    exact congrFun (if_neg (not_not.mpr rfl)) t

theorem epoch_refused {epoch other : String} (hother : t.cellEpochs.get? k = some other)
    (hne : other ≠ epoch) :
    ∃ e, Session.tx (recordEngineEpoch k epoch) (alive t) = (.error e, alive t) := by
  refine ⟨.raised (.ledger (.ledgerError
    s!"work item {k} already ran under engine epoch {other}, refusing to rewrite it as {epoch}")), ?_⟩
  have hrun : recordEngineEpoch k epoch t = (.error (.ledger (.ledgerError
      s!"work item {k} already ran under engine epoch {other}, refusing to rewrite it as {epoch}")), t) := by
    unfold recordEngineEpoch
    rw [getStore_bind, hother]
    exact congrFun (if_pos hne) t
  simp [Session.tx, alive, transaction, hrun]

theorem Ran.advanced (h : Ran r s t k st row) (hwi : fetchWorkItem s.database k = some wi)
    (hrow : row.state = st) (hst : st ≠ .pending) (target : WorkState) (hlegal : target ∈ legal st)
    (htarget : target ∈ [WorkState.materialized, .validated]) (now : ℚ) :
    ∃ u, onLedger (advance now row.attemptId target) (alive t) = (.ok (), alive u) ∧
      Ran r s u k target (advancedRow target row) ∧ u.objects = t.objects := by
  obtain ⟨u, hu, htook⟩ := advance_took target h.took hwi hrow hst hlegal htarget now
  exact ⟨{ t with database := u }, onLedger_ok hu, ⟨htook, h.grown, h.epochs⟩, rfl⟩

theorem Ran.committed (h : Ran r s t k .validated row) (hwi : fetchWorkItem s.database k = some wi)
    (hrow : row.state = .validated)
    (hclear : ∀ q ∈ s.database.attempts.rows, q.workKey = k → q.state ≠ .committed) (now : ℚ) (ref : String) :
    ∃ u, onLedger (commit now row.attemptId ref) (alive t) = (.ok (), alive u) ∧
      Ran r s u k .committed (committedRow now ref row) ∧ u.objects = t.objects := by
  obtain ⟨u, hu, htook⟩ := commit_took h.took hwi hrow hclear now ref
  exact ⟨{ t with database := u }, onLedger_ok hu, ⟨htook, h.grown, h.epochs⟩, rfl⟩

theorem Ran.commit_refused (h : Ran r s t k .validated row) (hwi : fetchWorkItem s.database k = some wi)
    (hrow : row.state = .validated)
    (htwice : ∃ q ∈ s.database.attempts.rows, q.workKey = k ∧ q.state = .committed) (now : ℚ) (ref : String) :
    ∃ e, onLedger (commit now row.attemptId ref) (alive t) = (.error e, alive t) := by
  obtain ⟨message, v, hv⟩ := Coordinator.commit_refused h.took hwi hrow htwice now ref
  exact ⟨_, onLedger_error hv⟩

theorem Ran.failed (h : Ran r s t k st row) (hwi : fetchWorkItem s.database k = some wi)
    (hst : st ≠ .pending) {d : WorkState} (hd : d = .failedUnknown ∨ d = .failedFinal) (now : ℚ)
    (err reason ref : String) :
    ∃ u, onLedger (fail now row.attemptId d err reason ref) (alive t) = (.ok d, alive u) ∧
      Ran r s u k d (failedRow now d err ref row) ∧ u.objects = t.objects := by
  have hmem : d ∈ dispositions := mem_dispositions.mpr (by tauto)
  have htarget : failTarget wi d = d := by
    rcases hd with rfl | rfl
    · rfl
    · rfl
  obtain ⟨u, hu, htook⟩ := fail_took h.took hwi hst hmem now err reason ref
  rw [htarget] at hu htook
  exact ⟨{ t with database := u }, onLedger_ok hu, ⟨htook, h.grown, h.epochs⟩, rfl⟩

/-! ## The end of a claimed cell -/

/-- The result of a run that is going to be committed. -/
def committing (r : CampaignRunner β γ) (w : CellWorld β γ) (start : String) : Option (GraphResult γ) :=
  match w.graph with
  | .error _ => none
  | .ok result =>
    if result.error ≠ "" ∨ telemetryInvalid r w.workSummary (epochSpan start w.endEpoch) then none
    else some result

/-- No other engine epoch is recorded for the item than the one its run is going to record. -/
def EpochFree (s : Lane β) (k : String) (w : CellWorld β γ) (start : String) : Prop :=
  s.cellEpochs.get? k = none ∨ s.cellEpochs.get? k = some (epochSpan start w.endEpoch).recorded

instance (s : Lane β) (k : String) (w : CellWorld β γ) (start : String) : Decidable (EpochFree s k w start) :=
  inferInstanceAs (Decidable (_ ∨ _))

/-- An attempt of the item is committed already. -/
def CommittedBefore (s : Database) (k : String) : Prop :=
  ∃ q ∈ s.attempts.rows, q.workKey = k ∧ q.state = .committed

instance (s : Database) (k : String) : Decidable (CommittedBefore s k) :=
  List.decidableBEx _ s.attempts.rows

theorem not_committedBefore {s : Database} {k : String} (h : ¬ CommittedBefore s k) :
    ∀ q ∈ s.attempts.rows, q.workKey = k → q.state ≠ .committed := by
  intro q hq hk hc
  exact h ⟨q, hq, hk, hc⟩

variable {w : CellWorld β γ} {start : String} (phaseId : String) (cell : Cell)

/-- How an execution that returned left its item. -/
inductive Ended (r : CampaignRunner β γ) (w : CellWorld β γ) (phaseId start : String) (cell : Cell)
    (s t : Lane β) (k : String) (row : AttemptRow) : WorkState → Prop
  | failed (target : WorkState) (htarget : target = .failedUnknown ∨ target = .failedFinal)
      (hrow : row.state = target) (hnone : committing r w start = none) :
      Ended r w phaseId start cell s t k row target
  | committed (result : GraphResult γ) (hcommit : committing r w start = some result)
      (hrow : row.state = .committed)
      (href : row.resultObjectRef = some (r.hash (outputBytes r w phaseId k start cell result)))
      (u : ObjectStore β) (hbefore : Grown r.hash s.objects u)
      (hafter : Grown r.hash (u.putBytes r.hash (outputBytes r w phaseId k start cell result)) t.objects) :
      Ended r w phaseId start cell s t k row .committed

theorem recordException_ends (h : Ran r s t k .claimed row) (hwi : fetchWorkItem s.database k = some wi)
    (hfree : EpochFree t k w start) (e : GraphException) :
    ∃ outcome u row', recordException r w phaseId k start cell row.attemptId e (alive t) =
        (.ok outcome, alive u) ∧
      outcome.state = .work .failedUnknown ∧ Ran r s u k .failedUnknown row' ∧
      row'.state = .failedUnknown := by
  obtain ⟨t₁, hepoch, h₁, -, -⟩ := h.epoch hfree
  obtain ⟨t₂, hstore, h₂, -, -⟩ := h₁.artifact (w.now 3) "cell_failure_output" (some k)
    (failureBytes r w phaseId k start cell e)
  obtain ⟨t₃, hfail, h₃, -⟩ := h₂.failed hwi (by simp) (.inl rfl) (w.now 4) e.errorClass
    (clipped e.message) (r.hash (failureBytes r w phaseId k start cell e))
  refine ⟨⟨cellKey cell, .work .failedUnknown, r.hash (failureBytes r w phaseId k start cell e), false,
    e.errorClass⟩, t₃, _, ?_, rfl, h₃, rfl⟩
  exact (bind_of_ok hepoch).trans ((bind_of_ok hstore).trans (bind_of_ok hfail))

/-- A run that returned, up to the fork between failure and commit. -/
theorem recordResult_materializes (h : Ran r s t k .claimed row)
    (hwi : fetchWorkItem s.database k = some wi) (hrow : row.state = .claimed)
    (hfree : EpochFree t k w start) (result : GraphResult γ) :
    ∃ t₁ t₂ t₃, Session.tx (recordEngineEpoch k (epochSpan start w.endEpoch).recorded) (alive t) =
        (.ok (), alive t₁) ∧
      storeArtifact r (w.now 3) "cell_output" (some k) (outputBytes r w phaseId k start cell result)
        (alive t₁) = (.ok ⟨r.hash (outputBytes r w phaseId k start cell result),
          r.rawSize (outputBytes r w phaseId k start cell result),
          r.storedSize (outputBytes r w phaseId k start cell result)⟩, alive t₂) ∧
      onLedger (advance (w.now 4) row.attemptId .materialized) (alive t₂) = (.ok (), alive t₃) ∧
      Ran r s t₃ k .materialized (advancedRow .materialized row) ∧
      Grown r.hash s.objects t₁.objects ∧
      t₃.objects = t₁.objects.putBytes r.hash (outputBytes r w phaseId k start cell result) := by
  obtain ⟨t₁, hepoch, h₁, -, -⟩ := h.epoch hfree
  obtain ⟨t₂, hstore, h₂, -, hobjects⟩ := h₁.artifact (w.now 3) "cell_output" (some k)
    (outputBytes r w phaseId k start cell result)
  obtain ⟨t₃, hadvance, h₃, hobjects'⟩ := h₂.advanced hwi hrow (by simp) .materialized (by simp [legal])
    (by simp) (w.now 4)
  exact ⟨t₁, t₂, t₃, hepoch, hstore, hadvance, h₃, h₁.grown, hobjects'.trans hobjects⟩

theorem recordResult_fails (h : Ran r s t k .claimed row) (hwi : fetchWorkItem s.database k = some wi)
    (hrow : row.state = .claimed) (hfree : EpochFree t k w start) {result : GraphResult γ}
    (hbad : result.error ≠ "" ∨ telemetryInvalid r w.workSummary (epochSpan start w.endEpoch)) :
    ∃ outcome u row', recordResult r w phaseId k start cell row.attemptId result (alive t) =
        (.ok outcome, alive u) ∧
      outcome.state = .work .failedFinal ∧ Ran r s u k .failedFinal row' ∧ row'.state = .failedFinal := by
  obtain ⟨t₁, t₂, t₃, hepoch, hstore, hadvance, h₃, -, -⟩ :=
    recordResult_materializes phaseId cell h hwi hrow hfree result
  obtain ⟨t₄, hfail, h₄, -⟩ := h₃.failed hwi (by simp) (.inr rfl) (w.now 5)
    (if result.error ≠ "" then "graph_error" else "invalid_work_telemetry")
    (clipped (failureText result w.workSummary (epochSpan start w.endEpoch)))
    (r.hash (outputBytes r w phaseId k start cell result))
  refine ⟨⟨cellKey cell, .work .failedFinal, r.hash (outputBytes r w phaseId k start cell result), false,
    failureText result w.workSummary (epochSpan start w.endEpoch)⟩, t₄, _, ?_, rfl, h₄, rfl⟩
  refine (bind_of_ok hepoch).trans ((bind_of_ok hstore).trans ((bind_of_ok hadvance).trans ?_))
  rw [if_pos hbad]
  exact bind_of_ok hfail

theorem recordResult_commits (h : Ran r s t k .claimed row) (hwi : fetchWorkItem s.database k = some wi)
    (hrow : row.state = .claimed) (hfree : EpochFree t k w start) {result : GraphResult γ}
    (hgood : ¬ (result.error ≠ "" ∨ telemetryInvalid r w.workSummary (epochSpan start w.endEpoch)))
    (hclear : ¬ CommittedBefore s.database k) :
    ∃ outcome u row', recordResult r w phaseId k start cell row.attemptId result (alive t) =
        (.ok outcome, alive u) ∧
      outcome.state = .work .committed ∧ Ran r s u k .committed row' ∧ row'.state = .committed ∧
      row'.resultObjectRef = some (r.hash (outputBytes r w phaseId k start cell result)) ∧
      ∃ v, Grown r.hash s.objects v ∧
        u.objects = v.putBytes r.hash (outputBytes r w phaseId k start cell result) := by
  obtain ⟨t₁, t₂, t₃, hepoch, hstore, hadvance, h₃, hgrown, hobjects⟩ :=
    recordResult_materializes phaseId cell h hwi hrow hfree result
  obtain ⟨t₄, hadvance', h₄, hobjects₄⟩ := h₃.advanced hwi rfl (by simp) .validated (by simp [legal])
    (by simp) (w.now 5)
  obtain ⟨t₅, hcommit, h₅, hobjects₅⟩ := h₄.committed hwi rfl (not_committedBefore hclear) (w.now 6)
    (r.hash (outputBytes r w phaseId k start cell result))
  refine ⟨⟨cellKey cell, .work .committed, r.hash (outputBytes r w phaseId k start cell result),
    result.pageFallbacks ≠ 0, ""⟩, t₅, _, ?_, rfl, h₅, rfl, rfl, t₁.objects, hgrown, ?_⟩
  · refine (bind_of_ok hepoch).trans ((bind_of_ok hstore).trans ((bind_of_ok hadvance).trans ?_))
    rw [if_neg hgood]
    exact (bind_of_ok hadvance').trans (bind_of_ok hcommit)
  · rw [hobjects₅, hobjects₄, hobjects]

/-- The commit is refused when the item has a committed attempt. -/
theorem recordResult_refused (h : Ran r s t k .claimed row) (hwi : fetchWorkItem s.database k = some wi)
    (hrow : row.state = .claimed) (hfree : EpochFree t k w start) {result : GraphResult γ}
    (hgood : ¬ (result.error ≠ "" ∨ telemetryInvalid r w.workSummary (epochSpan start w.endEpoch)))
    (htwice : CommittedBefore s.database k) :
    ∃ e u, recordResult r w phaseId k start cell row.attemptId result (alive t) = (.error e, u) := by
  obtain ⟨t₁, t₂, t₃, hepoch, hstore, hadvance, h₃, -, -⟩ :=
    recordResult_materializes phaseId cell h hwi hrow hfree result
  obtain ⟨t₄, hadvance', h₄, -⟩ := h₃.advanced hwi rfl (by simp) .validated (by simp [legal])
    (by simp) (w.now 5)
  obtain ⟨e, hcommit⟩ := h₄.commit_refused hwi rfl htwice (w.now 6)
    (r.hash (outputBytes r w phaseId k start cell result))
  refine ⟨e, alive t₄, ?_⟩
  refine (bind_of_ok hepoch).trans ((bind_of_ok hstore).trans ((bind_of_ok hadvance).trans ?_))
  rw [if_neg hgood]
  exact (bind_of_ok hadvance').trans (bind_of_error hcommit)

/-- A claimed cell runs to its end when its epoch can be recorded and its commit, if it comes to
    one, is not refused. -/
theorem runClaimed_ends (h : Ran r s t k .claimed row) (hwi : fetchWorkItem s.database k = some wi)
    (hrow : row.state = .claimed) (hepochs : t.cellEpochs = s.cellEpochs) (hfree : EpochFree s k w start)
    (hclear : ∀ result, committing r w start = some result → ¬ CommittedBefore s.database k) :
    ∃ outcome u target row', runClaimed r w phaseId k start cell row.attemptId (alive t) =
        (.ok outcome, alive u) ∧
      outcome.state = .work target ∧ Ran r s u k target row' ∧
      Ended r w phaseId start cell s u k row' target := by
  obtain ⟨refs, t₁, hstored, h₁, hepochs₁⟩ := h.stored (w.now 2) w.stored
  have hfree₁ : EpochFree t₁ k w start := by
    unfold EpochFree
    rw [hepochs₁, hepochs]
    exact hfree
  unfold runClaimed
  rw [bind_of_ok hstored]
  cases hgraph : w.graph with
  | error e =>
    obtain ⟨outcome, u, row', hrun, hstate, hu, hrow'⟩ :=
      recordException_ends phaseId cell h₁ hwi hfree₁ e
    refine ⟨outcome, u, .failedUnknown, row', hrun, hstate, hu, .failed _ (.inl rfl) hrow' ?_⟩
    simp [committing, hgraph]
  | ok result =>
    by_cases hbad : result.error ≠ "" ∨ telemetryInvalid r w.workSummary (epochSpan start w.endEpoch)
    · obtain ⟨outcome, u, row', hrun, hstate, hu, hrow'⟩ :=
        recordResult_fails phaseId cell h₁ hwi hrow hfree₁ hbad
      refine ⟨outcome, u, .failedFinal, row', hrun, hstate, hu, .failed _ (.inr rfl) hrow' ?_⟩
      simp only [committing, hgraph, if_pos hbad]
    · have hcommit : committing r w start = some result := by
        simp only [committing, hgraph, if_neg hbad]
      obtain ⟨outcome, u, row', hrun, hstate, hu, hrow', href, v, hgrown, hobjects⟩ :=
        recordResult_commits phaseId cell h₁ hwi hrow hfree₁ hbad
          (hclear result hcommit)
      refine ⟨outcome, u, .committed, row', hrun, hstate, hu,
        .committed result hcommit hrow' href v hgrown ?_⟩
      rw [hobjects]
      exact Grown.refl _

/-- Otherwise it raises. -/
theorem runClaimed_refused (h : Ran r s t k .claimed row) (hwi : fetchWorkItem s.database k = some wi)
    (hrow : row.state = .claimed) (hepochs : t.cellEpochs = s.cellEpochs)
    (hbad : ¬ (EpochFree s k w start ∧
      ∀ result, committing r w start = some result → ¬ CommittedBefore s.database k)) :
    ∃ e u, runClaimed r w phaseId k start cell row.attemptId (alive t) = (.error e, u) := by
  obtain ⟨refs, t₁, hstored, h₁, hepochs₁⟩ := h.stored (w.now 2) w.stored
  unfold runClaimed
  rw [bind_of_ok hstored]
  by_cases hfree : EpochFree s k w start
  · have hfree₁ : EpochFree t₁ k w start := by
      unfold EpochFree
      rw [hepochs₁, hepochs]
      exact hfree
    have htwice : ∃ result, committing r w start = some result ∧ CommittedBefore s.database k := by
      by_contra hno
      push Not at hno
      exact hbad ⟨hfree, hno⟩
    obtain ⟨result, hcommit, htwice⟩ := htwice
    unfold committing at hcommit
    split at hcommit
    · cases hcommit
    · rename_i result' hgraph
      split at hcommit
      · cases hcommit
      · rename_i hgood
        cases hcommit
        rw [hgraph]
        exact recordResult_refused phaseId cell h₁ hwi hrow hfree₁ hgood htwice
  · have hother : ∃ other, t₁.cellEpochs.get? k = some other ∧
        other ≠ (epochSpan start w.endEpoch).recorded := by
      rw [hepochs₁, hepochs]
      cases hget : s.cellEpochs.get? k with
      | none => exact absurd (.inl hget) hfree
      | some other =>
        refine ⟨other, rfl, ?_⟩
        rintro rfl
        exact hfree (.inr hget)
    obtain ⟨other, hother, hne⟩ := hother
    obtain ⟨e, he⟩ := epoch_refused hother hne
    cases hgraph : w.graph with
    | error ex => exact ⟨e, alive t₁, bind_of_error he⟩
    | ok result => exact ⟨e, alive t₁, bind_of_error he⟩

end
end Shapeflow.Campaign
