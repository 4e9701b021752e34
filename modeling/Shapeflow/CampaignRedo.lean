import Mathlib.Data.List.Flatten
import Shapeflow.CampaignResume
import Shapeflow.CoordinatorRun

set_option autoImplicit false

/-!
# When a resumed run redoes what is not verifiable

`run_cells` first ensures an item for each scheduled cell and reads the states,
then runs the loop over the owned ones.
-/
namespace Shapeflow.Campaign
open Script Database WorkLedger Coordinator ObjectStore

section
variable {β γ : Type} {r : CampaignRunner β γ} {s t u : Lane β} {k : String}

/-! ## Ensuring the items -/

/-- `t` is `s` with pending items added. -/
structure Ensured (s t : Lane β) : Prop where
  attempts : t.database.attempts.rows = s.database.attempts.rows
  epochs : t.cellEpochs = s.cellEpochs
  objects : t.objects = s.objects
  kept : ∀ k item, fetchWorkItem s.database k = some item → fetchWorkItem t.database k = some item
  fresh : ∀ k item, fetchWorkItem s.database k = none → fetchWorkItem t.database k = some item →
    item.state = .pending

theorem Ensured.refl (s : Lane β) : Ensured s s := by
  refine ⟨rfl, rfl, rfl, fun _ _ h => h, ?_⟩
  intro k item hnone hsome
  rw [hnone] at hsome
  cases hsome

theorem Ensured.trans (h : Ensured s t) (h' : Ensured t u) : Ensured s u := by
  refine ⟨h'.attempts.trans h.attempts, h'.epochs.trans h.epochs, h'.objects.trans h.objects,
    fun k item hs => h'.kept k item (h.kept k item hs), ?_⟩
  intro k item hnone hsome
  cases ht : fetchWorkItem t.database k with
  | none => exact h'.fresh k item ht hsome
  | some item' =>
    have hsome' := h'.kept k item' ht
    rw [hsome] at hsome'
    cases hsome'
    exact h.fresh k item hnone ht

theorem Ensured.committedRef (h : Ensured s t) (k : String) :
    WorkLedger.committedRef t.database k = WorkLedger.committedRef s.database k := by
  unfold WorkLedger.committedRef
  rw [h.attempts]

theorem Ensured.present (h : Ensured s t) (hs : fetchWorkItem s.database k ≠ none) :
    fetchWorkItem t.database k ≠ none := by
  obtain ⟨item, hitem⟩ := Option.ne_none_iff_exists'.mp hs
  rw [h.kept k item hitem]
  simp

/-- Ensuring items changes no reported state. -/
theorem Ensured.reported (h : Ensured s t) (k : String) :
    Campaign.reported r t k = Campaign.reported r s k := by
  cases hs : fetchWorkItem s.database k with
  | none =>
    rw [reported_of_none hs]
    cases ht : fetchWorkItem t.database k with
    | none => exact reported_of_none ht
    | some item =>
      have hst := h.fresh k item hs ht
      rw [reported_of_item ht (by simp [hst]), hst]
  | some item =>
    unfold Campaign.reported
    rw [hs, h.kept k item hs, h.committedRef, h.objects]

theorem Ensured.finished_iff (h : Ensured s t) : Finished r t k ↔ Finished r s k := by
  unfold Finished
  rw [h.reported]

theorem Ensured.newAttempt_iff (h : Ensured s t) : NewAttempt t u k ↔ NewAttempt s u k := by
  unfold NewAttempt
  rw [h.attempts]

theorem Ensured.idsDerived (h : Ensured s t) (hderived : IdsDerived r.ledger.ids s.database) :
    IdsDerived r.ledger.ids t.database := by
  unfold IdsDerived
  rw [h.attempts]
  exact hderived

variable {world : Cell → CellWorld β γ} {questions : String → Option String} {phaseId split : String}
  {cell : Cell}

theorem Ensured.redoable_iff (h : Ensured s t) :
    Redoable r world questions phaseId split t cell ↔ Redoable r world questions phaseId split s cell := by
  have hbefore : CommittedBefore t.database (workKeyOf r phaseId split cell) ↔
      CommittedBefore s.database (workKeyOf r phaseId split cell) := by
    unfold CommittedBefore
    rw [h.attempts]
  constructor
  · intro hredo
    obtain ⟨start, hstart, hfree, hcommit⟩ := hredo.epoch
    refine ⟨hredo.question, fun item hitem => hredo.pending item (h.kept _ item hitem), start, hstart, ?_, ?_⟩
    · unfold EpochFree at hfree ⊢
      rw [← h.epochs]
      exact hfree
    · intro result hresult
      rw [← hbefore, ← h.objects]
      exact hcommit result hresult
  · intro hredo
    obtain ⟨start, hstart, hfree, hcommit⟩ := hredo.epoch
    refine ⟨hredo.question, ?_, start, hstart, ?_, ?_⟩
    · intro item hitem
      cases hs : fetchWorkItem s.database (workKeyOf r phaseId split cell) with
      | none => exact h.fresh _ item hs hitem
      | some item' =>
        have hitem' := h.kept _ item' hs
        rw [hitem] at hitem'
        cases hitem'
        exact hredo.pending item hs
    · unfold EpochFree
      rw [h.epochs]
      exact hfree
    · intro result hresult
      rw [hbefore, h.objects]
      exact hcommit result hresult

theorem ensureWorkItem_ok (ledger : Ledger) (now : ℚ) (c : Coordinates) (side : Bool) (s : Database) :
    ∃ t, ensureWorkItem ledger now c side none s = (.ok (ledger.ids.workItem c), t) := by
  by_cases h : WorkItemKeys (s.workItems.rows ++ [freshItem ledger now c side none])
  · have hrun : transaction (workItemsSlot.insertOrIgnore (freshItem ledger now c side none)) s =
        ((.ok (), workItemsSlot.put ⟨_, h⟩ s) : Except Raised Unit × Database) :=
      transaction_of_ok (dif_pos h)
    exact ⟨_, bind_of_ok hrun⟩
  · have hrun : transaction (workItemsSlot.insertOrIgnore (freshItem ledger now c side none)) s =
        ((.ok (), s) : Except Raised Unit × Database) := transaction_of_ok (dif_neg h)
    exact ⟨_, bind_of_ok hrun⟩

/-- The item of a cell after it was ensured. -/
theorem workKeyFor_ensured (r : CampaignRunner β γ) (now : ℚ) (phaseId split : String) (cell : Cell)
    (s : Lane β) :
    ∃ t, workKeyFor r now phaseId split cell (alive s) = (.ok (workKeyOf r phaseId split cell), alive t) ∧
      Ensured s t ∧ fetchWorkItem t.database (workKeyOf r phaseId split cell) ≠ none := by
  obtain ⟨d, hd⟩ := ensureWorkItem_ok r.ledger now (coordinatesOf r phaseId split cell) true s.database
  have hrows := ensureWorkItem_rows r.ledger now (coordinatesOf r phaseId split cell) true none s.database
  rw [after_of_ok hd] at hrows
  change workRows d =
    if fetchWorkItem s.database (workKeyOf r phaseId split cell) = none then _ else _ at hrows
  refine ⟨{ s with database := d }, onLedger_ok hd, ?_⟩
  by_cases hnone : fetchWorkItem s.database (workKeyOf r phaseId split cell) = none
  · rw [if_pos hnone, workRows, Prod.mk.injEq, Prod.mk.injEq] at hrows
    obtain ⟨hitems, hattempts, -⟩ := hrows
    have hfetch : ∀ j, fetchWorkItem d j = (fetchWorkItem s.database j).or
        (if j = workKeyOf r phaseId split cell then
          some (freshItem r.ledger now (coordinatesOf r phaseId split cell) true none) else none) := by
      intro j
      unfold fetchWorkItem
      rw [hitems, List.find?_append]
      congr 1
      by_cases hj : j = workKeyOf r phaseId split cell
      · rw [if_pos hj, List.find?_cons_of_pos (by simp [hj, freshItem, workKeyOf])]
      · have hne : ¬ decide (r.ledger.ids.workItem (coordinatesOf r phaseId split cell) = j) = true := by
          rw [decide_eq_true_eq]
          exact Ne.symm hj
        rw [if_neg hj]
        exact List.find?_cons_of_neg hne
    refine ⟨⟨hattempts, rfl, rfl, ?_, ?_⟩, ?_⟩
    · intro j item hj
      change fetchWorkItem d j = some item
      rw [hfetch, hj]
      rfl
    · intro j item hj hitem
      change fetchWorkItem d j = some item at hitem
      rw [hfetch, hj, Option.none_or] at hitem
      split at hitem
      · cases hitem
        rfl
      · cases hitem
    · change fetchWorkItem d _ ≠ none
      rw [hfetch, hnone, if_pos rfl]
      simp
  · have hsame := ensureWorkItem_present r.ledger now (coordinatesOf r phaseId split cell) true hnone
    rw [hd, Prod.mk.injEq] at hsame
    rw [hsame.2]
    exact ⟨Ensured.refl s, hnone⟩

/-! ## Reading the states -/

/-- Every state can be read: no committed reference is a malformed key. -/
def Readable (r : CampaignRunner β γ) (phaseId split : String) (s : Lane β) (cells : List Cell) : Prop :=
  ∀ cell ∈ cells, ∃ state, reported r s (workKeyOf r phaseId split cell) = .ok state

theorem Ensured.readable_iff (h : Ensured s t) {cells : List Cell} :
    Readable r phaseId split t cells ↔ Readable r phaseId split s cells := by
  unfold Readable
  simp only [h.reported]

theorem cellState_run (r : CampaignRunner β γ) (now : ℚ) (phaseId split : String) (cell : Cell)
    (s : Lane β) :
    ∃ t, Ensured s t ∧ fetchWorkItem t.database (workKeyOf r phaseId split cell) ≠ none ∧
      cellState r now phaseId split cell (alive s) =
        match reported r s (workKeyOf r phaseId split cell) with
        | .error e => (.error (.raised (.store e)), alive t)
        | .ok state => (.ok (cellKey cell, .work state), alive t) := by
  obtain ⟨t, hkey, ht, hpresent⟩ := workKeyFor_ensured r now phaseId split cell s
  refine ⟨t, ht, hpresent, ?_⟩
  unfold cellState
  rw [bind_of_ok hkey, bind_of_ok (readLane_run t), ht.reported]
  cases reported r s (workKeyOf r phaseId split cell) with
  | error e => rfl
  | ok state => rfl

/-- What reading the states of `cells` leaves: an item for each of them, and its state. -/
theorem cellStates_reads (r : CampaignRunner β γ) (now : ℚ) (phaseId split : String) (cells : List Cell)
    (s : Lane β) (hreadable : Readable r phaseId split s cells) :
    ∃ pairs t, forEach (cellState r now phaseId split) cells (alive s) = (.ok pairs, alive t) ∧
      Ensured s t ∧ pairs.map Prod.fst = cells.map cellKey ∧
      ∀ cell ∈ cells, fetchWorkItem t.database (workKeyOf r phaseId split cell) ≠ none ∧
        ∃ state, reported r s (workKeyOf r phaseId split cell) = .ok state ∧
          (cellKey cell, CellState.work state) ∈ pairs := by
  induction cells generalizing s with
  | nil => exact ⟨[], s, rfl, Ensured.refl s, rfl, fun cell hcell => by cases hcell⟩
  | cons cell rest ih =>
    obtain ⟨hhead, htail⟩ := List.forall_mem_cons.mp hreadable
    obtain ⟨state, hstate⟩ := hhead
    obtain ⟨t, ht, hpresent, hrun⟩ := cellState_run r now phaseId split cell s
    rw [hstate] at hrun
    obtain ⟨pairs, u, hrest, hu, hkeys, hall⟩ := ih t (ht.readable_iff.mpr htail)
    refine ⟨_, u, (bind_of_ok hrun).trans (bind_of_ok hrest), ht.trans hu, ?_, ?_⟩
    · rw [List.map_cons, List.map_cons, hkeys]
    · refine List.forall_mem_cons.mpr ⟨⟨hu.present hpresent, state, hstate, List.mem_cons_self⟩, ?_⟩
      intro c hc
      obtain ⟨hpresent', state', hstate', hmem⟩ := hall c hc
      rw [ht.reported] at hstate'
      exact ⟨hpresent', state', hstate', List.mem_cons_of_mem _ hmem⟩

theorem cellStates_raises (r : CampaignRunner β γ) (now : ℚ) (phaseId split : String) (cells : List Cell)
    (s : Lane β) (hunreadable : ¬ Readable r phaseId split s cells) :
    ∃ e u, forEach (cellState r now phaseId split) cells (alive s) = (.error e, u) := by
  induction cells generalizing s with
  | nil => exact absurd (fun cell hcell => by cases hcell) hunreadable
  | cons cell rest ih =>
    obtain ⟨t, ht, -, hrun⟩ := cellState_run r now phaseId split cell s
    cases hstate : reported r s (workKeyOf r phaseId split cell) with
    | error e =>
      rw [hstate] at hrun
      exact ⟨_, _, bind_of_error hrun⟩
    | ok state =>
      rw [hstate] at hrun
      have hrest : ¬ Readable r phaseId split t rest := by
        intro hrest
        exact hunreadable (List.forall_mem_cons.mpr ⟨⟨state, hstate⟩, ht.readable_iff.mp hrest⟩)
      obtain ⟨e, u, hrun'⟩ := ih t hrest
      exact ⟨e, u, (bind_of_ok hrun).trans (bind_of_error hrun')⟩

/-! ## Owned cells -/

/-- The ids of the offered cells do not collide. -/
def CollisionFree (r : CampaignRunner β γ) (manifest : ScheduleManifest) (phaseId split : String) : Prop :=
  ∀ c ∈ manifest.cells, ∀ d ∈ manifest.cells, workKeyOf r phaseId split c = workKeyOf r phaseId split d →
    coordinatesOf r phaseId split c = coordinatesOf r phaseId split d

variable {manifest : ScheduleManifest}

theorem cellKey_of_coordinates {c d : Cell}
    (h : coordinatesOf r phaseId split c = coordinatesOf r phaseId split d) : cellKey c = cellKey d := by
  have hblock : c.blockId = d.blockId := congrArg Coordinates.checkpointHash h
  have harm : c.arm.armId = d.arm.armId := congrArg Coordinates.armId h
  have hreplicate : c.replicateId = d.replicateId := congrArg Coordinates.replicateId h
  unfold cellKey
  rw [hblock, harm, hreplicate]

theorem ownedCells_subset (hcell : cell ∈ ownedCells r manifest) : cell ∈ manifest.cells := by
  obtain ⟨block, hblock, hmem⟩ := List.mem_flatMap.mp hcell
  exact ScheduleManifest.mem_cells.mpr ⟨block, (List.mem_filter.mp hblock).1, mem_inOrder.mp hmem⟩

theorem ownedCells_distinct (r : CampaignRunner β γ) (manifest : ScheduleManifest) :
    ((ownedCells r manifest).map cellKey).Nodup := by
  have hperm : (ownedCells r manifest).Perm ((manifest.blocks.filter (owns r)).flatMap (·.cells)) :=
    List.Perm.flatMap_left _ fun block _ => inOrder_perm block
  have hsub : List.Sublist ((manifest.blocks.filter (owns r)).flatMap (·.cells)) manifest.cells :=
    List.filter_sublist.flatMap _
  exact (hperm.map cellKey).nodup_iff.mpr (manifest.distinctCells.sublist (hsub.map cellKey))

/-- Once the items are ensured, the loop finds an item of its own for each owned cell. -/
theorem ownedCells_loaded (hfree : CollisionFree r manifest phaseId split)
    (hpresent : ∀ cell ∈ manifest.cells, fetchWorkItem s.database (workKeyOf r phaseId split cell) ≠ none) :
    Loaded r phaseId split s (ownedCells r manifest) := by
  have hdistinct := ownedCells_distinct r manifest
  refine ⟨hdistinct, ?_, fun cell hcell => hpresent cell (ownedCells_subset hcell)⟩
  apply List.Nodup.map_on _ hdistinct.of_map
  intro c hc d hd heq
  have hcoordinates := hfree c (ownedCells_subset hc) d (ownedCells_subset hd) heq
  exact List.inj_on_of_nodup_map hdistinct hc hd (cellKey_of_coordinates hcoordinates)

/-! ## Skipping -/

/-- The cells of a loop that are not terminal in `states`. -/
def openCells (states : Dict String CellState) (cells : List Cell) : List Cell :=
  cells.filter fun cell => isTerminal (states.get? (cellKey cell)) = false

/-- The loop is the loop over the open cells. -/
theorem cellLoop_skips (cells : List Cell) (states : Dict String CellState) (n : ℕ)
    (outs : List CellOutcome) (hdistinct : (cells.map cellKey).Nodup) :
    cellLoop r world phaseId split questions cells states n outs =
      cellLoop r world phaseId split questions (openCells states cells) states n outs := by
  induction cells generalizing states n outs with
  | nil => rfl
  | cons cell rest ih =>
    obtain ⟨hnew, hrest⟩ := List.nodup_cons.mp hdistinct
    cases hterminal : isTerminal (states.get? (cellKey cell)) with
    | true =>
      have hskip : openCells states (cell :: rest) = openCells states rest := by
        unfold openCells
        rw [List.filter_cons_of_neg (by simp [hterminal])]
      rw [cellLoop_terminal rest n outs hterminal, hskip, ih states n outs hrest]
    | false =>
      have hkeep : openCells states (cell :: rest) = cell :: openCells states rest := by
        unfold openCells
        rw [List.filter_cons_of_pos (by simp [hterminal])]
      have hset : ∀ v, openCells (states.set (cellKey cell) v) rest = openCells states rest := by
        intro v
        apply List.filter_congr
        intro c hc
        have hne : cellKey c ≠ cellKey cell := fun heq => hnew (heq ▸ List.mem_map_of_mem hc)
        rw [Dict.get?_set_ne _ _ hne]
      have hbody : ∀ v n outs, cellLoop r world phaseId split questions rest (states.set (cellKey cell) v)
          n outs = cellLoop r world phaseId split questions (openCells states rest)
            (states.set (cellKey cell) v) n outs := by
        intro v n outs
        rw [ih _ n outs hrest, hset]
      rw [hkeep, cellLoop, cellLoop]
      simp only [hbody, ih states n outs hrest]

theorem Loaded.open {cells : List Cell} (h : Loaded r phaseId split s cells)
    (states : Dict String CellState) : Loaded r phaseId split s (openCells states cells) := by
  have hsub : List.Sublist (openCells states cells) cells := List.filter_sublist
  exact ⟨h.distinct.sublist (hsub.map _), h.works.sublist (hsub.map _),
    fun c hc => h.present c (hsub.subset hc)⟩

/-- A loop that returns leaves the cells it skipped alone. -/
theorem cellLoop_keeps (hids : AttemptIdsDistinct r.ledger.ids) (hgo : Unhindered r world)
    {cells : List Cell} {states : Dict String CellState} {n : ℕ} {outs : List CellOutcome}
    (hderived : IdsDerived r.ledger.ids s.database) (hloaded : Loaded r phaseId split s cells)
    {outcomes : List CellOutcome}
    (hrun : cellLoop r world phaseId split questions cells states n outs (alive s) =
      (.ok outcomes, alive t))
    (hcell : cell ∈ cells) (hterminal : isTerminal (states.get? (cellKey cell)) = true) :
    Untouched s t (workKeyOf r phaseId split cell) ∧ Grown r.hash s.objects t.objects := by
  rw [cellLoop_skips cells states n outs hloaded.distinct] at hrun
  obtain ⟨t', ht, hpassed⟩ := cellLoop_passed hids hgo _ states n outs hderived (hloaded.open states) hrun
  cases ht
  refine ⟨hpassed.untouched _ ?_, hpassed.grown⟩
  intro hmem
  obtain ⟨c, hc, hkey⟩ := List.mem_map.mp hmem
  obtain ⟨hin, hopen⟩ := List.mem_filter.mp hc
  have heq : c = cell := List.inj_on_of_nodup_map hloaded.works hin hcell hkey
  rw [heq, hterminal] at hopen
  simp at hopen

/-! ## The whole run -/

/-- `run_cells` returns, having executed every owned cell that was not reported terminal and leaving
    every owned cell failed terminally or committed with a blob that verifies. -/
def Redoes (r : CampaignRunner β γ) (now : ℚ) (world : Cell → CellWorld β γ) (manifest : ScheduleManifest)
    (phaseId split : String) (questions : String → Option String) (s : Lane β) : Prop :=
  ∃ outcomes t, runCells r now world manifest phaseId split questions (alive s) = (.ok outcomes, alive t) ∧
    ∀ cell ∈ ownedCells r manifest,
      (¬ Finished r s (workKeyOf r phaseId split cell) → NewAttempt s t (workKeyOf r phaseId split cell)) ∧
      Settled r t (workKeyOf r phaseId split cell)

/-- The schedule is this runner's, its states can be read, and what is left can be redone. -/
structure Resumable (r : CampaignRunner β γ) (world : Cell → CellWorld β γ) (manifest : ScheduleManifest)
    (phaseId split : String) (questions : String → Option String) (s : Lane β) : Prop where
  binding : manifest.executionBindingSha256 = r.executionBindingSha256
  protocol : manifest.protocolSha = r.protocolDocumentSha256
  readable : Readable r phaseId split s manifest.cells
  redoable : ∀ cell ∈ ownedCells r manifest, ¬ Finished r s (workKeyOf r phaseId split cell) →
    Redoable r world questions phaseId split s cell

theorem assertManifestIdentity_ok (hbinding : manifest.executionBindingSha256 = r.executionBindingSha256)
    (hprotocol : manifest.protocolSha = r.protocolDocumentSha256) (s : Session (Lane β)) :
    assertManifestIdentity r manifest s = (.ok (), s) := by
  unfold assertManifestIdentity
  rw [if_neg (not_not.mpr hbinding), if_neg (not_not.mpr hprotocol)]
  rfl

theorem assertManifestIdentity_raises
    (h : ¬ (manifest.executionBindingSha256 = r.executionBindingSha256 ∧
      manifest.protocolSha = r.protocolDocumentSha256)) (s : Session (Lane β)) :
    ∃ e, assertManifestIdentity r manifest s = (.error e, s) := by
  unfold assertManifestIdentity
  by_cases hbinding : manifest.executionBindingSha256 = r.executionBindingSha256
  · have hprotocol : manifest.protocolSha ≠ r.protocolDocumentSha256 := fun heq => h ⟨hbinding, heq⟩
    rw [if_neg (not_not.mpr hbinding), if_pos hprotocol]
    exact ⟨_, refuse_run _ s⟩
  · rw [if_pos hbinding]
    exact ⟨_, refuse_run _ s⟩

/-- What is reported for a cell decides whether the loop comes to it. -/
theorem isTerminal_iff_finished {state : WorkState} (h : reported r s k = .ok state) :
    isTerminal (some (.work state)) = true ↔ Finished r s k := by
  unfold Finished isTerminal
  rw [decide_eq_true_eq]
  constructor
  · intro hterminal
    exact ⟨state, h, hterminal⟩
  · rintro ⟨state', h', hterminal⟩
    rw [h] at h'
    cases h'
    exact hterminal

/-- `run_cells` on readable states: the items are there and the loop starts with the reported states. -/
theorem runCells_loop (now : ℚ) (world : Cell → CellWorld β γ) (questions : String → Option String)
    (hbinding : manifest.executionBindingSha256 = r.executionBindingSha256)
    (hprotocol : manifest.protocolSha = r.protocolDocumentSha256)
    (hreadable : Readable r phaseId split s manifest.cells) :
    ∃ states t, Ensured s t ∧
      (∀ cell ∈ manifest.cells, fetchWorkItem t.database (workKeyOf r phaseId split cell) ≠ none ∧
        (isTerminal (states.get? (cellKey cell)) = true ↔ Finished r s (workKeyOf r phaseId split cell))) ∧
      runCells r now world manifest phaseId split questions (alive s) =
        cellLoop r world phaseId split questions (ownedCells r manifest) states 0 [] (alive t) := by
  obtain ⟨pairs, t, hrun, ht, hkeys, hall⟩ := cellStates_reads r now phaseId split manifest.cells s hreadable
  have hnodup : (pairs.map Prod.fst).Nodup := by
    rw [hkeys]
    exact manifest.distinctCells
  refine ⟨Dict.ofPairs pairs, t, ht, ?_, ?_⟩
  · intro cell hcell
    obtain ⟨hpresent, state, hstate, hmem⟩ := hall cell hcell
    refine ⟨hpresent, ?_⟩
    rw [(Dict.get?_ofPairs_of_nodup hnodup).mpr hmem]
    exact isTerminal_iff_finished hstate
  · unfold runCells
    rw [bind_of_ok (assertManifestIdentity_ok hbinding hprotocol _)]
    exact bind_of_ok (bind_of_ok hrun)

end

/-! ## A lost blob -/

section
variable {β γ : Type}

instance (r : CampaignRunner β γ) (s : Lane β) (k : String) : Decidable (Finished r s k) :=
  match h : reported r s k with
  | .ok state => decidable_of_iff (state ∈ terminalStates)
      ⟨fun hterminal => ⟨state, h, hterminal⟩, fun ⟨_, h', hterminal⟩ => Except.ok.inj (h.symm.trans h') ▸ hterminal⟩
  | .error _ => .isFalse fun ⟨_, h', _⟩ => nomatch h.symm.trans h'

end

instance (ids : DerivedIds) (s : Database) : Decidable (IdsDerived ids s) :=
  List.decidableBAll _ s.attempts.rows

/-- A digest that tells texts of different lengths apart, as far as one hex digit can. -/
def lengthHash (raw : String) : String :=
  .ofList (List.replicate 63 '0' ++ [Nat.digitChar (raw.length % 16)])

theorem isKey_lengthHash (raw : String) : isKey (lengthHash raw) := by
  have hdigit : ∀ n < 16, isKey (.ofList (List.replicate 63 '0' ++ [Nat.digitChar n])) := by decide +kernel
  exact hdigit (raw.length % 16) (Nat.mod_lt _ (by decide))

def sampleRunner : CampaignRunner String Unit where
  ledger := ⟨.plain, 3⟩
  config := { runId := "run" }
  executionBindingSha256 := "binding"
  protocolDocumentSha256 := "protocol"
  claimScope := "development"
  layerIsSerialized := false
  canonical doc := match doc with
    | .output .. => "output"
    | .failure .. => "fail"
    | .tombstone .. => "gone"
  hash := lengthHash
  rawSize raw := raw.length
  storedSize raw := raw.length

def sampleCell : Cell := ⟨"b0", "t1", ⟨"P0", "P0", "P0"⟩, 7, "r0", 0⟩

def sampleManifest : ScheduleManifest where
  executionBindingSha256 := "binding"
  protocolSha := "protocol"
  split := "dev"
  blocks := [⟨"b0", "t1", "r0", [sampleCell]⟩]
  distinctCells := by decide
  distinctBlocks := by decide
  placed := by decide
  offered := by decide

/-- The graph returns without an error, under one engine epoch and with complete telemetry. -/
def smoothWorld (_ : Cell) : CellWorld String Unit where
  startEpoch := some "epoch"
  endEpoch := some "epoch"
  now _ := 1
  stored := []
  graph := .ok ⟨"", 0, ()⟩
  workSummary := { telemetryComplete := true, byOp := true, overlapValid := true }

def askAll (_ : String) : Option String := some "question"

def emptyLane : Lane String := ⟨.empty, Dict.empty, .empty⟩

def sampleRun : Steps String (List CellOutcome) :=
  runCells sampleRunner 0 smoothWorld sampleManifest "phase" "dev" askAll

theorem smooth_unhindered : Unhindered sampleRunner smoothWorld := ⟨fun _ => rfl, rfl⟩

theorem sample_collisionFree : CollisionFree sampleRunner sampleManifest "phase" "dev" := by
  intro c hc d hd _
  have hone : ∀ c ∈ sampleManifest.cells, c = sampleCell := by decide
  rw [hone c hc, hone d hd]

/-- What a run left, its blob deleted since. -/
def lostBlob : Lane String := { (sampleRun.after (alive emptyLane)).store with objects := .empty }

end Shapeflow.Campaign
