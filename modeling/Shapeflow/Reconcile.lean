import Shapeflow.Dict
import Shapeflow.ExternalCallsMoney

set_option autoImplicit false

/-!
# Reconciliation when the provider starts

`reconcile_on_start` closes what a dead provider left in flight: attempts that
may have been dispatched keep their worst case, the others give their money
back. Nothing live and nothing reserved is left, whatever the crash left behind.
-/
namespace Shapeflow.ExternalCalls
open Script Database Session Table Budget Run

/-- `live_attempts`: the attempts of every call that are not over, oldest first. -/
def allLiveAttempts (s : Database) : List AttemptHandle :=
  ((s.externalCallAttempts.rows.filter fun r => r.state ∉ attemptTerminal).insertionSort
    fun a b => a.openedAt ≤ b.openedAt).map fun r => ⟨r.callId, r.attemptId, r.attemptOrdinal⟩

def attemptWasSent (s : Database) (attemptId : String) : Bool :=
  match fetchCallAttempt s attemptId with
  | none => false
  | some r => r.state ∈ attemptSentStates

/-- A handle on the reserved rows of an attempt whose own handle is gone. -/
def groupFor (s : Database) (attemptId : String) : Option ReservationGroup :=
  let rows := s.budgetReservations.rows.filter fun r => r.attemptId = some attemptId ∧ r.state = .reserved
  if rows = [] then none
  else
    let amounts := Dict.ofPairs (rows.map fun r => (r.resource, r.amount))
    some ⟨attemptId, ⟨amounts.entries, amounts.distinct⟩⟩

/-- One turn of the loop; the value tells whether the attempt kept its worst case. -/
def reconcileAttempt (l : ExternalCallLedger) (now : ℚ) (attempt : AttemptHandle) : Proc Bool := do
  let s ← getStore
  let group := groupFor s.store attempt.attemptId
  if attemptWasSent s.store attempt.attemptId then do
    failUnknown l now attempt group "provider_restart"
    pure true
  else do
    failBeforeSend l now attempt group "provider_restart"
    pure false

/-- The counts it returns and the nonce it starts inference call ids from. -/
structure Reconciled where
  failedUnknown : ℕ
  released : ℕ
  nonceCounter : ℕ

def reconcileOnStart (l : ExternalCallLedger) (now : ℚ) : Proc Reconciled := do
  let s ← getStore
  let kept ← forEach (reconcileAttempt l now) (allLiveAttempts s.store)
  let s ← getStore
  pure ⟨kept.count true, kept.count false, s.store.externalCalls.rows.countP fun r => r.provider = "vllm"⟩

/-! ## A transition of a live attempt goes through -/

/-- Nothing else of the call has committed, if that is where the attempt goes. -/
def Free (s : Database) (r : ExternalAttemptRow) (state : CallAttemptState) : Prop :=
  state = .committed → ∀ q ∈ s.externalCallAttempts.rows, q.callId = r.callId → q.state ≠ .committed

theorem callAttemptKeys_updated {s : Database} {r : ExternalAttemptRow} {state : CallAttemptState}
    (cols : List AttemptColumn) (hr : r ∈ s.externalCallAttempts.rows) (hfree : Free s r state) :
    CallAttemptKeys (attemptsAdvanced s r.attemptId state cols) := by
  obtain ⟨hid, hord, hcommit⟩ := s.externalCallAttempts.sound
  unfold attemptsAdvanced
  refine ⟨?_, ?_, ?_⟩
  · rw [map_updated _ fun r _ _ => by simp]
    exact hid
  · rw [map_updated _ fun r _ _ => by simp]
    exact hord
  · by_cases hstate : state = .committed
    · refine index_updated_nodup hid hcommit hr (by simp) ?_
      intro q hq hqr
      exact decide_eq_false (hfree hstate q hq hqr)
    · refine List.Nodup.sublist (index_updated_sublist (fun r => by simp) fun r hr => ?_) hcommit
      simp [hstate] at hr

/-- The transition's guard on the state selects the attempt and nothing else. -/
theorem updated_guarded {s : Database} {r : ExternalAttemptRow} (hr : r ∈ s.externalCallAttempts.rows)
    (state : CallAttemptState) (cols : List AttemptColumn) :
    updated (fun q => q.attemptId = r.attemptId ∧ q.state = r.state) (advancedRow state cols)
      s.externalCallAttempts.rows = attemptsAdvanced s r.attemptId state cols := by
  apply List.map_congr_left
  intro q hq
  by_cases hqr : q.attemptId = r.attemptId
  · simp [eq_of_key s.externalCallAttempts.sound.1 hq hr hqr]
  · simp [hqr]

theorem callKeys_updated {p : ExternalCallRow → Bool} {f : ExternalCallRow → ExternalCallRow}
    {rows : List ExternalCallRow} (h : CallKeys rows) (hf : ∀ r, (f r).callId = r.callId) :
    CallKeys (updated p f rows) := by
  unfold CallKeys
  rw [map_updated _ fun r _ _ => hf r]
  exact h

/-- Advancing along a legal edge goes through. -/
theorem advanceIn_run (now : ℚ) {h : AttemptHandle} {state : CallAttemptState} (cols : List AttemptColumn)
    {s : Database} {r : ExternalAttemptRow} (hr : r ∈ s.externalCallAttempts.rows)
    (hid : r.attemptId = h.attemptId) (hlegal : state ∈ legalAttempt r.state) (hfree : Free s r state) :
    ∃ t, advanceIn now h state cols s = (.ok (), t) := by
  have hkeys : CallAttemptKeys (updated (fun q => q.attemptId = h.attemptId ∧ q.state = r.state)
      (advancedRow state cols) (externalCallAttemptsSlot.get s).rows) := by
    rw [← hid]
    exact updated_guarded hr state cols ▸ callAttemptKeys_updated cols hr hfree
  have hcount : (externalCallAttemptsSlot.get s).rows.countP
      (fun q => q.attemptId = h.attemptId ∧ q.state = r.state) = 1 := by
    have hle := List.nodup_iff_count_le_one.mp s.externalCallAttempts.sound.1 h.attemptId
    rw [List.count, List.countP_map] at hle
    have hmono : (externalCallAttemptsSlot.get s).rows.countP (fun q => q.attemptId = h.attemptId ∧ q.state = r.state) ≤
        (externalCallAttemptsSlot.get s).rows.countP ((fun x => x == h.attemptId) ∘ fun q => q.attemptId) := by
      refine List.countP_mono_left ?_
      intro q _ hq
      simp only [decide_eq_true_eq] at hq
      simp [hq.1]
    have hpos : 0 < (externalCallAttemptsSlot.get s).rows.countP
        (fun q => q.attemptId = h.attemptId ∧ q.state = r.state) :=
      List.countP_pos_iff.mpr ⟨r, hr, by simp [hid]⟩
    exact le_antisymm (hmono.trans hle) hpos
  have hcalls : ∀ u : Database, CallKeys (updated (fun c => c.callId = h.callId)
      (callAfter now h.attemptId state) (externalCallsSlot.get u).rows) :=
    fun u => callKeys_updated u.externalCalls.sound fun r => by simp
  have hfetch : fetchCallAttempt s h.attemptId = some r := hid ▸ fetchCallAttempt_of_mem hr
  unfold advanceIn
  rw [getStore_bind, hfetch]
  dsimp only
  rw [if_neg (not_not.mpr hlegal)]
  apply Exists.intro
  refine (bind_of_ok (Slot.update_of_schema externalCallAttemptsSlot Raised.integrityError hkeys)).trans ?_
  rw [if_neg (not_not.mpr hcount)]
  refine (bind_of_ok (Slot.insert_of_schema externalCallTransitionsSlot Raised.integrityError trivial)).trans ?_
  exact bind_of_ok (Slot.update_of_schema externalCallsSlot Raised.integrityError (hcalls _))

theorem resolveGroup_run (l : ExternalCallLedger) (now : ℚ) (group : Option ReservationGroup) (mode : Mode)
    (s : Database) : ∃ overs t, resolveGroup l now group mode s = (.ok overs, t) := by
  cases group with
  | none => exact ⟨[], s, rfl⟩
  | some g =>
    obtain ⟨overs, hrun⟩ := resolveIn_run l.budget now g mode.charge s
    cases mode <;> exact ⟨overs, _, hrun⟩

theorem incidents_run (l : ExternalCallLedger) (now : ℚ) (callId : String) (overs : List UnderReserved)
    (s : Database) : ∃ us t, forEach (fun u : UnderReserved =>
      tx (WorkLedger.recordIncident now "ERROR" "budget_under_reserved" (u.message l.budget.text)
        (some callId))) overs (⟨s, none⟩ : Session Database) =
      ((.ok us : Except (Stopped Raised) (List Unit)), (⟨t, none⟩ : Session Database)) ∧ sameTables s t := by
  induction overs generalizing s with
  | nil => exact ⟨[], s, rfl, rfl, rfl, rfl⟩
  | cons u overs ih =>
    have hu := tx_immortal (recordIncident_run now "ERROR" "budget_under_reserved"
      (u.message l.budget.text) (some callId) s)
    obtain ⟨us, t, hrest, hsame⟩ := ih { s with incidents :=
      ⟨s.incidents.rows ++ [⟨now, "ERROR", "budget_under_reserved", u.message l.budget.text, some callId⟩],
        trivial⟩ }
    refine ⟨() :: us, t, ?_, hsame⟩
    exact forEach_cons_ok.mpr ⟨(), us, _, rfl, hu, hrest⟩

/-- What ending an attempt writes, when the process lives. -/
theorem settleAndAdvance_run (l : ExternalCallLedger) (now : ℚ) {h : AttemptHandle} {state : CallAttemptState}
    (group : Option ReservationGroup) (mode : Mode) (cols : List AttemptColumn) {s : Database}
    {r : ExternalAttemptRow} (hr : r ∈ s.externalCallAttempts.rows) (hid : r.attemptId = h.attemptId)
    (hlegal : state ∈ legalAttempt r.state) (hfree : Free s r state) :
    ∃ t, settleAndAdvance l now h state group mode cols ⟨s, none⟩ = (.ok (), ⟨t, none⟩) ∧
      t.externalCallAttempts.rows = attemptsAdvanced s h.attemptId state (.settledAt now :: cols) ∧
      t.externalCalls.rows = callsAdvanced s now h.callId h.attemptId state ∧
      t.budgetReservations.rows = reservationsResolved l s now group mode := by
  obtain ⟨overs, m, hres⟩ := resolveGroup_run l now group mode s
  obtain ⟨hcalls, hrows⟩ := resolveGroup_ok hres
  have hfree' : Free m r state := by
    unfold Free
    rw [hcalls.2.1]
    exact hfree
  obtain ⟨t, hadv⟩ := advanceIn_run now (.settledAt now :: cols) (s := m) (hcalls.2.1.symm ▸ hr) hid hlegal hfree'
  obtain ⟨-, hatts, hmoved, hkeep⟩ := advanceIn_ok hadv
  have hbody : settleTx l now h state group mode (.settledAt now :: cols) s = (.ok overs, t) :=
    (bind_of_ok hres).trans (bind_of_ok hadv)
  obtain ⟨us, u, hloop, hsame⟩ := incidents_run l now h.callId overs t
  refine ⟨u, ?_, ?_, ?_, ?_⟩
  · exact (bind_of_ok (tx_immortal hbody)).trans (bind_of_ok hloop)
  · rw [hsame.2.1, hatts]
    unfold attemptsAdvanced
    rw [hcalls.2.1]
  · rw [hsame.1, hmoved]
    unfold callsAdvanced
    rw [hcalls.1]
  · rw [hsame.2.2, hkeep, hrows]

/-! ## One turn of the loop -/

def handleOf (r : ExternalAttemptRow) : AttemptHandle := ⟨r.callId, r.attemptId, r.attemptOrdinal⟩

/-- The state and the money mode an attempt is closed with. -/
def closing (state : CallAttemptState) : CallAttemptState × Mode :=
  if state ∈ attemptSentStates then (.failedUnknown, .worstCase) else (.failedFinal, .release)

/-- The call that closes a live attempt. -/
def closingCall (now : ℚ) (s : Database) (r : ExternalAttemptRow) : Call :=
  ⟨now, none, if r.state ∈ attemptSentStates
    then .failUnknown (handleOf r) (groupFor s r.attemptId) "provider_restart"
    else .failBeforeSend (handleOf r) (groupFor s r.attemptId) "provider_restart"⟩

theorem closing_legal {state : CallAttemptState} (h : state ∉ attemptTerminal) :
    (closing state).1 ∈ legalAttempt state ∧ (closing state).1 ∈ attemptTerminal ∧
      (closing state).1 ≠ .committed := by
  cases state <;> simp_all [closing, attemptSentStates, attemptTerminal, legalAttempt]

theorem attemptWasSent_of_mem {s : Database} {r : ExternalAttemptRow}
    (hr : r ∈ s.externalCallAttempts.rows) :
    attemptWasSent s r.attemptId = decide (r.state ∈ attemptSentStates) := by
  unfold attemptWasSent
  rw [fetchCallAttempt_of_mem hr]

/-- The rebuilt handle stands for the reservations of the attempt. -/
theorem groupFor_spec {l : ExternalCallLedger} {s : Database} (hs : MoneySound l s)
    {r : ExternalAttemptRow} (hr : r ∈ s.externalCallAttempts.rows) (hlive : r.state ∉ attemptTerminal) :
    (reservationsOf s r.attemptId = [] ∧ groupFor s r.attemptId = none) ∨
    (reservationsOf s r.attemptId ≠ [] ∧ ∃ amounts, groupFor s r.attemptId = some ⟨r.attemptId, amounts⟩) := by
  obtain ⟨hintent, hheld, -⟩ := hs.coupled r hr
  have hfilter : (s.budgetReservations.rows.filter fun q =>
      q.attemptId = some r.attemptId ∧ q.state = .reserved) =
      (reservationsOf s r.attemptId).filter fun q => q.state = .reserved := by
    unfold reservationsOf
    rw [List.filter_filter]
    apply List.filter_congr
    intro q _
    simp [and_comm]
  unfold groupFor
  by_cases hst : r.state = .intent
  · have hnil := hintent hst
    refine .inl ⟨hnil, ?_⟩
    simp only
    rw [if_pos (by rw [hfilter, hnil]; rfl)]
  · obtain ⟨hne, hall⟩ := hheld ((mem_heldStates r.state).mpr ⟨hlive, hst⟩)
    refine .inr ⟨hne, ?_⟩
    have hself : (reservationsOf s r.attemptId).filter (fun q => q.state = .reserved) =
        reservationsOf s r.attemptId :=
      List.filter_eq_self.mpr fun q hq => by simp [hall q hq]
    simp only
    rw [if_neg (by rw [hfilter, hself]; exact hne)]
    exact ⟨_, rfl⟩

/-- The closing call is one the ledger's invariant allows. -/
theorem closingCall_allowed {l : ExternalCallLedger} (now : ℚ) {s : Database} (hs : MoneySound l s)
    {r : ExternalAttemptRow} (hr : r ∈ s.externalCallAttempts.rows) (hlive : r.state ∉ attemptTerminal) :
    Issued s (closingCall now s r) ∧ PassesItsGroup s (closingCall now s r) ∧
      Orderly l s (closingCall now s r) := by
  have hgroup : ItsGroup s (handleOf r) (groupFor s r.attemptId) := by
    unfold ItsGroup
    change if reservationsOf s r.attemptId = [] then groupFor s r.attemptId = none
      else (groupFor s r.attemptId).map (·.groupId) = some r.attemptId
    rcases groupFor_spec hs hr hlive with ⟨hnil, hg⟩ | ⟨hne, amounts, hg⟩
    · rw [if_pos hnil]
      exact hg
    · rw [if_neg hne, hg]
      rfl
  by_cases hsent : r.state ∈ attemptSentStates
  · have hcall : closingCall now s r =
        ⟨now, none, .failUnknown (handleOf r) (groupFor s r.attemptId) "provider_restart"⟩ := by
      unfold closingCall
      rw [if_pos hsent]
    rw [hcall]
    exact ⟨⟨r, hr, rfl, rfl, rfl⟩, hgroup, trivial⟩
  · have hcall : closingCall now s r =
        ⟨now, none, .failBeforeSend (handleOf r) (groupFor s r.attemptId) "provider_restart"⟩ := by
      unfold closingCall
      rw [if_neg hsent]
    rw [hcall]
    refine ⟨⟨r, hr, rfl, rfl, rfl⟩, hgroup, ?_⟩
    intro a ha hid
    rw [eq_of_key s.externalCallAttempts.sound.1 ha hr hid]
    exact hsent

/-- A live attempt is closed, its reservations are settled as its state asks, and the other
    attempts and reservations stay. -/
theorem reconcileAttempt_run {l : ExternalCallLedger} (hids : l.budget.ids.Separated) (now : ℚ) {s : Database}
    (hs : MoneySound l s) {r : ExternalAttemptRow} (hr : r ∈ s.externalCallAttempts.rows)
    (hlive : r.state ∉ attemptTerminal) :
    ∃ b t cols, reconcileAttempt l now (handleOf r) ⟨s, none⟩ = (.ok b, ⟨t, none⟩) ∧
      t = step l s (closingCall now s r) ∧ MoneySound l t ∧
      t.externalCallAttempts.rows = attemptsAdvanced s r.attemptId (closing r.state).1 cols ∧
      reservationsOf t r.attemptId =
        (reservationsOf s r.attemptId).map (settledRow now (closing r.state).2.charge) ∧
      ∀ i, i ≠ r.attemptId → reservationsOf t i = reservationsOf s i := by
  obtain ⟨hlegal, -, hne⟩ := closing_legal hlive
  obtain ⟨t, hrun, hatts, -, hres⟩ := settleAndAdvance_run l now (h := handleOf r) (groupFor s r.attemptId)
    (closing r.state).2 [.errorClass "provider_restart"] hr rfl hlegal fun h => absurd h hne
  have hstep : t = step l s (closingCall now s r) := by
    unfold step closingCall
    by_cases hsent : r.state ∈ attemptSentStates
    · simp only [if_pos hsent]
      simp only [closing, if_pos hsent] at hrun
      exact (congrArg Session.store (after_of_ok hrun)).symm
    · simp only [if_neg hsent]
      simp only [closing, if_neg hsent] at hrun
      exact (congrArg Session.store (after_of_ok hrun)).symm
  obtain ⟨hissued, hgroup, horderly⟩ := closingCall_allowed (l := l) now hs hr hlive
  have hrows : reservationsOf t r.attemptId =
        (reservationsOf s r.attemptId).map (settledRow now (closing r.state).2.charge) ∧
      ∀ i, i ≠ r.attemptId → reservationsOf t i = reservationsOf s i := by
    rcases groupFor_spec hs hr hlive with ⟨hnil, hg⟩ | ⟨hheld, amounts, hg⟩
    · rw [hg] at hres
      have hsame := reservationsOf_congr (s := s) (t := t) hres
      exact ⟨by rw [hsame, hnil]; rfl, fun i _ => hsame i⟩
    · rw [hg] at hres
      have hupd := hres.trans (hs.resolved_rows hids hr hheld now amounts (closing r.state).2.charge)
      refine ⟨?_, (reservationsOf_settled hupd).2⟩
      have hst : r.state ∈ heldStates := (mem_heldStates r.state).mpr ⟨hlive, fun hi =>
        hheld ((hs.coupled r hr).1 hi)⟩
      have hall := ((hs.coupled r hr).2.1 hst).2
      unfold reservationsOf
      rw [hupd, filter_updated (f := settledRow now (closing r.state).2.charge) fun q _ _ => rfl]
      apply List.map_congr_left
      intro q hq
      have hqa : q.attemptId = some r.attemptId := by simpa using (List.mem_filter.mp hq).2
      simp [hqa, hall q hq]
  refine ⟨decide (r.state ∈ attemptSentStates), t, _, ?_, hstep, ?_, hatts, hrows⟩
  · unfold reconcileAttempt
    rw [getStore_bind]
    have hwas := attemptWasSent_of_mem hr
    by_cases hsent : r.state ∈ attemptSentStates
    · rw [decide_eq_true hsent] at hwas ⊢
      rw [if_pos (show attemptWasSent s (handleOf r).attemptId = true from hwas)]
      simp only [closing, if_pos hsent] at hrun
      exact bind_of_ok (x := failUnknown l now (handleOf r) _ "provider_restart") hrun
    · rw [decide_eq_false hsent] at hwas ⊢
      rw [if_neg (show ¬ attemptWasSent s (handleOf r).attemptId = true from ne_true_of_eq_false hwas)]
      simp only [closing, if_neg hsent] at hrun
      exact bind_of_ok (x := failBeforeSend l now (handleOf r) _ "provider_restart") hrun
  · rw [hstep]
    exact hs.effect hids hissued hgroup horderly (step_effect l s _)

/-! ## The whole loop -/

/-- From `s` to `t` the attempts in `closed` were closed, and nothing else was touched. -/
structure Closes (now : ℚ) (closed : List ExternalAttemptRow) (s t : Database) : Prop where
  ids : ∀ b ∈ t.externalCallAttempts.rows, ∃ a ∈ s.externalCallAttempts.rows, a.attemptId = b.attemptId
  ended : ∀ a ∈ closed,
    (∃ b ∈ t.externalCallAttempts.rows, b.attemptId = a.attemptId ∧ b.state = (closing a.state).1) ∧
      reservationsOf t a.attemptId =
        (reservationsOf s a.attemptId).map (settledRow now (closing a.state).2.charge)
  kept : ∀ a ∈ s.externalCallAttempts.rows, a.attemptId ∉ closed.map (·.attemptId) →
    a ∈ t.externalCallAttempts.rows ∧ reservationsOf t a.attemptId = reservationsOf s a.attemptId

theorem closes_nil (now : ℚ) (s : Database) : Closes now [] s s where
  ids b hb := ⟨b, hb, rfl⟩
  ended a ha := absurd ha List.not_mem_nil
  kept a ha _ := ⟨ha, rfl⟩

theorem closes_one {now : ℚ} {s t : Database} {r : ExternalAttemptRow} {cols : List AttemptColumn}
    (hr : r ∈ s.externalCallAttempts.rows)
    (hatts : t.externalCallAttempts.rows = attemptsAdvanced s r.attemptId (closing r.state).1 cols)
    (hits : reservationsOf t r.attemptId =
      (reservationsOf s r.attemptId).map (settledRow now (closing r.state).2.charge))
    (hother : ∀ i, i ≠ r.attemptId → reservationsOf t i = reservationsOf s i) : Closes now [r] s t where
  ids := by
    intro b hb
    rw [hatts] at hb
    obtain ⟨a, ha, rfl⟩ := mem_updated.mp hb
    refine ⟨a, ha, ?_⟩
    split <;> simp
  ended := by
    intro a ha
    cases List.mem_singleton.mp ha
    refine ⟨⟨advancedRow (closing r.state).1 cols r, ?_, by simp, by simp⟩, hits⟩
    rw [hatts]
    exact mem_updated.mpr ⟨r, hr, by simp⟩
  kept := by
    intro a ha hne
    have hne' : a.attemptId ≠ r.attemptId := by simpa using hne
    refine ⟨?_, hother a.attemptId hne'⟩
    rw [hatts]
    exact mem_updated.mpr ⟨a, ha, by simp [hne']⟩

theorem Closes.trans {now : ℚ} {s t u : Database} {r : ExternalAttemptRow} {rs : List ExternalAttemptRow}
    (h : Closes now [r] s t) (h' : Closes now rs t u) (hdist : ((r :: rs).map (·.attemptId)).Nodup)
    (hsub : ∀ a ∈ rs, a ∈ s.externalCallAttempts.rows) (hkeys : CallAttemptKeys t.externalCallAttempts.rows) :
    Closes now (r :: rs) s u where
  ids := by
    intro b hb
    obtain ⟨c, hc, hcb⟩ := h'.ids b hb
    obtain ⟨a, ha, hac⟩ := h.ids c hc
    exact ⟨a, ha, hac.trans hcb⟩
  ended := by
    rw [List.map_cons, List.nodup_cons] at hdist
    intro a ha
    cases ha with
    | head =>
      obtain ⟨⟨b, hb, hba, hst⟩, hres⟩ := h.ended r (by simp)
      obtain ⟨hbu, hresu⟩ := h'.kept b hb (by rw [hba]; exact hdist.1)
      rw [hba] at hresu
      exact ⟨⟨b, hbu, hba, hst⟩, hresu.trans hres⟩
    | tail _ ha =>
      have hne : a.attemptId ∉ [r].map (·.attemptId) := by
        intro hmem
        rw [List.map_singleton, List.mem_singleton] at hmem
        exact hdist.1 (hmem ▸ List.mem_map_of_mem ha)
      obtain ⟨hend, hres⟩ := h'.ended a ha
      rw [(h.kept a (hsub a ha) hne).2] at hres
      exact ⟨hend, hres⟩
  kept := by
    intro a ha hne
    rw [List.map_cons, List.mem_cons, not_or] at hne
    obtain ⟨hat, hres⟩ := h.kept a ha (by simpa using hne.1)
    obtain ⟨hau, hresu⟩ := h'.kept a hat hne.2
    exact ⟨hau, hresu.trans hres⟩

/-- The loop goes through and closes the attempts it is given, all of them live. -/
theorem reconcileLoop_run {l : ExternalCallLedger} (hids : l.budget.ids.Separated) (now : ℚ)
    (rs : List ExternalAttemptRow) (hdist : (rs.map (·.attemptId)).Nodup) {s : Database} (hs : MoneySound l s)
    (hsub : ∀ r ∈ rs, r ∈ s.externalCallAttempts.rows ∧ r.state ∉ attemptTerminal) :
    ∃ bs t, forEach (reconcileAttempt l now) (rs.map handleOf) ⟨s, none⟩ = (.ok bs, ⟨t, none⟩) ∧
      MoneySound l t ∧ Closes now rs s t := by
  induction rs generalizing s with
  | nil => exact ⟨[], s, rfl, hs, closes_nil now s⟩
  | cons r rs ih =>
    obtain ⟨hr, hlive⟩ := hsub r (by simp)
    obtain ⟨b, t, cols, hrun, -, ht, hatts, hits, hother⟩ := reconcileAttempt_run hids now hs hr hlive
    have hone := closes_one hr hatts hits hother
    have hrest : ∀ q ∈ rs, q ∈ t.externalCallAttempts.rows ∧ q.state ∉ attemptTerminal := by
      intro q hq
      obtain ⟨hqs, hqlive⟩ := hsub q (List.mem_cons_of_mem _ hq)
      rw [List.map_cons, List.nodup_cons] at hdist
      refine ⟨(hone.kept q hqs ?_).1, hqlive⟩
      intro hmem
      rw [List.map_singleton, List.mem_singleton] at hmem
      exact hdist.1 (hmem ▸ List.mem_map_of_mem hq)
    obtain ⟨bs, u, hloop, hu, hcloses⟩ := ih (List.nodup_cons.mp hdist).2 ht hrest
    refine ⟨b :: bs, u, forEach_cons_ok.mpr ⟨b, bs, _, rfl, hrun, hloop⟩, hu, ?_⟩
    exact hone.trans hcloses hdist (fun q hq => (hsub q (List.mem_cons_of_mem _ hq)).1)
      t.externalCallAttempts.sound

/-- The attempts the loop goes over. -/
def liveRows (s : Database) : List ExternalAttemptRow :=
  (s.externalCallAttempts.rows.filter fun r => r.state ∉ attemptTerminal).insertionSort
    fun a b => a.openedAt ≤ b.openedAt

theorem mem_liveRows {s : Database} {r : ExternalAttemptRow} :
    r ∈ liveRows s ↔ r ∈ s.externalCallAttempts.rows ∧ r.state ∉ attemptTerminal := by
  simp [liveRows]

theorem liveRows_distinct (s : Database) : ((liveRows s).map (·.attemptId)).Nodup := by
  have hperm := (List.perm_insertionSort (fun a b : ExternalAttemptRow => a.openedAt ≤ b.openedAt)
    (s.externalCallAttempts.rows.filter fun r => r.state ∉ attemptTerminal)).map (·.attemptId)
  refine hperm.nodup_iff.mpr ?_
  exact s.externalCallAttempts.sound.1.sublist (List.filter_sublist.map _)

/-- What the loop kept and released, and the inference calls there are. -/
def reconciledOf (kept : List Bool) (t : Database) : Reconciled :=
  ⟨kept.count true, kept.count false, t.externalCalls.rows.countP fun r => r.provider = "vllm"⟩

theorem reconcileOnStart_of_loop {l : ExternalCallLedger} {now : ℚ} {s t : Database} {kept : List Bool}
    (hloop : forEach (reconcileAttempt l now) (allLiveAttempts s) ⟨s, none⟩ = (.ok kept, ⟨t, none⟩)) :
    reconcileOnStart l now ⟨s, none⟩ = (.ok (reconciledOf kept t), ⟨t, none⟩) := by
  unfold reconcileOnStart
  rw [getStore_bind]
  refine (bind_of_ok hloop).trans ?_
  rw [getStore_bind]
  rfl

theorem reconcileOnStart_run {l : ExternalCallLedger} (hids : l.budget.ids.Separated) (now : ℚ) {s : Database}
    (hs : MoneySound l s) :
    ∃ out t, reconcileOnStart l now ⟨s, none⟩ = (.ok out, ⟨t, none⟩) ∧ MoneySound l t ∧
      Closes now (liveRows s) s t := by
  obtain ⟨bs, t, hloop, ht, hcloses⟩ := reconcileLoop_run hids now (liveRows s) (liveRows_distinct s) hs
    fun r hr => mem_liveRows.mp hr
  exact ⟨reconciledOf bs t, t, reconcileOnStart_of_loop hloop, ht, hcloses⟩

/-- With nothing live there is nothing to do. -/
theorem reconcileOnStart_idle (l : ExternalCallLedger) (now : ℚ) {s : Database}
    (h : ∀ a ∈ s.externalCallAttempts.rows, a.state ∈ attemptTerminal) :
    ∃ out, reconcileOnStart l now ⟨s, none⟩ = (.ok out, ⟨s, none⟩) := by
  have hnone : allLiveAttempts s = [] := by
    unfold allLiveAttempts
    rw [List.filter_eq_nil_iff.mpr fun a ha => by simpa using h a ha]
    rfl
  exact ⟨reconciledOf [] s, reconcileOnStart_of_loop (by rw [hnone]; rfl)⟩

theorem Closes.terminal {now : ℚ} {s t : Database} (h : Closes now (liveRows s) s t) :
    ∀ b ∈ t.externalCallAttempts.rows, b.state ∈ attemptTerminal := by
  intro b hb
  obtain ⟨a, ha, hab⟩ := h.ids b hb
  by_cases hlive : a.state ∈ attemptTerminal
  · have hnot : a.attemptId ∉ (liveRows s).map (·.attemptId) := by
      intro hmem
      obtain ⟨q, hq, hqa⟩ := List.mem_map.mp hmem
      obtain ⟨hqs, hqlive⟩ := mem_liveRows.mp hq
      exact hqlive (eq_of_key s.externalCallAttempts.sound.1 hqs ha hqa ▸ hlive)
    have hbt := (h.kept a ha hnot).1
    rw [eq_of_key t.externalCallAttempts.sound.1 hb hbt hab.symm]
    exact hlive
  · obtain ⟨⟨c, hc, hca, hst⟩, -⟩ := h.ended a (mem_liveRows.mpr ⟨ha, hlive⟩)
    rw [eq_of_key t.externalCallAttempts.sound.1 hb hc (hab.symm.trans hca.symm), hst]
    exact (closing_legal hlive).2.1

theorem MoneySound.none_reserved {l : ExternalCallLedger} {s : Database} (hs : MoneySound l s)
    (hover : ∀ a ∈ s.externalCallAttempts.rows, a.state ∈ attemptTerminal) :
    ∀ r ∈ s.budgetReservations.rows, r.state ≠ .reserved := by
  intro r hr
  obtain ⟨⟨a, ha, hra, -⟩, -⟩ := hs.linked r hr
  exact (hs.coupled a ha).2.2 (hover a ha) r (mem_reservationsOf.mpr ⟨hr, hra⟩)

/-- A reservation given back, or kept at its worst case, when its attempt is closed. -/
def settledAt (now : ℚ) (amountOf : ReservationRow → ℚ) (r : ReservationRow) : ReservationRow :=
  { r with state := .settled, settledAmount := some (amountOf r), updatedAt := now }

theorem MoneySound.settled_amounts {l : ExternalCallLedger} {s : Database} (hs : MoneySound l s) (now : ℚ)
    (a : String) :
    (reservationsOf s a).map (settledRow now Mode.worstCase.charge) =
        (reservationsOf s a).map (settledAt now fun r => r.amount) ∧
      (reservationsOf s a).map (settledRow now Mode.release.charge) =
        (reservationsOf s a).map (settledAt now fun _ => 0) := by
  constructor
  · apply List.map_congr_left
    intro r hr
    have hpos := (hs.linked r (mem_reservationsOf.mp hr).1).2.2
    simp [settledRow, settledAt, Mode.charge, hpos]
  · apply List.map_congr_left
    intro r hr
    simp [settledRow, settledAt, Mode.charge]

/-- What the attempts and reservations of `s` have become in `t`, where they were reconciled. -/
structure ReconciledTo (now : ℚ) (s t : Database) : Prop where
  terminal : ∀ a ∈ t.externalCallAttempts.rows, a.state ∈ attemptTerminal
  resolved : ∀ r ∈ t.budgetReservations.rows, r.state ≠ .reserved
  sent : ∀ a ∈ s.externalCallAttempts.rows, a.state ∈ attemptSentStates →
    (∃ b ∈ t.externalCallAttempts.rows, b.attemptId = a.attemptId ∧ b.state = .failedUnknown) ∧
      reservationsOf t a.attemptId = (reservationsOf s a.attemptId).map (settledAt now fun r => r.amount)
  unsent : ∀ a ∈ s.externalCallAttempts.rows, a.state ∈ [.intent, .budgetReserved] →
    (∃ b ∈ t.externalCallAttempts.rows, b.attemptId = a.attemptId ∧ b.state = .failedFinal) ∧
      reservationsOf t a.attemptId = (reservationsOf s a.attemptId).map (settledAt now fun _ => 0)
  finished : ∀ a ∈ s.externalCallAttempts.rows, a.state ∈ attemptTerminal →
    a ∈ t.externalCallAttempts.rows ∧ reservationsOf t a.attemptId = reservationsOf s a.attemptId

theorem Closes.reconciledTo {l : ExternalCallLedger} {now : ℚ} {s t : Database} (hs : MoneySound l s)
    (ht : MoneySound l t) (h : Closes now (liveRows s) s t) : ReconciledTo now s t where
  terminal := h.terminal
  resolved := ht.none_reserved h.terminal
  sent := by
    intro a ha hsent
    have hlive : a.state ∉ attemptTerminal :=
      ((mem_heldStates a.state).mp (List.mem_cons_of_mem _ hsent)).1
    obtain ⟨hend, hres⟩ := h.ended a (mem_liveRows.mpr ⟨ha, hlive⟩)
    unfold closing at hend hres
    rw [if_pos hsent] at hend hres
    exact ⟨hend, hres.trans (hs.settled_amounts now a.attemptId).1⟩
  unsent := by
    intro a ha hst
    have hnot : a.state ∉ attemptTerminal ∧ a.state ∉ attemptSentStates := by
      revert hst
      cases a.state <;> decide
    obtain ⟨hend, hres⟩ := h.ended a (mem_liveRows.mpr ⟨ha, hnot.1⟩)
    unfold closing at hend hres
    rw [if_neg hnot.2] at hend hres
    exact ⟨hend, hres.trans (hs.settled_amounts now a.attemptId).2⟩
  finished := by
    intro a ha hover
    refine h.kept a ha ?_
    intro hmem
    obtain ⟨q, hq, hqa⟩ := List.mem_map.mp hmem
    obtain ⟨hqs, hqlive⟩ := mem_liveRows.mp hq
    exact hqlive (eq_of_key s.externalCallAttempts.sound.1 hqs ha hqa ▸ hover)

/-- From every state that orderly calls reach, each of them cut short anywhere, the start closes all
    that is live and settles all that is reserved, and starting once more changes nothing. -/
theorem reconcile_closes (l : ExternalCallLedger) (hids : l.budget.ids.Separated) (calls : List Call)
    (hissued : Allowed (step l) Issued .empty calls) (hgroups : Allowed (step l) PassesItsGroup .empty calls)
    (hok : Allowed (step l) (Orderly l) .empty calls) (now : ℚ) :
    ∃ out t, reconcileOnStart l now ⟨run (step l) .empty calls, none⟩ = (.ok out, ⟨t, none⟩) ∧
      ReconciledTo now (run (step l) .empty calls) t ∧
      ∀ later, ∃ again, reconcileOnStart l later ⟨t, none⟩ = (.ok again, ⟨t, none⟩) := by
  have hs : MoneySound l (run (step l) .empty calls) := by
    refine invariant (fun s call hs h => ?_) (moneySound_empty l) ((hissued.and hgroups).and hok)
    exact hs.effect hids h.1.1 h.1.2 h.2 (step_effect l s call)
  obtain ⟨out, t, hrun, ht, hcloses⟩ := reconcileOnStart_run hids now hs
  exact ⟨out, t, hrun, hcloses.reconciledTo hs ht, fun later => reconcileOnStart_idle l later hcloses.terminal⟩

theorem reconcile_closes_sent :
    ∃ out t, reconcileOnStart sampleLedger 9 ⟨run (step sampleLedger) .empty sentCall, none⟩ =
        (.ok out, ⟨t, none⟩) ∧
      ReconciledTo 9 (run (step sampleLedger) .empty sentCall) t ∧
      ∀ later, ∃ again, reconcileOnStart sampleLedger later ⟨t, none⟩ = (.ok again, ⟨t, none⟩) :=
  reconcile_closes sampleLedger plain_separated sentCall (by decide +kernel) (by decide +kernel)
    (by decide +kernel) 9

/-- The response came and was judged a failure before the process died. -/
def refusedCall : List Call :=
  sentCall ++
    [⟨7, none, .failAfterResponse sampleAttempt (some sampleGroup) (Budget.amountsOf "usd" 1) "http_500" none ""⟩]

/-- An attempt that was sent and then failed on its response stays `FAILED_FINAL`. -/
theorem failed_response_stays_final :
    ¬ ∀ (l : ExternalCallLedger) (calls : List Call), l.budget.ids.Separated →
      Allowed (step l) Issued .empty calls → Allowed (step l) PassesItsGroup .empty calls →
      Allowed (step l) (Orderly l) .empty calls → ∀ now a, EverSent l calls a →
      ∀ out t, reconcileOnStart l now ⟨run (step l) .empty calls, none⟩ = (.ok out, ⟨t, none⟩) →
      ∀ b ∈ t.externalCallAttempts.rows, b.attemptId = a → b.state ≠ .committed →
        b.state = .failedUnknown := by
  intro h
  have hrun := h sampleLedger refusedCall plain_separated (by decide +kernel) (by decide +kernel)
    (by decide +kernel) 9 sampleAttempt.attemptId ⟨sentCall, List.prefix_append _ _, by decide +kernel⟩
  obtain ⟨out, hout⟩ := reconcileOnStart_idle sampleLedger 9
    (s := run (step sampleLedger) .empty refusedCall) (by decide +kernel)
  have hall := hrun out _ hout
  revert hall
  decide +kernel

end Shapeflow.ExternalCalls
