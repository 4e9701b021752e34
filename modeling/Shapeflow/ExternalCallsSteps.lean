import Shapeflow.BudgetSteps
import Shapeflow.ExternalCalls

set_option autoImplicit false

/-!
# What one call of the external-call ledger does to the rows

`step_effect` says it once for all operations, process deaths included. Later
modules argue by cases on the effect and never unfold an operation again.
-/
namespace Shapeflow.ExternalCalls
open Script Database Table Session Budget

/-! ## Advancing an attempt -/

@[simp] theorem write_attemptId (r : ExternalAttemptRow) (c : AttemptColumn) :
    (c.write r).attemptId = r.attemptId := by
  cases c <;> rfl

@[simp] theorem write_callId (r : ExternalAttemptRow) (c : AttemptColumn) :
    (c.write r).callId = r.callId := by
  cases c <;> rfl

@[simp] theorem write_attemptOrdinal (r : ExternalAttemptRow) (c : AttemptColumn) :
    (c.write r).attemptOrdinal = r.attemptOrdinal := by
  cases c <;> rfl

@[simp] theorem write_state (r : ExternalAttemptRow) (c : AttemptColumn) : (c.write r).state = r.state := by
  cases c <;> rfl

/-- The columns of a transition leave what identifies the attempt, and its state. -/
theorem foldl_write (cols : List AttemptColumn) (r : ExternalAttemptRow) :
    (cols.foldl AttemptColumn.write r).attemptId = r.attemptId ∧
    (cols.foldl AttemptColumn.write r).callId = r.callId ∧
    (cols.foldl AttemptColumn.write r).attemptOrdinal = r.attemptOrdinal ∧
    (cols.foldl AttemptColumn.write r).state = r.state := by
  induction cols generalizing r with
  | nil => exact ⟨rfl, rfl, rfl, rfl⟩
  | cons c cols ih => simpa using ih (c.write r)

@[simp] theorem advancedRow_attemptId (state : CallAttemptState) (cols : List AttemptColumn)
    (r : ExternalAttemptRow) : (advancedRow state cols r).attemptId = r.attemptId :=
  (foldl_write cols _).1

@[simp] theorem advancedRow_callId (state : CallAttemptState) (cols : List AttemptColumn)
    (r : ExternalAttemptRow) : (advancedRow state cols r).callId = r.callId :=
  (foldl_write cols _).2.1

@[simp] theorem advancedRow_attemptOrdinal (state : CallAttemptState) (cols : List AttemptColumn)
    (r : ExternalAttemptRow) : (advancedRow state cols r).attemptOrdinal = r.attemptOrdinal :=
  (foldl_write cols _).2.2.1

@[simp] theorem advancedRow_state (state : CallAttemptState) (cols : List AttemptColumn)
    (r : ExternalAttemptRow) : (advancedRow state cols r).state = state :=
  (foldl_write cols _).2.2.2

@[simp] theorem callAfter_callId (now : ℚ) (a : String) (state : CallAttemptState) (r : ExternalCallRow) :
    (callAfter now a state r).callId = r.callId := by
  unfold callAfter
  split
  · rfl
  · split <;> rfl

@[simp] theorem callAfter_attemptCount (now : ℚ) (a : String) (state : CallAttemptState)
    (r : ExternalCallRow) : (callAfter now a state r).attemptCount = r.attemptCount := by
  unfold callAfter
  split
  · rfl
  · split <;> rfl

theorem callAfter_committed (now : ℚ) (a : String) (r : ExternalCallRow) :
    (callAfter now a .committed r).state = .committed ∧
      (callAfter now a .committed r).committedAttemptId = some a :=
  ⟨rfl, rfl⟩

/-- A transition that commits nothing leaves the state and the purchase of the call. -/
theorem callAfter_of_ne (now : ℚ) (a : String) {state : CallAttemptState} (h : state ≠ .committed)
    (r : ExternalCallRow) : (callAfter now a state r).state = r.state ∧
      (callAfter now a state r).committedAttemptId = r.committedAttemptId := by
  unfold callAfter
  rw [if_neg h]
  split <;> exact ⟨rfl, rfl⟩

theorem fetchCallAttempt_some {s : Database} {a : String} {r : ExternalAttemptRow}
    (h : fetchCallAttempt s a = some r) : r ∈ s.externalCallAttempts.rows ∧ r.attemptId = a :=
  mem_of_find? h

theorem fetchCallAttempt_of_mem {s : Database} {r : ExternalAttemptRow}
    (h : r ∈ s.externalCallAttempts.rows) : fetchCallAttempt s r.attemptId = some r :=
  find?_of_mem s.externalCallAttempts.sound.1 h

theorem fetchCall_some {s : Database} {c : String} {r : ExternalCallRow} (h : fetchCall s c = some r) :
    r ∈ s.externalCalls.rows ∧ r.callId = c :=
  mem_of_find? h

/-- The rows of the attempts once the attempt `a` has been advanced. -/
def attemptsAdvanced (s : Database) (a : String) (state : CallAttemptState) (cols : List AttemptColumn) :
    List ExternalAttemptRow :=
  updated (fun r => r.attemptId = a) (advancedRow state cols) s.externalCallAttempts.rows

/-- The rows of the calls once the attempt `a` of the call `c` is in `state`. -/
def callsAdvanced (s : Database) (now : ℚ) (c a : String) (state : CallAttemptState) : List ExternalCallRow :=
  updated (fun r => r.callId = c) (callAfter now a state) s.externalCalls.rows

/-- An attempt is advanced along a legal edge from its present state. -/
theorem advanceIn_ok {now : ℚ} {h : AttemptHandle} {state : CallAttemptState} {cols : List AttemptColumn}
    {s t : Database} {u : Unit} (hrun : advanceIn now h state cols s = (.ok u, t)) :
    (∃ r ∈ s.externalCallAttempts.rows, r.attemptId = h.attemptId ∧ state ∈ legalAttempt r.state) ∧
    t.externalCallAttempts.rows = attemptsAdvanced s h.attemptId state cols ∧
    t.externalCalls.rows = callsAdvanced s now h.callId h.attemptId state ∧
    t.budgetReservations = s.budgetReservations := by
  unfold advanceIn at hrun
  simp only [getStore_bind] at hrun
  cases hr : fetchCallAttempt s h.attemptId with
  | none => simp [hr] at hrun
  | some r =>
    obtain ⟨hmem, hid⟩ := fetchCallAttempt_some hr
    simp only [hr] at hrun
    split at hrun
    · simp at hrun
    · rename_i hlegal
      obtain ⟨n, m, hupd, hrest⟩ := bind_ok.mp hrun
      obtain ⟨-, hkeys, rfl⟩ := Slot.update_ok.mp hupd
      split at hrest
      · simp at hrest
      · obtain ⟨_, m', hlog, hrest⟩ := bind_ok.mp hrest
        obtain ⟨_, rfl⟩ := Slot.insert_ok.mp hlog
        obtain ⟨k, m'', hcall, hpure⟩ := bind_ok.mp hrest
        obtain ⟨-, _, rfl⟩ := Slot.update_ok.mp hcall
        cases hpure
        refine ⟨⟨r, hmem, hid, not_not.mp hlegal⟩, ?_, rfl, rfl⟩
        apply List.map_congr_left
        intro q hq
        by_cases hqa : q.attemptId = h.attemptId
        · have hqr : q = r := eq_of_key s.externalCallAttempts.sound.1 hq hmem (hqa.trans hid.symm)
          simp [hqr, hid]
        · simp [hqa]

/-- Advancing never meets a budget. -/
theorem advanceIn_error {now : ℚ} {h : AttemptHandle} {state : CallAttemptState}
    {cols : List AttemptColumn} {s t : Database} {e : Raised}
    (hrun : advanceIn now h state cols s = (.error e, t)) :
    e = .integrityError ∨ ∃ message, e = .illegalCallTransition message := by
  unfold advanceIn at hrun
  simp only [getStore_bind] at hrun
  cases hr : fetchCallAttempt s h.attemptId with
  | none =>
    simp only [hr, raise_run, Prod.mk.injEq, Except.error.injEq] at hrun
    exact .inr ⟨_, hrun.1.symm⟩
  | some r =>
    simp only [hr] at hrun
    split at hrun
    · simp only [raise_run, Prod.mk.injEq, Except.error.injEq] at hrun
      exact .inr ⟨_, hrun.1.symm⟩
    · rcases bind_error.mp hrun with hupd | ⟨n, m, -, hrest⟩
      · exact .inl (Slot.update_error hupd)
      · split at hrest
        · simp only [raise_run, Prod.mk.injEq, Except.error.injEq] at hrest
          exact .inr ⟨_, hrest.1.symm⟩
        · rcases bind_error.mp hrest with hlog | ⟨_, m', -, hrest⟩
          · exact .inl (Slot.insert_error hlog)
          · rcases bind_error.mp hrest with hcall | ⟨k, m'', -, hpure⟩
            · exact .inl (Slot.update_error hcall)
            · simp at hpure

/-! ## The effect of a call -/

/-- The attempt an operation ends, in which state, and what it does with the money. -/
def Op.ending : Op → Option (AttemptHandle × CallAttemptState × Option ReservationGroup × Mode)
  | .commit h g actuals => some (h, .committed, some g, .settle actuals)
  | .failBeforeSend h g _ => some (h, .failedFinal, g, .release)
  | .failUnknown h g _ => some (h, .failedUnknown, g, .worstCase)
  | .failAfterResponse h g actuals _ _ _ => some (h, .failedFinal, g, .settle actuals)
  | _ => none

/-- The handle an operation is given. -/
def Op.handle : Op → Option AttemptHandle
  | .reserve h _ _ | .markSent h _ _ _ | .storeResponse h _ _ | .validate h | .commit h _ _
  | .failBeforeSend h _ _ | .failUnknown h _ _ | .failAfterResponse h _ _ _ _ _ => some h
  | _ => none

/-- The reservation rows once a group has been resolved, or none was passed. -/
def reservationsResolved (l : ExternalCallLedger) (s : Database) (now : ℚ) (group : Option ReservationGroup)
    (mode : Mode) : List ReservationRow :=
  match group with
  | none => s.budgetReservations.rows
  | some g => (l.budget.resolved now g mode.charge s).budgetReservations.rows

/-- How the reservations move with an attempt `h` that goes to `state`. -/
inductive MoneyMove (l : ExternalCallLedger) (s : Database) (call : Call) (h : AttemptHandle)
    (state : CallAttemptState) (t : Database) : Prop
  | kept (hstate : state ∈ attemptSentStates)
      (hres : t.budgetReservations.rows = s.budgetReservations.rows)
  | reserved (hstate : state = .budgetReserved) (amounts : Amounts) (k : Option String) (g : String)
      (hne : amounts.entries ≠ []) (hpos : ∀ entry ∈ amounts.entries, 0 ≤ entry.2)
      (hres : t.budgetReservations.rows = s.budgetReservations.rows ++
        amounts.entries.map (reservedRow l.budget call.clock g k (some h.callId) (some h.attemptId)))
  | refused (hstate : state = .failedFinal) (amounts : Amounts) (k : Option String)
      (hop : call.op = .reserve h amounts k)
      (hrefused : Refuses l.budget s
        (l.budget.groupIdFor s amounts k (some h.callId) (some h.attemptId)) amounts.entries)
      (hres : t.budgetReservations.rows = s.budgetReservations.rows)
  | ended (group : Option ReservationGroup) (mode : Mode)
      (hop : call.op.ending = some (h, state, group, mode))
      (hres : t.budgetReservations.rows = reservationsResolved l s call.clock group mode)

/-- Everything a call can do to the calls, the attempts and the reservations. -/
inductive Effect (l : ExternalCallLedger) (s : Database) (call : Call) (t : Database) : Prop
  | idle (hcalls : t.externalCalls.rows = s.externalCalls.rows)
      (hatts : t.externalCallAttempts.rows = s.externalCallAttempts.rows)
      (hres : t.budgetReservations.rows = s.budgetReservations.rows)
  | opened (row : ExternalCallRow) (hid : ∃ p o k c, row.callId = l.budget.ids.externalCall p o k c)
      (hnew : row.state = .opened ∧ row.attemptCount = 0 ∧ row.committedAttemptId = none)
      (hcalls : t.externalCalls.rows = s.externalCalls.rows ++ [row])
      (hatts : t.externalCallAttempts.rows = s.externalCallAttempts.rows)
      (hres : t.budgetReservations.rows = s.budgetReservations.rows)
  | begun (c : ExternalCallRow) (hc : c ∈ s.externalCalls.rows) (hopen : c.state = .opened)
      (hlive : liveAttempts s c.callId = [])
      (hcalls : t.externalCalls.rows = updated (fun r => r.callId = c.callId)
        (fun r => { r with attemptCount := c.attemptCount + 1, updatedAt := call.clock })
        s.externalCalls.rows)
      (hatts : t.externalCallAttempts.rows = s.externalCallAttempts.rows ++
        [{ attemptId := l.budget.ids.externalCallAttempt c.callId c.attemptCount, callId := c.callId,
           attemptOrdinal := c.attemptCount, state := .intent, openedAt := call.clock }])
      (hres : t.budgetReservations.rows = s.budgetReservations.rows)
  | moved (h : AttemptHandle) (hhandle : call.op.handle = some h) (r : ExternalAttemptRow)
      (hr : r ∈ s.externalCallAttempts.rows)
      (hid : r.attemptId = h.attemptId) (state : CallAttemptState) (cols : List AttemptColumn)
      (hlegal : state ∈ legalAttempt r.state)
      (hatts : t.externalCallAttempts.rows = attemptsAdvanced s h.attemptId state cols)
      (hcalls : t.externalCalls.rows = callsAdvanced s call.clock h.callId h.attemptId state)
      (hmoney : MoneyMove l s call h state t)
  | closed (callId : String)
      (hcalls : t.externalCalls.rows = updated (fun r => r.callId = callId ∧ r.state = .opened)
        (fun r => { r with state := .abandoned, updatedAt := call.clock }) s.externalCalls.rows)
      (hatts : t.externalCallAttempts.rows = s.externalCallAttempts.rows)
      (hres : t.budgetReservations.rows = s.budgetReservations.rows)

theorem Effect.refl (l : ExternalCallLedger) (s : Database) (call : Call) : Effect l s call s :=
  .idle rfl rfl rfl

/-- The tables an effect speaks about. -/
def sameTables (s t : Database) : Prop :=
  t.externalCalls = s.externalCalls ∧ t.externalCallAttempts = s.externalCallAttempts ∧
    t.budgetReservations = s.budgetReservations

/-- Effects do not see what is written after them to other tables. -/
theorem Effect.of_same {l : ExternalCallLedger} {s t u : Database} {call : Call} (h : Effect l s call t)
    (hsame : sameTables t u) : Effect l s call u := by
  obtain ⟨h₁, h₂, h₃⟩ := hsame
  have e₁ := congrArg Table.rows h₁
  have e₂ := congrArg Table.rows h₂
  have e₃ := congrArg Table.rows h₃
  cases h with
  | idle hcalls hatts hres => exact .idle (e₁.trans hcalls) (e₂.trans hatts) (e₃.trans hres)
  | opened row hid hnew hcalls hatts hres =>
    exact .opened row hid hnew (e₁.trans hcalls) (e₂.trans hatts) (e₃.trans hres)
  | begun c hc hopen hlive hcalls hatts hres =>
    exact .begun c hc hopen hlive (e₁.trans hcalls) (e₂.trans hatts) (e₃.trans hres)
  | moved h hhandle r hr hid state cols hlegal hatts hcalls hmoney =>
    refine .moved h hhandle r hr hid state cols hlegal (e₂.trans hatts) (e₁.trans hcalls) ?_
    cases hmoney with
    | kept hstate hres => exact .kept hstate (e₃.trans hres)
    | reserved hstate amounts k g hne hpos hres =>
      exact .reserved hstate amounts k g hne hpos (e₃.trans hres)
    | refused hstate amounts k hop hrefused hres =>
      exact .refused hstate amounts k hop hrefused (e₃.trans hres)
    | ended group mode hop hres => exact .ended group mode hop (e₃.trans hres)
  | closed callId hcalls hatts hres => exact .closed callId (e₁.trans hcalls) (e₂.trans hatts) (e₃.trans hres)

/-- The effect of advancing an attempt along with the money move `hmoney`, from a store that
    agrees with `s` on the calls and attempts. -/
theorem effect_advanced {l : ExternalCallLedger} {s m t : Database} {call : Call} {h : AttemptHandle}
    {state : CallAttemptState} {cols : List AttemptColumn} {u : Unit}
    (hhandle : call.op.handle = some h) (hcalls : m.externalCalls = s.externalCalls)
    (hatts : m.externalCallAttempts = s.externalCallAttempts)
    (hrun : advanceIn call.clock h state cols m = (.ok u, t))
    (hmoney : t.budgetReservations = m.budgetReservations → MoneyMove l s call h state t) :
    Effect l s call t := by
  obtain ⟨⟨r, hr, hid, hlegal⟩, hatts', hcalls', hres⟩ := advanceIn_ok hrun
  unfold attemptsAdvanced at hatts'
  unfold callsAdvanced at hcalls'
  rw [hatts] at hr hatts'
  rw [hcalls] at hcalls'
  exact .moved h hhandle r hr hid state cols hlegal hatts' hcalls' (hmoney hres)

/-! ## Each operation has an effect -/

theorem registerArtifact_same {now : ℚ} {objectRef kind : String} {raw stored : ℕ} {k : Option String}
    {s t : Database} {u : Unit}
    (h : WorkLedger.registerArtifact now objectRef kind raw stored k s = (.ok u, t)) : sameTables s t := by
  obtain ⟨m, hm, hcases⟩ := Slot.insertOrIgnore_run (ε := Raised) artifactsSlot
    ⟨objectRef, kind, raw, stored, k, now⟩ s
  have hmt : t = m := by
    have := transaction_ok.mp h
    rw [hm] at this
    exact (congrArg Prod.snd this).symm
  subst hmt
  rcases hcases with rfl | ⟨_, rfl⟩ <;> exact ⟨rfl, rfl, rfl⟩

theorem openCall_effect (l : ExternalCallLedger) (s : Database) (call : Call)
    (provider opClass callKey : String) (k : Option String) :
    Effect l s call ((openCall l call.clock provider opClass callKey k).after ⟨s, call.life⟩).store := by
  refine after_bind (P := fun u : Session Database => Effect l s call u.store) ?_ ?_
  · intro e t h
    rw [tx_error h]
    exact .refl l s call
  · intro u t h
    change Effect l s call t.store
    have hrun := tx_ok h
    obtain ⟨m, hm, hcases⟩ := Slot.insertOrIgnore_run (ε := Raised) externalCallsSlot
      { callId := l.budget.ids.externalCall provider opClass
          ((Budget.firstOf k (some "-")).getD "-") callKey,
        provider, opClass, callKey, workKey := k, state := .opened, attemptCount := 0,
        committedAttemptId := none, createdAt := call.clock, updatedAt := call.clock } s
    have hmt : t.store = m := by
      rw [hm] at hrun
      exact (congrArg Prod.snd hrun).symm
    rw [hmt]
    rcases hcases with rfl | ⟨_, rfl⟩
    · exact .refl l m call
    · exact .opened _ ⟨provider, opClass, _, callKey, rfl⟩ ⟨rfl, rfl, rfl⟩ rfl rfl rfl

/-- What `begin_attempt` returns and writes: the next attempt of an open call with none in flight. -/
theorem beginAttemptIn_ok {l : ExternalCallLedger} {now : ℚ} {callId : String} {s t : Database}
    {h : AttemptHandle} (hrun : beginAttemptIn l now callId s = (.ok h, t)) :
    ∃ c ∈ s.externalCalls.rows, c.callId = callId ∧ c.state = .opened ∧ liveAttempts s c.callId = [] ∧
      h = ⟨c.callId, l.budget.ids.externalCallAttempt c.callId c.attemptCount, c.attemptCount⟩ ∧
      t.externalCalls.rows = updated (fun r => r.callId = c.callId)
        (fun r => { r with attemptCount := c.attemptCount + 1, updatedAt := now }) s.externalCalls.rows ∧
      t.externalCallAttempts.rows = s.externalCallAttempts.rows ++
        [{ attemptId := l.budget.ids.externalCallAttempt c.callId c.attemptCount, callId := c.callId,
           attemptOrdinal := c.attemptCount, state := .intent, openedAt := now }] ∧
      t.budgetReservations.rows = s.budgetReservations.rows := by
  unfold beginAttemptIn at hrun
  simp only [getStore_bind] at hrun
  cases hc : fetchCall s callId with
  | none => simp [hc] at hrun
  | some c =>
    obtain ⟨hmem, rfl⟩ := fetchCall_some hc
    simp only [hc] at hrun
    split at hrun
    · simp at hrun
    · rename_i hcommitted
      split at hrun
      · simp at hrun
      · rename_i hterminal
        split at hrun
        · simp at hrun
        · rename_i hlive
          obtain ⟨_, m, hins, hrest⟩ := bind_ok.mp hrun
          obtain ⟨_, rfl⟩ := Slot.insert_ok.mp hins
          obtain ⟨_, m', hlog, hrest⟩ := bind_ok.mp hrest
          obtain ⟨_, rfl⟩ := Slot.insert_ok.mp hlog
          obtain ⟨n, m'', hupd, hpure⟩ := bind_ok.mp hrest
          obtain ⟨-, _, rfl⟩ := Slot.update_ok.mp hupd
          cases hpure
          have hopen : c.state = .opened := by
            cases hst : c.state with
            | opened => rfl
            | committed => exact absurd hst hcommitted
            | abandoned => simp [callTerminal, hst] at hterminal
          exact ⟨c, hmem, rfl, hopen, not_not.mp hlive, rfl, rfl, rfl, rfl⟩

theorem beginAttemptIn_effect {l : ExternalCallLedger} {s t : Database} {call : Call} {callId : String}
    {h : AttemptHandle} (hrun : beginAttemptIn l call.clock callId s = (.ok h, t)) : Effect l s call t := by
  obtain ⟨c, hc, -, hopen, hlive, -, hcalls, hatts, hres⟩ := beginAttemptIn_ok hrun
  exact .begun c hc hopen hlive hcalls hatts hres

theorem closeCallIn_effect {l : ExternalCallLedger} {s t : Database} {call : Call} {callId reason : String}
    {u : Unit} (hrun : closeCallIn call.clock callId reason s = (.ok u, t)) : Effect l s call t := by
  unfold closeCallIn at hrun
  obtain ⟨n, m, hupd, hrest⟩ := bind_ok.mp hrun
  obtain ⟨-, _, rfl⟩ := Slot.update_ok.mp hupd
  split at hrest
  · obtain ⟨_, rfl⟩ := Slot.insert_ok.mp hrest
    exact .closed callId rfl rfl rfl
  · cases hrest
    exact .closed callId rfl rfl rfl

theorem reserveTx_ok {l : ExternalCallLedger} {now : ℚ} {h : AttemptHandle} {amounts : Amounts}
    {k : Option String} {s t : Database} {g : ReservationGroup}
    (hrun : reserveTx l now h amounts k s = (.ok g, t)) :
    ∃ m u, l.budget.reserveIn now amounts k (some h.callId) (some h.attemptId) s = (.ok g, m) ∧
      advanceIn now h .budgetReserved [] m = (.ok u, t) := by
  obtain ⟨g', m, hres, hrest⟩ := bind_ok.mp hrun
  obtain ⟨u, m', hadv, hpure⟩ := bind_ok.mp hrest
  cases hpure
  exact ⟨m, u, hres, hadv⟩

theorem reserveTx_refused {l : ExternalCallLedger} {now : ℚ} {h : AttemptHandle} {amounts : Amounts}
    {k : Option String} {s t : Database} {resource : String} {requested headroom : ℚ}
    (hrun : reserveTx l now h amounts k s = (.error (.budgetExceeded resource requested headroom), t)) :
    Refuses l.budget s (l.budget.groupIdFor s amounts k (some h.callId) (some h.attemptId))
      amounts.entries := by
  rcases bind_error.mp hrun with hres | ⟨g, m, -, hrest⟩
  · exact reserveIn_refused hres
  · rcases bind_error.mp hrest with hadv | ⟨u, m', -, hpure⟩
    · rcases advanceIn_error hadv with h | ⟨message, h⟩ <;> cases h
    · simp at hpure

theorem onRefusal_some {now : ℚ} {h : AttemptHandle} {e : Stopped Raised} {x : Proc ReservationGroup}
    (hx : onRefusal now h e = some x) : ∃ resource requested headroom,
      e = .raised (.budgetExceeded resource requested headroom) ∧
      x = (do
        tx (advanceIn now h .failedFinal [.errorClass "budget_exceeded"])
        raise (.raised (.budgetExceeded resource requested headroom))) := by
  unfold onRefusal at hx
  split at hx
  · cases hx
    exact ⟨_, _, _, rfl, rfl⟩
  · cases hx

theorem reserve_effect {l : ExternalCallLedger} (s : Database) {call : Call} {h : AttemptHandle}
    {amounts : Amounts} {k : Option String} (hop : call.op = .reserve h amounts k) :
    Effect l s call ((reserve l call.clock h amounts k).after ⟨s, call.life⟩).store := by
  have hhandle : call.op.handle = some h := by rw [hop]; rfl
  refine after_catching (P := fun u : Session Database => Effect l s call u.store) ?_ ?_ ?_
  · intro g t hrun
    obtain ⟨m, u, hres, hadv⟩ := reserveTx_ok (tx_ok hrun)
    obtain ⟨hne, -, us, hloop⟩ := reserveIn_ok hres
    obtain ⟨hrows, hpos, hcalls, hatts, -⟩ := reserveLoop_ok hloop
    refine effect_advanced hhandle hcalls hatts hadv fun hsame => ?_
    exact .reserved rfl amounts k g.groupId hne hpos ((congrArg Table.rows hsame).trans hrows)
  · intro e t hrun _
    rw [tx_error hrun]
    exact .refl l s call
  · intro e t x hrun hx
    obtain ⟨resource, requested, headroom, rfl, rfl⟩ := onRefusal_some hx
    obtain ⟨m, hbody⟩ := tx_raised hrun
    have hrefused := reserveTx_refused hbody
    have ht : t.store = s := tx_error hrun
    refine after_bind (P := fun u : Session Database => Effect l s call u.store) ?_ ?_
    · intro e' t' hrun'
      rw [tx_error hrun', ht]
      exact .refl l s call
    · intro u t' hrun'
      have hadv := tx_ok hrun'
      rw [ht] at hadv
      refine effect_advanced hhandle rfl rfl hadv fun hsame => ?_
      exact .refused rfl amounts k hop hrefused (congrArg Table.rows hsame)

theorem storeText_same {l : ExternalCallLedger} {now : ℚ} {h : AttemptHandle} {kind text : String}
    {s t : Session Database} {r : Except (Stopped Raised) StoredObject}
    (hrun : storeText l now h kind text s = (r, t)) : sameTables s.store t.store := by
  unfold storeText at hrun
  cases hs : l.storeRedacted text with
  | error e =>
    simp only [hs, raise_run] at hrun
    cases hrun
    exact ⟨rfl, rfl, rfl⟩
  | ok ref =>
    simp only [hs] at hrun
    cases r with
    | ok ref' =>
      obtain ⟨u, m, hreg, hpure⟩ := bind_ok.mp hrun
      cases hpure
      exact registerArtifact_same (tx_ok hreg)
    | error e =>
      rcases bind_error.mp hrun with hreg | ⟨u, m, -, hpure⟩
      · rw [tx_error hreg]
        exact ⟨rfl, rfl, rfl⟩
      · simp at hpure

/-- `mark_sent` and `store_response`: an artifact, and then the attempt. -/
theorem stored_effect (l : ExternalCallLedger) (s : Database) {call : Call} {h : AttemptHandle}
    (hhandle : call.op.handle = some h) {state : CallAttemptState} (hstate : state ∈ attemptSentStates)
    (kind text : String) (cols : StoredObject → List AttemptColumn) :
    Effect l s call ((storeText l call.clock h kind text >>= fun ref =>
      tx (advanceIn call.clock h state (cols ref))).after ⟨s, call.life⟩).store := by
  refine after_bind (P := fun u : Session Database => Effect l s call u.store) ?_ ?_
  · intro e t hrun
    exact (Effect.refl l s call).of_same (storeText_same hrun)
  · intro ref t hrun
    have hsame := storeText_same hrun
    refine tx_after (P := Effect l s call) ((Effect.refl l s call).of_same hsame) ?_
    intro u m hadv
    refine effect_advanced hhandle hsame.1 hsame.2.1 hadv fun hres => ?_
    exact .kept hstate (congrArg Table.rows (hres.trans hsame.2.2))

theorem resolveGroup_ok {l : ExternalCallLedger} {now : ℚ} {group : Option ReservationGroup} {mode : Mode}
    {s t : Database} {overs : List UnderReserved} (h : resolveGroup l now group mode s = (.ok overs, t)) :
    sameCalls s t ∧ t.budgetReservations.rows = reservationsResolved l s now group mode := by
  cases group with
  | none =>
    cases h
    exact ⟨sameCalls_refl s, rfl⟩
  | some g =>
    have ht : t = l.budget.resolved now g mode.charge s := by
      obtain ⟨overs', hrun⟩ := resolveIn_run l.budget now g mode.charge s
      cases mode <;> exact congrArg Prod.snd (h.symm.trans hrun)
    rw [ht]
    exact ⟨sameCalls_resolved _ _ _ _ _, rfl⟩

/-- An operation that ends an attempt: the money and the state, and then the incidents. -/
theorem ending_effect (l : ExternalCallLedger) (s : Database) {call : Call} {h : AttemptHandle}
    {state : CallAttemptState} {group : Option ReservationGroup} {mode : Mode}
    (hhandle : call.op.handle = some h) (hop : call.op.ending = some (h, state, group, mode))
    (cols : List AttemptColumn) :
    Effect l s call
      ((settleAndAdvance l call.clock h state group mode cols).after ⟨s, call.life⟩).store := by
  refine after_bind (P := fun u : Session Database => Effect l s call u.store) ?_ ?_
  · intro e t hrun
    rw [tx_error hrun]
    exact .refl l s call
  · intro overs t hrun
    have ht : Effect l s call t.store := by
      obtain ⟨overs', m, hres, hrest⟩ := bind_ok.mp (tx_ok hrun)
      obtain ⟨u, m', hadv, hpure⟩ := bind_ok.mp hrest
      obtain ⟨hsame, hrows⟩ := resolveGroup_ok hres
      have hm : m' = t.store := congrArg Prod.snd hpure
      rw [hm] at hadv
      refine effect_advanced hhandle hsame.1 hsame.2.1 hadv fun hkeep => ?_
      exact .ended group mode hop ((congrArg Table.rows hkeep).trans hrows)
    have hloop : Effect l s call ((forEach (fun u : UnderReserved =>
        tx (WorkLedger.recordIncident call.clock "ERROR" "budget_under_reserved" (u.message l.budget.text)
          (some h.callId))) overs).after t).store := by
      refine after_forEach (P := fun u : Session Database => Effect l s call u.store) ?_ overs ht
      intro over_ u hu
      refine tx_after (P := Effect l s call) hu ?_
      intro a m hm
      rw [recordIncident_run] at hm
      cases hm
      exact hu.of_same ⟨rfl, rfl, rfl⟩
    refine after_bind (P := fun u : Session Database => Effect l s call u.store) ?_ ?_
    · intro e u hu
      exact after_of_error hu ▸ hloop
    · intro a u hu
      exact after_of_ok hu ▸ hloop

/-- A script whose value is dropped leaves behind what it leaves behind. -/
theorem after_discard {α : Type} (x : Proc α) (s : Session Database) :
    (do let _ ← x; pure () : Proc Unit).after s = x.after s := by
  unfold after
  rw [bind_run]
  cases x s with
  | mk r t => cases r <;> rfl

/-- What a call of any operation does, wherever its process dies. -/
theorem step_effect (l : ExternalCallLedger) (s : Database) (call : Call) :
    Effect l s call (step l s call) := by
  obtain ⟨clock, life, op⟩ := call
  unfold step
  cases op with
  | ensureAccount resource cap =>
    refine tx_after (P := Effect l s _) (.refl l s _) ?_
    intro u t hrun
    have ht : t = (ensureAccount clock resource cap).after s := (after_of_ok hrun).symm
    rcases ensureAccount_after clock resource cap s with
      ⟨-, _, hafter⟩ | ⟨a, -, -, hafter⟩ | ⟨a, -, -, hafter⟩ <;>
    · rw [ht, hafter]
      exact .idle rfl rfl rfl
  | openCall provider opClass callKey k =>
    simp only [perform, after_discard]
    exact openCall_effect l s _ provider opClass callKey k
  | beginAttempt callId =>
    simp only [perform, after_discard]
    exact tx_after (P := Effect l s _) (.refl l s _) fun h t hrun => beginAttemptIn_effect hrun
  | reserve h amounts k =>
    simp only [perform, after_discard]
    exact reserve_effect s rfl
  | markSent h text dispatched ingress =>
    exact stored_effect l s rfl (by simp [attemptSentStates]) _ text _
  | storeResponse h text fields =>
    exact stored_effect l s rfl (by simp [attemptSentStates]) _ text _
  | validate h =>
    refine tx_after (P := Effect l s _) (.refl l s _) fun u t hrun => ?_
    refine effect_advanced rfl rfl rfl hrun fun hsame => ?_
    exact .kept (by simp [attemptSentStates]) (congrArg Table.rows hsame)
  | commit h group actuals => exact ending_effect l s rfl rfl _
  | failBeforeSend h group err => exact ending_effect l s rfl rfl _
  | failUnknown h group err => exact ending_effect l s rfl rfl _
  | failAfterResponse h group actuals err endAt telemetry => exact ending_effect l s rfl rfl _
  | closeCall callId reason =>
    exact tx_after (P := Effect l s _) (.refl l s _) fun u t hrun => closeCallIn_effect hrun

end Shapeflow.ExternalCalls
