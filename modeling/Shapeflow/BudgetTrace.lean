import Mathlib.Data.List.Forall2
import Shapeflow.BudgetAccounting
import Shapeflow.CrashLogic

set_option autoImplicit false

/-!
# Raises and their traces

The budget operations as a process makes them, one transaction after another,
and what a death between the two transactions of a raise costs: the record of it.
-/
namespace Shapeflow.Budget
open Script Database Table Session Run

/-- The incident text of a raise. -/
def raiseDetail (b : Budget) (resource : String) (previous cap spent : ℚ) (authorization reason : String) :
    String :=
  s!"{resource}: {b.text.str previous} -> {b.text.str cap}; spent={b.text.str spent}; " ++
    s!"authorization={authorization}; reason={reason}"

/-- `authorize_cap_raise` as a process makes it: the cap moves in one transaction, the incident is
    recorded in the next. -/
def authorizeCapRaiseSteps (b : Budget) (now : ℚ) (resource : String) (cap : ℚ)
    (authorization reason : String) : Script (Session Database) (Stopped Raised) CapRaise :=
  if authorization = "" ∨ reason = "" then
    raise (.raised (.valueError "a cap raise must record its authorization and its reason"))
  else do
    let row ← tx (b.raiseCap now resource cap)
    if cap = row.cap then
      pure { resource, previousCap := row.cap, cap, changed := false }
    else do
      tx (WorkLedger.recordIncident now "WARNING" "budget_cap_raised"
        (b.raiseDetail resource row.cap cap row.settledTotal authorization reason))
      pure { resource, previousCap := row.cap, cap, changed := true, settled := some row.settledTotal }

/-- A call as a process makes it. -/
def perform (b : Budget) (call : Call) : Script (Session Database) (Stopped Raised) Unit :=
  match call.op with
  | .ensureAccount resource cap => tx (ensureAccount call.clock resource cap)
  | .authorizeCapRaise resource cap auth reason => do
    let _ ← b.authorizeCapRaiseSteps call.clock resource cap auth reason
    pure ()
  | .reserve amounts k c a => do
    let _ ← tx (b.reserve call.clock amounts k c a)
    pure ()
  | .settle group actuals => do
    let _ ← tx (b.settle call.clock group actuals)
    pure ()
  | .keepWorstCase group => do
    let _ ← tx (b.keepWorstCase call.clock group)
    pure ()
  | .release group => do
    let _ ← tx (b.release call.clock group)
    pure ()

/-! ## A process that does not die -/

/-- Throwing a value away changes nothing in the store. -/
theorem after_discard {σ ε α : Type} (x : Script σ ε α) (s : σ) :
    (x >>= fun _ => pure ()).after s = x.after s := by
  cases h : x s with
  | mk r t =>
    cases r with
    | ok a =>
      rw [after_bind_of_ok h, after_of_ok h]
      rfl
    | error e => rw [after_bind_of_error h, after_of_error h]

theorem tx_immortal_after {α : Type} (body : Script Database Raised α) (s : Database) :
    ((tx (transaction body)).after ⟨s, none⟩).store = (transaction body).after s := by
  cases h : transaction body s with
  | mk r t =>
    cases r with
    | ok a => rw [after_of_ok h, after_of_ok (tx_immortal h)]
    | error e =>
      have ht := transaction_error h
      rw [after_of_error h]
      subst ht
      simp [after, tx, transaction_of_error h]

/-- A process that does not die makes a call as the budget's step has it. -/
theorem perform_immortal (b : Budget) (call : Call) (s : Database) :
    ((b.perform call).after ⟨s, none⟩).store = b.step s call := by
  obtain ⟨now, op⟩ := call
  cases op with
  | ensureAccount resource cap => exact tx_immortal_after _ s
  | reserve amounts k c a =>
    change (((tx (b.reserve now amounts k c a)) >>= fun _ => pure ()).after ⟨s, none⟩ : Session Database).store = _
    rw [after_discard]
    exact tx_immortal_after _ s
  | settle group actuals =>
    change (((tx (b.settle now group actuals)) >>= fun _ => pure ()).after ⟨s, none⟩ : Session Database).store = _
    rw [after_discard]
    exact tx_immortal_after _ s
  | keepWorstCase group =>
    change (((tx (b.keepWorstCase now group)) >>= fun _ => pure ()).after ⟨s, none⟩ : Session Database).store = _
    rw [after_discard]
    exact tx_immortal_after _ s
  | release group =>
    change (((tx (b.release now group)) >>= fun _ => pure ()).after ⟨s, none⟩ : Session Database).store = _
    rw [after_discard]
    exact tx_immortal_after _ s
  | authorizeCapRaise resource cap auth reason =>
    change (((b.authorizeCapRaiseSteps now resource cap auth reason) >>= fun _ => pure ()).after
      ⟨s, none⟩ : Session Database).store = (b.authorizeCapRaise now resource cap auth reason).after s
    rw [after_discard]
    unfold authorizeCapRaiseSteps authorizeCapRaise
    by_cases hempty : auth = "" ∨ reason = ""
    · rw [if_pos hempty, if_pos hempty]
      rfl
    · rw [if_neg hempty, if_neg hempty]
      rcases raiseCap_run b now resource cap s with ⟨e, he⟩ | ⟨a, -, heq, ha⟩ | ⟨a, -, hlt, ha⟩
      · rw [after_bind_of_error (transaction_of_error he)]
        have htx : tx (b.raiseCap now resource cap) ⟨s, none⟩ = (.error (.raised e), ⟨s, none⟩) := by
          simp [tx, transaction_of_error he]
        rw [after_bind_of_error htx]
      · rw [after_bind_of_ok (transaction_of_ok ha), after_bind_of_ok (tx_immortal ha), if_pos heq, if_pos heq]
        rfl
      · rw [after_bind_of_ok (transaction_of_ok ha), after_bind_of_ok (tx_immortal ha), if_neg hlt.ne',
          if_neg hlt.ne']
        rw [after_bind_of_ok (recordIncident_run ..), after_bind_of_ok (tx_immortal (recordIncident_run ..))]
        rfl

/-! ## What is observed of the caps -/

/-- Between two databases the cap of `resource` went up: from what to what. -/
def riseOf (s t : Database) (resource : String) : Option (ℚ × ℚ) :=
  match fetchAccount s resource, fetchAccount t resource with
  | some a, some a' => if a.cap < a'.cap then some (a.cap, a'.cap) else none
  | _, _ => none

/-- A ledger with what has been seen of each account: the cap it was created with and the
    increases of its cap, oldest first. -/
structure History where
  store : Database
  created : String → Option ℚ
  rises : String → List (ℚ × ℚ)

def History.start (s : Database) : History where
  store := s
  created resource := (fetchAccount s resource).map (·.cap)
  rises _ := []

def History.observe (h : History) (t : Database) : History where
  store := t
  created resource := (h.created resource).or ((fetchAccount t resource).map (·.cap))
  rises resource := h.rises resource ++ (riseOf h.store t resource).toList

/-- One call, made by a process that lives to finish `life` transactions of it. -/
structure Made where
  call : Call
  life : Option ℕ

def History.step (b : Budget) (h : History) (m : Made) : History :=
  h.observe ((b.perform m.call).after ⟨h.store, m.life⟩).store

/-- The incident of one increase of the cap of `resource`. -/
def Records (b : Budget) (resource : String) (rise : ℚ × ℚ) (i : IncidentRow) : Prop :=
  i.kind = "budget_cap_raised" ∧ ∃ spent authorization reason,
    i.detail = b.raiseDetail resource rise.1 rise.2 spent authorization reason

/-- Each increase of the cap of `resource` has an incident of its own, in order. -/
def Recorded (b : Budget) (h : History) (resource : String) : Prop :=
  ∃ incidents, incidents.Sublist h.store.incidents.rows ∧
    List.Forall₂ (b.Records resource) (h.rises resource) incidents

/-- An account whose cap is above the one it was created with has every increase on record. -/
def Traced (b : Budget) (h : History) : Prop :=
  ∀ resource row created, fetchAccount h.store resource = some row →
    h.created resource = some created → created < row.cap → b.Recorded h resource

/-! ## Calls that raise no cap -/

/-- No cap goes up, and the incidents stay. -/
def Quiet (s t : Database) : Prop :=
  t.incidents = s.incidents ∧ ∀ resource, riseOf s t resource = none

theorem quiet_of_caps {s t : Database} (hincidents : t.incidents = s.incidents)
    (hcaps : ∀ resource a a', fetchAccount s resource = some a → fetchAccount t resource = some a' →
      a'.cap ≤ a.cap) : Quiet s t := by
  refine ⟨hincidents, fun resource => ?_⟩
  unfold riseOf
  split
  · rename_i a a' ha ha'
    exact if_neg (not_lt.mpr (hcaps resource a a' ha ha'))
  · rfl

theorem quiet_refl (s : Database) : Quiet s s := by
  apply quiet_of_caps rfl
  intro resource a a' ha ha'
  have hsame : a = a' := Option.some.inj (ha.symm.trans ha')
  exact hsame ▸ le_refl _

/-- The caps by resource, as the rows list them. -/
def capList (s : Database) : List (String × ℚ) := s.budgetAccounts.rows.map fun a => (a.resource, a.cap)

theorem cap_eq_capList (s : Database) (resource : String) :
    (fetchAccount s resource).map (·.cap) = ((capList s).find? (·.1 = resource)).map (·.2) := by
  unfold capList fetchAccount
  rw [List.find?_map, Option.map_map]
  rfl

theorem quiet_of_capList {s t : Database} (hincidents : t.incidents = s.incidents)
    (hcaps : capList t = capList s) : Quiet s t := by
  apply quiet_of_caps hincidents
  intro resource a a' ha ha'
  have hs := cap_eq_capList s resource
  have ht := cap_eq_capList t resource
  rw [hcaps, ← hs, ha, ha'] at ht
  exact le_of_eq (Option.some.inj ht)

theorem fetchAccount_withCap (now : ℚ) (resource : String) (cap : ℚ) (s : Database) (other : String) :
    fetchAccount (withCap now resource cap s) other =
      (fetchAccount s other).map fun a => if a.resource = resource then { a with cap, updatedAt := now } else a := by
  unfold fetchAccount withCap accountMoved
  refine (find?_updated fun r _ _ => ?_).trans ?_
  · rfl
  · simp only [decide_eq_true_eq]

theorem quiet_ensureAccount (now : ℚ) (resource : String) (cap : ℚ) (s : Database) :
    Quiet s ((ensureAccount now resource cap).after s) := by
  rcases ensureAccount_after now resource cap s with ⟨hnone, hkeys, hafter⟩ | ⟨a, ha, hlow, hafter⟩ | ⟨a, _, _, hafter⟩
  · rw [hafter]
    have hincidents : ({ s with budgetAccounts :=
      ⟨s.budgetAccounts.rows ++ [⟨resource, cap, 0, 0, now⟩], hkeys⟩ } : Database).incidents = s.incidents := rfl
    apply quiet_of_caps hincidents
    intro other x x' hx hx'
    have hsame : x' = x := by
      have hfetch : fetchAccount { s with budgetAccounts := ⟨s.budgetAccounts.rows ++ [⟨resource, cap, 0, 0, now⟩], hkeys⟩ } other = some x := by
        unfold fetchAccount
        rw [List.find?_append]
        exact Option.or_eq_some_iff.mpr (.inl hx)
      exact Option.some.inj (hx'.symm.trans hfetch)
    exact hsame ▸ le_refl _
  · rw [hafter]
    have hincidents : (withCap now resource cap s).incidents = s.incidents := rfl
    apply quiet_of_caps hincidents
    intro other x x' hx hx'
    rw [fetchAccount_withCap, hx, Option.map_some] at hx'
    rw [← Option.some.inj hx']
    by_cases hres : x.resource = resource
    · have hother : other = resource := (fetchAccount_some hx).2.symm.trans hres
      have hxa : x = a := by
        rw [hother] at hx
        exact Option.some.inj (hx.symm.trans ha)
      rw [if_pos hres, hxa]
      exact le_of_lt hlow
    · rw [if_neg hres]
  · rw [hafter]
    exact quiet_refl s

theorem capList_accountMoved {s : Database} {resource : String} {f : BudgetAccountRow → BudgetAccountRow}
    (hf : ∀ a, (f a).resource = a.resource) (hcap : ∀ a, (f a).cap = a.cap) :
    ((accountMoved s resource f hf).rows.map fun a => (a.resource, a.cap)) = capList s := by
  apply map_updated
  intro a _ _
  rw [hf, hcap]

theorem quiet_reserveLoop {b : Budget} {now : ℚ} {g : String} {k c at_ : Option String}
    {entries : List (String × ℚ)} {s t : Database} {us : List Unit}
    (h : forEach (b.reserveResource now g k c at_) entries s = (.ok us, t)) :
    t.incidents = s.incidents ∧ capList t = capList s := by
  induction entries generalizing s us with
  | nil =>
    obtain ⟨-, rfl⟩ := forEach_nil_ok.mp h
    exact ⟨rfl, rfl⟩
  | cons entry rest ih =>
    obtain ⟨u, vs, m, -, hone, hrest⟩ := forEach_cons_ok.mp h
    obtain ⟨-, -, hkeys, rfl⟩ := reserveResource_ok hone
    have hrest := ih hrest
    refine ⟨hrest.1, hrest.2.trans ?_⟩
    exact capList_accountMoved (f := holding now entry.2) (fun _ => rfl) (fun _ => rfl)

theorem quiet_resolved (b : Budget) (now : ℚ) (group : ReservationGroup) (actualOf : String → ℚ → ℚ)
    (s : Database) : Quiet s (b.resolved now group actualOf s) := by
  have hfold : ∀ (rows : List ReservationRow) (s : Database),
      (rows.foldl (settleOne now actualOf) s).incidents = s.incidents ∧
      capList (rows.foldl (settleOne now actualOf) s) = capList s := by
    intro rows
    induction rows with
    | nil => exact fun s => ⟨rfl, rfl⟩
    | cons r rest ih =>
      intro s
      have hone : (settleOne now actualOf s r).incidents = s.incidents ∧
          capList (settleOne now actualOf s r) = capList s := by
        unfold settleOne
        split
        · exact ⟨rfl, rfl⟩
        · exact ⟨rfl, capList_accountMoved
            (f := charging now r.amount (max 0 (actualOf r.resource r.amount)))
            (fun _ => rfl) (fun _ => rfl)⟩
      have hrest := ih (settleOne now actualOf s r)
      exact ⟨hrest.1.trans hone.1, hrest.2.trans hone.2⟩
  have hall := hfold (b.groupRows s group) s
  exact quiet_of_capList hall.1 hall.2

/-- A single transaction, whether or not its process lives to finish it. -/
theorem quiet_tx {α : Type} {body : Script Database Raised α} {s : Database} (life : Option ℕ)
    (h : ∀ a t, body s = (.ok a, t) → Quiet s t) :
    Quiet s (((tx body >>= fun _ => pure ()).after ⟨s, life⟩ : Session Database)).store := by
  rw [after_discard]
  exact tx_after (quiet_refl s) h

theorem quiet_resolving {b : Budget} {now : ℚ} {group : ReservationGroup} {actualOf : String → ℚ → ℚ}
    {s t : Database} {overs : List UnderReserved}
    (h : transaction (b.resolveIn now group actualOf) s = (.ok overs, t)) : Quiet s t := by
  obtain ⟨overs', hrun⟩ := resolveIn_run b now group actualOf s
  have hpair := hrun.symm.trans (transaction_ok.mp h)
  rw [← (Prod.mk.inj hpair).2]
  exact quiet_resolved b now group actualOf s

/-- The call is a raise that would move the cap of an account, from the first amount to the second. -/
def raises (s : Database) (call : Call) : Option (String × ℚ × ℚ) :=
  match call.op with
  | .authorizeCapRaise resource cap auth reason =>
    if auth = "" ∨ reason = "" then none
    else match fetchAccount s resource with
      | none => none
      | some a => if a.cap < cap then some (resource, a.cap, cap) else none
  | _ => none

theorem quiet_ensure {s : Database} {now : ℚ} {resource : String} {cap : ℚ} (life : Option ℕ) :
    Quiet s ((tx (ensureAccount now resource cap)).after ⟨s, life⟩).store := by
  apply tx_after (quiet_refl s)
  intro a t h
  have hquiet := quiet_ensureAccount now resource cap s
  rw [after_of_ok h] at hquiet
  exact hquiet

/-- What a call leaves of a raise: nothing, both of its writes, or the cap alone when its process
    lives to finish one transaction and no more. -/
theorem perform_after (b : Budget) (call : Call) (s : Database) (life : Option ℕ) :
    Quiet s ((b.perform call).after ⟨s, life⟩).store ∨
    ∃ resource previous cap, raises s call = some (resource, previous, cap) ∧
      (life = some 1 ∨ ∃ spent authorization reason,
        ((b.perform call).after ⟨s, life⟩).store.incidents.rows = s.incidents.rows ++
          [⟨call.clock, "WARNING", "budget_cap_raised",
            b.raiseDetail resource previous cap spent authorization reason, none⟩] ∧
        ((b.perform call).after ⟨s, life⟩).store.budgetAccounts =
          (withCap call.clock resource cap s).budgetAccounts) := by
  obtain ⟨now, op⟩ := call
  cases op with
  | ensureAccount resource cap => exact .inl (quiet_ensure life)
  | reserve amounts k c a =>
    refine .inl (quiet_tx life ?_)
    intro g t h
    obtain ⟨-, -, us, hloop⟩ := reserveIn_ok (transaction_ok.mp h)
    have hquiet := quiet_reserveLoop hloop
    exact quiet_of_capList hquiet.1 hquiet.2
  | settle group actuals => exact .inl (quiet_tx life fun _ _ h => quiet_resolving h)
  | keepWorstCase group => exact .inl (quiet_tx life fun _ _ h => quiet_resolving h)
  | release group => exact .inl (quiet_tx life fun _ _ h => quiet_resolving h)
  | authorizeCapRaise resource cap auth reason =>
    have hperform : ((b.perform ⟨now, .authorizeCapRaise resource cap auth reason⟩).after ⟨s, life⟩) =
        (b.authorizeCapRaiseSteps now resource cap auth reason).after ⟨s, life⟩ :=
      after_discard _ _
    rw [hperform]
    unfold authorizeCapRaiseSteps
    by_cases hempty : auth = "" ∨ reason = ""
    · rw [if_pos hempty]
      exact .inl (quiet_refl s)
    · rw [if_neg hempty]
      cases hrow : tx (b.raiseCap now resource cap) ⟨s, life⟩ with
      | mk r u =>
        cases r with
        | error e =>
          rw [after_bind_of_error hrow, tx_error hrow]
          exact .inl (quiet_refl s)
        | ok a =>
          rw [after_bind_of_ok hrow]
          have hbody := tx_ok hrow
          rcases raiseCap_run b now resource cap s with ⟨e, he⟩ | ⟨a', ha', heq, hrun⟩ | ⟨a', ha', hlt, hrun⟩
          · rw [hbody] at he
            simp at he
          · have hpair := Prod.mk.inj (hbody.symm.trans hrun)
            have haa : a = a' := Except.ok.inj hpair.1
            rw [if_pos (haa ▸ heq)]
            left
            change Quiet s u.store
            rw [hpair.2]
            exact quiet_refl s
          · have hpair := Prod.mk.inj (hbody.symm.trans hrun)
            have haa : a = a' := Except.ok.inj hpair.1
            subst haa
            rw [if_neg hlt.ne']
            right
            refine ⟨resource, a.cap, cap, ?_, ?_⟩
            · simp only [raises, if_neg hempty, ha', if_pos hlt]
            · by_cases hdead : u.life = some 0
              · left
                unfold tx at hrow
                split at hrow
                · simp at hrow
                · rename_i hlive
                  rw [transaction_of_ok hbody] at hrow
                  have hlife : u.life = life.map (· - 1) := by
                    rw [← (Prod.mk.inj hrow).2]
                  rw [hlife] at hdead
                  cases life with
                  | none => simp at hdead
                  | some n =>
                    simp only [Option.map_some, Option.some.injEq] at hdead hlive ⊢
                    omega
              · right
                refine ⟨a.settledTotal, auth, reason, ?_⟩
                have hincident := recordIncident_run now "WARNING" "budget_cap_raised"
                  (b.raiseDetail resource a.cap cap a.settledTotal auth reason) none u.store
                have htx : tx (WorkLedger.recordIncident now "WARNING" "budget_cap_raised"
                    (b.raiseDetail resource a.cap cap a.settledTotal auth reason)) u =
                    (.ok (), ⟨{ u.store with incidents := ⟨u.store.incidents.rows ++
                      [⟨now, "WARNING", "budget_cap_raised",
                        b.raiseDetail resource a.cap cap a.settledTotal auth reason, none⟩], trivial⟩ },
                      u.life.map (· - 1)⟩) := by
                  unfold tx
                  rw [if_neg hdead, transaction_of_ok hincident]
                rw [after_bind_of_ok htx]
                change u.store.incidents.rows ++ _ = _ ∧ u.store.budgetAccounts = _
                rw [hpair.2]
                exact ⟨rfl, rfl⟩

/-! ## Histories -/

/-- No process dies between the two transactions of a raise that moves a cap. -/
def Finishes (h : History) (m : Made) : Prop := m.life = some 1 → raises h.store m.call = none

instance (h : History) (m : Made) : Decidable (Finishes h m) := inferInstanceAs (Decidable (_ → _))

theorem riseOf_withCap {s t : Database} {now : ℚ} {resource : String} {cap : ℚ} {a : BudgetAccountRow}
    (ha : fetchAccount s resource = some a) (hlt : a.cap < cap)
    (ht : t.budgetAccounts = (withCap now resource cap s).budgetAccounts) (other : String) :
    riseOf s t other = if other = resource then some (a.cap, cap) else none := by
  have hfetch : fetchAccount t other = fetchAccount (withCap now resource cap s) other := by
    unfold fetchAccount
    rw [ht]
  unfold riseOf
  rw [hfetch, fetchAccount_withCap]
  by_cases hother : other = resource
  · subst hother
    have hres := (fetchAccount_some ha).2
    simp [ha, hres, hlt]
  · rw [if_neg hother]
    cases hx : fetchAccount s other with
    | none => rfl
    | some x =>
      have hres : x.resource ≠ resource := by
        rw [(fetchAccount_some hx).2]
        exact hother
      simp [hres]

theorem fetchAccount_of_raises {s : Database} {call : Call} {resource : String} {previous cap : ℚ}
    (h : raises s call = some (resource, previous, cap)) :
    ∃ a, fetchAccount s resource = some a ∧ a.cap = previous ∧ previous < cap := by
  unfold raises at h
  split at h
  · split at h
    · simp at h
    · split at h
      · simp at h
      · rename_i a ha
        split at h
        · rename_i hlt
          simp only [Option.some.injEq, Prod.mk.injEq] at h
          obtain ⟨hres, hprev, hcap⟩ := h
          subst hres hprev hcap
          exact ⟨a, ha, rfl, hlt⟩
        · simp at h
  · simp at h

theorem recorded_step {b : Budget} {h : History} {m : Made} (hfin : Finishes h m)
    (hall : ∀ resource, b.Recorded h resource) (resource : String) :
    b.Recorded (h.step b m) resource := by
  obtain ⟨incidents, hsub, hrecords⟩ := hall resource
  rcases perform_after b m.call h.store m.life with hquiet | ⟨raised, previous, cap, hraises, hwritten⟩
  · refine ⟨incidents, ?_, ?_⟩
    · change incidents.Sublist ((b.perform m.call).after ⟨h.store, m.life⟩).store.incidents.rows
      rw [hquiet.1]
      exact hsub
    · change List.Forall₂ _ (h.rises resource ++ (riseOf h.store _ resource).toList) incidents
      rw [hquiet.2 resource, Option.toList_none, List.append_nil]
      exact hrecords
  · rcases hwritten with hdied | ⟨spent, auth, reason, hrows, haccounts⟩
    · rw [hfin hdied] at hraises
      simp at hraises
    · obtain ⟨a, ha, hprevious, hlt⟩ := fetchAccount_of_raises hraises
      subst hprevious
      have hrise := riseOf_withCap ha hlt haccounts resource
      by_cases hres : resource = raised
      · subst hres
        rw [if_pos rfl] at hrise
        refine ⟨incidents ++ [⟨m.call.clock, "WARNING", "budget_cap_raised",
          b.raiseDetail resource a.cap cap spent auth reason, none⟩], ?_, ?_⟩
        · change (incidents ++ _).Sublist ((b.perform m.call).after ⟨h.store, m.life⟩).store.incidents.rows
          rw [hrows]
          exact hsub.append (List.Sublist.refl _)
        · change List.Forall₂ _ (h.rises resource ++ (riseOf h.store _ resource).toList) _
          rw [hrise]
          exact List.rel_append hrecords (.cons ⟨rfl, spent, auth, reason, rfl⟩ .nil)
      · rw [if_neg hres] at hrise
        refine ⟨incidents, ?_, ?_⟩
        · change incidents.Sublist ((b.perform m.call).after ⟨h.store, m.life⟩).store.incidents.rows
          rw [hrows]
          exact hsub.trans (List.sublist_append_left _ _)
        · change List.Forall₂ _ (h.rises resource ++ (riseOf h.store _ resource).toList) incidents
          rw [hrise, Option.toList_none, List.append_nil]
          exact hrecords

/-- An account opened at 5 and raised to 7, by a process that lives to finish `life` transactions
    of the raise. -/
def raisedOnce (life : Option ℕ) : List Made :=
  [⟨⟨1, .ensureAccount "usd" 5⟩, none⟩, ⟨⟨2, .authorizeCapRaise "usd" 7 "approval-2" "measured"⟩, life⟩]

end Shapeflow.Budget
