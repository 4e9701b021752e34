import Shapeflow.Budget

set_option autoImplicit false

/-!
# What one budget operation does to the rows

Resolving a group never raises and is a fold over the selected rows; a
reservation goes through resource by resource. Later modules cite these lemmas
and never unfold an operation again.
-/
namespace Shapeflow.Budget
open Script Database Table

/-- The tables a budget operation leaves alone. -/
def sameCalls (s t : Database) : Prop :=
  t.externalCalls = s.externalCalls ∧ t.externalCallAttempts = s.externalCallAttempts ∧
    t.externalCallTransitions = s.externalCallTransitions

theorem sameCalls_refl (s : Database) : sameCalls s s := ⟨rfl, rfl, rfl⟩

theorem sameCalls_trans {s t u : Database} (h : sameCalls s t) (h' : sameCalls t u) : sameCalls s u :=
  ⟨h'.1.trans h.1, h'.2.1.trans h.2.1, h'.2.2.trans h.2.2⟩

theorem fetchAccount_some {s : Database} {resource : String} {a : BudgetAccountRow}
    (h : fetchAccount s resource = some a) : a ∈ s.budgetAccounts.rows ∧ a.resource = resource :=
  mem_of_find? h

theorem fetchAccount_of_mem {s : Database} {a : BudgetAccountRow} (h : a ∈ s.budgetAccounts.rows) :
    fetchAccount s a.resource = some a :=
  find?_of_mem s.budgetAccounts.sound h

theorem fetchAccount_none {s : Database} {resource : String} (h : fetchAccount s resource = none) :
    ∀ a ∈ s.budgetAccounts.rows, a.resource ≠ resource := by
  intro a ha
  simpa using List.find?_eq_none.mp h a ha

theorem fetchReservation_some {s : Database} {i : String} {r : ReservationRow}
    (h : fetchReservation s i = some r) : r ∈ s.budgetReservations.rows ∧ r.reservationId = i :=
  mem_of_find? h

theorem accountKeys_updated {p : BudgetAccountRow → Bool} {f : BudgetAccountRow → BudgetAccountRow}
    {rows : List BudgetAccountRow} (h : AccountKeys rows) (hf : ∀ r, (f r).resource = r.resource) :
    AccountKeys (updated p f rows) := by
  unfold AccountKeys
  rw [map_updated _ fun r _ _ => hf r]
  exact h

theorem reservationKeys_updated {p : ReservationRow → Bool} {f : ReservationRow → ReservationRow}
    {rows : List ReservationRow} (h : ReservationKeys rows)
    (hf : ∀ r, (f r).reservationId = r.reservationId) : ReservationKeys (updated p f rows) := by
  unfold ReservationKeys
  rw [map_updated _ fun r _ _ => hf r]
  exact h

/-- The accounts once `f` has been applied to the one of `resource`. -/
def accountMoved (s : Database) (resource : String) (f : BudgetAccountRow → BudgetAccountRow)
    (hf : ∀ a, (f a).resource = a.resource) : Table AccountKeys :=
  ⟨updated (fun a => a.resource = resource) f s.budgetAccounts.rows,
    accountKeys_updated s.budgetAccounts.sound hf⟩

def reservationMoved (s : Database) (i : String) (f : ReservationRow → ReservationRow)
    (hf : ∀ r, (f r).reservationId = r.reservationId) : Table ReservationKeys :=
  ⟨updated (fun r => r.reservationId = i) f s.budgetReservations.rows,
    reservationKeys_updated s.budgetReservations.sound hf⟩

/-! ## Caps -/

/-- The database once the cap of `resource` has been set. -/
def withCap (now : ℚ) (resource : String) (cap : ℚ) (s : Database) : Database :=
  { s with budgetAccounts := accountMoved s resource (fun r => { r with cap, updatedAt := now }) fun _ => rfl }

theorem setCap_run (now : ℚ) (resource : String) (cap : ℚ) (s : Database) :
    ∃ n, setCap now resource cap s = (.ok n, withCap now resource cap s) := by
  refine ⟨_, Slot.update_of_schema budgetAccountsSlot Raised.integrityError ?_⟩
  exact accountKeys_updated s.budgetAccounts.sound fun _ => rfl

theorem accountKeys_new {s : Database} {row : BudgetAccountRow}
    (h : fetchAccount s row.resource = none) : AccountKeys (s.budgetAccounts.rows ++ [row]) := by
  unfold AccountKeys
  rw [List.map_append, List.nodup_append]
  refine ⟨s.budgetAccounts.sound, List.nodup_singleton _, ?_⟩
  intro x hx y hy
  obtain ⟨a, ha, rfl⟩ := List.mem_map.mp hx
  rw [List.mem_singleton.mp hy]
  exact fetchAccount_none h a ha

/-- `ensure_account` opens an account, tightens its cap, or leaves the database as it was. -/
theorem ensureAccount_after (now : ℚ) (resource : String) (cap : ℚ) (s : Database) :
    (fetchAccount s resource = none ∧ ∃ h, (ensureAccount now resource cap).after s =
      { s with budgetAccounts := ⟨s.budgetAccounts.rows ++ [⟨resource, cap, 0, 0, now⟩], h⟩ }) ∨
    (∃ a, fetchAccount s resource = some a ∧ cap < a.cap ∧
      (ensureAccount now resource cap).after s = withCap now resource cap s) ∨
    (∃ a, fetchAccount s resource = some a ∧ a.cap ≤ cap ∧
      (ensureAccount now resource cap).after s = s) := by
  cases h : fetchAccount s resource with
  | none =>
    have hkeys : AccountKeys (s.budgetAccounts.rows ++ [⟨resource, cap, 0, 0, now⟩]) := accountKeys_new h
    refine .inl ⟨rfl, hkeys, after_of_ok (a := ()) (transaction_of_ok ?_)⟩
    simp only [getStore_bind, h]
    exact Slot.insert_of_schema budgetAccountsSlot Raised.integrityError hkeys
  | some a =>
    refine .inr ?_
    by_cases hlow : cap < a.cap
    · obtain ⟨n, hn⟩ := setCap_run now resource cap s
      refine .inl ⟨a, rfl, hlow, after_of_ok (a := ()) (transaction_of_ok ?_)⟩
      simp only [getStore_bind, h, if_pos hlow]
      exact bind_of_ok hn
    · refine .inr ⟨a, rfl, not_lt.mp hlow, ?_⟩
      by_cases hhigh : a.cap < cap
      · refine after_of_error (e := Raised.budgetCapRaised resource a.cap cap) (transaction_of_error (t := s) ?_)
        simp only [getStore_bind, h, if_neg hlow, if_pos hhigh, raise_run]
      · refine after_of_ok (a := ()) (transaction_of_ok ?_)
        simp only [getStore_bind, h, if_neg hlow, if_neg hhigh, pure_run]

theorem recordIncident_run (now : ℚ) (severity kind detail : String) (workKey : Option String)
    (s : Database) : WorkLedger.recordIncident now severity kind detail workKey s =
      (.ok (), { s with incidents :=
        ⟨s.incidents.rows ++ [⟨now, severity, kind, detail, workKey⟩], trivial⟩ }) :=
  transaction_of_ok (Slot.insert_of_schema incidentsSlot Raised.integrityError trivial)

/-- The transaction of an authorized raise. -/
theorem raiseCap_run (b : Budget) (now : ℚ) (resource : String) (cap : ℚ) (s : Database) :
    (∃ e, b.raiseCap now resource cap s = (.error e, s)) ∨
    (∃ a, fetchAccount s resource = some a ∧ cap = a.cap ∧ b.raiseCap now resource cap s = (.ok a, s)) ∨
    (∃ a, fetchAccount s resource = some a ∧ a.cap < cap ∧
      b.raiseCap now resource cap s = (.ok a, withCap now resource cap s)) := by
  unfold raiseCap
  simp only [getStore_bind]
  cases h : fetchAccount s resource with
  | none => exact .inl ⟨_, rfl⟩
  | some a =>
    by_cases hlow : cap < a.cap
    · simp only [if_pos hlow]
      exact .inl ⟨_, rfl⟩
    · by_cases heq : cap = a.cap
      · simp only [if_neg hlow, if_pos heq]
        exact .inr (.inl ⟨a, rfl, heq, rfl⟩)
      · obtain ⟨n, hn⟩ := setCap_run now resource cap s
        simp only [if_neg hlow, if_neg heq]
        exact .inr (.inr ⟨a, rfl, lt_of_le_of_ne (not_lt.mp hlow) (Ne.symm heq), bind_of_ok hn⟩)

/-- An authorized raise lifts the cap of an account, and records an incident, or changes nothing. -/
theorem authorizeCapRaise_after (b : Budget) (now : ℚ) (resource : String) (cap : ℚ)
    (auth reason : String) (s : Database) :
    (∃ a i, fetchAccount s resource = some a ∧ a.cap < cap ∧
      (b.authorizeCapRaise now resource cap auth reason).after s =
        { withCap now resource cap s with incidents := i }) ∨
    (b.authorizeCapRaise now resource cap auth reason).after s = s := by
  unfold authorizeCapRaise
  split
  · exact .inr rfl
  · rcases raiseCap_run b now resource cap s with ⟨e, he⟩ | ⟨a, -, heq, ha⟩ | ⟨a, hfetch, hlt, ha⟩
    · exact .inr (after_of_error (bind_of_error (transaction_of_error he)))
    · exact .inr (after_of_ok ((bind_of_ok (transaction_of_ok ha)).trans (congrFun (if_pos heq) s)))
    · refine .inl ⟨a, ?incidents, hfetch, hlt, ?after⟩
      case after =>
        simp only [after, bind_run, transaction_of_ok ha, if_neg hlt.ne', recordIncident_run, pure_run]
        rfl

/-! ## Reserving -/

/-- The reservation row one resource of a group gets. -/
def reservedRow (b : Budget) (now : ℚ) (groupId : String) (workKey externalCallId attemptId : Option String)
    (entry : String × ℚ) : ReservationRow :=
  { reservationId := b.ids.reservation groupId entry.1, resource := entry.1, amount := entry.2,
    state := .reserved, settledAmount := none, workKey, externalCallId, attemptId,
    createdAt := now, updatedAt := now }

/-- The account of a resource once `amount` more is reserved on it. -/
def holding (now amount : ℚ) (a : BudgetAccountRow) : BudgetAccountRow :=
  { a with reservedTotal := a.reservedTotal + amount, updatedAt := now }

/-- One resource is reserved exactly on enough headroom, and then only its account and its
    new row are written. -/
theorem reserveResource_ok {b : Budget} {now : ℚ} {g : String} {k c at_ : Option String}
    {entry : String × ℚ} {s t : Database} {u : Unit}
    (h : b.reserveResource now g k c at_ entry s = (.ok u, t)) :
    0 ≤ entry.2 ∧
    (∃ a, fetchAccount s entry.1 = some a ∧ entry.2 ≤ a.cap - a.reservedTotal - a.settledTotal) ∧
    (∃ h, t = { s with
      budgetAccounts := accountMoved s entry.1 (holding now entry.2) (fun _ => rfl)
      budgetReservations := ⟨s.budgetReservations.rows ++ [reservedRow b now g k c at_ entry], h⟩ }) := by
  unfold reserveResource at h
  split at h
  · simp at h
  · rename_i hneg
    simp only [getStore_bind] at h
    cases ha : fetchAccount s entry.1 with
    | none => simp [ha] at h
    | some a =>
      simp only [ha] at h
      split at h
      · simp at h
      · rename_i hfits
        obtain ⟨n, m, hu, hins⟩ := bind_ok.mp h
        obtain ⟨-, hkeys, rfl⟩ := Slot.update_ok.mp hu
        obtain ⟨hkeys', rfl⟩ := Slot.insert_ok.mp hins
        exact ⟨not_lt.mp hneg, ⟨a, rfl, not_lt.mp hfits⟩, hkeys', rfl⟩

/-- The loop of `reserve_in` adds one row for each resource, in order, to what it started from. -/
theorem reserveLoop_ok {b : Budget} {now : ℚ} {g : String} {k c at_ : Option String}
    {entries : List (String × ℚ)} {s t : Database} {us : List Unit}
    (h : forEach (b.reserveResource now g k c at_) entries s = (.ok us, t)) :
    t.budgetReservations.rows = s.budgetReservations.rows ++ entries.map (reservedRow b now g k c at_) ∧
      (∀ entry ∈ entries, 0 ≤ entry.2) ∧ sameCalls s t := by
  induction entries generalizing s us with
  | nil =>
    obtain ⟨-, rfl⟩ := forEach_nil_ok.mp h
    simp [sameCalls_refl]
  | cons entry rest ih =>
    obtain ⟨u, vs, m, rfl, hone, hrest⟩ := forEach_cons_ok.mp h
    obtain ⟨hpos, -, hkeys, rfl⟩ := reserveResource_ok hone
    obtain ⟨hrows, hall, hsame⟩ := ih hrest
    refine ⟨?_, ?_, hsame⟩
    · rw [hrows]
      simp
    · intro e he
      rcases List.mem_cons.mp he with rfl | he
      · exact hpos
      · exact hall e he

theorem reserveIn_ok {b : Budget} {now : ℚ} {amounts : Amounts} {k c at_ : Option String}
    {s t : Database} {g : ReservationGroup} (h : b.reserveIn now amounts k c at_ s = (.ok g, t)) :
    amounts.entries ≠ [] ∧ g = ⟨b.groupIdFor s amounts k c at_, amounts⟩ ∧
      ∃ us, forEach (b.reserveResource now g.groupId k c at_) amounts.entries s = (.ok us, t) := by
  unfold reserveIn at h
  split at h
  · simp at h
  · rename_i hne
    rw [getStore_bind] at h
    obtain ⟨us, m, hloop, hpure⟩ := bind_ok.mp h
    simp only [pure_run, Prod.mk.injEq, Except.ok.injEq] at hpure
    obtain ⟨rfl, rfl⟩ := hpure
    exact ⟨hne, rfl, us, hloop⟩

/-! ## Refusals -/

/-- What makes `reserve_in` raise `BudgetExceeded`: the first resource that does not go through
    has no account or not enough headroom. -/
def Refuses (b : Budget) (s : Database) (groupId : String) : List (String × ℚ) → Prop
  | [] => False
  | entry :: rest =>
    0 ≤ entry.2 ∧ (fetchAccount s entry.1 = none ∨ available s entry.1 < entry.2 ∨
      (fetchReservation s (b.ids.reservation groupId entry.1) = none ∧ Refuses b s groupId rest))

instance decidableRefuses (b : Budget) (s : Database) (groupId : String) :
    (entries : List (String × ℚ)) → Decidable (Refuses b s groupId entries)
  | [] => .isFalse id
  | _ :: rest =>
    have := decidableRefuses b s groupId rest
    inferInstanceAs (Decidable (_ ∧ (_ ∨ _ ∨ _ ∧ _)))

theorem reserveResource_refused {b : Budget} {now : ℚ} {g : String} {k c a : Option String}
    {entry : String × ℚ} {s t : Database} {resource : String} {requested headroom : ℚ}
    (h : b.reserveResource now g k c a entry s = (.error (.budgetExceeded resource requested headroom), t)) :
    0 ≤ entry.2 ∧ (fetchAccount s entry.1 = none ∨ available s entry.1 < entry.2) := by
  unfold reserveResource at h
  split at h
  · simp at h
  · rename_i hneg
    refine ⟨not_lt.mp hneg, ?_⟩
    simp only [getStore_bind] at h
    cases ha : fetchAccount s entry.1 with
    | none => exact .inl rfl
    | some acct =>
      simp only [ha] at h
      split at h
      · rename_i hlow
        refine .inr ?_
        simp only [available, ha]
        exact hlow
      · rcases bind_error.mp h with hupd | ⟨n, m, -, hins⟩
        · exact absurd (Slot.update_error hupd) (by simp)
        · exact absurd (Slot.insert_error hins) (by simp)

/-- Refusals only look at the accounts asked for and at the ids taken. -/
theorem Refuses.of_agree {b : Budget} {s t : Database} {g : String} {entries : List (String × ℚ)}
    (h : Refuses b t g entries) (haccounts : ∀ e ∈ entries, fetchAccount t e.1 = fetchAccount s e.1)
    (hids : ∀ i, fetchReservation t i = none → fetchReservation s i = none) : Refuses b s g entries := by
  induction entries with
  | nil => exact h
  | cons e rest ih =>
    obtain ⟨hpos, hcases⟩ := h
    have he := haccounts e (by simp)
    refine ⟨hpos, ?_⟩
    rcases hcases with hnone | hlow | ⟨hfresh, hrest⟩
    · exact .inl (he ▸ hnone)
    · refine .inr (.inl ?_)
      unfold available at hlow ⊢
      rw [← he]
      exact hlow
    · exact .inr (.inr ⟨hids _ hfresh, ih hrest fun e' h' => haccounts e' (by simp [h'])⟩)

theorem reserveLoop_refused {b : Budget} {now : ℚ} {g : String} {k c a : Option String}
    {entries : List (String × ℚ)} {s t : Database} {resource : String} {requested headroom : ℚ}
    (hdistinct : (entries.map (·.1)).Nodup)
    (h : forEach (b.reserveResource now g k c a) entries s =
      (.error (.budgetExceeded resource requested headroom), t)) : Refuses b s g entries := by
  induction entries generalizing s with
  | nil => simp [forEach] at h
  | cons e rest ih =>
    simp only [List.map_cons, List.nodup_cons] at hdistinct
    rcases bind_error.mp h with hone | ⟨u, m, hone, hrest⟩
    · obtain ⟨hpos, hcases⟩ := reserveResource_refused hone
      exact ⟨hpos, hcases.imp_right .inl⟩
    · obtain ⟨hpos, -, hkeys, hm⟩ := reserveResource_ok hone
      have hrest : Refuses b m g rest := by
        rcases bind_error.mp hrest with hloop | ⟨us, m', -, hpure⟩
        · exact ih hdistinct.2 hloop
        · simp at hpure
      subst hm
      refine ⟨hpos, .inr (.inr ⟨?_, hrest.of_agree ?_ ?_⟩)⟩
      · refine List.find?_eq_none.mpr fun q hq => ?_
        unfold ReservationKeys at hkeys
        rw [List.map_append, List.nodup_append] at hkeys
        have hne : q.reservationId ≠ (reservedRow b now g k c a e).reservationId :=
          hkeys.2.2 _ (List.mem_map_of_mem hq) _ (by simp)
        simpa [reservedRow] using hne
      · intro e' he'
        have hne : e'.1 ≠ e.1 := fun heq => hdistinct.1 (heq ▸ List.mem_map_of_mem he')
        unfold fetchAccount
        refine (find?_updated ?_).trans ?_
        · intro r hr hres
          rfl
        · cases hf : List.find? (fun r => decide (r.resource = e'.1)) s.budgetAccounts.rows with
          | none => rfl
          | some q =>
            have hq : q.resource = e'.1 := by simpa using List.find?_some hf
            simp [hq, hne]
      · intro i hi
        refine List.find?_eq_none.mpr fun q hq => ?_
        exact List.find?_eq_none.mp hi q (List.mem_append_left _ hq)

theorem reserveIn_refused {b : Budget} {now : ℚ} {amounts : Amounts} {k c a : Option String}
    {s t : Database} {resource : String} {requested headroom : ℚ}
    (h : b.reserveIn now amounts k c a s = (.error (.budgetExceeded resource requested headroom), t)) :
    Refuses b s (b.groupIdFor s amounts k c a) amounts.entries := by
  unfold reserveIn at h
  split at h
  · simp at h
  · rw [getStore_bind] at h
    rcases bind_error.mp h with hloop | ⟨us, m, -, hpure⟩
    · exact reserveLoop_refused amounts.distinct hloop
    · simp at hpure

/-! ## Resolving -/

/-- The account of a resource once a hold of `amount` on it is resolved at `actual`. -/
def charging (now amount actual : ℚ) (a : BudgetAccountRow) : BudgetAccountRow :=
  { a with reservedTotal := a.reservedTotal - amount, settledTotal := a.settledTotal + actual, updatedAt := now }

/-- A reservation row once it is settled at `actual`. -/
def settling (now actual : ℚ) (r : ReservationRow) : ReservationRow :=
  { r with state := .settled, settledAmount := some actual, updatedAt := now }

/-- The database after one turn of the loop of `_resolve_in`. -/
def settleOne (now : ℚ) (actualOf : String → ℚ → ℚ) (s : Database) (r : ReservationRow) : Database :=
  if r.state ≠ .reserved then s
  else { s with
    budgetAccounts := accountMoved s r.resource
      (charging now r.amount (max 0 (actualOf r.resource r.amount))) fun _ => rfl
    budgetReservations := reservationMoved s r.reservationId
      (settling now (max 0 (actualOf r.resource r.amount))) fun _ => rfl }

theorem resolveRow_run (now : ℚ) (actualOf : String → ℚ → ℚ) (r : ReservationRow) (s : Database) :
    ∃ o, resolveRow now actualOf r s = (.ok o, settleOne now actualOf s r) := by
  unfold resolveRow settleOne
  by_cases h : r.state ≠ .reserved
  · simp only [if_pos h]
    exact ⟨_, rfl⟩
  · simp only [if_neg h]
    refine ⟨_, (bind_of_ok (Slot.update_of_schema budgetAccountsSlot Raised.integrityError ?_)).trans
      (bind_of_ok (Slot.update_of_schema budgetReservationsSlot Raised.integrityError ?_))⟩
    · exact accountKeys_updated s.budgetAccounts.sound fun _ => rfl
    · exact reservationKeys_updated s.budgetReservations.sound fun _ => rfl

theorem resolveLoop_run (now : ℚ) (actualOf : String → ℚ → ℚ) (rows : List ReservationRow) (s : Database) :
    ∃ os, forEach (resolveRow now actualOf) rows s = (.ok os, rows.foldl (settleOne now actualOf) s) := by
  induction rows generalizing s with
  | nil => exact ⟨[], rfl⟩
  | cons r rest ih =>
    obtain ⟨o, ho⟩ := resolveRow_run now actualOf r s
    obtain ⟨os, hos⟩ := ih (settleOne now actualOf s r)
    exact ⟨o :: os, forEach_cons_ok.mpr ⟨o, os, _, rfl, ho, hos⟩⟩

/-- The database once a group has been resolved. -/
def resolved (b : Budget) (now : ℚ) (group : ReservationGroup) (actualOf : String → ℚ → ℚ)
    (s : Database) : Database :=
  (b.groupRows s group).foldl (settleOne now actualOf) s

/-- Resolving never raises. -/
theorem resolveIn_run (b : Budget) (now : ℚ) (group : ReservationGroup) (actualOf : String → ℚ → ℚ)
    (s : Database) :
    ∃ overs, b.resolveIn now group actualOf s = (.ok overs, b.resolved now group actualOf s) := by
  obtain ⟨os, hos⟩ := resolveLoop_run now actualOf (b.groupRows s group) s
  exact ⟨os.filterMap id, bind_of_ok hos⟩

theorem sameCalls_settleOne (now : ℚ) (actualOf : String → ℚ → ℚ) (s : Database) (r : ReservationRow) :
    sameCalls s (settleOne now actualOf s r) := by
  unfold settleOne
  split
  · exact sameCalls_refl s
  · exact ⟨rfl, rfl, rfl⟩

theorem sameCalls_resolved (b : Budget) (now : ℚ) (group : ReservationGroup)
    (actualOf : String → ℚ → ℚ) (s : Database) : sameCalls s (b.resolved now group actualOf s) := by
  unfold resolved
  generalize b.groupRows s group = rows
  induction rows generalizing s with
  | nil => exact sameCalls_refl s
  | cons r rest ih => exact sameCalls_trans (sameCalls_settleOne now actualOf s r) (ih _)

/-! ## The rows a group resolves -/

theorem mem_linkedRows {s : Database} {g : String} {r : ReservationRow} :
    r ∈ linkedRows s g ↔ r ∈ s.budgetReservations.rows ∧
      (r.attemptId = some g ∨ r.externalCallId = some g ∨ r.reservationId = g) := by
  simp only [linkedRows, List.mem_filter, decide_eq_true_eq]

theorem mem_derivedRows {b : Budget} {s : Database} {group : ReservationGroup} {r : ReservationRow}
    (h : r ∈ b.derivedRows s group) : r ∈ s.budgetReservations.rows ∧
      ∃ entry ∈ group.amounts.entries, r.reservationId = b.ids.reservation group.groupId entry.1 := by
  obtain ⟨entry, hentry, hr⟩ := List.mem_filterMap.mp h
  obtain ⟨hmem, hid⟩ := fetchReservation_some hr
  exact ⟨hmem, entry, hentry, hid⟩

theorem mem_groupRows {b : Budget} {s : Database} {group : ReservationGroup} {r : ReservationRow}
    (h : r ∈ b.groupRows s group) : r ∈ s.budgetReservations.rows := by
  unfold groupRows at h
  split at h
  · exact (mem_derivedRows h).1
  · exact (mem_linkedRows.mp h).1

/-- The reservation ids of one group's resources are distinct. -/
def DistinctReservationIds (b : Budget) : Prop := ∀ g, Function.Injective (b.ids.reservation g)

theorem derivedRows_nodup {b : Budget} (hids : b.DistinctReservationIds) (s : Database)
    (group : ReservationGroup) : ((b.derivedRows s group).map (·.reservationId)).Nodup := by
  unfold derivedRows
  have hsub : List.Sublist ((group.amounts.entries.filterMap fun entry =>
      fetchReservation s (b.ids.reservation group.groupId entry.1)).map (·.reservationId))
      ((group.amounts.entries.map (·.1)).map (b.ids.reservation group.groupId)) := by
    induction group.amounts.entries with
    | nil => exact List.Sublist.refl _
    | cons entry rest ih =>
      rw [List.filterMap_cons]
      cases hf : fetchReservation s (b.ids.reservation group.groupId entry.1) with
      | none => exact ih.cons _
      | some r =>
        simp only [List.map_cons, (fetchReservation_some hf).2]
        exact ih.cons_cons _
  exact List.Nodup.sublist hsub (group.amounts.distinct.map (hids group.groupId))

theorem groupRows_nodup {b : Budget} (hids : b.DistinctReservationIds) (s : Database)
    (group : ReservationGroup) : ((b.groupRows s group).map (·.reservationId)).Nodup := by
  unfold groupRows
  split
  · exact derivedRows_nodup hids s group
  · exact List.Nodup.sublist (List.filter_sublist.map _) s.budgetReservations.sound

/-- What `resolved` makes of the reservation rows: the reserved ones it selected are settled. -/
theorem foldl_settleOne_rows (now : ℚ) (actualOf : String → ℚ → ℚ) {rows : List ReservationRow}
    {s : Database} (hmem : ∀ r ∈ rows, r ∈ s.budgetReservations.rows)
    (hnodup : (rows.map (·.reservationId)).Nodup) :
    (rows.foldl (settleOne now actualOf) s).budgetReservations.rows =
      updated (fun q => q ∈ rows ∧ q.state = .reserved) (settledRow now actualOf)
        s.budgetReservations.rows := by
  induction rows generalizing s with
  | nil => exact (updated_eq_self fun q _ => by simp).symm
  | cons r rest ih =>
    simp only [List.map_cons, List.nodup_cons] at hnodup
    have hr := hmem r (by simp)
    have hother : ∀ q ∈ rest, q.reservationId ≠ r.reservationId :=
      fun q hq e => hnodup.1 (e ▸ List.mem_map_of_mem hq)
    by_cases hstate : r.state = .reserved
    · have hone : (settleOne now actualOf s r).budgetReservations.rows =
          updated (fun q => q.reservationId = r.reservationId)
            (settling now (max 0 (actualOf r.resource r.amount))) s.budgetReservations.rows := by
        simp only [settleOne, hstate, ne_eq, not_true_eq_false, if_false]
        rfl
      rw [List.foldl_cons, ih ?_ hnodup.2, hone]
      · simp only [updated, List.map_map]
        apply List.map_congr_left
        intro q hq
        by_cases hkey : q.reservationId = r.reservationId
        · have hqr : q = r := eq_of_key s.budgetReservations.sound hq hr hkey
          subst hqr
          simp [hstate, settledRow, settling]
        · have hne : q ≠ r := fun e => hkey (congrArg _ e)
          simp [hkey, hne]
      · intro q hq
        rw [hone]
        exact mem_updated.mpr ⟨q, hmem q (by simp [hq]), by simp [hother q hq]⟩
    · have hsame : settleOne now actualOf s r = s := if_pos hstate
      rw [List.foldl_cons, hsame, ih (fun q hq => hmem q (by simp [hq])) hnodup.2]
      apply List.map_congr_left
      intro q _
      by_cases hqr : q = r
      · subst hqr
        simp [hstate]
      · simp [hqr]

/-- The reservation rows after a group has been resolved. -/
theorem resolved_rows {b : Budget} (hids : b.DistinctReservationIds) (now : ℚ) (group : ReservationGroup)
    (actualOf : String → ℚ → ℚ) (s : Database) :
    (b.resolved now group actualOf s).budgetReservations.rows =
      updated (fun q => q ∈ b.groupRows s group ∧ q.state = .reserved) (settledRow now actualOf)
        s.budgetReservations.rows :=
  foldl_settleOne_rows now actualOf (fun _ => mem_groupRows) (groupRows_nodup hids s group)

end Shapeflow.Budget
