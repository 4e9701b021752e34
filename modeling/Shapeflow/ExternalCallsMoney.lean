import Shapeflow.ExternalCallsSafety

set_option autoImplicit false

/-!
# Money and state of the external-call ledger

An attempt's reservations and its state move together in every run whose
callers pass each attempt its own group, reserve once, and report no pre-send
failure of a dispatch that was sent. Neither `fail_before_send` nor the refusal
path of `reserve` looks at how far the attempt has come.
-/
namespace Shapeflow.ExternalCalls
open Script Database Table Budget Run

def reservationsOf (s : Database) (attemptId : String) : List ReservationRow :=
  s.budgetReservations.rows.filter fun r => r.attemptId = some attemptId

theorem mem_reservationsOf {s : Database} {a : String} {r : ReservationRow} :
    r ∈ reservationsOf s a ↔ r ∈ s.budgetReservations.rows ∧ r.attemptId = some a := by
  simp [reservationsOf]

/-- In flight, with money held. -/
def heldStates : List CallAttemptState := .budgetReserved :: attemptSentStates

/-- A finished attempt holds nothing, and one past `INTENT` holds all it reserved. -/
def MoneyCoupled (s : Database) : Prop :=
  ∀ a ∈ s.externalCallAttempts.rows,
    (a.state ∈ attemptTerminal → ∀ r ∈ reservationsOf s a.attemptId, r.state ≠ .reserved) ∧
    (a.state ∉ attemptTerminal → a.state ≠ .intent → ∀ r ∈ reservationsOf s a.attemptId, r.state = .reserved)

instance (s : Database) : Decidable (MoneyCoupled s) := inferInstanceAs (Decidable (∀ _ ∈ _, _))

/-! ## What the callers promise -/

/-- What the attempt's reserve returned: its group once it has reserved, and nothing before. -/
def ItsGroup (s : Database) (h : AttemptHandle) (group : Option ReservationGroup) : Prop :=
  if reservationsOf s h.attemptId = [] then group = none
  else group.map (·.groupId) = some h.attemptId

instance (s : Database) (h : AttemptHandle) (group : Option ReservationGroup) :
    Decidable (ItsGroup s h group) :=
  inferInstanceAs (Decidable (if reservationsOf s h.attemptId = [] then group = none
    else group.map (·.groupId) = some h.attemptId))

/-- An operation that ends an attempt is passed what the attempt's reserve returned. -/
def PassesItsGroup (s : Database) (call : Call) : Prop :=
  match call.op.ending with
  | none => True
  | some (h, _, group, _) => ItsGroup s h group

instance (s : Database) : ∀ call, Decidable (PassesItsGroup s call)
  | ⟨_, _, .commit h g _⟩ => inferInstanceAs (Decidable (ItsGroup s h (some g)))
  | ⟨_, _, .failBeforeSend h g _⟩ => inferInstanceAs (Decidable (ItsGroup s h g))
  | ⟨_, _, .failUnknown h g _⟩ => inferInstanceAs (Decidable (ItsGroup s h g))
  | ⟨_, _, .failAfterResponse h g _ _ _ _⟩ => inferInstanceAs (Decidable (ItsGroup s h g))
  | ⟨_, _, .ensureAccount ..⟩ | ⟨_, _, .openCall ..⟩ | ⟨_, _, .beginAttempt ..⟩ | ⟨_, _, .reserve ..⟩
  | ⟨_, _, .markSent ..⟩ | ⟨_, _, .storeResponse ..⟩ | ⟨_, _, .validate ..⟩ | ⟨_, _, .closeCall ..⟩ =>
    .isTrue trivial

/-- The group that `reserve` returns is the one of its attempt, which then has reservations. -/
theorem reserveTx_returns {l : ExternalCallLedger} {now : ℚ} {h : AttemptHandle} {amounts : Amounts}
    {k : Option String} {s t : Database} {g : ReservationGroup} (hne : h.attemptId ≠ "")
    (hrun : reserveTx l now h amounts k s = (.ok g, t)) :
    g = ⟨h.attemptId, amounts⟩ ∧ reservationsOf t h.attemptId ≠ [] := by
  obtain ⟨m, u, hres, hadv⟩ := reserveTx_ok hrun
  obtain ⟨hentries, rfl, us, hloop⟩ := reserveIn_ok hres
  obtain ⟨hrows, -⟩ := reserveLoop_ok hloop
  obtain ⟨-, -, -, hsame⟩ := advanceIn_ok hadv
  constructor
  · simp [groupIdFor, firstOf, hne]
  · obtain ⟨entry, rest, he⟩ := List.exists_cons_of_ne_nil hentries
    have hmem : reservedRow l.budget now (l.budget.groupIdFor s amounts k (some h.callId) (some h.attemptId))
        k (some h.callId) (some h.attemptId) entry ∈ reservationsOf t h.attemptId := by
      refine mem_reservationsOf.mpr ⟨?_, rfl⟩
      rw [hsame, hrows, he]
      exact List.mem_append_right _ (List.mem_map_of_mem (by simp))
    exact List.ne_nil_of_mem hmem

/-- No pre-send failure of an attempt that was sent, and no refused reserve of one that holds money. -/
def Orderly (l : ExternalCallLedger) (s : Database) (call : Call) : Prop :=
  match call.op with
  | .failBeforeSend h _ _ =>
    ∀ a ∈ s.externalCallAttempts.rows, a.attemptId = h.attemptId → a.state ∉ attemptSentStates
  | .reserve h amounts k =>
    ∀ a ∈ s.externalCallAttempts.rows, a.attemptId = h.attemptId → a.state ∈ heldStates →
      ¬ Refuses l.budget s (l.budget.groupIdFor s amounts k (some h.callId) (some h.attemptId))
        amounts.entries
  | _ => True

instance (l : ExternalCallLedger) (s : Database) : ∀ call, Decidable (Orderly l s call)
  | ⟨_, _, .failBeforeSend ..⟩ => inferInstanceAs (Decidable (∀ _ ∈ _, _))
  | ⟨_, _, .reserve ..⟩ => inferInstanceAs (Decidable (∀ _ ∈ _, _))
  | ⟨_, _, .ensureAccount ..⟩ | ⟨_, _, .openCall ..⟩ | ⟨_, _, .beginAttempt ..⟩ | ⟨_, _, .markSent ..⟩
  | ⟨_, _, .storeResponse ..⟩ | ⟨_, _, .validate ..⟩ | ⟨_, _, .commit ..⟩ | ⟨_, _, .failUnknown ..⟩
  | ⟨_, _, .failAfterResponse ..⟩ | ⟨_, _, .closeCall ..⟩ => .isTrue trivial

/-! ## The reservations of one attempt under a money move -/

/-- What state and reservations of one attempt have to do with each other. -/
def Matches (state : CallAttemptState) (rows : List ReservationRow) : Prop :=
  (state = .intent → rows = []) ∧
  (state ∈ heldStates → rows ≠ [] ∧ ∀ r ∈ rows, r.state = .reserved) ∧
  (state ∈ attemptTerminal → ∀ r ∈ rows, r.state ≠ .reserved)

/-- The invariant of the runs that keep money and state together. -/
structure MoneySound (l : ExternalCallLedger) (s : Database) : Prop where
  callIds : ∀ c ∈ s.externalCalls.rows, ∃ p o k key, c.callId = l.budget.ids.externalCall p o k key
  attemptIds : ∀ a ∈ s.externalCallAttempts.rows,
    (∃ c n, a.attemptId = l.budget.ids.externalCallAttempt c n) ∧
      ∃ c ∈ s.externalCalls.rows, c.callId = a.callId
  linked : ∀ r ∈ s.budgetReservations.rows,
    (∃ a ∈ s.externalCallAttempts.rows, r.attemptId = some a.attemptId ∧ r.externalCallId = some a.callId) ∧
      (∃ g res, r.reservationId = l.budget.ids.reservation g res) ∧ 0 ≤ r.amount
  coupled : ∀ a ∈ s.externalCallAttempts.rows, Matches a.state (reservationsOf s a.attemptId)

theorem moneySound_empty (l : ExternalCallLedger) : MoneySound l .empty where
  callIds := by intro c hc; cases hc
  attemptIds := by intro a ha; cases ha
  linked := by intro r hr; cases hr
  coupled := by intro a ha; cases ha

theorem mem_heldStates (a : CallAttemptState) :
    a ∈ heldStates ↔ a ∉ attemptTerminal ∧ a ≠ .intent := by
  cases a <;> simp [heldStates, attemptSentStates, attemptTerminal]

theorem MoneySound.moneyCoupled {l : ExternalCallLedger} {s : Database} (hs : MoneySound l s) :
    MoneyCoupled s := by
  intro a ha
  obtain ⟨-, hheld, hover⟩ := hs.coupled a ha
  exact ⟨hover, fun hlive hne => (hheld ((mem_heldStates a.state).mpr ⟨hlive, hne⟩)).2⟩

theorem reservationsOf_congr {s t : Database} (h : t.budgetReservations.rows = s.budgetReservations.rows)
    (a : String) : reservationsOf t a = reservationsOf s a := by
  unfold reservationsOf
  rw [h]

/-- By their ids, the rows a group of an attempt selects are the rows of that attempt. -/
theorem MoneySound.linkedRows_eq {l : ExternalCallLedger} (hids : l.budget.ids.Separated) {s : Database}
    (hs : MoneySound l s) {a : ExternalAttemptRow} (ha : a ∈ s.externalCallAttempts.rows) :
    linkedRows s a.attemptId = reservationsOf s a.attemptId := by
  unfold linkedRows reservationsOf
  apply List.filter_congr
  intro r hr
  obtain ⟨⟨b, hb, -, hcall⟩, ⟨g, res, hid⟩, -⟩ := hs.linked r hr
  obtain ⟨⟨c, n, haid⟩, -⟩ := hs.attemptIds a ha
  obtain ⟨-, d, hd, hdb⟩ := hs.attemptIds b hb
  obtain ⟨p, o, k, key, hcid⟩ := hs.callIds d hd
  have h₁ : r.externalCallId ≠ some a.attemptId := by
    rw [hcall, ← hdb, hcid, haid]
    intro he
    exact hids.attempt_ne_call c n p o k key (Option.some.inj he).symm
  have h₂ : r.reservationId ≠ a.attemptId := by
    rw [hid, haid]
    exact (hids.attempt_ne_reservation c n g res).symm
  simp [h₁, h₂]

/-- Resolving the group of an attempt that has reserved settles its reserved rows and no others. -/
theorem MoneySound.resolved_rows {l : ExternalCallLedger} (hids : l.budget.ids.Separated) {s : Database}
    (hs : MoneySound l s) {a : ExternalAttemptRow} (ha : a ∈ s.externalCallAttempts.rows)
    (hne : reservationsOf s a.attemptId ≠ []) (now : ℚ) (amounts : Amounts)
    (actualOf : String → ℚ → ℚ) :
    (l.budget.resolved now ⟨a.attemptId, amounts⟩ actualOf s).budgetReservations.rows =
      updated (fun r => r.attemptId = some a.attemptId ∧ r.state = .reserved)
        (settledRow now actualOf) s.budgetReservations.rows := by
  have hgroup : l.budget.groupRows s ⟨a.attemptId, amounts⟩ = reservationsOf s a.attemptId := by
    unfold groupRows
    rw [hs.linkedRows_eq hids ha, if_neg hne]
  rw [Budget.resolved_rows hids.reservation_injective, hgroup]
  apply List.map_congr_left
  intro r hr
  simp [mem_reservationsOf, hr]

/-! ## Each effect keeps money and state together -/

/-- Attempts and reservations of the other attempts are as they were. -/
theorem coupled_of_moved {l : ExternalCallLedger} {s t : Database} (hs : MoneySound l s)
    {r : ExternalAttemptRow} {state : CallAttemptState} {cols : List AttemptColumn}
    (hr : r ∈ s.externalCallAttempts.rows)
    (hatts : t.externalCallAttempts.rows = attemptsAdvanced s r.attemptId state cols)
    (hother : ∀ i, i ≠ r.attemptId → reservationsOf t i = reservationsOf s i)
    (hmatch : Matches state (reservationsOf t r.attemptId)) :
    ∀ a ∈ t.externalCallAttempts.rows, Matches a.state (reservationsOf t a.attemptId) := by
  intro a ha
  rw [hatts] at ha
  obtain ⟨q, hq, rfl⟩ := mem_updated.mp ha
  by_cases hqr : q.attemptId = r.attemptId
  · simpa [hqr] using hmatch
  · simpa [hqr, hother q.attemptId hqr] using hs.coupled q hq

theorem attemptIds_of_moved {l : ExternalCallLedger} {s t : Database} (hs : MoneySound l s) {now : ℚ}
    {c i : String} {state : CallAttemptState} {cols : List AttemptColumn}
    (hatts : t.externalCallAttempts.rows = attemptsAdvanced s i state cols)
    (hcalls : t.externalCalls.rows = callsAdvanced s now c i state) :
    (∀ d ∈ t.externalCalls.rows, ∃ p o k key, d.callId = l.budget.ids.externalCall p o k key) ∧
    (∀ a ∈ t.externalCallAttempts.rows, (∃ c n, a.attemptId = l.budget.ids.externalCallAttempt c n) ∧
      ∃ c ∈ t.externalCalls.rows, c.callId = a.callId) ∧
    (∀ a ∈ s.externalCallAttempts.rows, ∃ b ∈ t.externalCallAttempts.rows,
      b.attemptId = a.attemptId ∧ b.callId = a.callId) := by
  refine ⟨?_, ?_, ?_⟩
  · intro d hd
    rw [hcalls] at hd
    obtain ⟨q, hq, rfl⟩ := mem_updated.mp hd
    have := hs.callIds q hq
    split
    · simpa using this
    · exact this
  · intro a ha
    rw [hatts] at ha
    obtain ⟨q, hq, rfl⟩ := mem_updated.mp ha
    obtain ⟨hid, d, hd, hdq⟩ := hs.attemptIds q hq
    have hid' : (if decide (q.attemptId = i) = true then advancedRow state cols q else q).attemptId =
        q.attemptId ∧ (if decide (q.attemptId = i) = true then advancedRow state cols q else q).callId =
        q.callId := by
      split
      · simp
      · exact ⟨rfl, rfl⟩
    rw [hid'.1, hid'.2]
    refine ⟨hid, _, by rw [hcalls]; exact mem_updated.mpr ⟨d, hd, rfl⟩, ?_⟩
    split
    · simpa using hdq
    · exact hdq
  · intro a ha
    refine ⟨_, by rw [hatts]; exact mem_updated.mpr ⟨a, ha, rfl⟩, ?_⟩
    split
    · simp
    · exact ⟨rfl, rfl⟩

/-- The reserve of an attempt at `INTENT` adds its rows, all reserved. -/
theorem reservationsOf_reserved {l : ExternalCallLedger} {s t : Database} {now : ℚ} {g : String}
    {k : Option String} {h : AttemptHandle} {entries : List (String × ℚ)}
    (hres : t.budgetReservations.rows = s.budgetReservations.rows ++
      entries.map (reservedRow l.budget now g k (some h.callId) (some h.attemptId))) (i : String) :
    reservationsOf t i = reservationsOf s i ++
      if i = h.attemptId then entries.map (reservedRow l.budget now g k (some h.callId) (some h.attemptId))
      else [] := by
  unfold reservationsOf
  rw [hres, List.filter_append]
  congr 1
  by_cases hi : i = h.attemptId
  · rw [if_pos hi, List.filter_eq_self]
    intro r hr
    obtain ⟨e, -, rfl⟩ := List.mem_map.mp hr
    simp [reservedRow, hi]
  · rw [if_neg hi, List.filter_eq_nil_iff]
    intro r hr
    obtain ⟨e, -, rfl⟩ := List.mem_map.mp hr
    simp [reservedRow, Ne.symm hi]

/-- Settling the reserved rows of one attempt. -/
theorem reservationsOf_settled {s t : Database} {now : ℚ} {actualOf : String → ℚ → ℚ} {a : String}
    (hres : t.budgetReservations.rows = updated (fun r => r.attemptId = some a ∧ r.state = .reserved)
      (settledRow now actualOf) s.budgetReservations.rows) :
    (∀ r ∈ reservationsOf t a, r.state ≠ .reserved) ∧
      ∀ i, i ≠ a → reservationsOf t i = reservationsOf s i := by
  constructor
  · intro r hr
    obtain ⟨hmem, hatt⟩ := mem_reservationsOf.mp hr
    rw [hres] at hmem
    obtain ⟨q, -, rfl⟩ := mem_updated.mp hmem
    split
    · simp [settledRow]
    · rename_i hq
      rw [if_neg hq] at hatt
      exact fun hst => hq (decide_eq_true ⟨hatt, hst⟩)
  · intro i hi
    unfold reservationsOf
    rw [hres, filter_updated (f := settledRow now actualOf) fun r _ _ => rfl]
    refine updated_eq_self fun r hr => ?_
    have hri : r.attemptId = some i := of_decide_eq_true (List.mem_filter.mp hr).2
    simp [hri, hi]

theorem legalAttempt_cases {a b : CallAttemptState} (h : b ∈ legalAttempt a) :
    (b ∈ attemptSentStates → a ∈ heldStates) ∧ (b = .budgetReserved → a = .intent) ∧
      (a = .intent ∨ a ∈ heldStates) ∧ (a ∈ attemptSentStates → b ∈ attemptSentStates ++ attemptTerminal) := by
  revert h
  cases a <;> cases b <;> decide

theorem terminal_matches {b : CallAttemptState} (hb : b ∈ attemptTerminal) {rows : List ReservationRow}
    (h : ∀ r ∈ rows, r.state ≠ .reserved) : Matches b rows := by
  refine ⟨?_, ?_, fun _ => h⟩
  · rintro rfl
    simp [attemptTerminal] at hb
  · intro hheld
    exact absurd hb ((mem_heldStates b).mp hheld).1

theorem held_matches {b : CallAttemptState} (hb : b ∈ heldStates) {rows : List ReservationRow}
    (hne : rows ≠ []) (h : ∀ r ∈ rows, r.state = .reserved) : Matches b rows := by
  have hlive := (mem_heldStates b).mp hb
  exact ⟨fun hi => absurd hi hlive.2, fun _ => ⟨hne, h⟩, fun hterm => absurd hterm hlive.1⟩

theorem ending_terminal {op : Op} {h : AttemptHandle} {state : CallAttemptState}
    {group : Option ReservationGroup} {mode : Mode} (hop : op.ending = some (h, state, group, mode)) :
    state ∈ attemptTerminal := by
  cases op <;> simp [Op.ending] at hop <;> simp [← hop.2.1, attemptTerminal]

/-- How the money of the attempt that moves, and of no other, is left by a money move. -/
theorem MoneySound.move {l : ExternalCallLedger} (hids : l.budget.ids.Separated) {s t : Database}
    {call : Call} (hs : MoneySound l s) (hgroup : PassesItsGroup s call) (hok : Orderly l s call)
    {h : AttemptHandle} {r : ExternalAttemptRow} (hr : r ∈ s.externalCallAttempts.rows)
    (hid : r.attemptId = h.attemptId) {state : CallAttemptState} (hlegal : state ∈ legalAttempt r.state)
    (hmoney : MoneyMove l s call h state t) :
    Matches state (reservationsOf t h.attemptId) ∧
      ∀ i, i ≠ h.attemptId → reservationsOf t i = reservationsOf s i := by
  have hmatch := hs.coupled r hr
  rw [hid] at hmatch
  obtain ⟨hsent, hintent, hstart, -⟩ := legalAttempt_cases hlegal
  cases hmoney with
  | kept hstate hres =>
    refine ⟨?_, fun i _ => reservationsOf_congr hres i⟩
    rw [reservationsOf_congr hres]
    obtain ⟨hne, hall⟩ := hmatch.2.1 (hsent hstate)
    exact held_matches (List.mem_cons_of_mem _ hstate) hne hall
  | reserved hstate amounts k g hne _ hres =>
    have hold : reservationsOf s h.attemptId = [] := hmatch.1 (hintent hstate)
    refine ⟨?_, fun i hi => ?_⟩
    · rw [reservationsOf_reserved hres, hold, if_pos rfl, List.nil_append]
      refine held_matches (by simp [hstate, heldStates]) (by simpa using hne) ?_
      intro q hq
      obtain ⟨e, -, rfl⟩ := List.mem_map.mp hq
      rfl
    · rw [reservationsOf_reserved hres, if_neg hi, List.append_nil]
  | refused hstate amounts k hop hrefused hres =>
    refine ⟨?_, fun i _ => reservationsOf_congr hres i⟩
    rw [reservationsOf_congr hres]
    have hst : r.state = .intent := by
      refine hstart.resolve_right fun hheld => ?_
      unfold Orderly at hok
      rw [hop] at hok
      exact hok r hr hid hheld hrefused
    rw [hmatch.1 hst]
    exact terminal_matches (by simp [hstate, attemptTerminal]) (by simp)
  | ended group mode hop hres =>
    have hterm := ending_terminal hop
    unfold PassesItsGroup at hgroup
    rw [hop] at hgroup
    change ItsGroup s h group at hgroup
    unfold ItsGroup at hgroup
    by_cases hnone : reservationsOf s h.attemptId = []
    · rw [if_pos hnone] at hgroup
      subst hgroup
      refine ⟨?_, fun i _ => reservationsOf_congr hres i⟩
      rw [reservationsOf_congr hres, hnone]
      exact terminal_matches hterm (by simp)
    · rw [if_neg hnone] at hgroup
      obtain ⟨⟨i, amounts⟩, rfl, hg⟩ := Option.map_eq_some_iff.mp hgroup
      change i = h.attemptId at hg
      subst hg
      rw [← hid] at hnone hres ⊢
      have hrows := hres.trans (hs.resolved_rows hids hr hnone call.clock amounts mode.charge)
      obtain ⟨hdone, hrest⟩ := reservationsOf_settled hrows
      exact ⟨terminal_matches hterm hdone, hrest⟩

/-- Every reservation stays linked to its attempt. -/
theorem MoneySound.linked_of {l : ExternalCallLedger} {s t : Database} (hs : MoneySound l s)
    (hkeep : ∀ a ∈ s.externalCallAttempts.rows, ∃ b ∈ t.externalCallAttempts.rows,
      b.attemptId = a.attemptId ∧ b.callId = a.callId)
    (hold : ∀ r ∈ t.budgetReservations.rows, ∃ q ∈ s.budgetReservations.rows,
      r.attemptId = q.attemptId ∧ r.externalCallId = q.externalCallId ∧
        r.reservationId = q.reservationId ∧ r.amount = q.amount) :
    ∀ r ∈ t.budgetReservations.rows,
      (∃ a ∈ t.externalCallAttempts.rows, r.attemptId = some a.attemptId ∧ r.externalCallId = some a.callId) ∧
        (∃ g res, r.reservationId = l.budget.ids.reservation g res) ∧ 0 ≤ r.amount := by
  intro r hr
  obtain ⟨q, hq, ha, hc, hi, hamt⟩ := hold r hr
  obtain ⟨⟨a, hmem, hqa, hqc⟩, hg, hpos⟩ := hs.linked q hq
  obtain ⟨b, hb, hba, hbc⟩ := hkeep a hmem
  rw [ha, hc, hi, hamt, hqa, hqc, ← hba, ← hbc]
  exact ⟨⟨b, hb, rfl, rfl⟩, hg, hpos⟩

/-- A resolved reservation is the row it was, up to its settlement. -/
theorem resolved_from {b : Budget} (hids : b.DistinctReservationIds) (now : ℚ) (g : ReservationGroup)
    (actualOf : String → ℚ → ℚ) (s : Database) :
    ∀ r ∈ (b.resolved now g actualOf s).budgetReservations.rows, ∃ q ∈ s.budgetReservations.rows,
      r = q ∨ r = settledRow now actualOf q := by
  intro r hr
  rw [Budget.resolved_rows hids] at hr
  obtain ⟨q, hq, rfl⟩ := mem_updated.mp hr
  refine ⟨q, hq, ?_⟩
  split
  · exact .inr rfl
  · exact .inl rfl

theorem move_from {l : ExternalCallLedger} (hids : l.budget.ids.Separated) {s t : Database} {call : Call}
    {h : AttemptHandle} {r : ExternalAttemptRow} (hs : MoneySound l s)
    (hr : r ∈ s.externalCallAttempts.rows) (hid : r.attemptId = h.attemptId) (hcall : h.callId = r.callId)
    {state : CallAttemptState}
    (hkeep : ∀ a ∈ s.externalCallAttempts.rows, ∃ b ∈ t.externalCallAttempts.rows,
      b.attemptId = a.attemptId ∧ b.callId = a.callId)
    (hmoney : MoneyMove l s call h state t) :
    ∀ q ∈ t.budgetReservations.rows,
      (∃ a ∈ t.externalCallAttempts.rows, q.attemptId = some a.attemptId ∧ q.externalCallId = some a.callId) ∧
        (∃ g res, q.reservationId = l.budget.ids.reservation g res) ∧ 0 ≤ q.amount := by
  have hsame : t.budgetReservations.rows = s.budgetReservations.rows → ∀ q ∈ t.budgetReservations.rows,
      (∃ a ∈ t.externalCallAttempts.rows, q.attemptId = some a.attemptId ∧ q.externalCallId = some a.callId) ∧
        (∃ g res, q.reservationId = l.budget.ids.reservation g res) ∧ 0 ≤ q.amount := by
    intro hres
    refine hs.linked_of hkeep fun q hq => ?_
    rw [hres] at hq
    exact ⟨q, hq, rfl, rfl, rfl, rfl⟩
  cases hmoney with
  | kept _ hres => exact hsame hres
  | refused _ amounts k _ _ hres => exact hsame hres
  | reserved _ amounts k g _ hpos hres =>
    intro q hq
    rw [hres, List.mem_append] at hq
    rcases hq with hq | hq
    · obtain ⟨⟨a, hmem, hqa, hqc⟩, hg, hamt⟩ := hs.linked q hq
      obtain ⟨b, hb, hba, hbc⟩ := hkeep a hmem
      rw [hqa, hqc, ← hba, ← hbc]
      exact ⟨⟨b, hb, rfl, rfl⟩, hg, hamt⟩
    · obtain ⟨e, he, rfl⟩ := List.mem_map.mp hq
      obtain ⟨b, hb, hba, hbc⟩ := hkeep r hr
      refine ⟨⟨b, hb, ?_, ?_⟩, ⟨g, e.1, rfl⟩, hpos e he⟩
      · rw [hba, hid]
        rfl
      · rw [hbc, ← hcall]
        rfl
  | ended group mode _ hres =>
    cases group with
    | none => exact hsame hres
    | some g =>
      refine hs.linked_of hkeep fun q hq => ?_
      rw [hres] at hq
      obtain ⟨p, hp, rfl | rfl⟩ := resolved_from hids.reservation_injective call.clock g mode.charge s q hq
      · exact ⟨q, hp, rfl, rfl, rfl, rfl⟩
      · exact ⟨p, hp, rfl, rfl, rfl, rfl⟩

theorem MoneySound.effect {l : ExternalCallLedger} (hids : l.budget.ids.Separated) {s t : Database}
    {call : Call} (hs : MoneySound l s) (hi : Issued s call) (hgroup : PassesItsGroup s call)
    (hok : Orderly l s call) (he : Effect l s call t) : MoneySound l t := by
  cases he with
  | idle hcalls hatts hres =>
    refine ⟨?_, ?_, ?_, ?_⟩
    · rw [hcalls]
      exact hs.callIds
    · rw [hcalls, hatts]
      exact hs.attemptIds
    · rw [hatts, hres]
      exact hs.linked
    · rw [hatts]
      exact fun a ha => by rw [reservationsOf_congr hres]; exact hs.coupled a ha
  | opened row hid _ hcalls hatts hres =>
    refine ⟨?_, ?_, ?_, ?_⟩
    · intro c hc
      rw [hcalls, List.mem_append, List.mem_singleton] at hc
      rcases hc with hc | rfl
      · exact hs.callIds c hc
      · exact hid
    · intro a ha
      rw [hatts] at ha
      obtain ⟨haid, c, hc, hca⟩ := hs.attemptIds a ha
      exact ⟨haid, c, by rw [hcalls]; exact List.mem_append_left _ hc, hca⟩
    · rw [hatts, hres]
      exact hs.linked
    · rw [hatts]
      exact fun a ha => by rw [reservationsOf_congr hres]; exact hs.coupled a ha
  | closed callId hcalls hatts hres =>
    refine ⟨?_, ?_, ?_, ?_⟩
    · intro c hc
      rw [hcalls] at hc
      obtain ⟨q, hq, rfl⟩ := mem_updated.mp hc
      have := hs.callIds q hq
      split
      · exact this
      · exact this
    · intro a ha
      rw [hatts] at ha
      obtain ⟨haid, c, hc, hca⟩ := hs.attemptIds a ha
      refine ⟨haid, _, by rw [hcalls]; exact mem_updated.mpr ⟨c, hc, rfl⟩, ?_⟩
      split
      · exact hca
      · exact hca
    · rw [hatts, hres]
      exact hs.linked
    · rw [hatts]
      exact fun a ha => by rw [reservationsOf_congr hres]; exact hs.coupled a ha
  | begun c hc _ _ hcalls hatts hres =>
    refine ⟨?_, ?_, ?_, ?_⟩
    · intro d hd
      rw [hcalls] at hd
      obtain ⟨q, hq, rfl⟩ := mem_updated.mp hd
      have := hs.callIds q hq
      split
      · exact this
      · exact this
    · intro a ha
      have howner : (∃ c n, a.attemptId = l.budget.ids.externalCallAttempt c n) ∧
          ∃ c ∈ s.externalCalls.rows, c.callId = a.callId := by
        rw [hatts, List.mem_append, List.mem_singleton] at ha
        rcases ha with ha | rfl
        · exact hs.attemptIds a ha
        · exact ⟨⟨c.callId, c.attemptCount, rfl⟩, c, hc, rfl⟩
      obtain ⟨haid, d, hd, hda⟩ := howner
      refine ⟨haid, _, by rw [hcalls]; exact mem_updated.mpr ⟨d, hd, rfl⟩, ?_⟩
      split <;> exact hda
    · intro q hq
      rw [hres] at hq
      obtain ⟨⟨a, ha, hqa, hqc⟩, hrest⟩ := hs.linked q hq
      exact ⟨⟨a, by rw [hatts]; exact List.mem_append_left _ ha, hqa, hqc⟩, hrest⟩
    · intro a ha
      rw [reservationsOf_congr hres]
      rw [hatts, List.mem_append, List.mem_singleton] at ha
      rcases ha with ha | rfl
      · exact hs.coupled a ha
      · have hfresh : reservationsOf s (l.budget.ids.externalCallAttempt c.callId c.attemptCount) = [] := by
          refine List.filter_eq_nil_iff.mpr fun q hq => ?_
          obtain ⟨⟨b, hb, hqb, -⟩, -⟩ := hs.linked q hq
          have hkeys := t.externalCallAttempts.sound.1
          rw [hatts, List.map_append, List.nodup_append] at hkeys
          have hne : b.attemptId ≠ l.budget.ids.externalCallAttempt c.callId c.attemptCount :=
            hkeys.2.2 _ (List.mem_map_of_mem hb) _ (by simp)
          simpa [hqb] using hne
        rw [hfresh]
        exact ⟨fun _ => rfl, fun h => by simp [heldStates, attemptSentStates] at h,
          fun h => by simp [attemptTerminal] at h⟩
  | moved h hhandle r hr hid state cols hlegal hatts hcalls hmoney =>
    obtain ⟨hcallIds, hattemptIds, hkeep⟩ := attemptIds_of_moved hs hatts hcalls
    obtain ⟨hmatch, hother⟩ := hs.move hids hgroup hok hr hid hlegal hmoney
    rw [← hid] at hmatch hother hatts
    exact ⟨hcallIds, hattemptIds,
      move_from hids hs hr hid (hi.callId hhandle hr hid) hkeep hmoney,
      coupled_of_moved hs hr hatts hother hmatch⟩

/-! ## An attempt that was sent -/

/-- The attempt is past its dispatch. -/
def SentOrOver (s : Database) (a : String) : Prop :=
  ∃ r ∈ s.externalCallAttempts.rows, r.attemptId = a ∧ r.state ∈ attemptSentStates ++ attemptTerminal

theorem sentOrOver_effect {l : ExternalCallLedger} {s t : Database} {call : Call} {a : String}
    (h : SentOrOver s a) (he : Effect l s call t) : SentOrOver t a := by
  obtain ⟨r, hr, hra, hst⟩ := h
  cases he with
  | idle _ hatts _ => exact ⟨r, by rw [hatts]; exact hr, hra, hst⟩
  | opened row _ _ _ hatts _ => exact ⟨r, by rw [hatts]; exact hr, hra, hst⟩
  | closed callId _ hatts _ => exact ⟨r, by rw [hatts]; exact hr, hra, hst⟩
  | begun c _ _ _ _ hatts _ => exact ⟨r, by rw [hatts]; exact List.mem_append_left _ hr, hra, hst⟩
  | moved h _ q hq hid state cols hlegal hatts _ _ =>
    refine ⟨_, by rw [hatts]; exact mem_updated.mpr ⟨r, hr, rfl⟩, ?_⟩
    by_cases hrh : r.attemptId = h.attemptId
    · have hrq : q = r := eq_of_key s.externalCallAttempts.sound.1 hq hr (hid.trans hrh.symm)
      subst hrq
      rw [if_pos (decide_eq_true hrh)]
      refine ⟨by simpa using hra, ?_⟩
      rw [advancedRow_state]
      refine (legalAttempt_cases hlegal).2.2.2 ?_
      rcases List.mem_append.mp hst with hsent | hover
      · exact hsent
      · exact absurd hover (legalAttempt_not_terminal hlegal)
    · rw [if_neg (by simpa using hrh)]
      exact ⟨hra, hst⟩

/-- In some state of the run the attempt was `SENT`. -/
def EverSent (l : ExternalCallLedger) (calls : List Call) (a : String) : Prop :=
  ∃ before, before <+: calls ∧
    ∃ r ∈ (run (step l) .empty before).externalCallAttempts.rows, r.attemptId = a ∧ r.state = .sent

theorem EverSent.sentOrOver {l : ExternalCallLedger} {calls : List Call} {a : String}
    (h : EverSent l calls a) : SentOrOver (run (step l) .empty calls) a := by
  obtain ⟨before, ⟨rest, rfl⟩, r, hr, hra, hst⟩ := h
  rw [run_append]
  refine invariant_all (I := fun s => SentOrOver s a)
    (fun s call h => sentOrOver_effect h (step_effect l s call)) rest ?_
  exact ⟨r, hr, hra, by simp [hst, attemptSentStates]⟩

/-- What a reservation settled by the operation was settled at: the actual cost that was
    reported, or its worst case, and never by a release. -/
def ChargedFairly (op : Op) (r r' : ReservationRow) : Prop :=
  match op.ending with
  | some (_, _, _, .settle actuals) => r'.settledAmount = some (max 0 (actuals.get r.resource))
  | some (_, _, _, .worstCase) => r'.settledAmount = some r.amount
  | _ => False

instance (r r' : ReservationRow) : ∀ op, Decidable (ChargedFairly op r r')
  | .commit _ _ actuals =>
    inferInstanceAs (Decidable (r'.settledAmount = some (max 0 (actuals.get r.resource))))
  | .failAfterResponse _ _ actuals _ _ _ =>
    inferInstanceAs (Decidable (r'.settledAmount = some (max 0 (actuals.get r.resource))))
  | .failUnknown .. => inferInstanceAs (Decidable (r'.settledAmount = some r.amount))
  | .failBeforeSend .. | .ensureAccount .. | .openCall .. | .beginAttempt .. | .reserve .. | .markSent ..
  | .storeResponse .. | .validate .. | .closeCall .. => .isFalse id

/-- The reservations of the attempt that the call settles are charged fairly. -/
def SettledFairly (s : Database) (call : Call) (t : Database) (a : String) : Prop :=
  ∀ r ∈ reservationsOf s a, r.state = .reserved →
    ∀ r' ∈ t.budgetReservations.rows, r'.reservationId = r.reservationId → r'.state = .settled →
      ChargedFairly call.op r r'

instance (s : Database) (call : Call) (t : Database) (a : String) : Decidable (SettledFairly s call t a) :=
  inferInstanceAs (Decidable (∀ _ ∈ _, _))

theorem settledFairly_of_kept {s t : Database} {call : Call} {a : String}
    (h : ∀ r ∈ s.budgetReservations.rows, r ∈ t.budgetReservations.rows) : SettledFairly s call t a := by
  intro r hr hres r' hr' hid hset
  have hrr : r' = r :=
    eq_of_key t.budgetReservations.sound hr' (h r (mem_reservationsOf.mp hr).1) hid
  rw [hrr, hres] at hset
  cases hset

theorem settledFairly_effect {l : ExternalCallLedger} (hids : l.budget.ids.Separated) {s t : Database}
    {call : Call} (hs : MoneySound l s) (hgroup : PassesItsGroup s call) (hok : Orderly l s call)
    (he : Effect l s call t) {a : String} (hsent : SentOrOver s a) : SettledFairly s call t a := by
  cases he with
  | idle _ _ hres => exact settledFairly_of_kept fun r hr => by rw [hres]; exact hr
  | opened row _ _ _ _ hres => exact settledFairly_of_kept fun r hr => by rw [hres]; exact hr
  | closed callId _ _ hres => exact settledFairly_of_kept fun r hr => by rw [hres]; exact hr
  | begun c _ _ _ _ _ hres => exact settledFairly_of_kept fun r hr => by rw [hres]; exact hr
  | moved h _ q hq hid state cols hlegal _ _ hmoney =>
    cases hmoney with
    | kept _ hres => exact settledFairly_of_kept fun r hr => by rw [hres]; exact hr
    | refused _ amounts k _ _ hres => exact settledFairly_of_kept fun r hr => by rw [hres]; exact hr
    | reserved _ amounts k g _ _ hres =>
      exact settledFairly_of_kept fun r hr => by rw [hres]; exact List.mem_append_left _ hr
    | ended group mode hop hres =>
      unfold PassesItsGroup at hgroup
      rw [hop] at hgroup
      change ItsGroup s h group at hgroup
      unfold ItsGroup at hgroup
      by_cases hnone : reservationsOf s h.attemptId = []
      · rw [if_pos hnone] at hgroup
        subst hgroup
        exact settledFairly_of_kept fun r hr => by rw [hres]; exact hr
      · rw [if_neg hnone] at hgroup
        obtain ⟨⟨i, amounts⟩, rfl, hg⟩ := Option.map_eq_some_iff.mp hgroup
        change i = h.attemptId at hg
        subst hg
        rw [← hid] at hnone hres
        have hrows := hres.trans (hs.resolved_rows hids hq hnone call.clock amounts mode.charge)
        intro r hr hreserved r' hr' hrid hset
        obtain ⟨hmem, hra⟩ := mem_reservationsOf.mp hr
        rw [hrows] at hr'
        obtain ⟨p, hp, rfl⟩ := mem_updated.mp hr'
        have hpr : p = r := by
          refine eq_of_key s.budgetReservations.sound hp hmem (Eq.trans ?_ hrid)
          split <;> rfl
        subst hpr
        by_cases hit : p.attemptId = some q.attemptId
        · rw [if_pos (decide_eq_true ⟨hit, hreserved⟩)]
          have haq : a = q.attemptId := Option.some.inj (hra.symm.trans hit)
          have hsentState : q.state ∈ attemptSentStates := by
            obtain ⟨b, hb, hba, hst⟩ := hsent
            have hbq : b = q := eq_of_key s.externalCallAttempts.sound.1 hb hq (hba.trans haq)
            rw [hbq] at hst
            exact (List.mem_append.mp hst).resolve_right (legalAttempt_not_terminal hlegal)
          have hpos := (hs.linked p hmem).2.2
          unfold ChargedFairly
          cases hopc : call.op with
          | failBeforeSend h' g err =>
            unfold Orderly at hok
            rw [hopc] at hok hop
            simp only [Op.ending, Option.some.injEq, Prod.mk.injEq] at hop
            exact hok q hq (by rw [hid, hop.1]) hsentState
          | commit h' g actuals =>
            rw [hopc] at hop
            simp only [Op.ending, Option.some.injEq, Prod.mk.injEq] at hop
            simp [Op.ending, settledRow, ← hop.2.2.2, Mode.charge]
          | failUnknown h' g err =>
            rw [hopc] at hop
            simp only [Op.ending, Option.some.injEq, Prod.mk.injEq] at hop
            simp [Op.ending, settledRow, ← hop.2.2.2, Mode.charge, hpos]
          | failAfterResponse h' g actuals err endAt telemetry =>
            rw [hopc] at hop
            simp only [Op.ending, Option.some.injEq, Prod.mk.injEq] at hop
            simp [Op.ending, settledRow, ← hop.2.2.2, Mode.charge]
          | _ =>
            rw [hopc] at hop
            cases hop
        · have hnot : ¬ (decide (p.attemptId = some q.attemptId ∧ p.state = .reserved) = true) := by
            simp [hit]
          rw [if_neg hnot, hreserved] at hset
          cases hset

/-- In every run whose calls are orderly, through process deaths, a finished attempt holds
    nothing, one in flight past `INTENT` holds all it reserved, and one that was ever sent is
    settled at actual cost or at its worst case. -/
theorem money_coupled (l : ExternalCallLedger) (hids : l.budget.ids.Separated) (calls : List Call)
    (hissued : Allowed (step l) Issued .empty calls) (hgroups : Allowed (step l) PassesItsGroup .empty calls)
    (hok : Allowed (step l) (Orderly l) .empty calls) :
    (∀ before, before <+: calls → MoneyCoupled (run (step l) .empty before)) ∧
    (∀ before call, before ++ [call] <+: calls → ∀ a, EverSent l before a →
      SettledFairly (run (step l) .empty before) call (run (step l) .empty (before ++ [call])) a) := by
  have hall := (hissued.and hgroups).and hok
  have hsound : ∀ before, before <+: calls → MoneySound l (run (step l) .empty before) := by
    rintro before ⟨rest, rfl⟩
    refine invariant (fun s call hs h => ?_) (moneySound_empty l) ((allowed_append _ _ _).mp hall).1
    exact hs.effect hids h.1.1 h.1.2 h.2 (step_effect l s call)
  constructor
  · exact fun before hb => (hsound before hb).moneyCoupled
  · rintro before call ⟨rest, rfl⟩ a hsent
    rw [List.append_assoc, allowed_append] at hall
    obtain ⟨⟨-, hgroup⟩, hcall⟩ := hall.2.1
    rw [run_append]
    exact settledFairly_effect hids (hsound before ⟨[call] ++ rest, by simp⟩) hgroup hcall
      (step_effect l _ call) hsent.sentOrOver

theorem plain_separated : sampleLedger.budget.ids.Separated where
  attempt_ne_call c n p o k key h := by
    have := congrArg String.toList h
    simp [sampleLedger, sampleBudget, DerivedIds.plain] at this
  attempt_ne_reservation c n g r h := by
    have := congrArg String.toList h
    simp [sampleLedger, sampleBudget, DerivedIds.plain] at this
  attempt_ne_empty c n h := by
    have := congrArg String.toList h
    simp [sampleLedger, sampleBudget, DerivedIds.plain] at this
  reservation_injective := sampleBudget_distinct

/-- One attempt sent, and one that has lost contact. -/
def sentCall : List Call := validatedCall.take 5

def lostContact : Call := { clock := 9, op := .failUnknown sampleAttempt (some sampleGroup) "Timeout" }

theorem money_coupled_lostContact :
    (∀ before, before <+: sentCall ++ [lostContact] →
      MoneyCoupled (run (step sampleLedger) .empty before)) ∧
    SettledFairly (run (step sampleLedger) .empty sentCall) lostContact
      (run (step sampleLedger) .empty (sentCall ++ [lostContact])) sampleAttempt.attemptId :=
  have h := money_coupled sampleLedger plain_separated (sentCall ++ [lostContact]) (by decide +kernel)
    (by decide +kernel) (by decide +kernel)
  ⟨h.1, h.2 sentCall lostContact List.prefix_rfl sampleAttempt.attemptId
    ⟨sentCall, List.prefix_rfl, by decide +kernel⟩⟩

/-- The pre-send failure of an attempt that was sent gives its money back; a second reserve that is
    refused ends an attempt whose first reservation is still held. -/
theorem unguarded_failures_uncouple :
    (¬ ∀ (l : ExternalCallLedger) (calls : List Call), l.budget.ids.Separated →
      Allowed (step l) Issued .empty calls → Allowed (step l) PassesItsGroup .empty calls →
      ∀ before call, before ++ [call] <+: calls → ∀ a, EverSent l before a →
        SettledFairly (run (step l) .empty before) call (run (step l) .empty (before ++ [call])) a) ∧
    (¬ ∀ (l : ExternalCallLedger) (calls : List Call), l.budget.ids.Separated →
      Allowed (step l) Issued .empty calls → Allowed (step l) PassesItsGroup .empty calls →
      MoneyCoupled (run (step l) .empty calls)) := by
  constructor
  · intro h
    have hrun := h sampleLedger
      (sentCall ++ [{ clock := 9, op := .failBeforeSend sampleAttempt (some sampleGroup) "Refused" }])
      plain_separated (by decide +kernel) (by decide +kernel) sentCall _ List.prefix_rfl
      sampleAttempt.attemptId ⟨sentCall, List.prefix_rfl, by decide +kernel⟩
    revert hrun
    decide +kernel
  · intro h
    have hrun := h sampleLedger
      (sentCall ++ [{ clock := 9, op := .reserve sampleAttempt (Budget.amountsOf "usd" 90) none }])
      plain_separated (by decide +kernel) (by decide +kernel)
    revert hrun
    decide +kernel

end Shapeflow.ExternalCalls
