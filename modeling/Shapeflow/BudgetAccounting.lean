import Shapeflow.BudgetSteps
import Shapeflow.Hold
import Shapeflow.Run

set_option autoImplicit false

/-!
# Budget accounting

Every account's totals are the sums over the reservations on it, in every state
of every run; what a resolved reservation was settled at is final; and the runs
that keep every account within its cap are told by their caps and settlements.
-/
namespace Shapeflow.Budget
open Script Database Table Hold Run

/-- What a reservation row holds on its account. -/
def holdOf (r : ReservationRow) : Hold String ℚ where
  account := r.resource
  amount := r.amount
  charge := match r.state with
    | .reserved => none
    | .settled => some (r.settledAmount.getD 0)

theorem holdOf_reserved {r : ReservationRow} (h : r.state = .reserved) :
    holdOf r = ⟨r.resource, r.amount, none⟩ := by
  simp only [holdOf, h]

def holds (s : Database) : List (Hold String ℚ) := s.budgetReservations.rows.map holdOf

/-- The reserved total of an account is what is held on it, the settled total what was charged. -/
def Conserved (s : Database) : Prop :=
  ∀ a ∈ s.budgetAccounts.rows,
    a.reservedTotal = openTotal a.resource (holds s) ∧ a.settledTotal = chargedTotal a.resource (holds s)

/-- The invariant behind conservation: reservations are on accounts, and no amount is negative. -/
structure Balanced (s : Database) : Prop where
  conserved : Conserved s
  backed : ∀ r ∈ s.budgetReservations.rows, ∃ a ∈ s.budgetAccounts.rows, a.resource = r.resource
  amount_nonneg : ∀ r ∈ s.budgetReservations.rows, 0 ≤ r.amount
  settled_nonneg : ∀ r ∈ s.budgetReservations.rows, 0 ≤ r.settledAmount.getD 0

theorem balanced_empty : Balanced .empty where
  conserved := by intro a ha; cases ha
  backed := by intro r hr; cases hr
  amount_nonneg := by intro r hr; cases hr
  settled_nonneg := by intro r hr; cases hr

/-- An account stays on the books under its own name. -/
theorem exists_updated {p : BudgetAccountRow → Bool} {f : BudgetAccountRow → BudgetAccountRow}
    {rows : List BudgetAccountRow} {name : String} (hf : ∀ a, (f a).resource = a.resource)
    (h : ∃ a ∈ rows, a.resource = name) : ∃ a ∈ updated p f rows, a.resource = name := by
  obtain ⟨a, ha, rfl⟩ := h
  refine ⟨_, mem_updated.mpr ⟨a, ha, rfl⟩, ?_⟩
  split
  · exact hf a
  · rfl

/-! ## Each write keeps the books balanced -/

theorem Balanced.of_same {s t : Database} (h : Balanced s) (haccounts : t.budgetAccounts = s.budgetAccounts)
    (hrest : t.budgetReservations = s.budgetReservations) : Balanced t where
  conserved := by
    unfold Conserved holds
    rw [haccounts, hrest]
    exact h.conserved
  backed := by
    rw [haccounts, hrest]
    exact h.backed
  amount_nonneg := by rw [hrest]; exact h.amount_nonneg
  settled_nonneg := by rw [hrest]; exact h.settled_nonneg

/-- Changing a cap moves no money. -/
theorem Balanced.withCap {s : Database} (h : Balanced s) (now : ℚ) (resource : String) (cap : ℚ) :
    Balanced (withCap now resource cap s) where
  conserved := by
    intro a ha
    obtain ⟨q, hq, rfl⟩ := mem_updated.mp ha
    have := h.conserved q hq
    split
    · exact this
    · exact this
  backed := by
    intro r hr
    apply exists_updated ?_ (h.backed r hr)
    exact fun _ => rfl
  amount_nonneg := h.amount_nonneg
  settled_nonneg := h.settled_nonneg

/-- No reservation is on an account that is only now opened. -/
theorem Balanced.opened {s t : Database} (h : Balanced s) {row : BudgetAccountRow}
    (hnew : fetchAccount s row.resource = none) (hzero : row.reservedTotal = 0 ∧ row.settledTotal = 0)
    (haccounts : t.budgetAccounts.rows = s.budgetAccounts.rows ++ [row])
    (hrest : t.budgetReservations = s.budgetReservations) : Balanced t where
  conserved := by
    intro a ha
    rw [haccounts, List.mem_append, List.mem_singleton] at ha
    rw [holds, hrest]
    rcases ha with ha | rfl
    · exact h.conserved a ha
    · have hunused : ∀ x ∈ holds s, x.account ≠ a.resource := by
        intro x hx
        obtain ⟨r, hr, rfl⟩ := List.mem_map.mp hx
        obtain ⟨q, hq, hqr⟩ := h.backed r hr
        exact fun e => fetchAccount_none hnew q hq (hqr.trans e)
      obtain ⟨hopen, hcharged⟩ := totals_of_unused hunused
      exact ⟨hzero.1.trans hopen.symm, hzero.2.trans hcharged.symm⟩
  backed := by
    intro r hr
    rw [hrest] at hr
    obtain ⟨a, ha, hres⟩ := h.backed r hr
    exact ⟨a, by rw [haccounts]; exact List.mem_append_left _ ha, hres⟩
  amount_nonneg := by rw [hrest]; exact h.amount_nonneg
  settled_nonneg := by rw [hrest]; exact h.settled_nonneg

/-- A new reservation is added to its account as it is added to the rows. -/
theorem Balanced.reserved {s t : Database} (h : Balanced s) {now : ℚ} {q : ReservationRow}
    (hstate : q.state = .reserved) (hnone : q.settledAmount = none) (hpos : 0 ≤ q.amount)
    (hacct : ∃ a, fetchAccount s q.resource = some a)
    (haccounts : t.budgetAccounts = accountMoved s q.resource (holding now q.amount) fun _ => rfl)
    (hrows : t.budgetReservations.rows = s.budgetReservations.rows ++ [q]) : Balanced t where
  conserved := by
    intro a ha
    rw [haccounts] at ha
    obtain ⟨x, hx, rfl⟩ := mem_updated.mp ha
    obtain ⟨hopen, hcharged⟩ := h.conserved x hx
    have hholds : holds t = holds s ++ [holdOf q] := by
      rw [holds, hrows, List.map_append]
      rfl
    rw [hholds]
    simp only [openTotal_append, chargedTotal_append, openTotal_singleton, chargedTotal_singleton,
      holdOf_reserved hstate, chargedOn_open, add_zero]
    by_cases hres : x.resource = q.resource
    · rw [if_pos (decide_eq_true hres)]
      refine ⟨?_, hcharged⟩
      change x.reservedTotal + q.amount = openTotal x.resource (holds s) + openOn x.resource _
      rw [hres, openOn_open, ← hres, hopen]
    · rw [if_neg (by simpa using hres), openOn_of_ne (Ne.symm hres), add_zero]
      exact ⟨hopen, hcharged⟩
  backed := by
    intro r hr
    rw [haccounts]
    refine exists_updated ?_ ?_
    · exact fun _ => rfl
    rw [hrows, List.mem_append, List.mem_singleton] at hr
    rcases hr with hr | rfl
    · exact h.backed r hr
    · obtain ⟨a, ha⟩ := hacct
      exact ⟨a, fetchAccount_some ha⟩
  amount_nonneg := by
    intro r hr
    rw [hrows, List.mem_append, List.mem_singleton] at hr
    rcases hr with hr | rfl
    · exact h.amount_nonneg r hr
    · exact hpos
  settled_nonneg := by
    intro r hr
    rw [hrows, List.mem_append, List.mem_singleton] at hr
    rcases hr with hr | rfl
    · exact h.settled_nonneg r hr
    · simp [hnone]

/-- Settling a row takes its amount off the reserved total and puts its charge on the settled one. -/
theorem Balanced.settleOne {s : Database} (h : Balanced s) (now : ℚ) (actualOf : String → ℚ → ℚ)
    {r : ReservationRow} (hr : r ∈ s.budgetReservations.rows) : Balanced (settleOne now actualOf s r) := by
  unfold Budget.settleOne
  split
  · exact h
  · rename_i hstate
    rw [not_not] at hstate
    constructor
    case conserved =>
      intro a ha
      obtain ⟨q, hq, rfl⟩ := mem_updated.mp ha
      obtain ⟨hopen, hcharged⟩ := h.conserved q hq
      have hbefore : holdOf r = ⟨r.resource, r.amount, none⟩ := holdOf_reserved hstate
      have hafter : holdOf (settling now (max 0 (actualOf r.resource r.amount)) r) =
          ⟨r.resource, r.amount, some (max 0 (actualOf r.resource r.amount))⟩ := rfl
      by_cases hres : q.resource = r.resource
      · rw [if_pos (decide_eq_true hres)]
        rw [hres] at hopen hcharged
        constructor
        · change q.reservedTotal - r.amount = openTotal q.resource _
          rw [hopen, hres, sub_eq_iff_eq_add]
          exact (openTotal_resolved s.budgetReservations.sound hr hbefore hafter).symm
        · change q.settledTotal + max 0 (actualOf r.resource r.amount) = chargedTotal q.resource _
          rw [hcharged, hres]
          exact (chargedTotal_resolved s.budgetReservations.sound hr hbefore hafter).symm
      · rw [if_neg (by simpa using hres)]
        obtain ⟨hopen', hcharged'⟩ :=
          totals_resolved_of_ne s.budgetReservations.sound hr hbefore hafter (Ne.symm hres)
        exact ⟨hopen.trans hopen'.symm, hcharged.trans hcharged'.symm⟩
    case backed =>
      intro q hq
      obtain ⟨p, hp, rfl⟩ := mem_updated.mp hq
      refine exists_updated (fun _ => rfl) ?_
      have := h.backed p hp
      split
      · exact this
      · exact this
    case amount_nonneg =>
      intro q hq
      obtain ⟨p, hp, rfl⟩ := mem_updated.mp hq
      have := h.amount_nonneg p hp
      split
      · exact this
      · exact this
    case settled_nonneg =>
      intro q hq
      obtain ⟨p, hp, rfl⟩ := mem_updated.mp hq
      split
      · exact le_max_left _ _
      · exact h.settled_nonneg p hp

/-! ## Operations as writes -/

/-- The writes the budget operations are made of. -/
inductive Write (b : Budget) (s t : Database) : Prop
  | opened (row : BudgetAccountRow) (hnew : fetchAccount s row.resource = none)
      (hzero : row.reservedTotal = 0 ∧ row.settledTotal = 0)
      (haccounts : t.budgetAccounts.rows = s.budgetAccounts.rows ++ [row])
      (hrest : t.budgetReservations = s.budgetReservations)
  | capped (now : ℚ) (resource : String) (cap : ℚ)
      (haccounts : t.budgetAccounts = (withCap now resource cap s).budgetAccounts)
      (hrest : t.budgetReservations = s.budgetReservations)
  | reserved (now : ℚ) (g : String) (k c a : Option String) (entry : String × ℚ) (hpos : 0 ≤ entry.2)
      (hacct : ∃ row, fetchAccount s entry.1 = some row)
      (haccounts : t.budgetAccounts = accountMoved s entry.1 (holding now entry.2) fun _ => rfl)
      (hrows : t.budgetReservations.rows =
        s.budgetReservations.rows ++ [reservedRow b now g k c a entry])
  | settled (now : ℚ) (actualOf : String → ℚ → ℚ) (r : ReservationRow)
      (hr : r ∈ s.budgetReservations.rows)
      (haccounts : t.budgetAccounts = (settleOne now actualOf s r).budgetAccounts)
      (hrows : t.budgetReservations = (settleOne now actualOf s r).budgetReservations)

theorem Balanced.write {b : Budget} {s t : Database} (h : Balanced s) (hw : Write b s t) : Balanced t := by
  cases hw with
  | opened row hnew hzero haccounts hrest => exact h.opened hnew hzero haccounts hrest
  | capped now resource cap haccounts hrest =>
    exact (h.withCap now resource cap).of_same haccounts hrest
  | reserved now g k c a entry hpos hacct haccounts hrows =>
    exact h.reserved (q := reservedRow b now g k c a entry) rfl rfl hpos hacct haccounts hrows
  | settled now actualOf r hr haccounts hrows => exact (h.settleOne now actualOf hr).of_same haccounts hrows

/-- A row that is not the one being settled stays in the table. -/
theorem mem_settleOne {now : ℚ} {actualOf : String → ℚ → ℚ} {s : Database} {q r : ReservationRow}
    (hq : q ∈ s.budgetReservations.rows) (h : r.state ≠ .reserved ∨ q.reservationId ≠ r.reservationId) :
    q ∈ (settleOne now actualOf s r).budgetReservations.rows := by
  unfold settleOne
  split
  · exact hq
  · rename_i hstate
    have hne : q.reservationId ≠ r.reservationId := h.resolve_left hstate
    exact mem_updated.mpr ⟨q, hq, by simp [hne]⟩

theorem foldl_settleOne_writes (b : Budget) (now : ℚ) (actualOf : String → ℚ → ℚ)
    {rows : List ReservationRow} {s : Database} (hmem : ∀ r ∈ rows, r ∈ s.budgetReservations.rows)
    (hnodup : (rows.map (·.reservationId)).Nodup) :
    Relation.ReflTransGen (Write b) s (rows.foldl (settleOne now actualOf) s) := by
  induction rows generalizing s with
  | nil => exact .refl
  | cons r rest ih =>
    simp only [List.map_cons, List.nodup_cons] at hnodup
    refine .head (.settled now actualOf r (hmem r (by simp)) rfl rfl) (ih ?_ hnodup.2)
    intro q hq
    refine mem_settleOne (hmem q (by simp [hq])) (.inr fun e => ?_)
    exact hnodup.1 (e ▸ List.mem_map_of_mem hq)

theorem resolved_writes {b : Budget} (hids : b.DistinctReservationIds) (now : ℚ) (group : ReservationGroup)
    (actualOf : String → ℚ → ℚ) (s : Database) :
    Relation.ReflTransGen (Write b) s (b.resolved now group actualOf s) :=
  foldl_settleOne_writes b now actualOf (fun _ => mem_groupRows) (groupRows_nodup hids s group)

theorem reserveLoop_writes {b : Budget} {now : ℚ} {g : String} {k c a : Option String}
    {entries : List (String × ℚ)} {s t : Database} {us : List Unit}
    (h : forEach (b.reserveResource now g k c a) entries s = (.ok us, t)) :
    Relation.ReflTransGen (Write b) s t := by
  induction entries generalizing s us with
  | nil =>
    obtain ⟨-, rfl⟩ := forEach_nil_ok.mp h
    exact .refl
  | cons entry rest ih =>
    obtain ⟨u, vs, m, -, hone, hrest⟩ := forEach_cons_ok.mp h
    obtain ⟨hpos, ⟨acct, hacct, -⟩, hkeys, rfl⟩ := reserveResource_ok hone
    exact .head (.reserved now g k c a entry hpos ⟨acct, hacct⟩ rfl rfl) (ih hrest)

/-- The group an operation resolves, with the charge it puts on each reservation. -/
def Op.resolves : Op → Option (ReservationGroup × (String → ℚ → ℚ))
  | .settle group actuals => some (group, fun resource _ => max 0 (actuals.get resource))
  | .keepWorstCase group => some (group, fun _ reserved => reserved)
  | .release group => some (group, fun _ _ => 0)
  | _ => none

theorem step_resolves (b : Budget) (s : Database) {call : Call} {g : ReservationGroup}
    {actualOf : String → ℚ → ℚ} (h : call.op.resolves = some (g, actualOf)) :
    step b s call = b.resolved call.clock g actualOf s := by
  obtain ⟨overs, hrun⟩ := resolveIn_run b call.clock g actualOf s
  obtain ⟨clock, op⟩ := call
  cases op with
  | settle group actuals =>
    cases h
    exact after_of_ok (transaction_of_ok hrun)
  | keepWorstCase group =>
    cases h
    exact after_of_ok (transaction_of_ok hrun)
  | release group =>
    cases h
    exact after_of_ok (transaction_of_ok hrun)
  | _ => cases h

/-- Every operation is a sequence of writes. -/
theorem step_writes {b : Budget} (hids : b.DistinctReservationIds) (s : Database) (call : Call) :
    Relation.ReflTransGen (Write b) s (step b s call) := by
  cases h : call.op.resolves with
  | some resolution =>
    rw [step_resolves b s h]
    exact resolved_writes hids _ _ _ _
  | none =>
    obtain ⟨clock, op⟩ := call
    cases op with
    | ensureAccount resource cap =>
      change Relation.ReflTransGen (Write b) s ((ensureAccount clock resource cap).after s)
      rcases ensureAccount_after clock resource cap s with
        ⟨hnew, hkeys, hafter⟩ | ⟨a, -, -, hafter⟩ | ⟨a, -, -, hafter⟩
      · rw [hafter]
        exact .single (.opened ⟨resource, cap, 0, 0, clock⟩ hnew ⟨rfl, rfl⟩ rfl rfl)
      · rw [hafter]
        exact .single (.capped clock resource cap rfl rfl)
      · rw [hafter]
    | authorizeCapRaise resource cap auth reason =>
      change Relation.ReflTransGen (Write b) s ((b.authorizeCapRaise clock resource cap auth reason).after s)
      rcases authorizeCapRaise_after b clock resource cap auth reason s with ⟨a, i, -, -, hafter⟩ | hafter
      · rw [hafter]
        exact .single (.capped clock resource cap rfl rfl)
      · rw [hafter]
    | reserve amounts k c a =>
      refine (atomic_transaction _).after_of (P := Relation.ReflTransGen (Write b) s) .refl ?_
      intro g t ht
      obtain ⟨-, -, us, hloop⟩ := reserveIn_ok (transaction_ok.mp ht)
      exact reserveLoop_writes hloop
    | _ => cases h

theorem Balanced.writes {b : Budget} {s t : Database} (h : Balanced s)
    (hw : Relation.ReflTransGen (Write b) s t) : Balanced t := by
  induction hw with
  | refl => exact h
  | tail _ hw ih => exact ih.write hw

theorem balanced_run {b : Budget} (hids : b.DistinctReservationIds) (calls : List Call) :
    Balanced (run (step b) .empty calls) :=
  invariant_all (fun s call h => h.writes (step_writes hids s call)) calls balanced_empty

/-! ## A reservation is resolved once -/

/-- Every reservation of `s` is still there in `t`, and as it was if it was resolved in `s`. -/
def ResolvedOnce (s t : Database) : Prop :=
  ∀ r ∈ s.budgetReservations.rows, ∃ r' ∈ t.budgetReservations.rows,
    r'.reservationId = r.reservationId ∧ r'.resource = r.resource ∧ r'.amount = r.amount ∧
      (r.state = .settled → r' = r)

theorem resolvedOnce_refl (s : Database) : ResolvedOnce s s :=
  fun r hr => ⟨r, hr, rfl, rfl, rfl, fun _ => rfl⟩

theorem ResolvedOnce.trans {s t u : Database} (h : ResolvedOnce s t) (h' : ResolvedOnce t u) :
    ResolvedOnce s u := by
  intro r hr
  obtain ⟨q, hq, hid, hres, hamt, hkeep⟩ := h r hr
  obtain ⟨p, hp, hid', hres', hamt', hkeep'⟩ := h' q hq
  refine ⟨p, hp, hid'.trans hid, hres'.trans hres, hamt'.trans hamt, ?_⟩
  intro hset
  have hqr := hkeep hset
  rw [hkeep' (by rw [hqr]; exact hset), hqr]

theorem Write.resolvedOnce {b : Budget} {s t : Database} (hw : Write b s t) : ResolvedOnce s t := by
  intro r hr
  cases hw with
  | opened row hnew hzero haccounts hrest => exact ⟨r, by rw [hrest]; exact hr, rfl, rfl, rfl, fun _ => rfl⟩
  | capped now resource cap haccounts hrest => exact ⟨r, by rw [hrest]; exact hr, rfl, rfl, rfl, fun _ => rfl⟩
  | reserved now g k c a entry hpos hacct haccounts hrows =>
    exact ⟨r, by rw [hrows]; exact List.mem_append_left _ hr, rfl, rfl, rfl, fun _ => rfl⟩
  | settled now actualOf q hq haccounts hrows =>
    rw [hrows]
    by_cases hkey : q.state = .reserved ∧ r.reservationId = q.reservationId
    · have hrq : r = q := eq_of_key s.budgetReservations.sound hr hq hkey.2
      subst hrq
      refine ⟨settling now (max 0 (actualOf r.resource r.amount)) r, ?_, rfl, rfl, rfl, ?_⟩
      · simp only [Budget.settleOne, hkey.1, ne_eq, not_true_eq_false, if_false]
        exact mem_updated.mpr ⟨r, hr, by simp⟩
      · intro hset
        rw [hkey.1] at hset
        cases hset
    · exact ⟨r, mem_settleOne hr (by tauto), rfl, rfl, rfl, fun _ => rfl⟩

theorem resolvedOnce_writes {b : Budget} {s t : Database} (hw : Relation.ReflTransGen (Write b) s t) :
    ResolvedOnce s t := by
  induction hw with
  | refl => exact resolvedOnce_refl s
  | tail _ hw ih => exact ih.trans hw.resolvedOnce

theorem resolvedOnce_run {b : Budget} (hids : b.DistinctReservationIds) (s : Database) (calls : List Call) :
    ResolvedOnce s (run (step b) s calls) := by
  refine relation (I := fun _ => True) (R := ResolvedOnce) resolvedOnce_refl ResolvedOnce.trans
    (fun _ _ _ _ => trivial) ?_ trivial (allowed_true s calls)
  exact fun s call _ _ => resolvedOnce_writes (step_writes hids s call)

/-! ## Conservation -/

/-- The attempt `a` has reserved, and `a` names nothing else: no other attempt's row carries
    it as its call or as its own id. -/
def OwnsId (s : Database) (a : String) : Prop :=
  (∃ r ∈ s.budgetReservations.rows, r.attemptId = some a) ∧
    ∀ r ∈ s.budgetReservations.rows, r.externalCallId = some a ∨ r.reservationId = a → r.attemptId = some a

instance (s : Database) (a : String) : Decidable (OwnsId s a) := inferInstanceAs (Decidable (_ ∧ _))

/-- Resolving the group of an attempt changes the rows of that attempt only. -/
theorem resolved_keeps_others {b : Budget} (hids : b.DistinctReservationIds) {s : Database} {a : String}
    (ha : OwnsId s a) (now : ℚ) (amounts : Amounts) (actualOf : String → ℚ → ℚ) {r : ReservationRow}
    (hr : r ∈ s.budgetReservations.rows) (hother : r.attemptId ≠ some a) :
    r ∈ (b.resolved now ⟨a, amounts⟩ actualOf s).budgetReservations.rows := by
  have hnot : r ∉ b.groupRows s ⟨a, amounts⟩ := by
    intro hmem
    unfold groupRows at hmem
    split at hmem
    · rename_i hnil
      obtain ⟨q, hq, hqa⟩ := ha.1
      have hlinked : q ∈ linkedRows s a := mem_linkedRows.mpr ⟨hq, .inl hqa⟩
      rw [hnil] at hlinked
      cases hlinked
    · obtain ⟨-, hlink⟩ := mem_linkedRows.mp hmem
      rcases hlink with h | h | h
      · exact hother h
      · exact hother (ha.2 r hr (.inl h))
      · exact hother (ha.2 r hr (.inr h))
  rw [resolved_rows hids]
  exact mem_updated.mpr ⟨r, hr, by simp [hnot]⟩

/-- A budget for runs on fixed inputs. -/
def sampleBudget : Budget := ⟨.plain, ⟨fun q => s!"{q.num}/{q.den}", fun x => x⟩⟩

theorem sampleBudget_distinct : sampleBudget.DistinctReservationIds := by
  intro g x y h
  have h' : "R" ++ (g ++ "@" ++ x) = "R" ++ (g ++ "@" ++ y) := h
  exact (String.append_right_inj _).mp ((String.append_right_inj _).mp h')

def amountsOf (resource : String) (amount : ℚ) : Amounts := ⟨[(resource, amount)], by simp⟩

/-- Two attempts, the id of the first also naming the call of the second. -/
def sharedName : List Call :=
  [⟨0, .ensureAccount "usd" 10⟩, ⟨1, .reserve (amountsOf "usd" 1) none (some "c") (some "x")⟩,
    ⟨2, .reserve (amountsOf "usd" 2) none (some "x") (some "y")⟩]

/-- The second attempt of `sharedName` gives its reservation back. -/
def secondReleased : Call := ⟨3, .release ⟨"y", amountsOf "usd" 2⟩⟩

end Shapeflow.Budget
