import Shapeflow.ProviderSettle

set_option autoImplicit false

/-!
# What a bought reply is billed at

An attempt that ends is settled resource by resource. A search whose reply names
no cost is charged its worst case; one whose reply is too large to freeze is
settled without its cost, and DeepSeek's counts are zero where the reply leaves
them out.
-/
namespace Shapeflow.ProviderServer
open Script Database Session ExternalCalls Py Table Budget

/-- The reservations of an attempt: the resource, its worst case, and what it was settled at. -/
def billOf (s : Database) (attemptId : String) : List (String × ℚ × Option ℚ) :=
  (reservationsOf s attemptId).map fun r => (r.resource, r.amount, r.settledAmount)

/-- These amounts, each settled at its charge. -/
def settledAt (amounts : Amounts) (charge : String → ℚ → ℚ) : List (String × ℚ × Option ℚ) :=
  amounts.entries.map fun e => (e.1, e.2, some (max 0 (charge e.1 e.2)))

/-! ## What a reply reports -/

/-- A field of a dictionary; null where it has none, or is no dictionary. -/
def fieldOf (v : Json) (key : String) : Json :=
  match v with
  | .obj members => memberD members (pyStr key) .null
  | _ => .null

/-- The amount a field reports. NaN is no amount. -/
def reportedAmount (svc : ProviderService) (v : Json) : Option ℚ :=
  match toFloat svc.text v with
  | .error _ | .ok .nan => none
  | .ok x => some (svc.column x)

def ReadsNan (svc : ProviderService) (v : Json) : Prop := toFloat svc.text v = .ok .nan

def exaCost (payload : List (PyStr × Json)) : Json := fieldOf (memberD payload (pyStr "costDollars") .null) "total"

def tavilyCredits (payload : List (PyStr × Json)) : Json := fieldOf (memberD payload (pyStr "usage") .null) "credits"

/-- A count in the usage of a DeepSeek reply. -/
def tokenCount (payload : List (PyStr × Json)) (key : String) : Json :=
  fieldOf (memberD payload (pyStr "usage") .null) key

/-- The count as a float, zero where it reports nothing. -/
def countOf (svc : ProviderService) (v : Json) : PyFloat :=
  match toFloat svc.text (v.orElse (.int 0)) with
  | .ok x => x
  | .error _ => .finite 0

/-- What the counts of a reply come to at the configured prices. -/
def tokenPrice (svc : ProviderService) (payload : List (PyStr × Json)) : PyFloat :=
  let prompt := countOf svc (tokenCount payload "prompt_tokens")
  let hit := ((countOf svc (tokenCount payload "prompt_cache_hit_tokens")).max (.finite 0)).min prompt
  ((perMillion svc.config.deepseekUsdPer1mInput (prompt.sub hit)).add
    (perMillion svc.config.deepseekUsdPer1mInputCached hit)).add
      (perMillion svc.config.deepseekUsdPer1mOutput (countOf svc (tokenCount payload "completion_tokens")))

/-- The price can be told: both counts are reported, and they come to a number. -/
def Priced (svc : ProviderService) (payload : List (PyStr × Json)) : Prop :=
  (reportedAmount svc (tokenCount payload "prompt_tokens")).isSome ∧
    (reportedAmount svc (tokenCount payload "completion_tokens")).isSome ∧ tokenPrice svc payload ≠ .nan

instance (svc : ProviderService) (payload : List (PyStr × Json)) : Decidable (Priced svc payload) :=
  inferInstanceAs (Decidable (_ ∧ _ ∧ _))

/-- The cost that a reply reports for an account, if it reports one. -/
def Provider.reported (svc : ProviderService) (payload : List (PyStr × Json)) (p : Provider) (resource : String) :
    Option ℚ :=
  match p with
  | .exa => if resource = "exa_usd" then reportedAmount svc (exaCost payload) else none
  | .tavily => if resource = "tavily_credits" then reportedAmount svc (tavilyCredits payload) else none
  | .deepseek =>
    if resource = "deepseek_input_tokens" then reportedAmount svc (tokenCount payload "prompt_tokens")
    else if resource = "deepseek_output_tokens" then reportedAmount svc (tokenCount payload "completion_tokens")
    else if resource = "deepseek_usd" then
      if Priced svc payload then some (svc.column (tokenPrice svc payload)) else none
    else none

/-- The least an account may be settled at: the reported cost, or its worst case. -/
def owed (svc : ProviderService) (p : Provider) (reply : Upstream) (resource : String) (worstCase : ℚ) : ℚ :=
  match reply with
  | .error _ => worstCase
  | .ok r => (p.reported svc r.payload resource).getD worstCase

/-- No account of the bill is settled below what is owed on it. -/
def FullyBilled (svc : ProviderService) (p : Provider) (reply : Upstream) (bill : List (String × ℚ × Option ℚ)) :
    Prop :=
  ∀ e ∈ bill, ∃ settled ∈ e.2.2, owed svc p reply e.1 e.2.1 ≤ settled

/-- A search is billed in full when its reply can be frozen and its cost is no NaN, or nothing is owed. -/
def SearchBillsInFull (svc : ProviderService) (payload : List (PyStr × Json)) (cost : Json) (worstCase : ℚ) : Prop :=
  TooLarge svc payload ∨ ReadsNan svc cost → (reportedAmount svc cost).getD worstCase ≤ 0

/-- DeepSeek is billed in full when the reply reports both counts, and they come to a price. -/
def ChatBillsInFull (svc : ProviderService) (payload : List (PyStr × Json)) : Prop :=
  (reportedAmount svc (tokenCount payload "prompt_tokens") = none → svc.config.deepseekInputTokensWorstCase ≤ 0) ∧
    (reportedAmount svc (tokenCount payload "completion_tokens") = none →
      svc.config.deepseekOutputTokensWorstCase ≤ 0) ∧
    (¬ Priced svc payload → svc.config.deepseekUsdWorstCase ≤ max 0 (svc.column (tokenPrice svc payload)))

/-- The replies of a provider that are billed in full. A reply that never came is charged its worst case. -/
def Provider.BillsInFull (svc : ProviderService) (p : Provider) (reply : Upstream) : Prop :=
  match reply with
  | .error _ => True
  | .ok r =>
    match p with
    | .exa => SearchBillsInFull svc r.payload (exaCost r.payload) svc.config.exaUsdWorstCase
    | .tavily => SearchBillsInFull svc r.payload (tavilyCredits r.payload) svc.config.tavilyCreditsWorstCase
    | .deepseek => ChatBillsInFull svc r.payload

/-! ## The bill of an attempt that ends -/

theorem Holds.all_reserved {s : Database} {a : String} {amounts : Amounts} (h : Holds s a amounts)
    {r : ReservationRow} (hr : r ∈ reservationsOf s a) : r.state = .reserved := by
  have hmem := List.mem_map_of_mem (f := fun r : ReservationRow => (r.resource, r.amount, r.state)) hr
  rw [h] at hmem
  obtain ⟨e, -, he⟩ := List.mem_map.mp hmem
  exact (congrArg (·.2.2) he).symm

theorem reservationsOf_updated {s t : Database} {now : ℚ} {charge : String → ℚ → ℚ} {a : String}
    (hall : ∀ r ∈ reservationsOf s a, r.state = .reserved)
    (hres : t.budgetReservations.rows = updated (fun r => r.attemptId = some a ∧ r.state = .reserved)
      (settledRow now charge) s.budgetReservations.rows) :
    reservationsOf t a = (reservationsOf s a).map (settledRow now charge) := by
  have hfilter : reservationsOf t a = (reservationsOf s a).map fun r =>
      if r.attemptId = some a ∧ r.state = .reserved then settledRow now charge r else r := by
    unfold reservationsOf
    rw [hres, updated, List.filter_map]
    simp only [decide_eq_true_eq]
    congr 1
    refine List.filter_congr fun r _ => ?_
    simp only [Function.comp_apply]
    split <;> rfl
  rw [hfilter]
  refine List.map_congr_left fun r hr => ?_
  rw [if_pos ⟨(mem_reservationsOf.mp hr).2, hall r hr⟩]

theorem billOf_settled {s t : Database} {now : ℚ} {charge : String → ℚ → ℚ} {a : String} {amounts : Amounts}
    (hheld : Holds s a amounts)
    (hres : t.budgetReservations.rows = updated (fun r => r.attemptId = some a ∧ r.state = .reserved)
      (settledRow now charge) s.budgetReservations.rows) :
    billOf t a = settledAt amounts charge := by
  have hpriced := congrArg (List.map fun e : String × ℚ × ReservationState =>
    (e.1, e.2.1, some (max 0 (charge e.1 e.2.1)))) hheld
  simp only [List.map_map] at hpriced
  unfold billOf
  rw [reservationsOf_updated (fun _ => hheld.all_reserved) hres, List.map_map]
  exact hpriced

/-- Ending a sent attempt charges what it holds as the mode says. -/
theorem InFlight.bill {l : ExternalCallLedger} (hids : l.budget.ids.Separated) {now : ℚ} {s : Database}
    {h : AttemptHandle} {group : ReservationGroup} {state final : CallAttemptState} {mode : Mode}
    {cols : List AttemptColumn} {amounts : Amounts} {u : Session Database} (hf : InFlight l s h group state)
    (hheld : Holds s h.attemptId amounts) (hlegal : final ∈ legalAttempt state)
    (hrun : settleAndAdvance l now h final (some group) mode cols ⟨s, none⟩ = (.ok (), u)) :
    billOf u.store h.attemptId = settledAt amounts mode.charge := by
  obtain ⟨r, hr, hrh, hrc, rfl⟩ := hf.row
  obtain ⟨t, hrun', -, -, hres⟩ := settleAndAdvance_run l now (some group) mode cols hr hrh hlegal
    fun _ q hq hqr => hf.unbought q hq (hqr.trans hrc)
  obtain rfl : u = ⟨t, none⟩ := by
    have hsame := hrun.symm.trans hrun'
    exact congrArg Prod.snd hsame
  have hne := ((hf.money.coupled r hr).2.1 hf.held).1
  have hgroup : group = ⟨r.attemptId, group.amounts⟩ := by
    rw [hrh, ← hf.its]
  rw [hgroup] at hres
  have hrows := hres.trans (hf.money.resolved_rows hids hr hne now group.amounts mode.charge)
  rw [hrh] at hrows
  exact billOf_settled hheld hrows

/-! ## The bill of a route -/

/-- What the request dispatched, if it is settled, has a bill as `P` says. -/
def Bills (P : List (String × ℚ × Option ℚ) → Prop) (h : AttemptHandle) (t : ServiceState) : Prop :=
  t.dispatched = [h] ∧ (Settled t.ledger.store h → P (billOf t.ledger.store h.attemptId))

section
variable {svc : ProviderService} {t : ServiceState} {h : AttemptHandle} {group : ReservationGroup}
  {state : CallAttemptState} {amounts : Amounts} {P : List (String × ℚ × Option ℚ) → Prop}

/-- An attempt left in flight is not settled. -/
theorem OnItsWay.unbilled (ht : OnItsWay svc t h group state) : Bills P h t :=
  ⟨ht.only, fun hs => absurd hs ht.flying.not_settled⟩

theorem Bills.of_same {u : ServiceState} (ht : Bills P h t) (hd : u.dispatched = t.dispatched)
    (hsame : sameTables t.ledger.store u.ledger.store) : Bills P h u := by
  refine ⟨hd.trans ht.1, fun hs => ?_⟩
  have hbill : billOf u.ledger.store h.attemptId = billOf t.ledger.store h.attemptId := by
    unfold billOf
    rw [reservationsOf_congr (congrArg Table.rows hsame.2.2)]
  rw [hbill]
  exact ht.2 ((settled_congr hsame h).mp hs)

theorem OnItsWay.ended_billed (hids : svc.budget.ids.Separated) (ht : OnItsWay svc t h group state)
    (hheld : Holds t.ledger.store h.attemptId amounts) (now : ℚ) (final : CallAttemptState) (mode : Mode)
    (cols : List AttemptColumn) (hlegal : final ∈ legalAttempt state) (hfinal : final ∈ attemptTerminal)
    (hP : P (settledAt amounts mode.charge)) :
    ∃ l, onLedger (settleAndAdvance svc.calls now h final (some group) mode cols) t =
        (.ok (), { t with ledger := l }) ∧ Bills P h { t with ledger := l } := by
  obtain ⟨l, hrun, hset, -, -⟩ := ht.ended hids now final mode cols hlegal hfinal
  refine ⟨l, hrun, hset.1, fun _ => ?_⟩
  have hledger := onLedger_ok hrun
  rw [ledger_of_alive ht.alive] at hledger
  rw [ht.flying.bill hids hheld hlegal hledger]
  exact hP

theorem OnItsWay.lost_billed {α : Type} (hids : svc.budget.ids.Separated) (ht : OnItsWay svc t h group .sent)
    (hheld : Holds t.ledger.store h.attemptId amounts) (now : ℚ) (name error : String)
    (hP : P (settledAt amounts Mode.worstCase.charge)) :
    Bills P h ((lostContact svc now h group name error : Handler α).after t) := by
  obtain ⟨l, hend, hl⟩ := ht.ended_billed hids hheld now .failedUnknown .worstCase [.errorClass error]
    (by simp [legalAttempt]) (by simp [attemptTerminal]) hP
  unfold lostContact
  rw [after_bind_of_ok (x := onLedger (failUnknown svc.calls now h (some group) error)) hend]
  exact hl

theorem OnItsWay.too_large_billed {α : Type} (hids : svc.budget.ids.Separated) (ht : OnItsWay svc t h group .sent)
    (hheld : Holds t.ledger.store h.attemptId amounts) (now : ℚ) (p : Provider) (callId : String)
    (actuals : Amounts) (message : String) (hP : P (settledAt amounts (Mode.settle actuals).charge)) :
    Bills P h ((refuseTooLarge svc now p callId h group actuals message : Handler α).after t) := by
  obtain ⟨l, hend, hl⟩ := ht.ended_billed hids hheld now .failedFinal (.settle actuals)
    [.errorClass "response_too_large"] (by simp [legalAttempt]) (by simp [attemptTerminal]) hP
  unfold refuseTooLarge
  rw [after_bind_of_ok (x := onLedger (failAfterResponse svc.calls now h (some group) actuals _ none "")) hend]
  have hrecorded : Bills P h ((onLedger (tx (WorkLedger.recordIncident now "ERROR"
      "provider_response_too_large" s!"{p.name} call {callId}: {message}"))).after { t with ledger := l }) := by
    rw [after_onLedger]
    refine hl.of_same rfl (tx_same ?_)
    rw [recordIncident_after]
    exact recorded_same _ _ _ _ _ _
  refine after_bind ?_ ?_
  · intro e v hrun
    rw [← after_of_error hrun]
    exact hrecorded
  · intro _ v hrun
    rw [after_of_ok hrun] at hrecorded
    exact hrecorded

/-- Keeping the response moves no money. -/
theorem keepResponse_reservations {now : ℚ} {text : String} {texts : ResponseTexts} {u : ServiceState}
    (hrun : keepResponse svc now h text texts t = (.ok (), u)) :
    u.ledger.store.budgetReservations = t.ledger.store.budgetReservations := by
  obtain ⟨_, m, hput, hrest⟩ := bind_ok.mp hrun
  cases hput
  cases hbind : texts.bind with
  | error e =>
    rw [hbind] at hrest
    obtain ⟨_, _, -, hraise⟩ := bind_ok.mp hrest
    cases hraise
  | ok fields =>
    rw [hbind] at hrest
    obtain ⟨ref, l, hstore, hadv⟩ := bind_ok.mp (onLedger_ok hrest)
    exact (advanceIn_ok (tx_ok hadv)).2.2.2.trans (storeText_reservations hstore)

theorem validate_reservations {now : ℚ} {u : ServiceState} (hrun : onLedger (validate now h) t = (.ok (), u)) :
    u.ledger.store.budgetReservations = t.ledger.store.budgetReservations :=
  (advanceIn_ok (tx_ok (onLedger_ok hrun))).2.2.2

theorem OnItsWay.committed_billed (hids : svc.budget.ids.Separated) (ht : OnItsWay svc t h group .sent)
    (hheld : Holds t.ledger.store h.attemptId amounts) (now₁ now₂ now₃ : ℚ) (text : String)
    (texts : ResponseTexts) (actuals : Amounts) (answer : Answer)
    (hP : P (settledAt amounts (Mode.settle actuals).charge)) :
    Bills P h ((do
      keepResponse svc now₁ h text texts
      onLedger (validate now₂ h)
      onLedger (commit svc.calls now₃ h group actuals)
      pure answer : Handler Answer).after t) := by
  by_cases hbind : texts.Bindable
  · obtain ⟨fields, hfields⟩ := bind_of_bindable hbind
    obtain ⟨u, hkeep, hu, -, -⟩ := ht.kept hids now₁ text hfields
    obtain ⟨l, hval, hl, -⟩ := hu.advanced hids now₂ .validated [] (by simp [legalAttempt])
      (by simp [attemptSentStates])
    have hkept := hheld.of_same (keepResponse_reservations hkeep)
    have hvalidated := hkept.of_same (validate_reservations hval)
    obtain ⟨m, hcommit, hm⟩ := hl.ended_billed hids hvalidated now₃ .committed (.settle actuals) []
      (by simp [legalAttempt]) (by simp [attemptTerminal]) hP
    rw [after_bind_of_ok hkeep, after_bind_of_ok (x := onLedger (validate now₂ h)) hval,
      after_bind_of_ok (x := onLedger (commit svc.calls now₃ h group actuals)) hcommit]
    exact hm
  · obtain ⟨u, hkeep, hu⟩ := ht.not_kept hids now₁ text (bind_of_not_bindable hbind)
    rw [after_bind_of_error hkeep]
    exact hu.unbilled

/-- A reply too large to freeze is charged what is charged late, any other its actual cost. -/
theorem OnItsWay.frozen_billed (hids : svc.budget.ids.Separated) (ht : OnItsWay svc t h group .sent)
    (hheld : Holds t.ledger.store h.attemptId amounts) (clock : ℕ → ℚ) (p : Provider) (callId : String)
    (late actuals : Amounts) (payload : List (PyStr × Json)) (texts : ResponseTexts)
    (hlate : TooLarge svc payload → P (settledAt amounts (Mode.settle late).charge))
    (hactual : ¬ TooLarge svc payload → P (settledAt amounts (Mode.settle actuals).charge)) :
    Bills P h ((freezeAndCommit svc clock p callId h group late actuals payload texts).after t) := by
  unfold freezeAndCommit
  by_cases hlarge : TooLarge svc payload
  · obtain ⟨message, hm⟩ := frozen_of_tooLarge hlarge
    rw [hm]
    exact ht.too_large_billed hids hheld (clock 4) p callId late message (hlate hlarge)
  · rw [frozen_of_fits hlarge]
    exact ht.committed_billed hids hheld (clock 4) (clock 5) (clock 6) _ texts actuals _ (hactual hlarge)

theorem OnItsWay.read_billed {α β : Type} (ht : OnItsWay svc t h group .sent) {x : Except PyError α}
    {f : α → Handler β} (hf : ∀ a, x = .ok a → Bills P h ((f a).after t)) :
    Bills P h ((python x >>= f).after t) := by
  cases x with
  | ok a =>
    rw [after_bind_of_ok (x := python (.ok a)) rfl]
    exact hf a rfl
  | error e =>
    rw [after_bind_of_error (x := python (.error e)) rfl]
    exact ht.unbilled

end

/-! ## What is read from a reply -/

section
variable {svc : ProviderService}

theorem fieldOf_default (payload : List (PyStr × Json)) (name : PyStr) (key : String) :
    fieldOf (memberD payload name (.obj [])) key = fieldOf (memberD payload name .null) key := by
  unfold memberD
  cases member payload name <;> rfl

theorem fieldOf_orElse (v : Json) (key : String) : fieldOf (v.orElse (.obj [])) key = fieldOf v key := by
  unfold Json.orElse
  split
  · rfl
  · rename_i hfalsy
    cases v with
    | obj members =>
      have hempty : members = [] := by simpa [Json.truthy] using hfalsy
      rw [hempty]
    | _ => rfl

theorem floatOr_ok {v : Json} {key : String} {default : ℚ} {x : PyFloat} (h : floatOr svc v key default = .ok x) :
    toFloat svc.text (fieldOf v key) = .ok x ∨
      (∃ e, toFloat svc.text (fieldOf v key) = .error e) ∧ x = .finite default := by
  unfold floatOr at h
  cases v with
  | obj members =>
    rw [get_of_obj rfl, Fallible.ok_bind] at h
    change toFloat svc.text (memberD members (pyStr key) .null) = _ ∨ (∃ e, toFloat svc.text (memberD members
      (pyStr key) .null) = _) ∧ _
    split at h
    · rename_i hnull
      rw [hnull]
      cases h
      exact .inr ⟨⟨_, rfl⟩, rfl⟩
    · cases hread : toFloat svc.text (memberD members (pyStr key) .null) with
      | ok y =>
        rw [hread] at h
        cases h
        exact .inl rfl
      | error e =>
        rw [hread] at h
        refine .inr ⟨⟨e, rfl⟩, ?_⟩
        cases e <;> cases h <;> rfl
  | _ => cases h

/-- What a search is charged is what its reply reports, or the worst case; a NaN is charged nothing. -/
theorem floatOr_column (hfinite : ∀ q, svc.column (.finite q) = q) (hnan : svc.column .nan = 0) {v : Json}
    {key : String} {default : ℚ} {x : PyFloat} (h : floatOr svc v key default = .ok x) :
    (ReadsNan svc (fieldOf v key) ∧ svc.column x = 0) ∨
      ¬ ReadsNan svc (fieldOf v key) ∧ svc.column x = (reportedAmount svc (fieldOf v key)).getD default := by
  unfold ReadsNan reportedAmount
  rcases floatOr_ok h with hread | ⟨⟨e, hread⟩, rfl⟩
  · rw [hread]
    cases x with
    | nan => exact .inl ⟨rfl, hnan⟩
    | _ => exact .inr ⟨nofun, rfl⟩
  · rw [hread]
    exact .inr ⟨nofun, hfinite default⟩

theorem toFloat_int_zero (text : PyText) : toFloat text (.int 0) = .ok (.finite 0) := by
  simp [toFloat, floatOverflow_pos]

/-- A falsy value counts as zero. -/
theorem countOf_falsy {v : Json} (h : ¬ v.truthy) : countOf svc v = .finite 0 := by
  unfold countOf Json.orElse
  rw [if_neg h, toFloat_int_zero]

theorem countOf_truthy {v : Json} (h : v.truthy) :
    countOf svc v = match toFloat svc.text v with
      | .ok x => x
      | .error _ => .finite 0 := by
  unfold countOf Json.orElse
  rw [if_pos h]

/-- A falsy value that is no text reads as zero, or not at all. -/
theorem toFloat_falsy (hempty : svc.text.floatOf [] = none) {v : Json} (h : ¬ v.truthy) :
    toFloat svc.text v = .ok (.finite 0) ∨ ∃ e, toFloat svc.text v = .error e := by
  cases v with
  | null => exact .inr ⟨_, rfl⟩
  | bool b =>
    have hb : b = false := by simpa [Json.truthy] using h
    subst hb
    exact .inl rfl
  | int n =>
    have hn : n = 0 := by simpa [Json.truthy] using h
    subst hn
    exact .inl (toFloat_int_zero svc.text)
  | float x =>
    have hx : x = .finite 0 := by simpa [Json.truthy] using h
    subst hx
    exact .inl rfl
  | str s =>
    have hs : s = [] := by simpa [Json.truthy] using h
    subst hs
    exact .inr ⟨.valueError, by simp [toFloat, hempty]⟩
  | arr items => exact .inr ⟨_, rfl⟩
  | obj members => exact .inr ⟨_, rfl⟩

/-- A count that is reported is charged as reported, and one that is not is charged zero. -/
theorem countOf_column (hfinite : ∀ q, svc.column (.finite q) = q) (hnan : svc.column .nan = 0)
    (hempty : svc.text.floatOf [] = none) (v : Json) :
    svc.column (countOf svc v) = (reportedAmount svc v).getD 0 := by
  unfold reportedAmount
  by_cases htruthy : v.truthy
  · rw [countOf_truthy htruthy]
    cases toFloat svc.text v with
    | error e => exact hfinite 0
    | ok x =>
      cases x with
      | nan => exact hnan
      | _ => rfl
  · rw [countOf_falsy htruthy]
    rcases toFloat_falsy hempty htruthy with hread | ⟨e, hread⟩
    · rw [hread]
      rfl
    · rw [hread]
      exact hfinite 0

theorem usageFloat_ok {payload : List (PyStr × Json)} {key : String} {x : PyFloat}
    (h : usageFloat svc (usageOf payload) key = .ok x) : x = countOf svc (tokenCount payload key) := by
  have hfield : fieldOf (usageOf payload) key = tokenCount payload key := by
    rw [usageOf, fieldOf_orElse, fieldOf_default]
    rfl
  unfold usageFloat at h
  cases husage : usageOf payload with
  | obj members =>
    rw [husage, get_of_obj rfl, Fallible.ok_bind] at h
    have hcount : (memberD members (pyStr key) (.int 0)).orElse (.int 0) =
        (tokenCount payload key).orElse (.int 0) := by
      rw [← hfield, husage]
      change _ = (memberD members (pyStr key) .null).orElse (.int 0)
      unfold memberD
      cases member members (pyStr key) <;> rfl
    rw [hcount] at h
    unfold countOf
    rw [h]
  | _ =>
    rw [husage] at h
    cases h

/-- The actuals of a DeepSeek reply: its counts, and their price. -/
theorem deepseekActuals_ok {payload : List (PyStr × Json)} {actuals : Amounts}
    (h : deepseekActuals svc (usageOf payload) = .ok actuals) :
    actuals.entries = [("deepseek_requests", 1),
      ("deepseek_input_tokens", svc.column (countOf svc (tokenCount payload "prompt_tokens"))),
      ("deepseek_output_tokens", svc.column (countOf svc (tokenCount payload "completion_tokens"))),
      ("deepseek_usd", svc.column (tokenPrice svc payload)), ("remote_calls", 1)] := by
  obtain ⟨prompt, hprompt, h⟩ := except_bind_eq_ok.mp h
  obtain ⟨completion, hcompletion, h⟩ := except_bind_eq_ok.mp h
  obtain ⟨hit, hhit, h⟩ := except_bind_eq_ok.mp h
  cases h
  rw [usageFloat_ok hprompt, usageFloat_ok hcompletion, usageFloat_ok hhit]
  rfl

/-! ## What is billed in full -/

theorem fullyBilled_settledAt {p : Provider} {reply : Upstream} {amounts : Amounts} {charge : String → ℚ → ℚ} :
    FullyBilled svc p reply (settledAt amounts charge) ↔
      ∀ e ∈ amounts.entries, owed svc p reply e.1 e.2 ≤ max 0 (charge e.1 e.2) := by
  unfold FullyBilled settledAt
  rw [List.forall_mem_map]
  refine forall₂_congr fun e _ => ?_
  simp only [Option.mem_def, Option.some.injEq, exists_eq_left']

theorem fullyBilled_settle {p : Provider} {reply : Upstream} {amounts actuals : Amounts} :
    FullyBilled svc p reply (settledAt amounts (Mode.settle actuals).charge) ↔
      ∀ e ∈ amounts.entries, owed svc p reply e.1 e.2 ≤ max 0 (actuals.get e.1) := by
  rw [fullyBilled_settledAt]
  simp only [Mode.charge, max_eq_right (le_max_left (0 : ℚ) _)]

/-- Sent, then silence: every account is settled at its worst case. -/
theorem fullyBilled_worstCase (p : Provider) (error : String) (amounts : Amounts) :
    FullyBilled svc p (.error error) (settledAt amounts Mode.worstCase.charge) := by
  rw [fullyBilled_settledAt]
  intro e _
  exact le_max_right 0 e.2

/-- Of the accounts of a search only the cost can fall short. -/
theorem fullyBilled_search {p : Provider} {reply : Upstream} {amounts actuals : Amounts} {requests costly : String}
    {worstCase : ℚ} (hamounts : amounts.entries = [(requests, 1), (costly, worstCase), ("remote_calls", 1)])
    (hrequests : actuals.get requests = 1) (hremote : actuals.get "remote_calls" = 1)
    (hrequestsOwed : owed svc p reply requests 1 = 1) (hremoteOwed : owed svc p reply "remote_calls" 1 = 1) :
    FullyBilled svc p reply (settledAt amounts (Mode.settle actuals).charge) ↔
      owed svc p reply costly worstCase ≤ max 0 (actuals.get costly) := by
  have hone : owed svc p reply requests 1 ≤ max 0 (actuals.get requests) := by
    rw [hrequestsOwed, hrequests]
    exact le_max_right 0 1
  have hcalls : owed svc p reply "remote_calls" 1 ≤ max 0 (actuals.get "remote_calls") := by
    rw [hremoteOwed, hremote]
    exact le_max_right 0 1
  rw [fullyBilled_settle, hamounts]
  simp only [List.forall_mem_cons, List.not_mem_nil, false_imp_iff, implies_true, and_true, hone, hcalls, true_and]

theorem searchBills_late {payload : List (PyStr × Json)} (hlarge : TooLarge svc payload) (cost : Json) (worstCase : ℚ) :
    (reportedAmount svc cost).getD worstCase ≤ max 0 0 ↔ SearchBillsInFull svc payload cost worstCase := by
  rw [max_self]
  constructor
  · intro hle _
    exact hle
  · intro hfull
    exact hfull (.inl hlarge)

theorem searchBills_actual {payload : List (PyStr × Json)} (hfits : ¬ TooLarge svc payload) {cost : Json} {worstCase : ℚ}
    {x : PyFloat} (hx : (ReadsNan svc cost ∧ svc.column x = 0) ∨
      ¬ ReadsNan svc cost ∧ svc.column x = (reportedAmount svc cost).getD worstCase) :
    (reportedAmount svc cost).getD worstCase ≤ max 0 (svc.column x) ↔
      SearchBillsInFull svc payload cost worstCase := by
  unfold SearchBillsInFull
  rcases hx with ⟨hreads, hzero⟩ | ⟨hreads, hcolumn⟩
  · rw [hzero, max_self]
    constructor
    · intro hle _
      exact hle
    · intro hfull
      exact hfull (.inr hreads)
  · refine iff_of_true ?_ ?_
    · rw [hcolumn]
      exact le_max_right 0 _
    · rintro (hlarge | hnan)
      · exact absurd hlarge hfits
      · exact absurd hnan hreads

/-- A count that is left out is settled at zero. -/
theorem count_billed {v : Json} {x w : ℚ} (hx : x = (reportedAmount svc v).getD 0) :
    (reportedAmount svc v).getD w ≤ max 0 x ↔ (reportedAmount svc v = none → w ≤ 0) := by
  rw [hx]
  cases reportedAmount svc v with
  | none => simp
  | some q => simp

theorem deepseek_billed (hfinite : ∀ q, svc.column (.finite q) = q) (hnan : svc.column .nan = 0)
    (hempty : svc.text.floatOf [] = none) {r : UpstreamReply} {amounts actuals : Amounts}
    (hamounts : amounts.entries = [("deepseek_requests", 1),
      ("deepseek_input_tokens", svc.config.deepseekInputTokensWorstCase),
      ("deepseek_output_tokens", svc.config.deepseekOutputTokensWorstCase),
      ("deepseek_usd", svc.config.deepseekUsdWorstCase), ("remote_calls", 1)])
    (hactuals : deepseekActuals svc (usageOf r.payload) = .ok actuals) :
    FullyBilled svc .deepseek (.ok r) (settledAt amounts (Mode.settle actuals).charge) ↔
      Provider.BillsInFull svc .deepseek (.ok r) := by
  have hget : ∀ resource, actuals.get resource = _ := fun resource =>
    congrArg (fun entries : List (String × ℚ) => (entries.lookup resource).getD 0) (deepseekActuals_ok hactuals)
  have hone : (1 : ℚ) ≤ max 0 1 := le_max_right 0 1
  have hprompt := count_billed (w := svc.config.deepseekInputTokensWorstCase)
    (countOf_column hfinite hnan hempty (tokenCount r.payload "prompt_tokens"))
  have hcompletion := count_billed (w := svc.config.deepseekOutputTokensWorstCase)
    (countOf_column hfinite hnan hempty (tokenCount r.payload "completion_tokens"))
  have husd : (if Priced svc r.payload then some (svc.column (tokenPrice svc r.payload)) else none).getD
      svc.config.deepseekUsdWorstCase ≤ max 0 (svc.column (tokenPrice svc r.payload)) ↔
      (¬ Priced svc r.payload →
        svc.config.deepseekUsdWorstCase ≤ max 0 (svc.column (tokenPrice svc r.payload))) := by
    by_cases hpriced : Priced svc r.payload
    · simp [hpriced]
    · simp [hpriced]
  rw [fullyBilled_settle, hamounts]
  simp only [List.forall_mem_cons, List.not_mem_nil, false_imp_iff, implies_true, and_true, hget]
  exact ⟨fun ⟨_, h₁, h₂, h₃, _⟩ => ⟨hprompt.mp h₁, hcompletion.mp h₂, husd.mp h₃⟩,
    fun ⟨h₁, h₂, h₃⟩ => ⟨hone, hprompt.mpr h₁, hcompletion.mpr h₂, husd.mpr h₃, hone⟩⟩

end

/-! ## Each route -/

/-- The bill is in full if the reply is one that is billed in full, and not otherwise. -/
def BilledAsSaid (svc : ProviderService) (p : Provider) (reply : Upstream) (bill : List (String × ℚ × Option ℚ)) :
    Prop :=
  FullyBilled svc p reply bill ↔ p.BillsInFull svc reply

section
variable {svc : ProviderService} {t : ServiceState} {h : AttemptHandle} {group : ReservationGroup}
  {amounts : Amounts}

theorem exaAnswered_billed (hids : svc.budget.ids.Separated) (hfinite : ∀ q, svc.column (.finite q) = q)
    (hnan : svc.column .nan = 0) (ht : OnItsWay svc t h group .sent)
    (hheld : Holds t.ledger.store h.attemptId amounts)
    (hamounts : amounts.entries = [("exa_requests", 1), ("exa_usd", svc.config.exaUsdWorstCase), ("remote_calls", 1)])
    (clock : ℕ → ℚ) (callId : String) {r : UpstreamReply} (hstatus : r.status = 200) :
    Bills (BilledAsSaid svc .exa (.ok r)) h ((exaAnswered svc clock callId h group r).after t) := by
  have hcost : fieldOf ((memberD r.payload (pyStr "costDollars") (.obj [])).orElse (.obj [])) "total" =
      exaCost r.payload := (fieldOf_orElse _ _).trans (fieldOf_default _ _ _)
  unfold exaAnswered
  rw [if_neg (not_not.mpr hstatus), after_bind_of_ok (x := noteSuccess .exa) rfl]
  refine (ht.noted_success .exa).read_billed fun cost hread => ?_
  have hcolumn := floatOr_column hfinite hnan hread
  rw [hcost] at hcolumn
  refine (ht.noted_success .exa).frozen_billed hids hheld clock .exa callId _ _ r.payload _ (fun hlarge => ?_)
    fun hfits => ?_
  · exact (fullyBilled_search hamounts rfl rfl rfl rfl).trans (searchBills_late hlarge _ _)
  · exact (fullyBilled_search hamounts rfl rfl rfl rfl).trans (searchBills_actual hfits hcolumn)

theorem tavilyAnswered_billed (hids : svc.budget.ids.Separated) (hfinite : ∀ q, svc.column (.finite q) = q)
    (hnan : svc.column .nan = 0) (ht : OnItsWay svc t h group .sent)
    (hheld : Holds t.ledger.store h.attemptId amounts)
    (hamounts : amounts.entries = [("tavily_requests", 1), ("tavily_credits", svc.config.tavilyCreditsWorstCase),
      ("remote_calls", 1)])
    (clock : ℕ → ℚ) (callId : String) {r : UpstreamReply} (hstatus : r.status = 200) :
    Bills (BilledAsSaid svc .tavily (.ok r)) h ((tavilyAnswered svc clock callId h group r).after t) := by
  have hcredits : fieldOf (memberD r.payload (pyStr "usage") (.obj [])) "credits" = tavilyCredits r.payload :=
    fieldOf_default _ _ _
  unfold tavilyAnswered
  rw [if_neg (not_not.mpr hstatus), after_bind_of_ok (x := noteSuccess .tavily) rfl]
  refine (ht.noted_success .tavily).read_billed fun credits hread => ?_
  have hcolumn := floatOr_column hfinite hnan hread
  rw [hcredits] at hcolumn
  refine (ht.noted_success .tavily).frozen_billed hids hheld clock .tavily callId _ _ r.payload _ (fun hlarge => ?_)
    fun hfits => ?_
  · exact (fullyBilled_search hamounts rfl rfl rfl rfl).trans (searchBills_late hlarge _ _)
  · exact (fullyBilled_search hamounts rfl rfl rfl rfl).trans (searchBills_actual hfits hcolumn)

theorem deepseekAnswered_billed (hids : svc.budget.ids.Separated) (hfinite : ∀ q, svc.column (.finite q) = q)
    (hnan : svc.column .nan = 0) (hempty : svc.text.floatOf [] = none) (ht : OnItsWay svc t h group .sent)
    (hheld : Holds t.ledger.store h.attemptId amounts)
    (hamounts : amounts.entries = [("deepseek_requests", 1),
      ("deepseek_input_tokens", svc.config.deepseekInputTokensWorstCase),
      ("deepseek_output_tokens", svc.config.deepseekOutputTokensWorstCase),
      ("deepseek_usd", svc.config.deepseekUsdWorstCase), ("remote_calls", 1)])
    (clock : ℕ → ℚ) (requestedModel : PyStr) (callId : String) {r : UpstreamReply} (hstatus : r.status = 200) :
    Bills (BilledAsSaid svc .deepseek (.ok r)) h
      ((deepseekAnswered svc clock requestedModel callId h group r).after t) := by
  unfold deepseekAnswered
  refine ht.read_billed fun actuals hread => ?_
  have hbilled := deepseek_billed hfinite hnan hempty hamounts hread
  rw [if_neg (not_not.mpr hstatus), after_bind_of_ok (x := noteSuccess .deepseek) rfl]
  exact (ht.noted_success .deepseek).frozen_billed hids hheld clock .deepseek callId actuals actuals r.payload _
    (fun _ => hbilled) fun _ => hbilled

/-! ## The routes from start to end -/

/-- Whatever the request dispatched has, if it is settled, a bill as `P` says. -/
def EndsBilled (P : List (String × ℚ × Option ℚ) → Prop) (t : ServiceState) : Prop :=
  ∀ h ∈ t.dispatched, Settled t.ledger.store h → P (billOf t.ledger.store h.attemptId)

theorem EndsBilled.of_idle {P : List (String × ℚ × Option ℚ) → Prop} (ht : t.dispatched = []) : EndsBilled P t := by
  intro h hh
  rw [ht] at hh
  cases hh

theorem Bills.ends {P : List (String × ℚ × Option ℚ) → Prop} (ht : Bills P h t) : EndsBilled P t := by
  intro q hq
  rw [ht.1, List.mem_singleton] at hq
  rw [hq]
  exact ht.2

/-- A route to an outside provider bills as the reading of its reply does. -/
theorem sold_billed (hids : svc.budget.ids.Separated) (ht : Ready svc t) (clock : ℕ → ℚ) (p : Provider)
    (missing : String) {offer : Except ProviderError Purchase} (reply : Upstream)
    (hanswered : ∀ purchase, offer = .ok purchase → ∀ r, reply = .ok r → ∀ callId h g u,
      OnItsWay svc u h g .sent → Holds u.ledger.store h.attemptId purchase.amounts →
      Bills (BilledAsSaid svc p reply) h ((purchase.answered callId h g r).after u)) :
    EndsBilled (BilledAsSaid svc p reply) ((sold svc clock p missing offer reply).after t) := by
  unfold sold
  split
  · exact .of_idle ht.idle
  · refine after_bind ?_ ?_
    · intro e u hrun
      rw [← after_of_error hrun, pure_requireClosed p t]
      exact .of_idle ht.idle
    · intro _ u hrun
      obtain rfl : u = t := (after_of_ok hrun).symm.trans (pure_requireClosed p t)
      cases hoffer : offer with
      | error e => exact .of_idle ht.idle
      | ok purchase =>
        dsimp only
        rcases buy_holds hids ht clock purchase reply with hidle | ⟨_, _, h, g, v, -, -, -, hv, -, hheld, hbuy⟩
        · exact .of_idle hidle
        · unfold after
          rw [hbuy]
          cases hreply : reply with
          | error error =>
            subst hreply
            exact (hv.lost_billed hids hheld (clock 4) purchase.provider.name error
              (iff_of_true (fullyBilled_worstCase p error _) trivial)).ends
          | ok r =>
            subst hreply
            exact (hanswered purchase hoffer r rfl h.callId h g v hv hheld).ends

/-- What a request to each provider reserves. -/
theorem exaOffer_amounts {clock : ℕ → ℚ} {body : List (PyStr × Json)} {purchase : Purchase}
    (hoffer : exaOffer svc clock body = .ok purchase) : purchase.amounts.entries =
      [("exa_requests", 1), ("exa_usd", svc.config.exaUsdWorstCase), ("remote_calls", 1)] := by
  obtain ⟨_, -, hrest⟩ := except_bind_eq_ok.mp hoffer
  split at hrest
  · cases hrest
  · cases hrest
    rfl

theorem tavilyOffer_amounts {clock : ℕ → ℚ} {body : List (PyStr × Json)} {purchase : Purchase}
    (hoffer : tavilyOffer svc clock body = .ok purchase) : purchase.amounts.entries =
      [("tavily_requests", 1), ("tavily_credits", svc.config.tavilyCreditsWorstCase), ("remote_calls", 1)] := by
  obtain ⟨_, -, hrest⟩ := except_bind_eq_ok.mp hoffer
  obtain ⟨_, -, hrest⟩ := except_bind_eq_ok.mp hrest
  split at hrest
  · cases hrest
  · cases hrest
    rfl

theorem deepseekOffer_amounts {clock : ℕ → ℚ} {body : List (PyStr × Json)} {purchase : Purchase}
    (hoffer : deepseekOffer svc clock body = .ok purchase) : purchase.amounts.entries =
      [("deepseek_requests", 1), ("deepseek_input_tokens", svc.config.deepseekInputTokensWorstCase),
        ("deepseek_output_tokens", svc.config.deepseekOutputTokensWorstCase),
        ("deepseek_usd", svc.config.deepseekUsdWorstCase), ("remote_calls", 1)] := by
  obtain ⟨_, -, hrest⟩ := except_bind_eq_ok.mp hoffer
  obtain ⟨_, -, hrest⟩ := except_bind_eq_ok.mp hrest
  dsimp only at hrest
  split at hrest
  · cases hrest
  · split at hrest
    · cases hrest
    · cases hrest
      rfl

theorem serve_billed (hids : svc.budget.ids.Separated) (hfinite : ∀ q, svc.column (.finite q) = q)
    (hnan : svc.column .nan = 0) (hempty : svc.text.floatOf [] = none) (ht : Ready svc t) (clock : ℕ → ℚ)
    (body : List (PyStr × Json)) (reply : Upstream) (hstatus : ∀ r, reply = .ok r → r.status = 200) (p : Provider) :
    EndsBilled (BilledAsSaid svc p reply) ((p.serve svc clock body reply).after t) := by
  cases p with
  | exa =>
    refine sold_billed hids ht clock .exa _ reply ?_
    rintro purchase hoffer r rfl callId h g u hu hheld
    rw [exaOffer_answered hoffer]
    exact exaAnswered_billed hids hfinite hnan hu hheld (exaOffer_amounts hoffer) clock callId (hstatus r rfl)
  | tavily =>
    refine sold_billed hids ht clock .tavily _ reply ?_
    rintro purchase hoffer r rfl callId h g u hu hheld
    rw [tavilyOffer_answered hoffer]
    exact tavilyAnswered_billed hids hfinite hnan hu hheld (tavilyOffer_amounts hoffer) clock callId (hstatus r rfl)
  | deepseek =>
    refine sold_billed hids ht clock .deepseek _ reply ?_
    rintro purchase hoffer r rfl callId h g u hu hheld
    rw [deepseekOffer_answered hoffer]
    exact deepseekAnswered_billed hids hfinite hnan hempty hu hheld (deepseekOffer_amounts hoffer) clock _ callId
      (hstatus r rfl)

end

/-- A search that used one credit. -/
def oneCredit : Upstream := .ok ⟨200, [(pyStr "usage", .obj [(pyStr "credits", .int 1)])], 1⟩

/-- The service with a freeze ceiling of ten bytes. -/
def smallCeiling : ProviderService :=
  { sampleService with config := { modelAliases := [], maxFrozenResponseBytes := 10 } }

instance (svc : ProviderService) (p : Provider) (reply : Upstream) (bill : List (String × ℚ × Option ℚ)) :
    Decidable (FullyBilled svc p reply bill) :=
  inferInstanceAs (Decidable (∀ e ∈ bill, ∃ settled ∈ e.2.2, owed svc p reply e.1 e.2.1 ≤ settled))

end Shapeflow.ProviderServer
