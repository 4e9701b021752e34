import Mathlib.Logic.Function.Iterate
import Shapeflow.BrokerDispatch

set_option autoImplicit false

/-!
# Whole ticks over the simulated host

An attempt against the simulated host read off its inputs, and from it what a
whole tick leaves: how often the broker was asked and what became of each offer.
-/
namespace Shapeflow.Broker
open Script

namespace SimulatedHost

/-- The host after one snapshot. -/
def ticked (h : SimulatedHost) : SimulatedHost := { h with tick := h.tick + 1, nowNs := h.nowNs + 1000 }

/-- The snapshot the host takes when its features are registered ones. -/
def shown (h : SimulatedHost) (features : ClosedFeatureMap) : SchedulerSnapshot :=
  ⟨⟨h.epoch, h.tick + 1⟩, h.nowNs + 1000, features⟩

theorem takeSnapshot_run {h : SimulatedHost} {features : ClosedFeatureMap}
    (hf : features.values = h.features) :
    takeSnapshot h = (.ok (h.shown features), h.ticked) := by
  have hclosed : ClosedFeatureMap.ofValues h.features = .ok features := by
    unfold ClosedFeatureMap.ofValues
    rw [← hf, dif_pos features.closed]
  have hrun : takeSnapshot h = (check (ClosedFeatureMap.ofValues h.features) >>= fun fs =>
      pure ⟨⟨h.epoch, h.tick + 1⟩, h.nowNs + 1000, fs⟩ : Script SimulatedHost _ _) h.ticked := rfl
  rw [hrun, hclosed]
  rfl

theorem takeSnapshot_unobservable {h : SimulatedHost}
    (hf : ∀ features : ClosedFeatureMap, features.values ≠ h.features) :
    ∃ e, takeSnapshot h = (.error e, h.ticked) := by
  have hopen : ¬ ∀ name ∈ h.features.keys, name ∈ OBSERVABLE := fun hall => hf ⟨h.features, hall⟩ rfl
  have hrun : takeSnapshot h = (check (ClosedFeatureMap.ofValues h.features) >>= fun fs =>
      pure ⟨⟨h.epoch, h.tick + 1⟩, h.nowNs + 1000, fs⟩ : Script SimulatedHost _ _) h.ticked := rfl
  refine ⟨.unobservableFeature (sortedNames (h.features.keys.filter (· ∉ OBSERVABLE))), ?_⟩
  rw [hrun]
  unfold ClosedFeatureMap.ofValues
  rw [dif_neg hopen]
  rfl

end SimulatedHost

/-- The state after an attempt that committed nothing. -/
def Tick.asked (t : Tick SimulatedHost) : Tick SimulatedHost :=
  { t with host := t.host.ticked, decideCalls := t.decideCalls + 1, clockReads := t.clockReads + 2 }

namespace Driver

/-- The driver's broker, bounds and clock, over the simulated host. -/
def overSimulated (d : Driver SimulatedHost) : Driver SimulatedHost := { d with host := simulated }

section Inputs
variable (d : Driver SimulatedHost) (features : ClosedFeatureMap) (t : Tick SimulatedHost)

/-- What the broker answers to the next call. -/
def answer : Decision := d.broker t.decideCalls t.host.offers (t.host.shown features) d.budgetNs

/-- The clock says that the next answer comes after the budget. -/
def Late : Prop := d.budgetNs < d.clockNs (t.clockReads + 1) - d.clockNs t.clockReads

instance : Decidable (d.Late t) := Int.decLt _ _

/-- The next tick is scripted to be stale. -/
def StaleNext : Prop := t.host.tick + 1 ∈ t.host.staleAtTicks

instance : Decidable (StaleNext t) := inferInstanceAs (Decidable (_ ∈ _))

/-- The next attempt has a decision to commit. -/
def Answered : Prop :=
  d.Late t ∨ assertDecisionIsAnswerable (d.answer features t) t.host.offers = .ok ()

/-- The decision of the next attempt sends every admitted item once. -/
def LandsOnce : Prop :=
  (d.Late t → (t.host.offers.map (·.itemId)).Nodup) ∧
  (¬ d.Late t → SingleSend t.host.offers (d.answer features t))

/-- Of the attempts a loop with `left` retries makes, the one whose snapshot is not stale lands
    a decision that sends each item once; when there is none, the degradation does. -/
def Fair (left : ℕ) : Prop :=
  ∀ i ≤ left, (∀ j < i, StaleNext (Tick.asked^[j] t) ∧ d.Answered features (Tick.asked^[j] t)) →
    d.Answered features (Tick.asked^[i] t) →
      (¬ StaleNext (Tick.asked^[i] t) → d.LandsOnce features (Tick.asked^[i] t)) ∧
      (i = left → StaleNext (Tick.asked^[i] t) → ¬ StaleNext (Tick.asked^[i + 1] t) →
        (t.host.offers.map (·.itemId)).Nodup)

end Inputs

variable {d : Driver SimulatedHost} {features : ClosedFeatureMap} {t u : Tick SimulatedHost}

theorem asked_offers (n : ℕ) (t : Tick SimulatedHost) : (Tick.asked^[n] t).host.offers = t.host.offers := by
  induction n generalizing t with
  | zero => rfl
  | succ n ih => exact ih t.asked

theorem fair_zero : d.Fair features t 0 ↔ (d.Answered features t →
    (¬ StaleNext t → d.LandsOnce features t) ∧
    (StaleNext t → ¬ StaleNext t.asked → (t.host.offers.map (·.itemId)).Nodup)) := by
  constructor
  · intro h hanswered
    have h0 := h 0 (Nat.le_refl 0) (fun j hj => absurd hj (Nat.not_lt_zero j)) hanswered
    exact ⟨h0.1, h0.2 rfl⟩
  · intro h i hi _ hanswered
    have hzero : i = 0 := by omega
    subst hzero
    exact ⟨(h hanswered).1, fun _ => (h hanswered).2⟩

theorem fair_succ {left : ℕ} : d.Fair features t (left + 1) ↔ (d.Answered features t →
    (¬ StaleNext t → d.LandsOnce features t) ∧ (StaleNext t → d.Fair features t.asked left)) := by
  constructor
  · intro h hanswered
    have h0 := h 0 (Nat.zero_le _) (fun j hj => absurd hj (Nat.not_lt_zero j)) hanswered
    refine ⟨h0.1, fun hstale i hi hbefore hnext => ?_⟩
    have hlater := h (i + 1) (by omega) (by
      intro j hj
      cases j with
      | zero => exact ⟨hstale, hanswered⟩
      | succ j => exact hbefore j (by omega)) hnext
    exact ⟨hlater.1, fun heq => hlater.2 (by omega)⟩
  · intro h i hi hbefore hnext
    cases i with
    | zero => exact ⟨(h hnext).1, fun heq => by omega⟩
    | succ i =>
      have hfirst := hbefore 0 (by omega)
      have hlater := (h hfirst.2).2 hfirst.1 i (by omega) (fun j hj => hbefore (j + 1) (by omega)) hnext
      exact ⟨hlater.1, fun heq => hlater.2 (by omega)⟩

theorem singleSend_p0Only {offers : List Offer} {snapshot : SchedulerSnapshot} {reason : String} :
    SingleSend offers (p0Only offers snapshot reason) ↔ (offers.map (·.itemId)).Nodup := by
  constructor
  · intro h
    exact h.1
  · intro h
    refine ⟨h, fun o ho o' ho' hid f _ => ?_⟩
    rw [List.inj_on_of_nodup_map h ho ho' hid]

theorem settled_unchanged {before after : SimulatedHost} (hoffers : after.offers = before.offers)
    (hdispatches : after.dispatches = before.dispatches) : Settled before after := by
  refine ⟨[], by rw [hdispatches, List.append_nil], ?_⟩
  intro o ho
  left
  exact ⟨hoffers ▸ ho, rfl⟩

theorem choose_run (hf : features.values = t.host.features) :
    (d.Late t → ∃ reason, d.overSimulated.choose t.host.offers t =
      (.ok ⟨t.host.offers, t.host.shown features,
        p0Only t.host.offers (t.host.shown features) reason, true⟩, t.asked)) ∧
    (¬ d.Late t → d.overSimulated.choose t.host.offers t =
      (check (assertDecisionIsAnswerable (d.answer features t) t.host.offers) >>= fun _ =>
        pure ⟨t.host.offers, t.host.shown features, d.answer features t, false⟩ :
        Script (Tick SimulatedHost) _ _) t.asked) := by
  have hsnapshot : onHost d.overSimulated.host.takeSnapshot t =
      (.ok (t.host.shown features), { t with host := t.host.ticked }) := by
    have hrun := SimulatedHost.takeSnapshot_run hf
    change ((SimulatedHost.takeSnapshot t.host).1, { t with host := (SimulatedHost.takeSnapshot t.host).2 }) = _
    rw [hrun]
  constructor
  · intro hlate
    let solveNs := d.clockNs (t.clockReads + 1) - d.clockNs t.clockReads
    refine ⟨s!"solver overran budget: {solveNs}ns > {d.budgetNs}ns; decision discarded", ?_⟩
    unfold choose
    rw [bind_of_ok hsnapshot]
    simp only [readClock, decide, bind_run]
    exact congrFun (if_pos hlate) _
  · intro hlate
    unfold choose
    rw [bind_of_ok hsnapshot]
    simp only [readClock, decide, bind_run]
    exact congrFun (if_neg hlate) _

theorem materialize_stale (decision : Decision) (snapshot : SchedulerSnapshot)
    (hstale : snapshot.version.tick ∈ t.host.staleAtTicks) :
    unlessStale (d.overSimulated.materialize decision snapshot) t = (.ok none, t) := by
  have hhost : onHost (d.overSimulated.host.materialize decision snapshot) t =
      (.error (.staleSnapshot snapshot.version), t) := by
    have hrun := SimulatedHost.materialize_stale decision hstale
    change ((SimulatedHost.materialize decision snapshot t.host).1,
      { t with host := (SimulatedHost.materialize decision snapshot t.host).2 }) = _
    rw [hrun]
  unfold unlessStale materialize
  rw [bind_of_error hhost]

theorem materialize_lands (decision : Decision) (snapshot : SchedulerSnapshot)
    (hfresh : snapshot.version.tick ∉ t.host.staleAtTicks)
    (hd : Dispatchable t.host.offers decision) :
    ∃ r u, unlessStale (d.overSimulated.materialize decision snapshot) t = (.ok (some r), u) ∧
      u.host = t.host.carriedOut decision ∧ u.decideCalls = t.decideCalls := by
  obtain ⟨r, hr⟩ := SimulatedHost.materialize_run hfresh hd
  have hhost : onHost (d.overSimulated.host.materialize decision snapshot) t =
      (.ok r, { t with host := t.host.carriedOut decision }) := by
    change ((SimulatedHost.materialize decision snapshot t.host).1,
      { t with host := (SimulatedHost.materialize decision snapshot t.host).2 }) = _
    rw [hr]
  refine ⟨r, { t with host := t.host.carriedOut decision,
                      accepted := t.accepted ++ [(decision, snapshot)] }, ?_, rfl, rfl⟩
  unfold unlessStale materialize
  rw [bind_of_ok hhost]
  rfl

/-- How an attempt over the simulated host ends, read off its inputs. -/
inductive Ends (d : Driver SimulatedHost) (features : ClosedFeatureMap) (t : Tick SimulatedHost) :
    Except BrokerError Attempt × Tick SimulatedHost → Prop
  | refused (e : BrokerError) : ¬ d.Answered features t → Ends d features t (.error e, t.asked)
  | stale (c : Choice) : c.offers = t.host.offers → c.snapshot = t.host.shown features →
      d.Answered features t → StaleNext t → Ends d features t (.ok (.stale c), t.asked)
  | landed (c : Choice) (r : MaterializeResult) (u : Tick SimulatedHost) :
      d.Answered features t → ¬ StaleNext t → Dispatchable t.host.offers c.decision →
      (SingleSend t.host.offers c.decision ↔ d.LandsOnce features t) →
      u.host = t.asked.host.carriedOut c.decision → u.decideCalls = t.decideCalls + 1 →
      Ends d features t (.ok (.landed c r), u)

theorem attempt_of_stale {c : Choice} (hoffers : t.host.offers ≠ [])
    (hc : d.overSimulated.choose t.host.offers t = (.ok c, t.asked))
    (hnone : unlessStale (d.overSimulated.materialize c.decision c.snapshot) t.asked = (.ok none, t.asked)) :
    d.overSimulated.attempt t = (.ok (.stale c), t.asked) := by
  have hpending : onHost d.overSimulated.host.pending t = (.ok t.host.offers, t) := rfl
  unfold attempt
  rw [bind_of_ok hpending, if_neg hoffers, bind_of_ok hc, bind_of_ok hnone]
  rfl

theorem attempt_of_landed {c : Choice} {r : MaterializeResult} (hoffers : t.host.offers ≠ [])
    (hc : d.overSimulated.choose t.host.offers t = (.ok c, t.asked))
    (hr : unlessStale (d.overSimulated.materialize c.decision c.snapshot) t.asked = (.ok (some r), u)) :
    d.overSimulated.attempt t = (.ok (.landed c r), u) := by
  have hpending : onHost d.overSimulated.host.pending t = (.ok t.host.offers, t) := rfl
  unfold attempt
  rw [bind_of_ok hpending, if_neg hoffers, bind_of_ok hc, bind_of_ok hr]
  rfl

theorem attempt_ends (hf : features.values = t.host.features) (hoffers : t.host.offers ≠ []) :
    d.Ends features t (d.overSimulated.attempt t) := by
  -- what was chosen, against the snapshot just taken, with the offers still pending
  have hsettle : ∀ c : Choice, d.overSimulated.choose t.host.offers t = (.ok c, t.asked) →
      c.offers = t.host.offers → c.snapshot = t.host.shown features → d.Answered features t →
      Dispatchable t.host.offers c.decision →
      (SingleSend t.host.offers c.decision ↔ d.LandsOnce features t) →
      d.Ends features t (d.overSimulated.attempt t) := by
    intro c hc hcoffers hsnapshot hanswered hdispatchable hsingle
    by_cases hstale : StaleNext t
    · have hnone := materialize_stale (d := d) (t := t.asked) c.decision c.snapshot
        (hsnapshot ▸ hstale)
      rw [attempt_of_stale hoffers hc hnone]
      exact .stale c hcoffers hsnapshot hanswered hstale
    · obtain ⟨r, u, hr, hhost, hcalls⟩ := materialize_lands (d := d) (t := t.asked) c.decision c.snapshot
        (hsnapshot ▸ hstale) hdispatchable
      rw [attempt_of_landed hoffers hc hr]
      exact .landed c r u hanswered hstale hdispatchable hsingle hhost hcalls
  by_cases hlate : d.Late t
  · obtain ⟨reason, hc⟩ := (choose_run hf).1 hlate
    apply hsettle _ hc rfl rfl (.inl hlate) (.p0Only _ _ _)
    rw [singleSend_p0Only]
    exact ⟨fun h => ⟨fun _ => h, fun hno => absurd hlate hno⟩, fun h => h.1 hlate⟩
  · have hc := (choose_run (d := d) hf).2 hlate
    cases hanswer : assertDecisionIsAnswerable (d.answer features t) t.host.offers with
    | error e =>
      rw [hanswer] at hc
      have hpending : onHost d.overSimulated.host.pending t = (.ok t.host.offers, t) := rfl
      have hrun : d.overSimulated.attempt t = (.error e, t.asked) := by
        unfold attempt
        rw [bind_of_ok hpending, if_neg hoffers, bind_of_error hc]
      rw [hrun]
      apply Ends.refused
      rintro (h | h)
      · exact hlate h
      · rw [hanswer] at h
        simp at h
    | ok a =>
      rw [hanswer] at hc
      apply hsettle _ hc rfl rfl (.inr hanswer) (.of_answerable hanswer)
      exact ⟨fun h => ⟨fun hyes => absurd hyes hlate, fun _ => h⟩, fun h => h.2 hlate⟩

/-- The state a degradation leaves: everything sent as P0, or nothing. -/
theorem degrade_after {c : Choice} (attempts staleRetries : ℕ) (hf : features.values = t.host.features)
    (hoffers : c.offers = t.host.offers) :
    ((d.overSimulated.degrade c attempts staleRetries).after t).decideCalls = t.decideCalls ∧
    (Settled t.host ((d.overSimulated.degrade c attempts staleRetries).after t).host ↔
      (¬ StaleNext t → (t.host.offers.map (·.itemId)).Nodup)) := by
  let taken : Tick SimulatedHost := { t with host := t.host.ticked }
  let fail := p0Only c.offers c.snapshot
    s!"snapshot went stale {staleRetries} times; degrading to P0-only"
  have hsnapshot : onHost d.overSimulated.host.takeSnapshot t = (.ok (t.host.shown features), taken) := by
    have hrun := SimulatedHost.takeSnapshot_run hf
    change ((SimulatedHost.takeSnapshot t.host).1, { t with host := (SimulatedHost.takeSnapshot t.host).2 }) = _
    rw [hrun]
  have hboth : unlessStale (onHost d.overSimulated.host.takeSnapshot >>= d.overSimulated.materialize fail) t =
      unlessStale (d.overSimulated.materialize fail (t.host.shown features)) taken := by
    unfold unlessStale
    rw [bind_of_ok hsnapshot]
  by_cases hstale : StaleNext t
  · have hnone := materialize_stale (d := d) (t := taken) fail (t.host.shown features) hstale
    have hafter : (d.overSimulated.degrade c attempts staleRetries).after t = taken := by
      unfold degrade
      rw [after_bind_of_ok (hboth.trans hnone)]
      rfl
    rw [hafter]
    exact ⟨rfl, fun _ h => absurd hstale h, fun _ => settled_unchanged rfl rfl⟩
  · have hd : Dispatchable taken.host.offers fail := hoffers ▸ .p0Only _ _ _
    obtain ⟨r, u, hr, hhost, hcalls⟩ := materialize_lands (d := d) (t := taken) fail
      (t.host.shown features) hstale hd
    have hafter : (d.overSimulated.degrade c attempts staleRetries).after t = u := by
      unfold degrade
      rw [after_bind_of_ok (hboth.trans hr)]
      rfl
    rw [hafter]
    refine ⟨hcalls, ?_⟩
    rw [hhost]
    have hsettled := settled_carriedOut (h := taken.host) hd
    have hsingle : SingleSend taken.host.offers fail ↔ (t.host.offers.map (·.itemId)).Nodup := by
      change SingleSend t.host.offers fail ↔ _
      rw [← hoffers]
      exact singleSend_p0Only
    constructor
    · intro h _
      exact hsingle.mp (hsettled.mp h)
    · intro h
      exact hsettled.mpr (hsingle.mpr (h hstale))

/-- The loop over the simulated host: at most one call for each retry and one more, and every
    offer settled exactly when what lands sends each item once. -/
theorem loop_after {left attempts staleRetries : ℕ} (hf : features.values = t.host.features)
    (hoffers : t.host.offers ≠ []) :
    t.decideCalls < ((d.overSimulated.loop left attempts staleRetries).after t).decideCalls ∧
    ((d.overSimulated.loop left attempts staleRetries).after t).decideCalls ≤
      t.decideCalls + left + 1 ∧
    (Settled t.host ((d.overSimulated.loop left attempts staleRetries).after t).host ↔
      d.Fair features t left) := by
  induction left generalizing attempts staleRetries t with
  | zero =>
    rw [fair_zero]
    have hends := attempt_ends (d := d) hf hoffers
    generalize hrun : d.overSimulated.attempt t = result at hends
    cases hends with
    | refused e hno =>
      rw [loop_of_error hrun]
      exact ⟨Nat.lt_succ_self _, Nat.le_refl _, fun _ h => absurd h hno,
        fun _ => settled_unchanged rfl rfl⟩
    | stale c hc hsnapshot hanswered hstale =>
      have hafter : (d.overSimulated.loop 0 attempts staleRetries).after t =
          (d.overSimulated.degrade c (attempts + 1) (staleRetries + 1)).after t.asked := by
        unfold after
        rw [loop_of_stale hrun]
        rfl
      have hdegrade := degrade_after (d := d) (c := c) (t := t.asked) (attempts + 1) (staleRetries + 1) hf hc
      rw [hafter, hdegrade.1]
      refine ⟨Nat.lt_succ_self _, Nat.le_refl _, ?_⟩
      constructor
      · intro h _
        exact ⟨fun hno => absurd hstale hno, fun _ => hdegrade.2.mp h⟩
      · intro h
        exact hdegrade.2.mpr ((h hanswered).2 hstale)
    | landed c r u hanswered hfresh hd hsingle hhost hcalls =>
      rw [loop_of_landed hrun, hcalls, hhost]
      refine ⟨Nat.lt_succ_self _, Nat.le_refl _, ?_⟩
      have hsettled := settled_carriedOut (h := t.asked.host) hd
      constructor
      · intro h _
        exact ⟨fun _ => hsingle.mp (hsettled.mp h), fun hstale => absurd hstale hfresh⟩
      · intro h
        exact hsettled.mpr (hsingle.mpr ((h hanswered).1 hfresh))
  | succ left ih =>
    rw [fair_succ]
    have hends := attempt_ends (d := d) hf hoffers
    generalize hrun : d.overSimulated.attempt t = result at hends
    cases hends with
    | refused e hno =>
      rw [loop_of_error hrun]
      refine ⟨Nat.lt_succ_self _, ?_, fun _ h => absurd h hno, fun _ => settled_unchanged rfl rfl⟩
      change t.decideCalls + 1 ≤ _
      omega
    | stale c hc hsnapshot hanswered hstale =>
      have hafter : (d.overSimulated.loop (left + 1) attempts staleRetries).after t =
          (d.overSimulated.loop left (attempts + 1) (staleRetries + 1)).after t.asked := by
        unfold after
        rw [loop_of_stale hrun]
        rfl
      have hrest := @ih t.asked (attempts + 1) (staleRetries + 1) hf hoffers
      rw [hafter]
      have hcalls : t.asked.decideCalls = t.decideCalls + 1 := rfl
      refine ⟨by omega, by omega, ?_⟩
      constructor
      · intro h _
        exact ⟨fun hno => absurd hstale hno, fun _ => hrest.2.2.mp h⟩
      · intro h
        exact hrest.2.2.mpr ((h hanswered).2 hstale)
    | landed c r u hanswered hfresh hd hsingle hhost hcalls =>
      rw [loop_of_landed hrun, hcalls, hhost]
      refine ⟨Nat.lt_succ_self _, by omega, ?_⟩
      have hsettled := settled_carriedOut (h := t.asked.host) hd
      constructor
      · intro h _
        exact ⟨fun _ => hsingle.mp (hsettled.mp h), fun hstale => absurd hstale hfresh⟩
      · intro h
        exact hsettled.mpr (hsingle.mpr ((h hanswered).1 hfresh))

/-- A tick asks the broker at most once more than it may retry, and settles every offer. -/
def DispatchSafe (d : Driver SimulatedHost) (before after : Tick SimulatedHost) : Prop :=
  (after.decideCalls : ℤ) ≤ before.decideCalls + (d.maxRetries + 1) ∧ Settled before.host after.host

/-- The inputs on which a tick is safe: a bound on the retries that allows the calls the tick
    makes, and a decision landing that sends each item once. -/
structure Sound (d : Driver SimulatedHost) (s : Tick SimulatedHost) : Prop where
  bound : -1 ≤ d.maxRetries
  asks : s.host.offers ≠ [] → ∀ features : ClosedFeatureMap, features.values = s.host.features →
    0 ≤ d.maxRetries
  lands : s.host.offers ≠ [] → ∀ features : ClosedFeatureMap, features.values = s.host.features →
    d.Fair features s d.retries

theorem runTick_safe_iff (d : Driver SimulatedHost) (s : Tick SimulatedHost) :
    d.DispatchSafe s (d.overSimulated.runTick.after s) ↔ d.Sound s := by
  -- when the broker is never asked the tick leaves every offer as it was
  have hidle : ∀ after : Tick SimulatedHost, after.decideCalls = s.decideCalls →
      after.host.offers = s.host.offers → after.host.dispatches = s.host.dispatches →
      (s.host.offers ≠ [] → ∀ features : ClosedFeatureMap, features.values ≠ s.host.features) →
      (d.DispatchSafe s after ↔ d.Sound s) := by
    intro after hcalls hoffers hdispatches hnone
    constructor
    · intro h
      have hbound := h.1
      exact ⟨by omega, fun hne features hf => absurd hf (hnone hne features),
        fun hne features hf => absurd hf (hnone hne features)⟩
    · intro h
      have hbound := h.bound
      exact ⟨by omega, settled_unchanged hoffers hdispatches⟩
  have hretries : d.overSimulated.retries = d.retries := rfl
  by_cases hoffers : s.host.offers = []
  · have hafter : d.overSimulated.runTick.after s = s := by
      have hpending : onHost d.overSimulated.host.pending s = (.ok s.host.offers, s) := rfl
      have hrun : d.overSimulated.attempt s = (.ok .empty, s) := by
        unfold attempt
        rw [bind_of_ok hpending, if_pos hoffers]
        rfl
      unfold runTick loop
      rw [after_bind_of_ok hrun]
      rfl
    rw [hafter]
    exact hidle s rfl rfl rfl (fun hne => absurd hoffers hne)
  · by_cases hclosed : ∃ features : ClosedFeatureMap, features.values = s.host.features
    · obtain ⟨features, hf⟩ := hclosed
      have hloop := @loop_after d features s d.retries 0 0 hf hoffers
      unfold runTick
      rw [hretries]
      have hunique : ∀ other : ClosedFeatureMap, other.values = s.host.features → other = features := by
        intro other hother
        cases other
        cases features
        simp_all
      unfold DispatchSafe
      constructor
      · intro h
        have hcalls := h.1
        have hnonneg : 0 ≤ d.maxRetries := by omega
        refine ⟨by omega, fun _ _ _ => hnonneg, fun _ other hother => ?_⟩
        rw [hunique other hother]
        exact hloop.2.2.mp h.2
      · intro h
        have hnonneg := h.asks hoffers features hf
        have hcast : (d.retries : ℤ) = d.maxRetries := Int.toNat_of_nonneg hnonneg
        exact ⟨by omega, hloop.2.2.mpr (h.lands hoffers features hf)⟩
    · have hopen : ∀ features : ClosedFeatureMap, features.values ≠ s.host.features :=
        fun features hf => hclosed ⟨features, hf⟩
      obtain ⟨e, he⟩ := SimulatedHost.takeSnapshot_unobservable hopen
      have hsnapshot : onHost d.overSimulated.host.takeSnapshot s =
          (.error e, { s with host := s.host.ticked }) := by
        change ((SimulatedHost.takeSnapshot s.host).1,
          { s with host := (SimulatedHost.takeSnapshot s.host).2 }) = _
        rw [he]
      have hpending : onHost d.overSimulated.host.pending s = (.ok s.host.offers, s) := rfl
      have hrun : d.overSimulated.attempt s = (.error e, { s with host := s.host.ticked }) := by
        unfold attempt
        rw [bind_of_ok hpending, if_neg hoffers]
        apply bind_of_error
        unfold choose
        exact bind_of_error hsnapshot
      have hafter : d.overSimulated.runTick.after s = { s with host := s.host.ticked } := by
        unfold runTick loop
        exact after_bind_of_error hrun
      rw [hafter]
      exact hidle _ rfl rfl rfl (fun _ => hopen)

end Driver

/-- A broker that admits its first offer twice. -/
def admitTwice : Driver SimulatedHost where
  host := simulated
  broker _ _ snapshot _ :=
    { admitted := ["H1", "H1"], form := .ofPairs [("H1", .p0)], deferred := [],
      snapshotVersion := snapshot.version, solveNs := 0,
      formed := by simp [Dict.mem_keys_ofPairs], admittedOnly := by simp [Dict.mem_keys_ofPairs],
      disjoint := by simp }
  clockNs _ := 0

/-- The page is summarized twice: the driver asks no more of a decision than that it names
    offered items. -/
theorem admitTwice_unsafe : ¬ admitTwice.DispatchSafe (.fresh { offers := [samplePage] })
    (admitTwice.overSimulated.runTick.after (.fresh { offers := [samplePage] })) := by
  intro h
  obtain ⟨sent, hsent, hall⟩ := h.2
  have hlog : (admitTwice.overSimulated.runTick.after (.fresh { offers := [samplePage] })).host.dispatches =
      [⟨"H1", .p0, 0, "PAGE_P0_SUMMARY", false⟩, ⟨"H1", .p0, 0, "PAGE_P0_SUMMARY", false⟩] := by
    decide +kernel
  have htwice : sent = [⟨"H1", .p0, 0, "PAGE_P0_SUMMARY", false⟩, ⟨"H1", .p0, 0, "PAGE_P0_SUMMARY", false⟩] :=
    hsent.symm.trans hlog
  rcases hall samplePage (List.mem_singleton.mpr rfl) with hpending | hgone
  · have hnone := hpending.2
    rw [htwice] at hnone
    exact absurd hnone (by decide)
  · obtain ⟨f, plan, hplan, hform, hordinals⟩ := hgone.2
    rw [htwice] at hordinals
    have hlength := congrArg List.length hordinals
    simp only [List.length_map, List.length_range] at hlength
    rw [← hlength] at hordinals
    exact absurd hordinals (by decide)

end Shapeflow.Broker
