import Shapeflow.BrokerDriver

set_option autoImplicit false

/-!
# The snapshot a decision is committed against

Over any host: when every decision a tick commits carries the version of the
snapshot it was materialized against, and that the driver itself never compares
the two.
-/
namespace Shapeflow.Broker
open Script
variable {σ α : Type}

theorem unlessStale_some {x : Script σ BrokerError α} {s t : σ} {a : α}
    (h : unlessStale x s = (.ok (some a), t)) : x s = (.ok a, t) := by
  unfold unlessStale at h
  split at h <;> simp_all

theorem unlessStale_of_ok {x : Script σ BrokerError α} {s t : σ} {a : α} (h : x s = (.ok a, t)) :
    unlessStale x s = (.ok (some a), t) := by
  simp only [unlessStale, h]

theorem onHost_ok {x : Script σ BrokerError α} {s t : Tick σ} {a : α} (h : onHost x s = (.ok a, t)) :
    x s.host = (.ok a, t.host) ∧ t = { s with host := t.host } := by
  simp only [onHost, Prod.mk.injEq] at h
  have ht := h.2
  subst ht
  exact ⟨Prod.ext h.1 rfl, rfl⟩

namespace Driver
variable {d : Driver σ} {s t u v : Tick σ} {c : Choice} {r : MaterializeResult}

theorem materialize_ok {decision : Decision} {snapshot : SchedulerSnapshot}
    (h : d.materialize decision snapshot s = (.ok r, t)) :
    t.accepted = s.accepted ++ [(decision, snapshot)] := by
  obtain ⟨result, u, hu, hrest⟩ := bind_ok.mp h
  have hs := (onHost_ok hu).2
  change (Except.ok result, { u with accepted := u.accepted ++ [(decision, snapshot)] }) =
    (Except.ok r, t) at hrest
  have ht := (Prod.mk.inj hrest).2
  rw [← ht, hs]

/-- A choice in time is the broker's answer; a late one is the driver's, stamped with the
    snapshot it was late for. -/
theorem choose_ok {offers : List Offer} (h : d.choose offers s = (.ok c, t)) :
    c.offers = offers ∧
    (c.overrun = false → c.decision = d.broker s.decideCalls c.offers c.snapshot d.budgetNs) ∧
    (c.overrun = true → c.decision.snapshotVersion = c.snapshot.version) := by
  obtain ⟨snapshot, u, hu, h⟩ := bind_ok.mp h
  have hs := (onHost_ok hu).2
  simp only [readClock, decide, bind_run] at h
  split at h
  · simp only [pure_run, Prod.mk.injEq, Except.ok.injEq] at h
    have hc := h.1
    subst hc
    exact ⟨rfl, by simp, fun _ => rfl⟩
  · obtain ⟨_, w, _, h⟩ := bind_ok.mp h
    simp only [pure_run, Prod.mk.injEq, Except.ok.injEq] at h
    have hc := h.1
    subst hc
    refine ⟨rfl, fun _ => ?_, by simp⟩
    rw [hs]

theorem attempt_ok {a : Attempt} (h : d.attempt s = (.ok a, t)) (ha : a ≠ .empty) :
    ∃ offers c u v result, onHost d.host.pending s = (.ok offers, u) ∧
      d.choose offers u = (.ok c, v) ∧
      unlessStale (d.materialize c.decision c.snapshot) v = (.ok result, t) ∧
      a = result.elim (.stale c) (.landed c) := by
  obtain ⟨offers, u, hu, h⟩ := bind_ok.mp h
  split at h
  · simp only [pure_run, Prod.mk.injEq, Except.ok.injEq] at h
    exact absurd h.1.symm ha
  · obtain ⟨c, v, hv, h⟩ := bind_ok.mp h
    obtain ⟨result, w, hw, h⟩ := bind_ok.mp h
    cases result with
    | none =>
      simp only [pure_run, Prod.mk.injEq, Except.ok.injEq] at h
      exact ⟨offers, c, u, v, none, hu, hv, h.2 ▸ hw, h.1.symm⟩
    | some r =>
      simp only [pure_run, Prod.mk.injEq, Except.ok.injEq] at h
      exact ⟨offers, c, u, v, some r, hu, hv, h.2 ▸ hw, h.1.symm⟩

theorem attempt_landed (h : d.attempt s = (.ok (.landed c r), t)) :
    t.accepted.getLast? = some (c.decision, c.snapshot) ∧
    (c.overrun = false → c.decision = d.broker s.decideCalls c.offers c.snapshot d.budgetNs) ∧
    (c.overrun = true → c.decision.snapshotVersion = c.snapshot.version) := by
  obtain ⟨offers, c', u, v, result, hu, hv, hw, ha⟩ := attempt_ok h (by simp)
  cases result with
  | none => simp at ha
  | some r' =>
    simp only [Option.elim_some, Attempt.landed.injEq] at ha
    rw [ha.1]
    have hlast := materialize_ok (unlessStale_some hw)
    have hc := choose_ok hv
    have hs := (onHost_ok hu).2
    rw [hs] at hc
    exact ⟨by simp [hlast], hc.2⟩

/-- `n` attempts in a row, each against a snapshot that went stale, lead from `s` to `t`. -/
inductive StaleFor (d : Driver σ) : ℕ → Tick σ → Tick σ → Prop
  | start (s : Tick σ) : StaleFor d 0 s s
  | again {n : ℕ} {s t u : Tick σ} {c : Choice} :
      d.attempt s = (.ok (.stale c), t) → StaleFor d n t u → StaleFor d (n + 1) s u

/-- A broker's decision that lands from `t` carries the version the broker was shown. -/
def Stamped (d : Driver σ) (t : Tick σ) : Prop :=
  ∀ c r u, d.attempt t = (.ok (.landed c r), u) → c.overrun = false →
    (d.broker t.decideCalls c.offers c.snapshot d.budgetNs).snapshotVersion = c.snapshot.version

/-- The snapshot taken for the degradation, when the degradation lands, has the version of the
    one that just went stale. -/
def Repeated (d : Driver σ) (staleRetries : ℕ) (t : Tick σ) : Prop :=
  ∀ c u fresh v r w, d.attempt t = (.ok (.stale c), u) →
    onHost d.host.takeSnapshot u = (.ok fresh, v) →
    d.materialize (p0Only c.offers c.snapshot
      s!"snapshot went stale {staleRetries} times; degrading to P0-only") fresh v = (.ok r, w) →
    fresh.version = c.snapshot.version

/-- The versions agree along a loop with `left` retries to go. -/
def VersionsKept (d : Driver σ) (left staleRetries : ℕ) (s : Tick σ) : Prop :=
  ∀ n t, d.StaleFor n s t → n ≤ left →
    d.Stamped t ∧ (n = left → d.Repeated (staleRetries + left + 1) t)

/-- What a tick's outcome says was committed is what the host accepted last, and its version is
    that of the snapshot handed over with it. -/
def Agrees (o : TickOutcome) (t : Tick σ) : Prop :=
  o.committed = true → ∃ decision snapshot, o.decision = some decision ∧
    t.accepted.getLast? = some (decision, snapshot) ∧ decision.snapshotVersion = snapshot.version

theorem versionsKept_zero {staleRetries : ℕ} :
    d.VersionsKept 0 staleRetries s ↔ d.Stamped s ∧ d.Repeated (staleRetries + 1) s := by
  constructor
  · intro h
    have h0 := h 0 s (.start s) (Nat.le_refl 0)
    exact ⟨h0.1, h0.2 rfl⟩
  · intro h n t ht hn
    cases ht with
    | start => exact ⟨h.1, fun _ => h.2⟩
    | again => omega

theorem versionsKept_succ {left staleRetries : ℕ} :
    d.VersionsKept (left + 1) staleRetries s ↔ d.Stamped s ∧
      ∀ c t, d.attempt s = (.ok (.stale c), t) → d.VersionsKept left (staleRetries + 1) t := by
  have hcount : staleRetries + (left + 1) + 1 = staleRetries + 1 + left + 1 := by omega
  constructor
  · intro h
    refine ⟨(h 0 s (.start s) (Nat.zero_le _)).1, ?_⟩
    intro c t hc n u hu hn
    have hnext := h (n + 1) u (.again hc hu) (by omega)
    refine ⟨hnext.1, fun heq => ?_⟩
    rw [← hcount]
    exact hnext.2 (by omega)
  · intro h n t ht hn
    cases ht with
    | start => exact ⟨h.1, fun heq => by omega⟩
    | @again m _ w _ c hc hu =>
      have hnext := h.2 c w hc m t hu (by omega)
      refine ⟨hnext.1, fun heq => ?_⟩
      rw [hcount]
      exact hnext.2 (by omega)

theorem agrees_landed (attempts staleRetries : ℕ) (h : d.attempt s = (.ok (.landed c r), t)) :
    Agrees { decision := some c.decision, result := some r, attempts, staleRetries,
             budgetOverrun := c.overrun, failClosed := c.decision.failClosed,
             reason := c.decision.reason } t ↔
      (c.overrun = false →
        (d.broker s.decideCalls c.offers c.snapshot d.budgetNs).snapshotVersion = c.snapshot.version) := by
  have hc := attempt_landed h
  constructor
  · intro hagrees hfalse
    obtain ⟨decision, snapshot, hdecision, hlast, hversion⟩ := hagrees rfl
    have hpair := hc.1.symm.trans hlast
    simp only [Option.some.injEq, Prod.mk.injEq] at hpair
    rw [← hc.2.1 hfalse, hpair.1, hpair.2]
    exact hversion
  · intro hstamped _
    refine ⟨c.decision, c.snapshot, rfl, hc.1, ?_⟩
    cases hover : c.overrun with
    | true => exact hc.2.2 hover
    | false => rw [hc.2.1 hover]; exact hstamped hover

/-- The driver's own decision is accepted with the fresh snapshot and keeps the old version. -/
theorem degrade_agrees {attempts staleRetries : ℕ} :
    (∀ o t, d.degrade c attempts staleRetries s = (.ok o, t) → Agrees o t) ↔
      ∀ fresh v r w, onHost d.host.takeSnapshot s = (.ok fresh, v) →
        d.materialize (p0Only c.offers c.snapshot
          s!"snapshot went stale {staleRetries} times; degrading to P0-only") fresh v = (.ok r, w) →
        fresh.version = c.snapshot.version := by
  constructor
  · intro h fresh v r w hfresh hr
    have hboth : (onHost d.host.takeSnapshot >>= d.materialize (p0Only c.offers c.snapshot
        s!"snapshot went stale {staleRetries} times; degrading to P0-only")) s = (.ok r, w) :=
      (bind_of_ok hfresh).trans hr
    have hrun := h _ w (bind_of_ok (unlessStale_of_ok hboth)) rfl
    obtain ⟨decision, snapshot, hdecision, hlast, hversion⟩ := hrun
    rw [materialize_ok hr] at hlast
    simp only [List.getLast?_append, List.getLast?_singleton, Option.some_or, Option.some.injEq,
      Prod.mk.injEq] at hlast
    rw [← hlast.1, ← hlast.2] at hversion
    exact hversion.symm
  · intro h o t ho hcommitted
    obtain ⟨result, u, hu, ho⟩ := bind_ok.mp ho
    cases result with
    | none =>
      simp only [pure_run, Prod.mk.injEq, Except.ok.injEq] at ho
      rw [← ho.1] at hcommitted
      simp [TickOutcome.committed] at hcommitted
    | some r =>
      simp only [pure_run, Prod.mk.injEq, Except.ok.injEq] at ho
      obtain ⟨fresh, v, hfresh, hr⟩ := bind_ok.mp (unlessStale_some hu)
      rw [← ho.1, ← ho.2]
      exact ⟨_, fresh, rfl, by simp [materialize_ok hr], (h fresh v r u hfresh hr).symm⟩

/-- One turn of the loop, by how the attempt ended. -/
theorem loop_agrees {left attempts staleRetries : ℕ} :
    (∀ o t, d.loop left attempts staleRetries s = (.ok o, t) → Agrees o t) ↔
      d.Stamped s ∧ ∀ c t, d.attempt s = (.ok (.stale c), t) → ∀ o u,
        d.afterStale left c (attempts + 1) (staleRetries + 1) t = (.ok o, u) → Agrees o u := by
  constructor
  · intro h
    constructor
    · intro c r u hc
      refine (agrees_landed (attempts + 1) staleRetries hc).mp ?_
      apply h
      unfold loop
      exact bind_of_ok hc
    · intro c t hc o u ho
      exact h o u ((loop_of_stale hc).trans ho)
  · intro h o t ho
    have hloop := ho
    unfold loop at ho
    obtain ⟨a, u, ha, ho⟩ := bind_ok.mp ho
    cases a with
    | empty =>
      simp only [pure_run, Prod.mk.injEq, Except.ok.injEq] at ho
      intro hcommitted
      rw [← ho.1] at hcommitted
      simp [TickOutcome.committed] at hcommitted
    | landed c r =>
      simp only [pure_run, Prod.mk.injEq, Except.ok.injEq] at ho
      rw [← ho.1, ← ho.2]
      exact (agrees_landed _ _ ha).mpr (h.1 c r u ha)
    | stale c => exact h.2 c u ha o t ((loop_of_stale ha).symm.trans hloop)

theorem loop_agrees_iff {left attempts staleRetries : ℕ} :
    (∀ o t, d.loop left attempts staleRetries s = (.ok o, t) → Agrees o t) ↔
      d.VersionsKept left staleRetries s := by
  induction left generalizing attempts staleRetries s with
  | zero =>
    rw [loop_agrees, versionsKept_zero]
    apply and_congr_right
    intro _
    constructor
    · intro h c u fresh v r w hc
      exact degrade_agrees.mp (h c u hc) fresh v r w
    · intro h c t hc
      exact degrade_agrees.mpr fun fresh v r w => h c t fresh v r w hc
  | succ left ih =>
    rw [loop_agrees, versionsKept_succ]
    apply and_congr_right
    intro _
    constructor
    · intro h c t hc
      exact ih.mp (h c t hc)
    · intro h c t hc
      exact ih.mpr (h c t hc)

/-- For every host, broker and clock: every decision a tick commits carries the version of the
    snapshot it was materialized against exactly when the broker stamps what lands with the
    version it was shown and no degradation lands on a snapshot of another version. -/
theorem runTick_agrees_iff (d : Driver σ) (s : Tick σ) :
    (∀ o t, d.runTick s = (.ok o, t) → Agrees o t) ↔ d.VersionsKept d.retries 0 s :=
  loop_agrees_iff

end Driver

/-- A broker that admits what it is offered as P0 and stamps the version it was shown. -/
def summarizeAll : Driver SimulatedHost where
  host := simulated
  broker _ offers snapshot _ :=
    { p0Only offers snapshot "" with failClosed := false, reason := "summarize everything" }
  clockNs _ := 0

/-- Whether a tick committed, the version its decision carries and that of the last accepted
    snapshot. -/
def versionsOf : Except BrokerError TickOutcome × Tick SimulatedHost →
    Bool × Option SnapshotVersion × Option SnapshotVersion
  | (.ok o, t) => (o.committed, o.decision.map (·.snapshotVersion), t.accepted.getLast?.map (·.2.version))
  | (.error _, _) => (false, none, none)

/-- Three stale ticks spend the two retries; the degradation is built for tick 3 and committed
    against tick 4. -/
theorem exhausted_tick_disagrees :
    ¬ ∀ o t, summarizeAll.runTick (.fresh { offers := [samplePage], staleAtTicks := {1, 2, 3} }) =
      (.ok o, t) → Driver.Agrees o t := by
  intro h
  have hversions : versionsOf (summarizeAll.runTick
      (.fresh { offers := [samplePage], staleAtTicks := {1, 2, 3} })) =
      (true, some ⟨"sim-epoch-0", 3⟩, some ⟨"sim-epoch-0", 4⟩) := by decide +kernel
  match hrun : summarizeAll.runTick (.fresh { offers := [samplePage], staleAtTicks := {1, 2, 3} }) with
  | (.error e, t) => simp [hrun, versionsOf] at hversions
  | (.ok o, t) =>
    simp only [hrun, versionsOf, Prod.mk.injEq] at hversions
    obtain ⟨decision, snapshot, hdecision, hlast, hversion⟩ := h o t hrun hversions.1
    rw [hdecision, hlast] at hversions
    have hstamped := Option.some.inj hversions.2.1
    have hcurrent := Option.some.inj hversions.2.2
    exact absurd (hstamped.symm.trans (hversion.trans hcurrent)) (by decide)

end Shapeflow.Broker
