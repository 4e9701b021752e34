import Mathlib.Data.Finset.Basic
import Shapeflow.BrokerOffer
import Shapeflow.Script

set_option autoImplicit false

/-!
# The tick driver

One scheduler tick over any host and any broker: offers, snapshot, decision,
materialization, a retry of the whole item set when the snapshot went stale, and
P0 for everything once the retries are spent. `SimulatedHost` is the host with no
engine.
-/
namespace Shapeflow.Broker
open Script

/-- Where offers come from, what the engine looks like and how work is committed. -/
structure BrokerHost (σ : Type) where
  pending : Script σ BrokerError (List Offer)
  takeSnapshot : Script σ BrokerError SchedulerSnapshot
  materialize : Decision → SchedulerSnapshot → Script σ BrokerError MaterializeResult

/-- `run_tick`'s arguments. The broker is asked with the number of its call, so its answers
    need not be a function of what it is shown; the clock likewise. -/
structure Driver (σ : Type) where
  host : BrokerHost σ
  broker : ℕ → List Offer → SchedulerSnapshot → ℤ → Decision
  budgetNs : ℤ := 2000000
  maxRetries : ℤ := 2
  clockNs : ℕ → ℤ

/-- The host, the calls made so far, and what the host has accepted with which snapshot. -/
structure Tick (σ : Type) where
  host : σ
  decideCalls : ℕ
  clockReads : ℕ
  accepted : List (Decision × SchedulerSnapshot)

variable {σ α : Type}

def p0Only (offers : List Offer) (snapshot : SchedulerSnapshot) (reason : String) : Decision where
  admitted := offers.map (·.itemId)
  form := Dict.ofPairs (offers.map fun o => (o.itemId, .p0))
  deferred := []
  snapshotVersion := snapshot.version
  solveNs := 0
  failClosed := true
  reason
  formed i hi := by
    rw [Dict.mem_keys_ofPairs, List.map_map]
    exact hi
  admittedOnly i hi := by
    rw [Dict.mem_keys_ofPairs, List.map_map] at hi
    exact hi
  disjoint _ _ := by simp

/-- `{o.item_id: o for o in offers}`: of offers that share an id the last one counts. -/
def byId (offers : List Offer) : Dict String Offer :=
  Dict.ofPairs (offers.map fun o => (o.itemId, o))

/-- The second loop of `_assert_decision_is_answerable`. -/
def formsOffered (offered : Dict String Offer) : List (String × Form) → Except BrokerError Unit
  | [] => .ok ()
  | (_, .p0) :: rest => formsOffered offered rest
  | (itemId, .p1) :: rest =>
    match offered.get? itemId with
    | none => .error (.keyError itemId)
    | some o =>
      match o.p1 with
      | none => .error (.p1NotOffered itemId)
      | some _ => formsOffered offered rest

def assertDecisionIsAnswerable (decision : Decision) (offers : List Offer) : Except BrokerError Unit :=
  let unknown := (decision.admitted ++ decision.deferred).filter (· ∉ (byId offers).keys)
  if unknown = [] then formsOffered (byId offers) decision.form.entries
  else .error (.unofferedItems (sortedNames unknown))

def onHost (x : Script σ BrokerError α) : Script (Tick σ) BrokerError α := fun s =>
  ((x s.host).1, { s with host := (x s.host).2 })

def check (x : Except BrokerError α) : Script σ BrokerError α := fun s => (x, s)

/-- `try: ... except StaleSnapshot`. -/
def unlessStale (x : Script σ BrokerError α) : Script σ BrokerError (Option α) := fun s =>
  match x s with
  | (.ok a, t) => (.ok (some a), t)
  | (.error (.staleSnapshot _), t) => (.ok none, t)
  | (.error e, t) => (.error e, t)

/-- What steps 1 to 3 of a tick settle on. -/
structure Choice where
  offers : List Offer
  snapshot : SchedulerSnapshot
  decision : Decision
  overrun : Bool

inductive Attempt
  | empty
  | landed (choice : Choice) (result : MaterializeResult)
  | stale (choice : Choice)

namespace Driver
variable (d : Driver σ)

def readClock : Script (Tick σ) BrokerError ℤ := fun s =>
  (.ok (d.clockNs s.clockReads), { s with clockReads := s.clockReads + 1 })

def decide (offers : List Offer) (snapshot : SchedulerSnapshot) : Script (Tick σ) BrokerError Decision :=
  fun s => (.ok (d.broker s.decideCalls offers snapshot d.budgetNs),
    { s with decideCalls := s.decideCalls + 1 })

def materialize (decision : Decision) (snapshot : SchedulerSnapshot) :
    Script (Tick σ) BrokerError MaterializeResult := do
  let result ← onHost (d.host.materialize decision snapshot)
  let s ← getStore
  setStore { s with accepted := s.accepted ++ [(decision, snapshot)] }
  pure result

/-- Steps 2 and 3. A decision that comes too late is discarded for P0 everywhere. -/
def choose (offers : List Offer) : Script (Tick σ) BrokerError Choice := do
  let snapshot ← onHost d.host.takeSnapshot
  let started ← d.readClock
  let decision ← d.decide offers snapshot
  let finished ← d.readClock
  let solveNs := finished - started
  if solveNs > d.budgetNs then
    let reason := s!"solver overran budget: {solveNs}ns > {d.budgetNs}ns; decision discarded"
    pure ⟨offers, snapshot, p0Only offers snapshot reason, true⟩
  else do
    check (assertDecisionIsAnswerable decision offers)
    pure ⟨offers, snapshot, decision, false⟩

/-- One turn of the `while True`, up to the `try` around `materialize`. -/
def attempt : Script (Tick σ) BrokerError Attempt := do
  let offers ← onHost d.host.pending
  if offers = [] then pure .empty
  else do
    let choice ← d.choose offers
    let result ← unlessStale (d.materialize choice.decision choice.snapshot)
    match result with
    | some result => pure (.landed choice result)
    | none => pure (.stale choice)

/-- The retries are spent: P0 for everything, against a snapshot taken now. -/
def degrade (choice : Choice) (attempts staleRetries : ℕ) : Script (Tick σ) BrokerError TickOutcome := do
  let fail := p0Only choice.offers choice.snapshot
    s!"snapshot went stale {staleRetries} times; degrading to P0-only"
  let result ← unlessStale do
    let fresh ← onHost d.host.takeSnapshot
    d.materialize fail fresh
  match result with
  | none =>
    pure { decision := some fail, result := none, attempts, staleRetries,
           budgetOverrun := choice.overrun, failClosed := true,
           reason := fail.reason ++ "; the degradation could not be materialized either, " ++
             "so the work remains pending" }
  | some result =>
    pure { decision := some fail, result := some result, attempts, staleRetries,
           budgetOverrun := choice.overrun, failClosed := true, reason := fail.reason }

/-- The loop with `left` retries to go: `stale_retries > max_retries` after a stale attempt
    is `left = 0` before it. -/
def loop : (left attempts staleRetries : ℕ) → Script (Tick σ) BrokerError TickOutcome
  | left, attempts, staleRetries => do
    match ← d.attempt with
    | .empty =>
      pure { decision := none, result := none, attempts, staleRetries, reason := "no offers pending" }
    | .landed choice result =>
      pure { decision := some choice.decision, result := some result, attempts := attempts + 1,
             staleRetries, budgetOverrun := choice.overrun,
             failClosed := choice.decision.failClosed, reason := choice.decision.reason }
    | .stale choice =>
      match left with
      | 0 => d.degrade choice (attempts + 1) (staleRetries + 1)
      | left + 1 => loop left (attempts + 1) (staleRetries + 1)

/-- A bound below zero allows no retry, as a bound of zero does. -/
def retries : ℕ := d.maxRetries.toNat

def runTick : Script (Tick σ) BrokerError TickOutcome := d.loop d.retries 0 0

/-- What the loop goes on with when an attempt went stale. -/
def afterStale : ℕ → Choice → ℕ → ℕ → Script (Tick σ) BrokerError TickOutcome
  | 0, choice, attempts, staleRetries => d.degrade choice attempts staleRetries
  | left + 1, _, attempts, staleRetries => d.loop left attempts staleRetries

variable {d} {left attempts staleRetries : ℕ} {s t : Tick σ} {c : Choice}

theorem loop_of_stale (h : d.attempt s = (.ok (.stale c), t)) :
    d.loop left attempts staleRetries s =
      d.afterStale left c (attempts + 1) (staleRetries + 1) t := by
  unfold loop
  rw [bind_of_ok h]
  cases left <;> rfl

theorem loop_of_landed {r : MaterializeResult} (h : d.attempt s = (.ok (.landed c r), t)) :
    (d.loop left attempts staleRetries).after s = t := by
  unfold loop
  rw [after_bind_of_ok h]
  rfl

theorem loop_of_error {e : BrokerError} (h : d.attempt s = (.error e, t)) :
    (d.loop left attempts staleRetries).after s = t := by
  unfold loop
  exact after_bind_of_error h

end Driver

/-- One sub-request sent, with its place in its plan. -/
structure Dispatch where
  itemId : String
  form : Form
  ordinal : ℕ
  opClass : String
  gangScheduled : Bool := false
deriving DecidableEq, Repr

/-- The features a simulated host reports unless it is told others. -/
def simulatedFeatures : Dict String Py.Json :=
  .ofPairs [("engine.num_requests_running", .int 0), ("engine.num_requests_waiting", .int 0),
    ("engine.kv_cache_usage_perc", .float (.finite 0)), ("local.inflight_total", .int 0)]

/-- A host with a queue, a tick counter, a script of stale ticks and a log of dispatches. -/
structure SimulatedHost where
  offers : List Offer
  epoch : String := "sim-epoch-0"
  tick : ℤ := 0
  nowNs : ℤ := 0
  features : Dict String Py.Json := simulatedFeatures
  dispatches : List Dispatch := []
  committed : List Decision := []
  staleAtTicks : Finset ℤ := ∅

namespace SimulatedHost

/-- The counters move before the feature map is built, which may refuse. -/
def takeSnapshot : Script SimulatedHost BrokerError SchedulerSnapshot := do
  let h ← getStore
  setStore { h with tick := h.tick + 1, nowNs := h.nowNs + 1000 }
  let features ← check (ClosedFeatureMap.ofValues h.features)
  pure ⟨⟨h.epoch, h.tick + 1⟩, h.nowNs + 1000, features⟩

def pending : Script SimulatedHost BrokerError (List Offer) := do
  let h ← getStore
  pure h.offers

/-- The dispatches of a plan's requests, numbered from 0. -/
def dispatchesOf (itemId : String) (form : Form) (requests : List RequestDescriptor) : List Dispatch :=
  requests.mapIdx fun ordinal request => { itemId, form, ordinal, opClass := request.opClass.value }

/-- One turn of the loop over `decision.admitted`. -/
def dispatchItem (offered : Dict String Offer) (form : Dict String Form) (itemId : String) :
    Script SimulatedHost BrokerError (String × ℕ) := do
  let offer ← check ((offered.get? itemId).elim (.error (.keyError itemId)) .ok)
  let chosen ← check ((form.get? itemId).elim (.error (.keyError itemId)) .ok)
  let plan ← check (offer.planFor chosen)
  let h ← getStore
  setStore { h with dispatches := h.dispatches ++ dispatchesOf itemId chosen plan.requests }
  pure (itemId, plan.requests.length)

def materialize (decision : Decision) (snapshot : SchedulerSnapshot) :
    Script SimulatedHost BrokerError MaterializeResult := do
  let h ← getStore
  if snapshot.version.tick ∈ h.staleAtTicks then raise (.staleSnapshot snapshot.version)
  else do
    let dispatched ← forEach (dispatchItem (byId h.offers) decision.form) decision.admitted
    let g ← getStore
    setStore { g with committed := g.committed ++ [decision],
                      offers := g.offers.filter fun o => o.itemId ∉ decision.admitted }
    pure { materialized := decision.admitted, dispatched := Dict.ofPairs dispatched,
           degradedToP0 := decision.admitted.filter fun i =>
             decision.failClosed && decision.form.get? i = some Form.p0 }

end SimulatedHost

def simulated : BrokerHost SimulatedHost where
  pending := SimulatedHost.pending
  takeSnapshot := SimulatedHost.takeSnapshot
  materialize := SimulatedHost.materialize

/-- One page to summarize, offered as P0 alone. -/
def samplePage : Offer where
  itemId := "H1"
  boundary := .h
  unitId := "turn-H1"
  p0 := ⟨[⟨.pageP0Summary, "", 512, 100, 0, 200⟩], by simp⟩
  submittedAtNs := 0

/-- A tick over a simulated host, before any call. -/
def Tick.fresh (host : SimulatedHost) : Tick SimulatedHost := ⟨host, 0, 0, []⟩

end Shapeflow.Broker
