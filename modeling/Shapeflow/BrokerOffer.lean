import Mathlib.Data.List.Sort
import Shapeflow.Dict
import Shapeflow.PyValue

set_option autoImplicit false

/-!
# The offer interface

Offers hold both plans of a unit of work and start neither. A decision names one
form for each admitted item; a decision the constructor refuses is not a value
of its type.
-/
namespace Shapeflow.Broker

/-- What kind of work a model request is. -/
inductive OpClass
  | pageP0Summary
  | pageP1SelectorLocal
  | pageP1SelectorGlobal
  | pageP1SelectorBatch
  | pageP1ShortProse
  | researcherReact
  | compressorP0
  | compressorP1Selector
  | compressorShortProse
  | supervisorContinue
  | finalWriter
  | judgeAtomize
  | judgeTruth
  | judgeReport
  | judgeExplain
  | taskAuthor
deriving DecidableEq, Repr

def OpClass.value : OpClass → String
  | pageP0Summary => "PAGE_P0_SUMMARY"
  | pageP1SelectorLocal => "PAGE_P1_SELECTOR_LOCAL"
  | pageP1SelectorGlobal => "PAGE_P1_SELECTOR_GLOBAL"
  | pageP1SelectorBatch => "PAGE_P1_SELECTOR_BATCH"
  | pageP1ShortProse => "PAGE_P1_SHORT_PROSE"
  | researcherReact => "RESEARCHER_REACT"
  | compressorP0 => "COMPRESSOR_P0"
  | compressorP1Selector => "COMPRESSOR_P1_SELECTOR"
  | compressorShortProse => "COMPRESSOR_SHORT_PROSE"
  | supervisorContinue => "SUPERVISOR_CONTINUE"
  | finalWriter => "FINAL_WRITER"
  | judgeAtomize => "JUDGE_ATOMIZE"
  | judgeTruth => "JUDGE_TRUTH"
  | judgeReport => "JUDGE_REPORT"
  | judgeExplain => "JUDGE_EXPLAIN"
  | taskAuthor => "TASK_AUTHOR"

inductive Form
  | p0
  | p1
deriving DecidableEq, Repr

inductive Boundary
  | h
  | c
deriving DecidableEq, Repr

/-- What would be sent: a description with no way to send it. -/
structure RequestDescriptor where
  opClass : OpClass
  promptSha256 : String
  maxTokens : ℤ
  estUncachedPrefill : ℤ
  estCachedPrefill : ℤ
  estDecode : ℤ
deriving DecidableEq

structure RenderDescriptor where
  estCpuMs : Py.PyFloat
  candidateCount : ℤ
deriving DecidableEq

structure P0Plan where
  requests : List RequestDescriptor
  nonempty : requests ≠ []
deriving DecidableEq

structure P1Plan where
  selector : RequestDescriptor
  render : RenderDescriptor
deriving DecidableEq

structure Offer where
  itemId : String
  boundary : Boundary
  unitId : String
  p0 : P0Plan
  submittedAtNs : ℤ
  p1 : Option P1Plan := none
  deadlineNs : Option ℤ := none
deriving DecidableEq

/-- A tick within an engine epoch. -/
structure SnapshotVersion where
  epoch : String
  tick : ℤ
deriving DecidableEq, Repr

/-- What a host or the driver raises; a host may also raise errors of its own. -/
inductive BrokerError
  | staleSnapshot (version : SnapshotVersion)
  | unofferedItems (unknown : List String)
  | p1NotOffered (itemId : String)
  | noP1Plan (itemId : String)
  | keyError (key : String)
  | unobservableFeature (unknown : List String)
  | hostError (text : String)
deriving DecidableEq, Repr

/-- What a plan sends: the summaries of a P0 plan, or the one selector of a P1 plan. -/
inductive Plan
  | p0 (plan : P0Plan)
  | p1 (plan : P1Plan)
deriving DecidableEq

def Plan.requests : Plan → List RequestDescriptor
  | p0 plan => plan.requests
  | p1 plan => [plan.selector]

def Offer.planFor (o : Offer) : Form → Except BrokerError Plan
  | .p0 => .ok (.p0 o.p0)
  | .p1 =>
    match o.p1 with
    | none => .error (.noP1Plan o.itemId)
    | some plan => .ok (.p1 plan)

/-- `sorted(...)` on a set of names. -/
def sortedNames (names : List String) : List String := names.dedup.insertionSort (· ≤ ·)

/-- The features a decision may read. -/
def OBSERVABLE : List String := [
  "engine.num_requests_running", "engine.num_requests_waiting",
  "engine.num_requests_waiting_by_reason", "engine.kv_cache_usage_perc",
  "engine.prefix_cache_queries", "engine.prefix_cache_hits", "engine.prompt_tokens_cached",
  "engine.num_preemptions", "engine.iteration_tokens_total",
  "engine.ttft_seconds", "engine.inter_token_latency_seconds",
  "engine.request_queue_time_seconds",
  "local.inflight_total", "local.inflight_by_op_class", "local.queue_depth_by_op_class",
  "local.offer_age_ns", "local.deadline_slack_ns",
  "offer.boundary", "offer.batch_size", "offer.page_tokens_total", "offer.page_tokens_max",
  "offer.page_tokens_p90", "offer.chunk_count", "offer.chunk_len_mean", "offer.chunk_len_p90",
  "offer.retrieval_score_mean", "offer.retrieval_rank_mean", "offer.query_page_overlap",
  "offer.table_list_density", "offer.language", "offer.researcher_iteration",
  "offer.supervisor_iteration", "offer.selector_prefill_tokens", "offer.est_uncached_prefill",
  "offer.est_cached_prefill", "offer.est_decode"]

/-- Feature values under registered names only. -/
structure ClosedFeatureMap where
  values : Dict String Py.Json
  closed : ∀ name ∈ values.keys, name ∈ OBSERVABLE

def ClosedFeatureMap.ofValues (values : Dict String Py.Json) : Except BrokerError ClosedFeatureMap :=
  if h : ∀ name ∈ values.keys, name ∈ OBSERVABLE then .ok ⟨values, h⟩
  else .error (.unobservableFeature (sortedNames (values.keys.filter (· ∉ OBSERVABLE))))

structure SchedulerSnapshot where
  version : SnapshotVersion
  takenAtNs : ℤ
  features : ClosedFeatureMap

/-- One tick's answer to both questions. -/
structure Decision where
  admitted : List String
  form : Dict String Form
  deferred : List String
  snapshotVersion : SnapshotVersion
  solveNs : ℤ
  failClosed : Bool := false
  reason : String := ""
  formed : ∀ i ∈ admitted, i ∈ form.keys
  admittedOnly : ∀ i ∈ form.keys, i ∈ admitted
  disjoint : ∀ i ∈ admitted, i ∉ deferred
deriving DecidableEq

structure MaterializeResult where
  materialized : List String
  dispatched : Dict String ℕ
  degradedToP0 : List String := []
deriving DecidableEq

/-- What one tick did. -/
structure TickOutcome where
  decision : Option Decision
  result : Option MaterializeResult
  attempts : ℕ
  staleRetries : ℕ
  budgetOverrun : Bool := false
  failClosed : Bool := false
  reason : String := ""

def TickOutcome.committed (o : TickOutcome) : Bool := o.result.isSome

theorem Plan.requests_ne_nil (p : Plan) : p.requests ≠ [] := by
  cases p with
  | p0 plan => exact plan.nonempty
  | p1 plan => simp [requests]

theorem Decision.form_get {d : Decision} {i : String} (h : i ∈ d.admitted) :
    ∃ f, d.form.get? i = some f :=
  Dict.mem_keys_iff.mp (d.formed i h)

end Shapeflow.Broker
