import Mathlib.Data.List.MinMax
import Mathlib.Data.List.Sort
import Mathlib.Data.String.Basic
import Shapeflow.Dict

set_option autoImplicit false

/-!
# The whole-batch reducer

A search call hands back a deferred page batch in place of its result. The
reducer turns every deferred sibling of an assistant turn at once, into the
strategy's content or into the vendor rendering. What a tool message carries
is a type of its own, `γ`.
-/
namespace Shapeflow.ToolBatch

structure PyException where
  errorClass : String
  message : String
deriving DecidableEq, Repr

structure SearchResult where
  url : String := ""
  title : String := ""
  content : String := ""
  rawContent : Option String := none
  /-- `_shapeflow_occurrence_id` -/
  occurrenceId : Option String := none
deriving DecidableEq, Repr

/-- An awaited vendor closure: when it finishes, and with what. -/
structure Rendering (γ : Type) where
  finishedAt : ℕ
  result : Except PyException γ

structure DeferredPageBatch (γ : Type) where
  toolName : String
  results : List SearchResult
  renderVendor : Rendering γ
  maxContentLength : ℕ

/-- What the gather over the tool calls hands back for one call. -/
inductive Observation (γ : Type)
  | plain (value : γ)
  | deferred (batch : DeferredPageBatch γ)

structure ToolCall where
  id : Option String := none
  name : Option String := none
  argsCanonical : String := "\x7b\x7d"
deriving DecidableEq, Repr

def ToolCall.callId (call : ToolCall) : String := call.id.getD ""

def ToolCall.callName (call : ToolCall) : String := call.name.getD ""

structure VendorVisibleResult where
  vendorVisibleOrder : ℕ
  url : String
  title : String
  snippet : String
  rawContentId : Option String
  sourceOccurrenceId : Option String
deriving DecidableEq, Repr

structure FrozenToolCall where
  id : String
  name : String
  argsCanonical : String
deriving DecidableEq, Repr

/-- The frozen assistant turn; the frozen message and the sampling envelope in canonical form. -/
structure HCheckpoint where
  taskId : String
  researcherId : String
  assistantTurnIndex : ℤ
  assistantMessage : String
  siblingToolCalls : List FrozenToolCall
  searchResultSets : List (String × List VendorVisibleResult)
  nonSearchOutputs : List (String × String)
  researcherStateHash : String
  sampling : String
  researcherCoordinate : Option (ℤ × ℤ × String)
deriving DecidableEq, Repr

structure ToolObservation (γ : Type) where
  toolCallId : Option String
  name : String
  content : γ
  sourceOccurrenceIds : List String := []

def ToolObservation.callId {γ : Type} (obs : ToolObservation γ) : String := obs.toolCallId.getD ""

/-- How `transform_tool_batch` ended. -/
inductive Transform (γ : Type)
  | returned (produced : List (ToolObservation γ))
  | cancelled
  | handleDomainError (message : String)
  | raised (e : PyException)

inductive FailureReason
  | strategyError | incompleteBatch | provenanceOutsideCheckpoint
deriving DecidableEq, Repr

def FailureReason.name : FailureReason → String
  | .strategyError => "STRATEGY_ERROR"
  | .incompleteBatch => "INCOMPLETE_BATCH"
  | .provenanceOutsideCheckpoint => "PROVENANCE_OUTSIDE_CHECKPOINT"

/-- What the detail text of a failure is made of. -/
inductive FailureDetail
  | exception (e : PyException)
  | ids (expected got : List String)
  | unknown (callId : String) (occurrences : List String)
deriving DecidableEq, Repr

structure PageFailure where
  reason : FailureReason
  detail : FailureDetail
deriving DecidableEq, Repr

structure BatchOutcome (γ : Type) where
  observations : List (Observation γ)
  checkpointDigest : String
  fellBack : Bool := false
  failure : Option PageFailure := none
  publicationProvenance : List (String × List String) := []

/-- What `reduce_tool_batch` raises. -/
inductive BatchRaised
  | cancelled
  | handleDomainError (message : String)
  | storeCheckpoint (e : PyException)
  | renderVendor (e : PyException)
  | indexError
  | keyError
deriving DecidableEq, Repr

/-- How the part that follows the strategy is left early. -/
inductive Stop
  | raised (e : BatchRaised)
  | failed (failure : PageFailure)

/-! ## The checkpoint -/

/-- The hashes of the batch's bytes. -/
structure Hashing (γ : Type) where
  /-- `sha256_hex` of a text's UTF-8 bytes -/
  ofText : String → String
  /-- `sha256_hex(str(value).encode())` -/
  ofStr : γ → String
  /-- `sha256_hex(canonical_json(value))`, which raises on a value that is no JSON -/
  ofCanonical : γ → Except PyException String
  digest : HCheckpoint → String

section
variable {γ : Type}

def isDeferred : Observation γ → Bool
  | .plain _ => false
  | .deferred _ => true

/-- The prefix of the page that vendor feeds on; an empty page is no page. -/
def visibleRaw (batch : DeferredPageBatch γ) (result : SearchResult) : Option String :=
  match result.rawContent with
  | none => none
  | some raw => if raw = "" then none else some (String.ofList (raw.toList.take batch.maxContentLength))

def visibleResults (h : Hashing γ) (batch : DeferredPageBatch γ) : List VendorVisibleResult :=
  batch.results.zipIdx.map fun r =>
    { vendorVisibleOrder := r.2, url := r.1.url, title := r.1.title, snippet := r.1.content,
      rawContentId := (visibleRaw batch r.1).map h.ofText, sourceOccurrenceId := r.1.occurrenceId }

def searchResultSets (h : Hashing γ) :
    List (Observation γ × ToolCall) → List (String × List VendorVisibleResult)
  | [] => []
  | (.deferred batch, call) :: rest => (call.callId, visibleResults h batch) :: searchResultSets h rest
  | (.plain _, _) :: rest => searchResultSets h rest

def nonSearchOutputs (h : Hashing γ) : List (Observation γ × ToolCall) → List (String × String)
  | [] => []
  | (.plain value, call) :: rest => (call.callId, h.ofStr value) :: nonSearchOutputs h rest
  | (.deferred _, _) :: rest => nonSearchOutputs h rest

def buildHCheckpoint (h : Hashing γ) (taskId researcherId : String) (assistantTurnIndex : ℤ)
    (assistantMessage : String) (toolCalls : List ToolCall) (observations : List (Observation γ))
    (researcherStateHash sampling : String) (researcherCoordinate : Option (ℤ × ℤ × String)) :
    HCheckpoint :=
  { taskId, researcherId, assistantTurnIndex, assistantMessage, researcherStateHash, sampling,
    researcherCoordinate
    siblingToolCalls := toolCalls.map fun c => ⟨c.callId, c.callName, c.argsCanonical⟩
    searchResultSets := searchResultSets h (observations.zip toolCalls)
    nonSearchOutputs := nonSearchOutputs h (observations.zip toolCalls) }

/-! ## The reducer -/

/-- `tuple(dict.fromkeys(..))`: the distinct values in the order of their first occurrence. -/
def fromKeys (values : List String) : List String := (Dict.ofPairs (values.map fun v => (v, ()))).keys

def deferredPositions (observations : List (Observation γ)) : List ℕ :=
  (observations.zipIdx.filter fun o => isDeferred o.1).map Prod.snd

/-- `str(tool_calls[i].get("id") or "")` -/
def callIdAt (toolCalls : List ToolCall) (i : ℕ) : Except Stop String :=
  match toolCalls[i]? with
  | none => .error (.raised .indexError)
  | some call => .ok call.callId

/-- `by_call[call_id]` -/
def observationOf (byCall : Dict String (ToolObservation γ)) (callId : String) :
    Except Stop (ToolObservation γ) :=
  match byCall.get? callId with
  | none => .error (.raised .keyError)
  | some obs => .ok obs

/-- `{str(r.source_occurrence_id) for r in results if r.source_occurrence_id}`, in their order. -/
def occurrencesOf (results : List VendorVisibleResult) : List String :=
  fromKeys ((results.filterMap (·.sourceOccurrenceId)).filter (· ≠ ""))

def offeredOccurrences (checkpoint : HCheckpoint) : Dict String (List String) :=
  Dict.ofPairs (checkpoint.searchResultSets.map fun e => (e.1, occurrencesOf e.2))

/-- The occurrences one call's observation claims; one outside its checkpoint fails the batch. -/
def claimedBy (checkpoint : HCheckpoint) (byCall : Dict String (ToolObservation γ)) (callId : String) :
    Except Stop (String × List String) := do
  let obs ← observationOf byCall callId
  let claimed := fromKeys (obs.sourceOccurrenceIds.filter (· ≠ ""))
  let offered := ((offeredOccurrences checkpoint).get? callId).getD []
  let unknown := (claimed.filter (· ∉ offered)).insertionSort (· ≤ ·)
  if unknown = [] then .ok (callId, claimed)
  else .error (.failed ⟨.provenanceOutsideCheckpoint, .unknown callId unknown⟩)

/-- `staged[i] = value`, for each pair in turn. -/
def assignAt (staged : List (Observation γ)) (pairs : List (ℕ × γ)) : List (Observation γ) :=
  pairs.foldl (fun staged e => staged.set e.1 (.plain e.2)) staged

def contentAt (toolCalls : List ToolCall) (byCall : Dict String (ToolObservation γ)) (i : ℕ) :
    Except Stop (ℕ × γ) := do
  let callId ← callIdAt toolCalls i
  let obs ← observationOf byCall callId
  .ok (i, obs.content)

def awaitTransform : Transform γ → Except Stop (List (ToolObservation γ))
  | .returned produced => .ok produced
  | .cancelled => .error (.raised .cancelled)
  | .handleDomainError message => .error (.raised (.handleDomainError message))
  | .raised e => .error (.failed ⟨.strategyError, .exception e⟩)

/-- The body of `reduce_tool_batch` from the strategy's call on. -/
def stageBatch (h : Hashing γ) (strategy : HCheckpoint → Transform γ) (checkpoint : HCheckpoint)
    (observations : List (Observation γ)) (toolCalls : List ToolCall) : Except Stop (BatchOutcome γ) := do
  let positions := deferredPositions observations
  let produced ← awaitTransform (strategy checkpoint)
  let expected ← positions.mapM (callIdAt toolCalls)
  let got := produced.map (·.callId)
  if got ≠ expected ∨ ¬ got.Nodup then
    .error (.failed ⟨.incompleteBatch, .ids expected got⟩)
  else
    let byCall := Dict.ofPairs (produced.map fun obs => (obs.callId, obs))
    let publicationProvenance ← expected.mapM (claimedBy checkpoint byCall)
    let staged ← positions.mapM (contentAt toolCalls byCall)
    .ok { observations := assignAt observations staged, checkpointDigest := h.digest checkpoint,
          publicationProvenance }

/-- The renderings of the deferred observations, in their order. -/
def deferredRenderings : List (Observation γ) → List (Rendering γ)
  | [] => []
  | .deferred batch :: rest => batch.renderVendor :: deferredRenderings rest
  | .plain _ :: rest => deferredRenderings rest

def Rendering.error? (r : Rendering γ) : Option (ℕ × PyException) :=
  match r.result with
  | .ok _ => none
  | .error e => some (r.finishedAt, e)

/-- `asyncio.gather`: every value, or the error of the closure that fails first. -/
def gather (tasks : List (Rendering γ)) : Except PyException (List γ) :=
  match (tasks.filterMap Rendering.error?).argmin Prod.fst with
  | some failed => .error failed.2
  | none => tasks.mapM (·.result)

def resolveFailure (h : Hashing γ) (failure : PageFailure) (observations : List (Observation γ))
    (checkpoint : HCheckpoint) (componentTrial : Bool) : Except BatchRaised (BatchOutcome γ) :=
  if componentTrial then
    .ok { observations, checkpointDigest := h.digest checkpoint, failure := some failure }
  else
    match gather (deferredRenderings observations) with
    | .error e => .error (.renderVendor e)
    | .ok rendered =>
      .ok { observations := assignAt observations ((deferredPositions observations).zip rendered)
            checkpointDigest := h.digest checkpoint
            fellBack := true
            failure := some failure
            publicationProvenance :=
              checkpoint.searchResultSets.map fun e => (e.1, occurrencesOf e.2) }

def storing (storeCheckpoint : Option (HCheckpoint → Except PyException String))
    (checkpoint : HCheckpoint) : Except BatchRaised Unit :=
  match storeCheckpoint with
  | none => .ok ()
  | some store =>
    match store checkpoint with
    | .ok _ => .ok ()
    | .error e => .error (.storeCheckpoint e)

/-- `reduce_tool_batch` once the checkpoint is stored. -/
def reduceStored (h : Hashing γ) (strategy : HCheckpoint → Transform γ) (checkpoint : HCheckpoint)
    (observations : List (Observation γ)) (toolCalls : List ToolCall) (componentTrial : Bool) :
    Except BatchRaised (BatchOutcome γ) :=
  if deferredPositions observations = [] then
    .ok { observations, checkpointDigest := h.digest checkpoint }
  else
    match stageBatch h strategy checkpoint observations toolCalls with
    | .ok outcome => .ok outcome
    | .error (.raised e) => .error e
    | .error (.failed failure) => resolveFailure h failure observations checkpoint componentTrial

def reduceToolBatch (h : Hashing γ) (strategy : HCheckpoint → Transform γ) (checkpoint : HCheckpoint)
    (observations : List (Observation γ)) (toolCalls : List ToolCall) (componentTrial : Bool)
    (storeCheckpoint : Option (HCheckpoint → Except PyException String) := none) :
    Except BatchRaised (BatchOutcome γ) := do
  storing storeCheckpoint checkpoint
  reduceStored h strategy checkpoint observations toolCalls componentTrial

end
end Shapeflow.ToolBatch
