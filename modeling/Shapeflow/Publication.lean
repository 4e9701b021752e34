import Shapeflow.Run
import Shapeflow.Script
import Shapeflow.ToolBatch

set_option autoImplicit false

/-!
# Certifying a published batch

The reducer leaves a pending batch behind; the graph's publication point checks
the finished tool messages against it and commits their provenance to the
sidecar of the run. The emitted events are not modelled.
-/
namespace Shapeflow.Publication
open Script ToolBatch

structure ToolMessage (γ : Type) where
  toolCallId : Option String
  name : Option String
  content : γ

structure PendingPublication where
  checkpoint : String
  siblingCount : ℕ
  toolCallIds : List String
  observationSha256s : List String
  publicationProvenance : Dict String (List String)
  fellBack : Bool
deriving DecidableEq

structure ProvenanceEntry where
  name : String
  contentSha256 : String
  sourceOccurrenceIds : List String
  checkpoint : String
deriving DecidableEq, Repr

/-- The context variables of a run: the pending batch, and the committed entries once a run is bound. -/
structure Sidecar where
  pending : Option PendingPublication := none
  published : Option (Dict String ProvenanceEntry) := none

inductive PublishRaised
  | batch (e : BatchRaised)
  | componentTrialFailure (checkpoint : String) (failure : PageFailure)
  | notCanonical (e : PyException)
  | runtimeError (message : String)
deriving DecidableEq

/-- What the reducer reads of the bound run. -/
structure RunBinding where
  taskId : String
  researcherId : String
  componentTrial : Bool := false
  sampling : Option String := none
  storeCheckpoint : Option (HCheckpoint → Except PyException String) := none
  researcherCoordinate : Option (ℤ × ℤ × String) := none

/-- `SamplingEnvelope(model="", temperature=0.0, top_p=1.0, max_tokens=0)` in canonical form. -/
def noSampling : String :=
  "\x7b\"max_tokens\":0,\"model\":\"\",\"n\":1,\"seed\":null,\"temperature\":0.0,\"top_p\":1.0\x7d"

/-- One call of `reduce_published_batch`, with the run and the page strategy bound when it is made. -/
structure ReduceCall (γ : Type) where
  run : Option RunBinding
  page : Option (List (Observation γ) → HCheckpoint → Transform γ)
  assistantMessage : String
  toolCalls : List ToolCall
  observations : List (Observation γ)
  researcherStateHash : String
  assistantTurnIndex : ℤ

section
variable {γ : Type}

def ToolMessage.callId (message : ToolMessage γ) : String := message.toolCallId.getD ""

def ToolMessage.messageName (message : ToolMessage γ) : String := message.name.getD ""

/-- A deferred batch object is no JSON. -/
def observationSha (h : Hashing γ) : Observation γ → Except PyException String
  | .plain value => h.ofCanonical value
  | .deferred _ => .error ⟨"TypeError", "DeferredPageBatch"⟩

def checkpointOf (h : Hashing γ) (run : RunBinding) (call : ReduceCall γ) : HCheckpoint :=
  buildHCheckpoint h run.taskId run.researcherId call.assistantTurnIndex call.assistantMessage
    call.toolCalls call.observations call.researcherStateHash (run.sampling.getD noSampling)
    run.researcherCoordinate

def outcomeOf (h : Hashing γ) (run : RunBinding) (page : List (Observation γ) → HCheckpoint → Transform γ)
    (call : ReduceCall γ) : Except BatchRaised (BatchOutcome γ) :=
  reduceToolBatch h (page call.observations) (checkpointOf h run call) call.observations call.toolCalls
    run.componentTrial run.storeCheckpoint

/-- The batch that `reduce_published_batch` leaves pending. -/
def pendingOf (call : ReduceCall γ) (outcome : BatchOutcome γ) (digests : List String) :
    PendingPublication :=
  { checkpoint := outcome.checkpointDigest
    siblingCount := call.observations.length
    toolCallIds := call.toolCalls.map (·.callId)
    observationSha256s := digests
    publicationProvenance := Dict.ofPairs outcome.publicationProvenance
    fellBack := outcome.fellBack }

/-- A result that may be an exception, in a script. -/
def ofExcept {ε α : Type} (wrap : ε → PublishRaised) : Except ε α → Script Sidecar PublishRaised α
  | .ok a => pure a
  | .error e => raise (wrap e)

def setPending (pending : Option PendingPublication) : Script Sidecar PublishRaised Unit := do
  let s ← getStore
  setStore { s with pending }

/-- `reduce_published_batch` with a run and a strategy bound. -/
def reduceBound (h : Hashing γ) (run : RunBinding)
    (page : List (Observation γ) → HCheckpoint → Transform γ) (call : ReduceCall γ) :
    Script Sidecar PublishRaised (List (Observation γ)) := do
  let outcome ← ofExcept .batch (outcomeOf h run page call)
  match outcome.failure, outcome.fellBack with
  | some failure, false => raise (.componentTrialFailure outcome.checkpointDigest failure)
  | _, _ => do
    let digests ← ofExcept .notCanonical (outcome.observations.mapM (observationSha h))
    setPending (some (pendingOf call outcome digests))
    pure outcome.observations

def reducePublishedBatch (h : Hashing γ) (call : ReduceCall γ) :
    Script Sidecar PublishRaised (List (Observation γ)) :=
  match call.run, call.page with
  | some run, some page =>
    if call.observations.any isDeferred then reduceBound h run page call else pure call.observations
  | _, _ => pure call.observations

/-- The messages are those of the pending batch, call by call. -/
structure Certified (pending : PendingPublication) (toolCalls : List ToolCall)
    (toolOutputs : List (ToolMessage γ)) (digests : List String) : Prop where
  count : toolOutputs.length = pending.siblingCount
  ids : toolCalls.map (·.callId) = pending.toolCallIds
  outputIds : toolOutputs.map (·.callId) = toolCalls.map (·.callId)
  outputNames : toolOutputs.map (·.messageName) = toolCalls.map (·.callName)
  contents : digests = pending.observationSha256s
  distinct : (toolCalls.map (·.callId)).Nodup

instance (pending : PendingPublication) (toolCalls : List ToolCall) (toolOutputs : List (ToolMessage γ))
    (digests : List String) : Decidable (Certified pending toolCalls toolOutputs digests) :=
  decidable_of_iff
    (toolOutputs.length = pending.siblingCount ∧ toolCalls.map (·.callId) = pending.toolCallIds ∧
      toolOutputs.map (·.callId) = toolCalls.map (·.callId) ∧
      toolOutputs.map (·.messageName) = toolCalls.map (·.callName) ∧
      digests = pending.observationSha256s ∧ (toolCalls.map (·.callId)).Nodup)
    ⟨fun ⟨a, b, c, d, e, f⟩ => ⟨a, b, c, d, e, f⟩, fun ⟨a, b, c, d, e, f⟩ => ⟨a, b, c, d, e, f⟩⟩

/-- The pending provenance, each call's occurrences once and without the empty ones. -/
def provenanceByCall (pending : PendingPublication) : Dict String (List String) :=
  Dict.ofPairs (pending.publicationProvenance.entries.map fun e =>
    (e.1, fromKeys (e.2.filter (· ≠ ""))))

def entryFor (pending : PendingPublication) (callId name digest : String) : ProvenanceEntry :=
  { name, contentSha256 := digest
    sourceOccurrenceIds := ((provenanceByCall pending).get? callId).getD []
    checkpoint := pending.checkpoint }

def stagedEntries (pending : PendingPublication) (callIds names digests : List String) :
    Dict String ProvenanceEntry :=
  Dict.ofPairs ((callIds.zip (names.zip digests)).map fun e => (e.1, entryFor pending e.1 e.2.1 e.2.2))

/-- `e` reuses a committed call id for something else. -/
def Conflicts (committed : Dict String ProvenanceEntry) (e : String × ProvenanceEntry) : Prop :=
  e.1 ∈ committed.keys ∧ committed.get? e.1 ≠ some e.2

instance (committed : Dict String ProvenanceEntry) (e : String × ProvenanceEntry) :
    Decidable (Conflicts committed e) := inferInstanceAs (Decidable (_ ∧ _))

/-- The commit of a certified batch. -/
def commitEntries (staged : Dict String ProvenanceEntry) : Script Sidecar PublishRaised Unit := do
  let s ← getStore
  match s.published with
  | none => raise (.runtimeError "no run-scoped provenance sidecar is bound")
  | some committed =>
    if ∃ e ∈ staged.entries, Conflicts committed e then
      raise (.runtimeError "published tool_call_id was reused")
    else setStore { s with published := some (committed.updateAll staged) }

/-- `record_tool_batch_publication` with a batch pending, which is pending no more. -/
def recordPending (h : Hashing γ) (pending : PendingPublication) (toolCalls : List ToolCall)
    (toolOutputs : List (ToolMessage γ)) : Script Sidecar PublishRaised Unit := do
  setPending none
  let digests ← ofExcept .notCanonical (toolOutputs.mapM fun output => h.ofCanonical output.content)
  if ¬ Certified pending toolCalls toolOutputs digests then
    raise (.runtimeError "ToolMessage batch differs from reducer batch")
  else if ∃ callId ∈ (provenanceByCall pending).keys, callId ∉ toolCalls.map (·.callId) then
    raise (.runtimeError "provenance names a call outside the batch")
  else
    commitEntries (stagedEntries pending (toolCalls.map (·.callId))
      (toolOutputs.map (·.messageName)) digests)

def recordToolBatchPublication (h : Hashing γ) (toolCalls : List ToolCall)
    (toolOutputs : List (ToolMessage γ)) : Script Sidecar PublishRaised Unit := do
  let s ← getStore
  match s.pending with
  | none => pure ()
  | some pending => recordPending h pending toolCalls toolOutputs

end

/-! ## Runs -/

inductive Call (γ : Type)
  | reduce (call : ReduceCall γ)
  | record (toolCalls : List ToolCall) (toolOutputs : List (ToolMessage γ))

/-- The sidecar after a call, whether it returned or raised. -/
def step {γ : Type} (h : Hashing γ) (s : Sidecar) : Call γ → Sidecar
  | .reduce call => (reducePublishedBatch h call).after s
  | .record toolCalls toolOutputs => (recordToolBatchPublication h toolCalls toolOutputs).after s

end Shapeflow.Publication
