import Shapeflow.Fallible
import Shapeflow.JsonDocument

set_option autoImplicit false

/-!
# Checkpoints at the two boundaries

The documents that checkpoints are stored as, and the reader that rebuilds them
and refuses one whose recorded digest disagrees.
-/
namespace Shapeflow.Checkpoints
open Py Canonical

/-! Nothing checks an annotated type: a field holds the value it was given, or that a document held. -/

structure SamplingEnvelope where
  model : Json
  temperature : Json
  topP : Json
  maxTokens : Json
  n : Json := .int 1
  seed : Json := .null

def SamplingEnvelope.content (s : SamplingEnvelope) : Json :=
  document [("model", s.model), ("temperature", s.temperature), ("top_p", s.topP), ("max_tokens", s.maxTokens),
    ("n", s.n), ("seed", s.seed)]

structure FrozenToolCall where
  id : Json
  name : Json
  argsCanonical : Json

def FrozenToolCall.content (tc : FrozenToolCall) : Json :=
  document [("id", tc.id), ("name", tc.name), ("args", tc.argsCanonical)]

structure FrozenMessage where
  role : Json
  content : Json
  toolCalls : List FrozenToolCall := []
  name : Json := .null
  toolCallId : Json := .null
  messageId : Json := .null
  additionalKwargsCanonical : Json := .str (pyStr "\x7b\x7d")
  responseMetadataCanonical : Json := .str (pyStr "\x7b\x7d")
  usageMetadataCanonical : Json := .str (pyStr "\x7b\x7d")
  artifactCanonical : Json := .null
  invalidToolCallsCanonical : Json := .str (pyStr "[]")
  status : Json := .null

def FrozenMessage.contentDict (m : FrozenMessage) : Json :=
  document [("role", m.role), ("content", m.content), ("tool_calls", .arr (m.toolCalls.map (·.content))),
    ("name", m.name), ("tool_call_id", m.toolCallId), ("message_id", m.messageId),
    ("additional_kwargs", m.additionalKwargsCanonical), ("response_metadata", m.responseMetadataCanonical),
    ("usage_metadata", m.usageMetadataCanonical), ("artifact", m.artifactCanonical),
    ("invalid_tool_calls", m.invalidToolCallsCanonical), ("status", m.status)]

structure VendorVisibleResult where
  vendorVisibleOrder : Json
  url : Json
  title : Json
  snippet : Json
  rawContentId : Json
  sourceOccurrenceId : Json := .null

def VendorVisibleResult.content (r : VendorVisibleResult) : Json :=
  document [("order", r.vendorVisibleOrder), ("url", r.url), ("title", r.title), ("snippet", r.snippet),
    ("raw_content_id", r.rawContentId), ("source_occurrence_id", r.sourceOccurrenceId)]

structure EvidenceManifest where
  spanIds : List Json

def EvidenceManifest.content (m : EvidenceManifest) : Json := document [("span_ids", .arr m.spanIds)]

structure HCheckpoint where
  taskId : Json
  researcherId : Json
  assistantTurnIndex : Json
  assistantMessage : FrozenMessage
  siblingToolCalls : List FrozenToolCall
  searchResultSets : List (Json × List VendorVisibleResult)
  nonSearchOutputs : List (Json × Json)
  researcherStateHash : Json
  sampling : SamplingEnvelope
  researcherCoordinate : Option (ℤ × ℤ × PyStr) := none

def coordinateContent (coordinate : Option (ℤ × ℤ × PyStr)) : Json :=
  coordinate.elim .null fun c => .arr [.int c.1, .int c.2.1, .str c.2.2]

namespace HCheckpoint

def fields (c : HCheckpoint) : List (String × Json) :=
  [("task_id", c.taskId), ("researcher_id", c.researcherId), ("assistant_turn_index", c.assistantTurnIndex),
    ("assistant_message", c.assistantMessage.contentDict),
    ("sibling_tool_calls", .arr (c.siblingToolCalls.map (·.content))),
    ("search_result_sets", .arr (c.searchResultSets.map fun e => .arr [e.1, .arr (e.2.map (·.content))])),
    ("non_search_outputs", .arr (c.nonSearchOutputs.map fun e => .arr [e.1, e.2])),
    ("researcher_state_hash", c.researcherStateHash), ("sampling", c.sampling.content),
    ("researcher_coordinate", coordinateContent c.researcherCoordinate)]

end HCheckpoint

structure CCheckpoint where
  taskId : Json
  researcherId : Json
  researcherMessages : List FrozenMessage
  evidenceManifest : EvidenceManifest
  queryAttemptIds : List Json
  closeReason : Json
  sampling : SamplingEnvelope

def CCheckpoint.fields (c : CCheckpoint) : List (String × Json) :=
  [("task_id", c.taskId), ("researcher_id", c.researcherId),
    ("researcher_messages", .arr (c.researcherMessages.map (·.contentDict))),
    ("evidence_manifest", c.evidenceManifest.content), ("query_attempt_ids", .arr c.queryAttemptIds),
    ("close_reason", c.closeReason), ("sampling", c.sampling.content)]

inductive Checkpoint
  | boundaryH (checkpoint : HCheckpoint)
  | boundaryC (checkpoint : CCheckpoint)

namespace Checkpoint

def kind : Checkpoint → String
  | .boundaryH _ => "H"
  | .boundaryC _ => "C"

def fields : Checkpoint → List (String × Json)
  | .boundaryH checkpoint => checkpoint.fields
  | .boundaryC checkpoint => checkpoint.fields

def content (c : Checkpoint) : Json := document c.fields

def domain : Checkpoint → String
  | .boundaryH _ => "h_checkpoint"
  | .boundaryC _ => "c_checkpoint"

end Checkpoint

/-- What reading and hashing rest on. -/
structure Codec where
  text : PyText
  floats : FloatText
  sha256Hex : ByteArray → String

inductive ReadError
  | py (e : PyError)
  | unknownKind (kind : Json)
  | digest (e : IdError)
  | digestDisagrees (recorded : Json) (digest : String)
  | notFound
  | notJson

/-! ## Writing -/

section
variable (codec : Codec)

def Checkpoint.digest (c : Checkpoint) : Except IdError String :=
  deriveId codec.sha256Hex codec.floats (pyStr c.domain) (ofJson c.content)

def documentFields (c : Checkpoint) (digest : String) : List (String × Json) :=
  ("kind", .str (pyStr c.kind)) :: ("digest", .str (pyStr digest)) :: c.fields

def toDocument (c : Checkpoint) : Except IdError Json :=
  (c.digest codec).map fun digest => document (documentFields c digest)

/-! ## Reading -/

def toolCallFrom (tc : Json) : Except PyError FrozenToolCall := do
  let id ← tc.item "id"
  let name ← tc.item "name"
  let args ← tc.item "args"
  pure ⟨id, name, args⟩

/-- `_message_from` -/
def messageFrom (body : Json) : Except PyError FrozenMessage := do
  let role ← body.item "role"
  let content ← body.item "content"
  let toolCalls ← (← body.listField "tool_calls").mapM toolCallFrom
  let name ← body.get (pyStr "name") .null
  let toolCallId ← body.get (pyStr "tool_call_id") .null
  let messageId ← body.get (pyStr "message_id") .null
  let additionalKwargs ← body.get (pyStr "additional_kwargs") (.str (pyStr "\x7b\x7d"))
  let responseMetadata ← body.get (pyStr "response_metadata") (.str (pyStr "\x7b\x7d"))
  let usageMetadata ← body.get (pyStr "usage_metadata") (.str (pyStr "\x7b\x7d"))
  let artifact ← body.get (pyStr "artifact") .null
  let invalidToolCalls ← body.get (pyStr "invalid_tool_calls") (.str (pyStr "[]"))
  let status ← body.get (pyStr "status") .null
  pure ⟨role, content, toolCalls, name, toolCallId, messageId, additionalKwargs, responseMetadata, usageMetadata,
    artifact, invalidToolCalls, status⟩

/-- `_sampling_from` -/
def samplingFrom (body : Json) : Except PyError SamplingEnvelope := do
  let model ← body.item "model"
  let temperature ← body.item "temperature"
  let topP ← body.item "top_p"
  let maxTokens ← body.item "max_tokens"
  let n ← body.get (pyStr "n") (.int 1)
  let seed ← body.get (pyStr "seed") .null
  pure ⟨model, temperature, topP, maxTokens, n, seed⟩

def resultFrom (r : Json) : Except PyError VendorVisibleResult := do
  let order ← r.item "order"
  let url ← r.item "url"
  let title ← r.item "title"
  let snippet ← r.item "snippet"
  let rawContentId ← r.item "raw_content_id"
  let sourceOccurrenceId ← r.get (pyStr "source_occurrence_id") .null
  pure ⟨order, url, title, snippet, rawContentId, sourceOccurrenceId⟩

/-- An element of `search_result_sets`: a pair, its second item a sequence of results. -/
def resultSetFrom (v : Json) : Except PyError (Json × List VendorVisibleResult) := do
  let pair ← toPair v
  let results ← (← toList pair.2).mapM resultFrom
  pure (pair.1, results)

def outputFrom (pair : Json) : Except PyError (Json × Json) := do
  let tcid ← pair.at 0
  let contentId ← pair.at 1
  pure (tcid, contentId)

def coordinateFrom : Json → Except PyError (Option (ℤ × ℤ × PyStr))
  | .null => pure none
  | coordinate => do
    let iteration ← toInt codec.text (← coordinate.at 0)
    let ordinal ← toInt codec.text (← coordinate.at 1)
    let toolCallId ← coordinate.at 2
    pure (some (iteration, ordinal, toStr codec.text toolCallId))

def hFrom (body : Json) : Except PyError HCheckpoint := do
  let taskId ← body.item "task_id"
  let researcherId ← body.item "researcher_id"
  let assistantTurnIndex ← body.item "assistant_turn_index"
  let assistantMessage ← messageFrom (← body.item "assistant_message")
  let siblingToolCalls ← (← toList (← body.item "sibling_tool_calls")).mapM toolCallFrom
  let searchResultSets ← (← toList (← body.item "search_result_sets")).mapM resultSetFrom
  let nonSearchOutputs ← (← toList (← body.item "non_search_outputs")).mapM outputFrom
  let researcherStateHash ← body.item "researcher_state_hash"
  let sampling ← samplingFrom (← body.item "sampling")
  let researcherCoordinate ← coordinateFrom codec (← body.get (pyStr "researcher_coordinate") .null)
  pure ⟨taskId, researcherId, assistantTurnIndex, assistantMessage, siblingToolCalls, searchResultSets,
    nonSearchOutputs, researcherStateHash, sampling, researcherCoordinate⟩

def cFrom (body : Json) : Except PyError CCheckpoint := do
  let taskId ← body.item "task_id"
  let researcherId ← body.item "researcher_id"
  let researcherMessages ← (← toList (← body.item "researcher_messages")).mapM messageFrom
  let spanIds ← toList (← (← body.item "evidence_manifest").item "span_ids")
  let queryAttemptIds ← toList (← body.item "query_attempt_ids")
  let closeReason ← body.item "close_reason"
  let sampling ← samplingFrom (← body.item "sampling")
  pure ⟨taskId, researcherId, researcherMessages, ⟨spanIds⟩, queryAttemptIds, closeReason, sampling⟩

/-- The checkpoint of a document, before its digest is looked at. -/
def rebuild (body : Json) : Except ReadError Checkpoint := do
  let kind ← (body.get (pyStr "kind") .null).mapError .py
  if equalsText (pyStr "H") kind then ((hFrom codec body).map Checkpoint.boundaryH).mapError .py
  else if equalsText (pyStr "C") kind then ((cFrom body).map Checkpoint.boundaryC).mapError .py
  else .error (.unknownKind kind)

/-- The digest that a document records, if any, is the one its object rebuilds to. -/
def verified {α : Type} (digestOf : α → Except IdError String) (recorded : Json) (rebuilt : α) : Except ReadError α :=
  if recorded.truthy then do
    let digest ← (digestOf rebuilt).mapError .digest
    if equalsText (pyStr digest) recorded then pure rebuilt else .error (.digestDisagrees recorded digest)
  else pure rebuilt

def recordedDigest (body : Json) : Except ReadError Json := (body.get (pyStr "digest") .null).mapError .py

def fromDocument (body : Json) : Except ReadError Checkpoint := do
  let checkpoint ← rebuild codec body
  let recorded ← recordedDigest body
  verified (·.digest codec) recorded checkpoint

/-! ## The store -/

/-- The files under the root, by the parts of their paths. -/
abbrev Disk := List String → Option ByteArray

def path (digest : String) : List String := [(digest.take 2).toString, digest ++ ".json"]

/-- `json.loads` of the file's text. -/
def readFile (disk : Disk) (digest : String) : Except ReadError Json :=
  (disk (path digest)).elim (.error .notFound) fun raw => (loadBytes codec.floats raw).elim (.error .notJson) .ok

def get (disk : Disk) (digest : String) : Except ReadError Checkpoint :=
  readFile codec disk digest >>= fromDocument codec

end
end Shapeflow.Checkpoints
