import Shapeflow.Checkpoints

set_option autoImplicit false

/-!
# Continuation envelopes

The graph state a fork writes its report into, as it is read back: note texts are
stored as their hashes.
-/
namespace Shapeflow.Continuation
open Py Canonical Checkpoints

/-- `_NoteSlotDigest` -/
structure NoteSlotDigest where
  ordinal : ℤ
  contentSha256 : PyStr
  toolCallId : PyStr := []

def NoteSlotDigest.contentDict (slot : NoteSlotDigest) : Json :=
  document [("ordinal", .int slot.ordinal), ("content_sha256", .str slot.contentSha256),
    ("tool_call_id", .str slot.toolCallId)]

/-- An envelope that was loaded. -/
structure ContinuationEnvelope where
  taskId : PyStr
  seed : ℤ
  researchBrief : PyStr
  rootMessages : List FrozenMessage
  notes : List NoteSlotDigest
  anchorTodayStr : PyStr
  anchorEngineEpoch : PyStr
  anchorRunRef : PyStr

def ContinuationEnvelope.content (e : ContinuationEnvelope) : Json :=
  document [("task_id", .str e.taskId), ("seed", .int e.seed), ("research_brief", .str e.researchBrief),
    ("root_messages", .arr (e.rootMessages.map (·.contentDict))), ("notes", .arr (e.notes.map (·.contentDict))),
    ("anchor_today_str", .str e.anchorTodayStr), ("anchor_engine_epoch", .str e.anchorEngineEpoch),
    ("anchor_run_ref", .str e.anchorRunRef)]

section
variable (codec : Codec)

def ContinuationEnvelope.digest (e : ContinuationEnvelope) : Except IdError String :=
  deriveId codec.sha256Hex codec.floats (pyStr "c_continuation_envelope") (ofJson e.content)

/-- `str(body[key])` -/
def textItem (body : Json) (key : String) : Except PyError PyStr := do
  let v ← body.item key
  pure (toStr codec.text v)

def slotFrom (entry : Json) : Except PyError NoteSlotDigest := do
  let ordinal ← toInt codec.text (← entry.item "ordinal")
  let contentSha256 ← textItem codec entry "content_sha256"
  let toolCallId ← entry.textField codec.text "tool_call_id"
  pure ⟨ordinal, contentSha256, toolCallId⟩

/-- The envelope of a document, before its digest is looked at. -/
def rebuildFields (body : Json) : Except PyError ContinuationEnvelope := do
  let taskId ← textItem codec body "task_id"
  let seed ← toInt codec.text (← body.item "seed")
  let researchBrief ← textItem codec body "research_brief"
  let rootMessages ← (← toList (← body.item "root_messages")).mapM messageFrom
  let notes ← (← toList (← body.item "notes")).mapM (slotFrom codec)
  let anchorTodayStr ← textItem codec body "anchor_today_str"
  let anchorEngineEpoch ← textItem codec body "anchor_engine_epoch"
  let anchorRunRef ← textItem codec body "anchor_run_ref"
  pure ⟨taskId, seed, researchBrief, rootMessages, notes, anchorTodayStr, anchorEngineEpoch, anchorRunRef⟩

def rebuild (body : Json) : Except ReadError ContinuationEnvelope := (rebuildFields codec body).mapError .py

/-- `str(body.get("digest") or "")` -/
def recordedDigest (body : Json) : Except ReadError Json :=
  ((body.textField codec.text "digest").map Json.str).mapError .py

def fromDocument (body : Json) : Except ReadError ContinuationEnvelope := do
  let envelope ← rebuild codec body
  let recorded ← recordedDigest codec body
  verified (·.digest codec) recorded envelope

def get (disk : Disk) (digest : String) : Except ReadError ContinuationEnvelope :=
  readFile codec disk digest >>= fromDocument codec

end
end Shapeflow.Continuation
