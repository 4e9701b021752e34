import Shapeflow.JsonDocument

set_option autoImplicit false

/-!
# The judge client

One judgment is bought with a bounded number of calls. Every call is recorded,
and the record is read off the reply, whatever its shape.
-/
namespace Shapeflow.Judge
open Py (PyStr PyText PyError PyFloat Json Members FloatText pyStr document first toStr toInt toDict textOr memberD)
open Canonical (CanonicalFailure canonicalJson ofJson)
open Fallible

/-! ## Sampling -/

structure SamplingEnvelope where
  temperature : PyFloat := .finite 0
  topP : PyFloat := .finite 1
  seed : Option ℤ := none
  maxTokens : Option ℤ := none
  enableThinking : Bool := false
  sendThinkingSwitch : Bool := false
  reasoningEffort : Option PyStr := none

def ofOption {α : Type} (wrap : α → Json) (a : Option α) : Json := (a.map wrap).getD .null

namespace SamplingEnvelope
variable (e : SamplingEnvelope)

/-- The envelope of retry `index`: a seed advances. -/
def forAttempt (index : ℕ) : SamplingEnvelope :=
  match e.seed with
  | none => e
  | some seed => { e with seed := some (seed + index) }

def requestFields : List (String × Json) :=
  [("temperature", .float e.temperature), ("top_p", .float e.topP)] ++
    (e.seed.map fun n => ("seed", Json.int n)).toList ++
    (e.maxTokens.map fun n => ("max_tokens", Json.int n)).toList ++
    (e.reasoningEffort.map fun s => ("reasoning_effort", Json.str s)).toList

def content : Json :=
  document [("temperature", .float e.temperature), ("top_p", .float e.topP), ("seed", ofOption .int e.seed),
    ("max_tokens", ofOption .int e.maxTokens), ("enable_thinking", .bool e.enableThinking),
    ("thinking_switch_sent", .bool e.sendThinkingSwitch), ("reasoning_effort", ofOption .str e.reasoningEffort)]

end SamplingEnvelope

/-! ## Records -/

inductive InvalidBody
  | notText
  | notJson
  | notObject
  | refused (message : String)
deriving DecidableEq, Repr

inductive Reason
  | unknown
  | http (status : ℤ)
  | outputCap
  | emptyContent
  | invalidBody (why : InvalidBody)
deriving DecidableEq, Repr

inductive AttemptOutcome
  | httpError
  | truncated
  | empty
  | invalid
  | accepted
deriving DecidableEq, Repr

structure JudgeAttempt where
  ordinal : ℕ
  promptSha256 : String
  sampling : Json
  status : ℤ
  outcome : AttemptOutcome
  returnedModel : PyStr
  systemFingerprint : PyStr
  requestId : PyStr
  usage : Py.PyDict
  responseSha256 : String
  finishReason : PyStr
  reason : Option Reason
  reasoningTokens : ℤ

structure JudgeResponse where
  data : Members
  requestedModel : PyStr
  returnedModel : PyStr
  usage : Json
  requestId : PyStr
  systemFingerprint : PyStr
  attempts : List JudgeAttempt

inductive Unavailable
  | failFast (status : ℤ) (attempts : ℕ)
  | exhausted (retries : ℕ) (last : Reason)
deriving DecidableEq, Repr

/-- What `judge` raises, or lets through. -/
inductive JudgeError
  | unavailable (why : Unavailable)
  | truncated (attempts : ℕ) (maxTokens : Option ℤ)
  | canonical (e : CanonicalFailure)
  | python (e : PyError)
deriving DecidableEq

inductive RetryDecision
  | retryAfter
  | backoff
  | failFast
deriving DecidableEq, Repr

def failFastStatuses : List ℤ := [400, 401, 402, 403, 404, 422]

def classifyStatus (status : ℤ) : RetryDecision :=
  if status = 429 then .retryAfter
  else if status ∈ failFastStatuses then .failFast
  else if 500 ≤ status ∧ status < 600 then .backoff
  else .failFast

structure DeepSeekJudge where
  model : PyStr
  apiKey : PyStr
  maxRetries : ℕ := 3
  sampling : SamplingEnvelope := {}
  model_resolved : model ≠ []

/-- What the transport brings back: a status and an object. -/
structure Reply where
  status : ℤ
  payload : Members

/-- How this Python hashes, writes floats and turns values into text. -/
structure Runtime where
  sha256Hex : ByteArray → String
  floats : FloatText
  text : PyText

/-! ## Reading a reply -/

/-- `try: x except kinds: default` -/
def caught {α : Type} (kinds : List PyError) (default : α) : Except PyError α → Except PyError α
  | .ok a => .ok a
  | .error e => if e ∈ kinds then .ok default else .error e

/-- `payload.get("usage") or {}` -/
def usageOf (payload : Members) : Json := (payload.get "usage").orElse (.obj [])

section
variable (rt : Runtime)

/-- `_reasoning_tokens` -/
def reasoningTokens (usage : Json) : Except PyError ℤ := do
  let details := (← usage.get (pyStr "completion_tokens_details") .null).orElse (.obj [])
  caught [.typeError, .valueError] 0 do
    toInt rt.text ((← details.get (pyStr "reasoning_tokens") .null).orElse (.int 0))

def lookupErrors : List PyError := [.keyError, .indexError, .typeError]

/-- `_finish_reason`: a first choice that is no dictionary has no `get`. -/
def finishReason (payload : Members) : Except PyError PyStr :=
  caught lookupErrors [] do
    let choice ← first (← (Json.obj payload).item "choices")
    choice.textField rt.text "finish_reason"

/-- `_extract_content` -/
def extractContent (payload : Members) : Except PyError Json :=
  caught lookupErrors (.str []) do
    let choice ← first (← (Json.obj payload).item "choices")
    let content ← (← choice.item "message").item "content"
    pure (content.orElse (.str []))

/-- `json.loads(content)` of a text. One with a surrogate counts as refused: its record fails either way. -/
def loadText (floats : FloatText) (s : PyStr) : Option Json :=
  match Py.encode s with
  | .ok text => Py.loads floats text.toList
  | .error _ => none

/-- The body of the `try`: parsed, an object, and valid. -/
def parsedBody (validate : Option (Members → Option String)) : Json → Except InvalidBody Members
  | .str s =>
    match loadText rt.floats s with
    | none => .error .notJson
    | some (.obj data) => (validate.bind fun v => v data).elim (.ok data) fun message => .error (.refused message)
    | some _ => .error .notObject
  | _ => .error .notText

/-- `str(payload.get(key, ""))` -/
def payloadText (payload : Members) (key : String) : PyStr := toStr rt.text (memberD payload (pyStr key) (.str []))

/-- What `record` closes over in one turn of the loop. -/
structure Turn where
  index : ℕ
  promptSha256 : String
  sampling : SamplingEnvelope
  reply : Reply

def record (t : Turn) (outcome : AttemptOutcome) (reason : Option Reason) (finish : PyStr) :
    Except JudgeError JudgeAttempt := do
  let usage ← (toDict (usageOf t.reply.payload)).mapError .python
  let response ← (canonicalJson rt.floats (ofJson (.obj t.reply.payload))).mapError .canonical
  let reasoning ← (reasoningTokens rt (usageOf t.reply.payload)).mapError .python
  return {
    ordinal := t.index
    promptSha256 := t.promptSha256
    sampling := t.sampling.content
    status := t.reply.status
    outcome := outcome
    returnedModel := payloadText rt t.reply.payload "model"
    systemFingerprint := payloadText rt t.reply.payload "system_fingerprint"
    requestId := payloadText rt t.reply.payload "id"
    usage := usage
    responseSha256 := rt.sha256Hex response
    finishReason := finish
    reason := reason
    reasoningTokens := reasoning }

/-! ## The loop -/

/-- `0.5 * (2 ** index)`: the power is made a float. -/
def backoff (index : ℕ) : Except JudgeError Unit :=
  if 2 ^ index < Py.floatOverflow then .ok () else .error (.python .overflowError)

/-- How a turn ends that raises nothing. -/
inductive TurnEnd
  | again (attempt : JudgeAttempt) (reason : Reason) (truncated : Bool)
  | done (attempt : JudgeAttempt) (data : Members)

def turn (validate : Option (Members → Option String)) (t : Turn) (made : ℕ) : Except JudgeError TurnEnd :=
  if t.reply.status ≠ 200 then do
    let attempt ← record rt t .httpError (some (.http t.reply.status)) []
    if classifyStatus t.reply.status = .failFast then .error (.unavailable (.failFast t.reply.status (made + 1)))
    else do
      backoff t.index
      return .again attempt (.http t.reply.status) false
  else do
    let finish ← (finishReason rt t.reply.payload).mapError .python
    if finish = pyStr "length" then
      return .again (← record rt t .truncated (some .outputCap) finish) .outputCap true
    else do
      let content ← (extractContent t.reply.payload).mapError .python
      if content.truthy = false then
        return .again (← record rt t .empty (some .emptyContent) finish) .emptyContent false
      else match parsedBody rt validate content with
        | .error why =>
          return .again (← record rt t .invalid (some (.invalidBody why)) finish) (.invalidBody why) false
        | .ok data => return .done (← record rt t .accepted none finish) data

variable (judge : DeepSeekJudge) (validate : Option (Members → Option String)) (system user : PyStr)

def messages : Json :=
  .arr [document [("role", .str (pyStr "system")), ("content", .str system)],
    document [("role", .str (pyStr "user")), ("content", .str user)]]

/-- `_request_body` -/
def requestBody (sampling : SamplingEnvelope) : Json :=
  document ([("model", .str judge.model), ("api_key", .str judge.apiKey), ("messages", messages system user),
      ("response_format", document [("type", .str (pyStr "json_object"))])] ++ sampling.requestFields ++
    if sampling.sendThinkingSwitch then
      [("chat_template_kwargs", document [("enable_thinking", .bool sampling.enableThinking)])]
    else [])

/-- The requests that were sent, and how the call of `judge` ended. -/
structure Judged where
  sent : List Json
  outcome : Except JudgeError JudgeResponse

/-- What the loop has gathered. -/
structure Gathered where
  sent : List Json
  attempts : List JudgeAttempt
  lastReason : Reason
  truncatedEveryTime : Bool

def exhausted (g : Gathered) : JudgeError :=
  if g.truncatedEveryTime ∧ g.attempts ≠ [] then .truncated g.attempts.length judge.sampling.maxTokens
  else .unavailable (.exhausted judge.maxRetries g.lastReason)

/-- The turns from `index` on, `left` of them, the replies as the transport gives them. -/
def judgeLoop (replies : ℕ → Reply) : ℕ → ℕ → Gathered → Judged
  | 0, _, g => ⟨g.sent, .error (exhausted judge g)⟩
  | left + 1, index, g =>
    let sampling := judge.sampling.forAttempt index
    match canonicalJson rt.floats (ofJson (messages system user)) with
    | .error e => ⟨g.sent, .error (.canonical e)⟩
    | .ok raw =>
      let reply := replies index
      let sent := g.sent ++ [requestBody judge system user sampling]
      match turn rt validate ⟨index, rt.sha256Hex raw, sampling, reply⟩ g.attempts.length with
      | .error e => ⟨sent, .error e⟩
      | .ok (.again attempt reason truncated) =>
        judgeLoop replies left (index + 1)
          ⟨sent, g.attempts ++ [attempt], reason, g.truncatedEveryTime && truncated⟩
      | .ok (.done attempt data) =>
        ⟨sent, .ok {
          data := data
          requestedModel := judge.model
          returnedModel := payloadText rt reply.payload "model"
          usage := usageOf reply.payload
          requestId := payloadText rt reply.payload "id"
          systemFingerprint := payloadText rt reply.payload "system_fingerprint"
          attempts := g.attempts ++ [attempt] }⟩

/-- `DeepSeekJudge.judge` -/
def judgeOnce (replies : ℕ → Reply) : Judged :=
  judgeLoop rt judge validate system user replies (judge.maxRetries + 1) 0 ⟨[], [], .unknown, true⟩

end
end Shapeflow.Judge
