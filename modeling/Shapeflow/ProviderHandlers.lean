import Shapeflow.ObjectStore
import Shapeflow.ProviderServer
import Shapeflow.PyJson
import Shapeflow.Reconcile
import Shapeflow.Redactor

set_option autoImplicit false

/-!
# The provider server: its paid and local routes

Each route buys one call: it opens the call, answers a committed one from the
ledger, reserves, records the dispatch, and then reads the reply. What is read
from a reply may raise, and a raise between the dispatch and the last transition
leaves the attempt as it stood.
-/
namespace Shapeflow.ProviderServer
open Script Database Session ExternalCalls Py

structure ProviderConfig where
  maxConsecutiveFailures : ℤ := 5
  maxFrozenResponseBytes : ℤ := 8 * 1024 * 1024
  exaUsdWorstCase : ℚ := 7 / 1000
  tavilyCreditsWorstCase : ℚ := 2
  deepseekInputTokensWorstCase : ℚ := 32000
  deepseekOutputTokensWorstCase : ℚ := 8000
  deepseekUsdWorstCase : ℚ := 128 / 1000
  gpuSecondsWorstCase : ℚ := 900
  deepseekUsdPer1mInput : ℚ := 435 / 1000
  deepseekUsdPer1mInputCached : ℚ := 3625 / 1000000
  deepseekUsdPer1mOutput : ℚ := 87 / 100
  servedModel : PyStr := []
  disableThinking : Bool := true
  cacheIsolationEnabled : Bool := false
  cacheNamespace : PyStr := []
  modelAliases : List (PyStr × String)

structure CellRegistration where
  runId : PyStr
  taskId : PyStr
  armId : PyStr
  variantId : PyStr
  replicateId : PyStr
  workKey : PyStr
  layer : PyStr

/-- What the service is built from; the schema validator and the hashes are taken as they are. -/
structure ProviderService where
  config : ProviderConfig
  budget : Budget
  redactor : Secrets.SecretRedactor
  text : PyText
  floats : FloatText
  sha256Hex : String → String
  compressedSize : String → ℕ
  /-- The value a `REAL` column keeps of a float. -/
  column : PyFloat → ℚ
  validateRequest : (route : String) → List (PyStr × Json) → Option String
  inferenceKey : (cell op bodyHash : String) → (nonce : ℕ) → String
  cacheSalt : (namespaceId armId : PyStr) → PyStr
  hasKey : Provider → Bool

def ProviderService.redacted (svc : ProviderService) (text : String) : String :=
  String.ofList (svc.redactor.redact text.toList)

/-- The ledger of external calls over the service's store. -/
def ProviderService.calls (svc : ProviderService) : ExternalCallLedger where
  budget := svc.budget
  storeRedacted text := .ok
    ⟨svc.sha256Hex (svc.redacted text), (svc.redacted text).utf8ByteSize,
      svc.compressedSize (svc.redacted text)⟩

def ProviderService.dumps (svc : ProviderService) (v : Json) : String := String.ofList (Py.dumps svc.floats v)

structure ServiceState where
  ledger : Session Database
  objects : ObjectStore String
  consecutiveFailures : Provider → ℕ
  cells : List (PyStr × CellRegistration)
  nonce : ℕ
  /-- The attempts whose request went upstream, oldest first. -/
  dispatched : List AttemptHandle

inductive Failure
  | refused (e : ProviderError)
  | ledger (e : Stopped Raised)
  | python (e : PyError)

abbrev Handler (α : Type) : Type := Script ServiceState Failure α

/-- A ledger operation within a request. -/
def onLedger {α : Type} (x : Proc α) : Handler α := fun s =>
  match x s.ledger with
  | (.ok a, l) => (.ok a, { s with ledger := l })
  | (.error e, l) => (.error (.ledger e), { s with ledger := l })

def python {α : Type} : Except PyError α → Handler α
  | .ok a => pure a
  | .error e => raise (.python e)

def refuse {α : Type} (status : ℕ) (message : String) : Handler α := raise (.refused ⟨status, message⟩)

def update (f : ServiceState → ServiceState) : Handler Unit := fun s => (.ok (), f s)

/-- The reply of an upstream: its status, its body as a dictionary, and how long it took. -/
structure UpstreamReply where
  status : ℕ
  payload : List (PyStr × Json)
  elapsed : ℚ

/-- A reply, or the class of the exception that the transport raised. -/
abbrev Upstream : Type := Except String UpstreamReply

structure Answer where
  status : ℕ
  payload : Json

/-! ## Pieces the routes share -/

def putObject (svc : ProviderService) (text : String) : Handler Unit :=
  update fun s => { s with objects := s.objects.putBytes svc.sha256Hex (svc.redacted text) }

def placeholder : Json := .str (pyStr "@SHAPEFLOW_PROVIDER@")

/-- `str(body.pop(key, "") or "")` -/
def popText (svc : ProviderService) (body : List (PyStr × Json)) (key : String) :
    PyStr × List (PyStr × Json) :=
  (toStr svc.text ((memberD body (pyStr key) (.str [])).orElse (.str [])),
    body.filter fun e => e.1 ≠ pyStr key)

/-- The key the caller gave, or the hash of the body. -/
def callKeyFor (svc : ProviderService) (given : PyStr) (body : List (PyStr × Json)) : PyStr :=
  if given = [] then pyStr (svc.sha256Hex (svc.dumps (.obj body))) else given

def committedResponseRef (s : Database) (callId : String) : Option String :=
  match s.externalCalls.rows.find? fun r => r.callId = callId ∧ r.state = .committed with
  | none => none
  | some r => responseRef s r.committedAttemptId

def StoreError.name : StoreError → String
  | .valueError => "ValueError"
  | .keyError => "KeyError"
  | .corruptObject => "CorruptObject"

def unreadable (callId error : String) : ProviderError :=
  ⟨409, s!"call {callId} is committed but its frozen response is unreadable ({error}); refusing to pay for " ++
    "it a second time"⟩

/-- `_replayed`: the frozen response of a committed call. -/
def replayed (svc : ProviderService) (s : ServiceState) (callId : String) : Except ProviderError (Option Answer) :=
  match committedResponseRef s.ledger.store callId with
  | none => .ok none
  | some ref =>
    match ObjectStore.getBytes svc.sha256Hex s.objects ref with
    | .error e => .error (unreadable callId (StoreError.name e))
    | .ok text =>
      match loads svc.floats text.toList with
      | some payload => .ok (some ⟨200, payload⟩)
      | none => .error (unreadable callId "JSONDecodeError")

def requireClosed (svc : ProviderService) (p : Provider) : Handler Unit := do
  let s ← getStore
  match requireBreakerClosed svc.config.maxConsecutiveFailures s.ledger.store p (s.consecutiveFailures p) with
  | .error e => raise (.refused e)
  | .ok () => pure ()

def validated (svc : ProviderService) (route : String) (body : List (PyStr × Json)) : Except ProviderError Unit :=
  match svc.validateRequest route body with
  | some message => .error ⟨400, message⟩
  | none => .ok ()

def notThePlaceholder (field : String) : ProviderError :=
  ⟨400, s!"{field} must be exactly the provider placeholder; clients never hold a " ++
    "credential and must not send one"⟩

/-- `_require_placeholder` -/
def requirePlaceholder (body : List (PyStr × Json)) (field : String) : Except ProviderError Unit :=
  match memberD body (pyStr field) .null with
  | .str s => if s = pyStr "@SHAPEFLOW_PROVIDER@" then .ok () else .error (notThePlaceholder field)
  | _ => .error (notThePlaceholder field)

/-- `begin_attempt`, a call that cannot be replayed answered with 409. -/
def beginOrRefuse (svc : ProviderService) (now : ℚ) (callId : String) : Handler AttemptHandle :=
  catching (onLedger (beginAttempt svc.calls now callId)) fun
    | .ledger (.raised (.callNotReplayable _ _)) => some (refuse 409 s!"external call {callId} cannot be replayed")
    | _ => none

def reserveOrRefuse (svc : ProviderService) (now : ℚ) (attempt : AttemptHandle) (amounts : Amounts)
    (workKey : Option String) : Handler ReservationGroup :=
  catching (onLedger (reserve svc.calls now attempt amounts workKey)) fun
    | .ledger (.raised (.budgetExceeded resource _ _)) => some (refuse 429 s!"budget refused: {resource} exhausted")
    | _ => none

/-- `mark_sent`, and the request on its way. -/
def dispatch (svc : ProviderService) (now : ℚ) (attempt : AttemptHandle) (request : Json)
    (dispatchedAt proxyIngressAt : Option ℚ) : Handler Unit := do
  putObject svc (svc.dumps request)
  onLedger (markSent svc.calls now attempt (svc.dumps request) dispatchedAt proxyIngressAt)
  update fun s => { s with dispatched := s.dispatched ++ [attempt] }

/-- Sent, then silence. -/
def lostContact {α : Type} (svc : ProviderService) (now : ℚ) (attempt : AttemptHandle) (group : ReservationGroup)
    (name error : String) : Handler α := do
  onLedger (failUnknown svc.calls now attempt (some group) error)
  refuse 504 s!"{name} upstream failed after send: {error}"

/-- The texts of a response, before the database takes them. -/
structure ResponseTexts where
  providerRequestId : PyStr := []
  requestedModel : PyStr := []
  returnedModel : PyStr := []
  systemFingerprint : PyStr := []
  usageJson : String := ""
  telemetryJson : String := ""
  responseEndAt : Option ℚ := none

def ResponseTexts.bind (t : ResponseTexts) : Except PyError ResponseFields := do
  let providerRequestId ← encode t.providerRequestId
  let requestedModel ← encode t.requestedModel
  let returnedModel ← encode t.returnedModel
  let systemFingerprint ← encode t.systemFingerprint
  pure ⟨providerRequestId, requestedModel, returnedModel, systemFingerprint, t.usageJson, t.telemetryJson,
    t.responseEndAt⟩

/-- `store_response`: text that the database cannot encode raises once the blob is put. -/
def keepResponse (svc : ProviderService) (now : ℚ) (attempt : AttemptHandle) (text : String)
    (texts : ResponseTexts) : Handler Unit := do
  putObject svc text
  match texts.bind with
  | .error e => do
    let _ ← onLedger (storeText svc.calls now attempt "external_response" text)
    raise (.python e)
  | .ok fields => onLedger (storeResponse svc.calls now attempt text fields)

/-- `_frozen_response_text`; the error says how large the response is. -/
def frozenResponseText (svc : ProviderService) (payload : List (PyStr × Json)) : Except String String :=
  let text := svc.dumps (.obj payload)
  let limit := svc.config.maxFrozenResponseBytes
  if limit ≠ 0 ∧ limit < text.utf8ByteSize then
    .error (s!"response is {text.utf8ByteSize} bytes, above the {limit}-byte freeze ceiling; refusing to " ++
      "commit a body that cannot be replayed verbatim")
  else .ok text

/-- The money is settled before a response too large to freeze is refused. -/
def refuseTooLarge {α : Type} (svc : ProviderService) (now : ℚ) (p : Provider) (callId : String)
    (attempt : AttemptHandle) (group : ReservationGroup) (actuals : Amounts) (message : String) : Handler α := do
  onLedger (failAfterResponse svc.calls now attempt (some group) actuals "response_too_large" none "")
  onLedger (tx (WorkLedger.recordIncident now "ERROR" "provider_response_too_large"
    s!"{p.name} call {callId}: {message}"))
  refuse 502 s!"{p.name} response cannot be frozen: {message}"

inductive RetryDecision
  | retryAfter
  | backoff
  | failFast

def RetryDecision.value : RetryDecision → String
  | .retryAfter => "RETRY_AFTER"
  | .backoff => "BACKOFF"
  | .failFast => "FAIL_FAST"

def failFastStatuses : List ℕ := [400, 401, 402, 403, 404, 422]

def classifyStatus (status : ℕ) : RetryDecision :=
  if status = 429 then .retryAfter
  else if status ∈ failFastStatuses then .failFast
  else if 500 ≤ status ∧ status < 600 then .backoff
  else .failFast

def noteSuccess (p : Provider) : Handler Unit :=
  update fun s => { s with
    consecutiveFailures := fun q => if q = p then 0 else s.consecutiveFailures q }

/-- `_note_upstream_failure` -/
def noteFailure (svc : ProviderService) (now : ℚ) (p : Provider) (status : ℕ) : Handler Unit := do
  update fun s => { s with
    consecutiveFailures := fun q => if q = p then s.consecutiveFailures p + 1 else s.consecutiveFailures q }
  let s ← getStore
  match ← onLedger (tx (noteUpstreamFailure svc.config.maxConsecutiveFailures now p status
    (s.consecutiveFailures p))) with
  | some e => raise (.refused e)
  | none => pure ()

/-- An error reply of an upstream: settled at what it reported, noted, and passed on. -/
def errorReply (svc : ProviderService) (now : ℚ) (p : Provider) (attempt : AttemptHandle)
    (group : ReservationGroup) (actuals : Amounts) (status : ℕ) : Handler Answer := do
  onLedger (failAfterResponse svc.calls now attempt (some group) actuals s!"http_{status}" none "")
  noteFailure svc now p status
  pure ⟨status, .obj [(pyStr "error", .str (pyStr s!"{p.name} returned {status}")),
    (pyStr "retry", .str (pyStr (classifyStatus status).value))]⟩

/-- `str(payload.get(key, ""))` -/
def textOf (svc : ProviderService) (payload : List (PyStr × Json)) (key : String) : PyStr :=
  toStr svc.text (memberD payload (pyStr key) (.str []))

/-- `_float_or` -/
def floatOr (svc : ProviderService) (mapping : Json) (key : String) (default : ℚ) : Except PyError PyFloat := do
  match ← mapping.get (pyStr key) .null with
  | .null => pure (.finite default)
  | v =>
    match toFloat svc.text v with
    | .error .typeError | .error .valueError => pure (.finite default)
    | r => r

/-- What a route buys: who sells it, under what key, for how much, and how its reply is read. -/
structure Purchase where
  provider : Provider
  opClass : String
  workKey : PyStr
  callKey : PyStr
  amounts : Amounts
  request : Json
  answered : String → AttemptHandle → ReservationGroup → UpstreamReply → Handler Answer

/-- `work_key or None` -/
def bindOptional (s : PyStr) : Except PyError (Option String) :=
  if s = [] then .ok none else (encode s).map some

/-- What follows the dispatch. -/
def received (svc : ProviderService) (clock : ℕ → ℚ) (p : Purchase) (attempt : AttemptHandle)
    (group : ReservationGroup) : Upstream → Handler Answer
  | .error error => lostContact svc (clock 4) attempt group p.provider.name error
  | .ok r => p.answered attempt.callId attempt group r

/-- An opened call is answered from the ledger, or bought. -/
def answerOrBuy (svc : ProviderService) (clock : ℕ → ℚ) (p : Purchase) (reply : Upstream) (callId : String)
    (workKey : Option String) : Handler Answer := do
  let s ← getStore
  match replayed svc s callId with
  | .error e => raise (.refused e)
  | .ok (some answer) => pure answer
  | .ok none => do
    let attempt ← beginOrRefuse svc (clock 1) callId
    let group ← reserveOrRefuse svc (clock 2) attempt p.amounts workKey
    dispatch svc (clock 3) attempt p.request none none
    received svc clock p attempt group reply

/-- The common course of the paid routes, from the call to the reply. -/
def buy (svc : ProviderService) (clock : ℕ → ℚ) (p : Purchase) (reply : Upstream) : Handler Answer := do
  let callKey ← python (encode p.callKey)
  let workKey ← python (bindOptional p.workKey)
  let callId ← onLedger (openCall svc.calls (clock 0) p.provider.name p.opClass callKey workKey)
  answerOrBuy svc clock p reply callId workKey

/-- A route to an outside provider: its credential and its breaker are looked at before the request is. -/
def sold (svc : ProviderService) (clock : ℕ → ℚ) (p : Provider) (missing : String)
    (offer : Except ProviderError Purchase) (reply : Upstream) : Handler Answer :=
  if ¬ svc.hasKey p then refuse 503 missing
  else do
    requireClosed svc p
    match offer with
    | .error e => raise (.refused e)
    | .ok purchase => buy svc clock purchase reply

/-- The response is frozen and the call committed, unless the response is too large. -/
def freezeAndCommit (svc : ProviderService) (clock : ℕ → ℚ) (p : Provider) (callId : String)
    (attempt : AttemptHandle) (group : ReservationGroup) (late actuals : Amounts)
    (payload : List (PyStr × Json)) (texts : ResponseTexts) : Handler Answer :=
  match frozenResponseText svc payload with
  | .error message => refuseTooLarge svc (clock 4) p callId attempt group late message
  | .ok text => do
    keepResponse svc (clock 4) attempt text texts
    onLedger (validate (clock 5) attempt)
    onLedger (commit svc.calls (clock 6) attempt group actuals)
    pure ⟨200, .obj payload⟩

/-! ## Exa and Tavily -/

def exaActuals : Amounts := ⟨[("exa_requests", 1), ("remote_calls", 1)], by decide⟩

def exaAnswered (svc : ProviderService) (clock : ℕ → ℚ) (callId : String) (attempt : AttemptHandle)
    (group : ReservationGroup) (r : UpstreamReply) : Handler Answer :=
  if r.status ≠ 200 then errorReply svc (clock 4) .exa attempt group exaActuals r.status
  else do
    noteSuccess .exa
    let cost ← python (floatOr svc ((memberD r.payload (pyStr "costDollars") (.obj [])).orElse (.obj [])) "total"
      svc.config.exaUsdWorstCase)
    freezeAndCommit svc clock .exa callId attempt group exaActuals
      ⟨[("exa_requests", 1), ("exa_usd", svc.column cost), ("remote_calls", 1)], by simp⟩ r.payload
      { providerRequestId := textOf svc r.payload "requestId" }

/-- What an `exa_search` request buys. -/
def exaOffer (svc : ProviderService) (clock : ℕ → ℚ) (body : List (PyStr × Json)) :
    Except ProviderError Purchase := do
  validated svc "exa.search" body
  if toStr svc.text (memberD body (pyStr "type") (.str [])) = pyStr "auto" then
    .error ⟨400, "type 'auto' is forbidden: the same query must address the same slice of the web on " ++
      "every acquisition"⟩
  else
    let (taskId, body) := popText svc body "_task_id"
    let (given, body) := popText svc body "_call_key"
    .ok
      { provider := .exa, opClass := "search", workKey := taskId, callKey := callKeyFor svc given body
        amounts := ⟨[("exa_requests", 1), ("exa_usd", svc.config.exaUsdWorstCase), ("remote_calls", 1)],
          by simp⟩
        request := .obj (Dict.assigned body (pyStr "x-api-key") placeholder)
        answered := exaAnswered svc clock }

def exaSearch (svc : ProviderService) (clock : ℕ → ℚ) (body : List (PyStr × Json)) (reply : Upstream) :
    Handler Answer :=
  sold svc clock .exa "provider has no Exa credential loaded" (exaOffer svc clock body) reply

def tavilyActuals : Amounts := ⟨[("tavily_requests", 1), ("remote_calls", 1)], by decide⟩

def tavilyAnswered (svc : ProviderService) (clock : ℕ → ℚ) (callId : String) (attempt : AttemptHandle)
    (group : ReservationGroup) (r : UpstreamReply) : Handler Answer :=
  if r.status ≠ 200 then errorReply svc (clock 4) .tavily attempt group tavilyActuals r.status
  else do
    noteSuccess .tavily
    let credits ← python (floatOr svc (memberD r.payload (pyStr "usage") (.obj [])) "credits"
      svc.config.tavilyCreditsWorstCase)
    freezeAndCommit svc clock .tavily callId attempt group tavilyActuals
      ⟨[("tavily_requests", 1), ("tavily_credits", svc.column credits), ("remote_calls", 1)], by simp⟩ r.payload
      { providerRequestId := textOf svc r.payload "request_id" }

/-- What a `tavily_search` request buys. -/
def tavilyOffer (svc : ProviderService) (clock : ℕ → ℚ) (body : List (PyStr × Json)) :
    Except ProviderError Purchase := do
  validated svc "tavily.search" body
  requirePlaceholder body "api_key"
  if (memberD body (pyStr "auto_parameters") .null).truthy then
    .error ⟨400, "auto_parameters is forbidden: the same query must address the same slice of the web on " ++
      "every acquisition"⟩
  else
    let (taskId, body) := popText svc body "_task_id"
    let (given, body) := popText svc body "_call_key"
    .ok
      { provider := .tavily, opClass := "search", workKey := taskId, callKey := callKeyFor svc given body
        amounts := ⟨[("tavily_requests", 1), ("tavily_credits", svc.config.tavilyCreditsWorstCase),
          ("remote_calls", 1)], by simp⟩
        request := .obj (Dict.assigned body (pyStr "api_key") placeholder)
        answered := tavilyAnswered svc clock }

def tavilySearch (svc : ProviderService) (clock : ℕ → ℚ) (body : List (PyStr × Json)) (reply : Upstream) :
    Handler Answer :=
  sold svc clock .tavily "provider has no Tavily credential loaded" (tavilyOffer svc clock body) reply

/-! ## DeepSeek -/

def remoteAllowedOps : List String := ["JUDGE_ATOMIZE", "JUDGE_TRUTH", "JUDGE_REPORT", "JUDGE_EXPLAIN", "TASK_AUTHOR"]

/-- `OpClass` -/
def opClasses : List String :=
  ["PAGE_P0_SUMMARY", "PAGE_P1_SELECTOR_LOCAL", "PAGE_P1_SELECTOR_GLOBAL", "PAGE_P1_SELECTOR_BATCH",
    "PAGE_P1_SHORT_PROSE", "RESEARCHER_REACT", "COMPRESSOR_P0", "COMPRESSOR_P1_SELECTOR",
    "COMPRESSOR_SHORT_PROSE", "SUPERVISOR_CONTINUE", "FINAL_WRITER"] ++ remoteAllowedOps

/-- `float(usage.get(key, 0) or 0)` -/
def usageFloat (svc : ProviderService) (usage : Json) (key : String) : Except PyError PyFloat := do
  let v ← usage.get (pyStr key) (.int 0)
  toFloat svc.text (v.orElse (.int 0))

def perMillion (price : ℚ) (x : PyFloat) : PyFloat := (x.scale (1 / 1000000)).scale price

/-- `_deepseek_actuals`: whatever is no cache hit is charged at the miss rate. -/
def deepseekActuals (svc : ProviderService) (usage : Json) : Except PyError Amounts := do
  let prompt ← usageFloat svc usage "prompt_tokens"
  let completion ← usageFloat svc usage "completion_tokens"
  let hit ← usageFloat svc usage "prompt_cache_hit_tokens"
  let hit := (hit.max (.finite 0)).min prompt
  let miss := prompt.sub hit
  let usd := ((perMillion svc.config.deepseekUsdPer1mInput miss).add
    (perMillion svc.config.deepseekUsdPer1mInputCached hit)).add
      (perMillion svc.config.deepseekUsdPer1mOutput completion)
  pure ⟨[("deepseek_requests", 1), ("deepseek_input_tokens", svc.column prompt),
    ("deepseek_output_tokens", svc.column completion), ("deepseek_usd", svc.column usd), ("remote_calls", 1)],
    by simp⟩

/-- `payload.get("usage", {}) or {}` -/
def usageOf (payload : List (PyStr × Json)) : Json := (memberD payload (pyStr "usage") (.obj [])).orElse (.obj [])

def deepseekAnswered (svc : ProviderService) (clock : ℕ → ℚ) (requestedModel : PyStr) (callId : String)
    (attempt : AttemptHandle) (group : ReservationGroup) (r : UpstreamReply) : Handler Answer := do
  let usage := usageOf r.payload
  let actuals ← python (deepseekActuals svc usage)
  if r.status ≠ 200 then errorReply svc (clock 4) .deepseek attempt group actuals r.status
  else do
    noteSuccess .deepseek
    freezeAndCommit svc clock .deepseek callId attempt group actuals actuals r.payload
      { providerRequestId := textOf svc r.payload "id", requestedModel,
        returnedModel := textOf svc r.payload "model",
        systemFingerprint := textOf svc r.payload "system_fingerprint", usageJson := svc.dumps usage }

/-- What a `deepseek_chat` request buys. -/
def deepseekOffer (svc : ProviderService) (clock : ℕ → ℚ) (body : List (PyStr × Json)) :
    Except ProviderError Purchase := do
  validated svc "deepseek.chat" body
  requirePlaceholder body "api_key"
  let opText := toStr svc.text (memberD body (pyStr "_op_class") (.str (pyStr "JUDGE_REPORT")))
  let body := body.filter fun e => e.1 ≠ pyStr "_op_class"
  match opClasses.find? fun op => pyStr op = opText with
  | none => .error ⟨400, "unknown op_class"⟩
  | some op =>
    if op ∉ remoteAllowedOps then
      .error ⟨403, s!"DeepSeek may not serve op class {op}: it authors and judges, and is never part of " ++
        "the treatment path"⟩
    else
      let (workKey, body) := popText svc body "_work_key"
      let (given, body) := popText svc body "_call_key"
      let outbound := body.filter fun e => e.1 ≠ pyStr "api_key"
      .ok
        { provider := .deepseek, opClass := op, workKey, callKey := callKeyFor svc given body
          amounts := ⟨[("deepseek_requests", 1),
            ("deepseek_input_tokens", svc.config.deepseekInputTokensWorstCase),
            ("deepseek_output_tokens", svc.config.deepseekOutputTokensWorstCase),
            ("deepseek_usd", svc.config.deepseekUsdWorstCase), ("remote_calls", 1)], by simp⟩
          request := .obj (Dict.assigned outbound (pyStr "authorization") placeholder)
          answered := deepseekAnswered svc clock (textOf svc outbound "model") }

def deepseekChat (svc : ProviderService) (clock : ℕ → ℚ) (body : List (PyStr × Json)) (reply : Upstream) :
    Handler Answer :=
  sold svc clock .deepseek "provider has no DeepSeek credential loaded" (deepseekOffer svc clock body) reply

/-- The routes to the outside providers. -/
def Provider.serve (svc : ProviderService) (clock : ℕ → ℚ) (body : List (PyStr × Json)) (reply : Upstream) :
    Provider → Handler Answer
  | .exa => exaSearch svc clock body reply
  | .tavily => tavilySearch svc clock body reply
  | .deepseek => deepseekChat svc clock body reply

/-! ## Local inference -/

/-- `_cached_tokens`; an infinite count is the one that still raises. -/
def cachedTokens (svc : ProviderService) (usage : Json) : Except PyError (Option ℤ) := do
  match ← usage.get (pyStr "prompt_tokens_details") .null with
  | .obj details =>
    match memberD details (pyStr "cached_tokens") .null with
    | .null => pure none
    | v =>
      match toInt svc.text v with
      | .ok n => pure (some n)
      | .error .typeError | .error .valueError => pure none
      | .error e => .error e
  | _ => pure none

/-- `_finish_reason`: a first choice that is no dictionary has no `get`. -/
def finishReason (svc : ProviderService) (payload : List (PyStr × Json)) : Except PyError PyStr :=
  match member payload (pyStr "choices") with
  | none => .ok []
  | some choices =>
    match first choices with
    | .error _ => .ok []
    | .ok choice => (choice.get (pyStr "finish_reason") (.str [])).map (toStr svc.text)

/-- `int(usage.get(key, 0) or 0)` -/
def usageInt (svc : ProviderService) (usage : Json) (key : String) : Except PyError ℤ := do
  let v ← usage.get (pyStr key) (.int 0)
  toInt svc.text (v.orElse (.int 0))

/-- What a chat request carries to its reply. -/
structure Inference where
  opClass : String
  cellToken : PyStr
  cell : Option CellRegistration
  requestedModel : PyStr
  promptSha : String
  ingress : ℚ
  dispatchedAt : ℚ
  responseEnd : ℚ

def seconds (q : ℚ) : Json := .float (.finite q)

def telemetryOf (svc : ProviderService) (i : Inference) (callId : String) (r : UpstreamReply) :
    Except PyError Json := do
  let usage := usageOf r.payload
  let ofCell (f : CellRegistration → PyStr) : Json := .str ((i.cell.map f).getD [])
  let prompt ← usageInt svc usage "prompt_tokens"
  let completion ← usageInt svc usage "completion_tokens"
  let cached ← cachedTokens svc usage
  let finish ← finishReason svc r.payload
  pure (.obj [(pyStr "call_id", .str (pyStr callId)), (pyStr "op_class", .str (pyStr i.opClass)),
    (pyStr "cell", .str i.cellToken), (pyStr "run_id", ofCell (·.runId)), (pyStr "task_id", ofCell (·.taskId)),
    (pyStr "arm_id", ofCell (·.armId)), (pyStr "variant_id", ofCell (·.variantId)),
    (pyStr "replicate_id", ofCell (·.replicateId)), (pyStr "work_key", ofCell (·.workKey)),
    (pyStr "layer", ofCell (·.layer)), (pyStr "requested_model", .str i.requestedModel),
    (pyStr "returned_model", .str (textOf svc r.payload "model")), (pyStr "prompt_tokens", .int prompt),
    (pyStr "completion_tokens", .int completion),
    (pyStr "cached_prompt_tokens", (cached.map Json.int).getD .null),
    (pyStr "prompt_sha256", .str (pyStr i.promptSha)), (pyStr "upstream_dispatch_ts", seconds i.dispatchedAt),
    (pyStr "upstream_response_end_ts", seconds i.responseEnd), (pyStr "proxy_ingress_ts", seconds i.ingress),
    (pyStr "queue_wait_seconds", seconds (max 0 (i.dispatchedAt - i.ingress))),
    (pyStr "elapsed_s", seconds r.elapsed), (pyStr "finish_reason", .str finish)])

def chatAnswered (svc : ProviderService) (clock : ℕ → ℚ) (i : Inference) (callId : String)
    (attempt : AttemptHandle) (group : ReservationGroup) (r : UpstreamReply) : Handler Answer := do
  let usage := usageOf r.payload
  let actualGpu := min (max 0 (i.responseEnd - i.dispatchedAt)) svc.config.gpuSecondsWorstCase
  let actuals : Amounts := ⟨[("gpu_seconds", actualGpu)], by simp⟩
  let telemetry ← python (telemetryOf svc i callId r)
  if r.status ≠ 200 then do
    onLedger (failAfterResponse svc.calls (clock 7) attempt (some group) actuals s!"http_{r.status}"
      (some i.responseEnd) (svc.dumps telemetry))
    pure ⟨r.status, .obj [(pyStr "error", .str (pyStr s!"vllm returned {r.status}"))]⟩
  else do
    keepResponse svc (clock 7) attempt (svc.dumps (.obj [(pyStr "usage", usage)]))
      { requestedModel := i.requestedModel, returnedModel := textOf svc r.payload "model"
        usageJson := svc.dumps usage, telemetryJson := svc.dumps telemetry, responseEndAt := some i.responseEnd }
    onLedger (validate (clock 8) attempt)
    onLedger (commit svc.calls (clock 9) attempt group actuals)
    pure ⟨200, .obj r.payload⟩

/-- `model.split(":")[-1]` -/
def lastSegment (s : PyStr) : PyStr := (s.reverse.takeWhile fun c => c ≠ codePoint 58).reverse

/-- The cell a token names; no token names none. -/
def cellOf (s : ServiceState) (token : PyStr) : Except ProviderError (Option CellRegistration) :=
  if token = [] then .ok none
  else match s.cells.find? fun e => e.1 = token with
    | some e => .ok (some e.2)
    | none => .error ⟨404, "cell is not registered"⟩

/-- The body sent upstream: the served model, no thinking, and the salt of the arm. -/
def outboundChat (svc : ProviderService) (cell : Option CellRegistration) (body : List (PyStr × Json)) :
    Except PyError (List (PyStr × Json)) := do
  let body := if svc.config.servedModel = [] then body
    else Dict.assigned body (pyStr "model") (.str svc.config.servedModel)
  let body ← if svc.config.disableThinking then
      match (memberD body (pyStr "chat_template_kwargs") .null).orElse (.obj []) with
      | .obj kwargs =>
        let kwargs := if (member kwargs (pyStr "enable_thinking")).isSome then kwargs
          else kwargs ++ [(pyStr "enable_thinking", .bool false)]
        pure (Dict.assigned body (pyStr "chat_template_kwargs") (.obj kwargs))
      | _ => .error .typeError
    else pure body
  let armId := (cell.map (·.armId)).getD []
  if svc.config.cacheIsolationEnabled ∧ armId ≠ [] then
    pure (Dict.assigned body (pyStr "cache_salt") (.str (svc.cacheSalt svc.config.cacheNamespace armId)))
  else pure body

def chatCompletions (svc : ProviderService) (clock : ℕ → ℚ) (body : List (PyStr × Json)) (cellToken : PyStr)
    (reply : Upstream) : Handler Answer := do
  let requestedModel := textOf svc body "model"
  match svc.config.modelAliases.find? fun e => e.1 = lastSegment requestedModel with
  | none => refuse 400 ("model is not a registered alias; every treatment request must carry an op class or " ++
      "its work cannot be attributed")
  | some (_, op) => do
    let s ← getStore
    match cellOf s cellToken with
    | .error e => raise (.refused e)
    | .ok cell => do
      update fun s => { s with nonce := s.nonce + 1 }
      let token ← python (encode (if cellToken = [] then pyStr "-" else cellToken))
      let callKey := svc.inferenceKey token op (svc.sha256Hex (svc.dumps (.obj body))) (s.nonce + 1)
      let workKey ← python (match cell with
        | none => .ok none
        | some c => (encode c.workKey).map some)
      let callId ← onLedger (openCall svc.calls (clock 1) "vllm" op callKey workKey)
      let attempt ← onLedger (beginAttempt svc.calls (clock 2) callId)
      let group ← reserveOrRefuse svc (clock 3) attempt
        ⟨[("gpu_seconds", svc.config.gpuSecondsWorstCase)], by simp⟩ workKey
      let outbound ← python (outboundChat svc cell body)
      let promptSha := svc.sha256Hex (svc.dumps (memberD outbound (pyStr "messages") (.arr [])))
      let field (key : String) : PyStr × Json := (pyStr key, memberD outbound (pyStr key) .null)
      dispatch svc (clock 5) attempt
        (.obj [field "model", (pyStr "prompt_sha256", .str (pyStr promptSha)), field "max_tokens",
          field "temperature", field "seed"]) (some (clock 4)) (some (clock 0))
      match reply with
      | .error error => do
        onLedger (failUnknown svc.calls (clock 6) attempt (some group) error)
        refuse 504 s!"vLLM failed after send: {error}"
      | .ok r =>
        chatAnswered svc clock
          { opClass := op, cellToken, cell, requestedModel, promptSha, ingress := clock 0
            dispatchedAt := clock 4, responseEnd := clock 6 } callId attempt group r

end Shapeflow.ProviderServer
