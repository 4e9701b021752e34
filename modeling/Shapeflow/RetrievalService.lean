import Shapeflow.JsonDocument
import Shapeflow.UnicodeText

set_option autoImplicit false

/-!
# The retrieval service

A dense index over a corpus, and the service that ranks it for a query and says
which index it holds. The encoder is a choice: what it scores each document with
for a query. A service exists only after its startup gates passed.
-/
namespace Shapeflow.Retrieval
open Py Canonical Utf8

/-! ## Index and corpus -/

structure Document where
  text : String
  url : String
deriving DecidableEq, Repr

structure CorpusStore where
  docs : Dict String Document
  shardSha256 : List String

structure DenseIndex where
  docids : List String
  distinct : docids.Nodup
  dim : ℕ
  shardSha256 : List String

structure SearchHit where
  docid : String
  score : PyFloat
  rank : ℕ

/-- The order of `argsort(-scores)`: a higher score first, `NaN` last. -/
def scoreLe (x y : PyFloat) : Bool := y = .nan ∨ (x ≠ .nan ∧ ¬ x.less y)

/-- `DenseIndex.search`: by docid, then stably by score. -/
def DenseIndex.search (index : DenseIndex) (scores : String → PyFloat) (topK : ℕ) : List SearchHit :=
  let order := index.docids.insertionSort (· ≤ ·)
  let candidate := (order.insertionSort fun a b => scoreLe (scores a) (scores b)).take topK
  (candidate.zipIdx 1).map fun p => ⟨p.1, scores p.1, p.2⟩

/-! ## Records -/

/-- `line.lower().startswith("title:")` -/
def isTitleLine (line : List Char) : Bool := (line.take 6).map Char.toLower = "title:".toList

/-- `_title_of` -/
def titleOf (text url : String) : String :=
  match ((Unicode.splitLines text.toList).take 6).find? isTitleLine with
  | none => url
  | some line =>
    let title := Unicode.strip (line.drop 6)
    if title = [] then url else String.ofList title

/-- `_snippet_of` -/
def snippetOf (text : String) : String :=
  let cs := text.toList
  let body :=
    if "---".toList.isPrefixOf cs then
      let rest := (Unicode.afterFirst "---".toList (cs.drop 3)).getD []
      if rest = [] then cs else rest
    else cs
  String.ofList ((Unicode.joinWords (Unicode.words body)).take 320)

/-! ## The service -/

structure EncoderSpec where
  model : String
  revision : String
  queryMaxLen : ℤ
  passageMaxLen : ℤ
  pooling : String
  normalize : Bool
  dtype : String
  paddingSide : String

/-- The checked conformance report; its two measurements are numbers of either kind. -/
structure ConformanceRecord (floats : FloatText) where
  sha256 : String
  ok : Bool
  dtype : String
  checked : ℤ
  tolerance : Json
  minCosine : Json
  rank1Count : ℤ
  finite : Admitted floats tolerance ∧ Admitted floats minCosine

structure FreezeBlock where
  digest : String
  effective : Bool
  topK : ℤ
  fullDocument : Bool

/-- What a service is built from. Every indexed docid has a document, and there is one. -/
structure Deployment where
  floats : FloatText
  sha256Hex : ByteArray → String
  index : DenseIndex
  corpus : CorpusStore
  spec : EncoderSpec
  conformance : ConformanceRecord floats
  freeze : Option FreezeBlock
  maxTopK : ℤ
  maxQueryChars : ℕ
  nonempty : index.docids ≠ []
  covered : ∀ docid ∈ index.docids, docid ∈ corpus.docs.keys

def text (s : String) : Json := .str (pyStr s)

def texts (ss : List String) : Json := .arr (ss.map text)

def queryPrefix : String :=
  "Instruct: Given a web search query, retrieve relevant passages that answer the query\nQuery:"

namespace Deployment
variable (d : Deployment)

/-- The digest of a text's bytes. -/
def textSha256 (s : String) : String := d.sha256Hex (utf8 s.toList)

def encoderContent : Json :=
  document [("model", text d.spec.model), ("revision", text d.spec.revision),
    ("query_max_len", .int d.spec.queryMaxLen), ("passage_max_len", .int d.spec.passageMaxLen),
    ("pooling", text d.spec.pooling), ("normalize", .bool d.spec.normalize), ("dtype", text d.spec.dtype),
    ("padding_side", text d.spec.paddingSide), ("query_prefix_sha256", text (d.textSha256 queryPrefix)),
    ("passage_prefix_sha256", text (d.textSha256 ""))]

def conformanceContent : Json :=
  document [("sha256", text d.conformance.sha256), ("ok", .bool d.conformance.ok),
    ("dtype", text d.conformance.dtype), ("checked", .int d.conformance.checked),
    ("tolerance", d.conformance.tolerance), ("min_cosine", d.conformance.minCosine),
    ("rank_1_count", .int d.conformance.rank1Count)]

def freezeContent : Json :=
  match d.freeze with
  | none => .null
  | some f =>
    document [("digest", text f.digest), ("effective", .bool f.effective), ("top_k", .int f.topK),
      ("full_document", .bool f.fullDocument)]

/-- `_build_identity` -/
def identity : Json :=
  document [("service_version", text "shapeflow-retrieval-service-v1"),
    ("index", document [("num_docs", .int d.index.docids.length), ("dim", .int d.index.dim),
      ("shard_sha256", texts d.index.shardSha256)]),
    ("corpus", document [("num_docs", .int d.corpus.docs.keys.length),
      ("shard_sha256", texts d.corpus.shardSha256)]),
    ("encoder", d.encoderContent), ("conformance", d.conformanceContent), ("freeze", d.freezeContent)]

end Deployment

/-- A running service: its id is the digest of its identity, and its encoder scores with doubles. -/
structure RetrievalService extends Deployment where
  retrieverId : String
  identified : (canonicalJson floats (ofJson toDeployment.identity)).map sha256Hex = .ok retrieverId
  scores : PyStr → Option (String → PyFloat)
  doubles : ∀ query f docid q, scores query = some f → f docid = .finite q → floats.IsDouble q

inductive ServiceError
  | queryNotString
  | queryEmpty
  | queryTooLong (length : ℕ)
  | topKNotInteger
  | topKNotPositive (topK : ℤ)
  | topKAboveCeiling (topK : ℤ)
  | notEncoded
  | mismatch (docid : String)
  | notCanonical (e : IdError)
  | notFinite (docid : String)
deriving DecidableEq

/-- One result as it is served. -/
structure Row where
  docid : String
  rank : ℕ
  score : PyFloat
  url : String
  title : String
  snippet : String
  text : String
  occurrenceId : String

def Row.fields (row : Row) : List (String × Json) :=
  [("docid", Retrieval.text row.docid), ("rank", .int row.rank), ("score", .float row.score),
    ("url", Retrieval.text row.url), ("title", Retrieval.text row.title),
    ("snippet", Retrieval.text row.snippet), ("text", Retrieval.text row.text),
    ("occurrence_id", Retrieval.text row.occurrenceId)]

def Row.content (row : Row) : Json := document row.fields

structure Answer where
  query : PyStr
  topK : ℤ
  results : List Row

namespace RetrievalService
variable (svc : RetrievalService)

/-- The derived id of the hit at a rank for a query. -/
def occurrenceId (query : PyStr) (topK : ℤ) (rank : ℕ) (url : String) : Except IdError String := do
  let snapshot ← deriveId svc.sha256Hex svc.floats (pyStr "query_snapshot")
    (ofJson (document [("query", .str query), ("params", document [("top_k", .int topK)]),
      ("api_version", text "bcplus-dense-v1"), ("schema_version", text "v1")]))
  deriveId svc.sha256Hex svc.floats (pyStr "occurrence")
    (ofJson (document [("query_snapshot_id", text snapshot), ("rank", .int rank), ("url", text url)]))

/-- The record the backend builds for a hit, with the hit's docid. -/
def record (query : PyStr) (topK : ℤ) (hit : SearchHit) : Except ServiceError Row :=
  match svc.corpus.docs.get? hit.docid with
  | none => .error (.mismatch hit.docid)
  | some document =>
    match svc.occurrenceId query topK hit.rank document.url with
    | .error e => .error (.notCanonical e)
    | .ok occurrence =>
      .ok ⟨hit.docid, hit.rank, hit.score, document.url, titleOf document.text document.url,
        snippetOf document.text, document.text, occurrence⟩

def checkFinite (row : Row) : Except ServiceError Row :=
  match row.score with
  | .finite _ => .ok row
  | _ => .error (.notFinite row.docid)

/-- `_ranked`: all records first, then the checks of the scores. -/
def ranked (query : PyStr) (topK : ℤ) : Except ServiceError Answer :=
  match svc.scores query with
  | none => .error .notEncoded
  | some scores => do
    let records ← (svc.index.search scores topK.toNat).mapM (svc.record query topK)
    let results ← records.mapM checkFinite
    pure ⟨query, topK, results⟩

def search (query topK : Json) : Except ServiceError Answer :=
  match query, topK with
  | .str q, .int k =>
    if q.all fun c => Unicode.isSpaceCode c.val then .error .queryEmpty
    else if svc.maxQueryChars < q.length then .error (.queryTooLong q.length)
    else if k < 1 then .error (.topKNotPositive k)
    else if svc.maxTopK < k then .error (.topKAboveCeiling k)
    else svc.ranked q k
  | .str q, _ =>
    if q.all fun c => Unicode.isSpaceCode c.val then .error .queryEmpty
    else if svc.maxQueryChars < q.length then .error (.queryTooLong q.length)
    else .error .topKNotInteger
  | _, _ => .error .queryNotString

def payloadFields (answer : Answer) : List (String × Json) :=
  [("query", .str answer.query), ("top_k", .int answer.topK), ("count", .int answer.results.length),
    ("retriever_id", text svc.retrieverId), ("results", .arr (answer.results.map Row.content))]

/-- The body of an answer with status 200. -/
def payload (answer : Answer) : Json := document (svc.payloadFields answer)

/-- What a health answer reads of the running process: its counters and how it was started. -/
structure Live (floats : FloatText) where
  warm : Bool
  searches : ℕ
  encodes : ℕ
  errors : ℕ
  /-- `round(hits / searches, 4)`, and `0.0` before the first search. -/
  hitRate : ℚ
  rounded : floats.IsDouble hitRate
  cached : ℕ
  capacity : ℕ
  device : String
  threads : ℕ
  cpuset : String

def Live.cache {floats : FloatText} (live : Live floats) : Json :=
  document [("searches", .int live.searches), ("encodes", .int live.encodes), ("errors", .int live.errors),
    ("hits", .int (live.searches - live.encodes)), ("hit_rate", .float (.finite live.hitRate)),
    ("size", .int live.cached), ("capacity", .int live.capacity)]

def serviceBlock (live : Live svc.floats) : Json :=
  document [("device", text live.device), ("threads", .int live.threads), ("cpuset", text live.cpuset),
    ("max_top_k", .int svc.maxTopK), ("max_query_chars", .int svc.maxQueryChars)]

def healthFields (live : Live svc.floats) : List (String × Json) :=
  [("status", text "ok"), ("warm", .bool live.warm), ("retriever_id", text svc.retrieverId),
    ("retriever", svc.identity), ("cache", live.cache), ("service", svc.serviceBlock live)]

def health (live : Live svc.floats) : Json := document (svc.healthFields live)

/-- `json.dumps(payload, sort_keys=True).encode("utf-8")` -/
def send (payload : Json) : ByteArray := utf8 (dumps svc.floats payload)

end RetrievalService
end Shapeflow.Retrieval
