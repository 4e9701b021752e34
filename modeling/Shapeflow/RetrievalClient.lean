import Shapeflow.RetrievalService

set_option autoImplicit false

/-!
# The retrieval client

What the client makes of a body it received: the identity block it verifies
once, and the closed schema every search response has to fit.
-/
namespace Shapeflow.Retrieval
open Py Canonical Utf8

inductive RowError
  | notObject
  | unenumerated (fields : List PyStr)
  | missing (fields : List String)
  | notText (field : String)
  | emptyDocid
  | notDerived (occurrenceId : PyStr)
  | otherRank
  | notNumeric
  | notFinite
  | tooLargeForFloat
  | repeated (docid : PyStr)
deriving DecidableEq, Repr

inductive ClientError
  | emptyQuery
  | notPositive (maxResults : ℤ)
  | notJson
  | notObject
  | noIdentity
  | notDigest (retrieverId : PyStr)
  | identityNotCanonical
  | notTheDigest (retrieverId recomputed : PyStr)
  | otherRetriever (retrieverId : PyStr)
  | noFreeze
  | otherFreeze
  | freezeNotInForce
  | unenumerated (fields : List PyStr)
  | missing (fields : List String)
  | otherQuery
  | otherTopK
  | resultsNotList
  | otherCount
  | tooMany (results : ℕ)
  | row (position : ℕ) (error : RowError)
deriving DecidableEq, Repr

def responseFields : List String := ["query", "top_k", "count", "retriever_id", "results"]

def resultFields : List String := ["docid", "rank", "score", "url", "title", "snippet", "text", "occurrence_id"]

def textFields : List String := ["docid", "url", "title", "snippet", "text", "occurrence_id"]

/-- `[0-9a-f]{64}` -/
def isHex64 (s : PyStr) : Bool :=
  s.length = 64 ∧ s.all fun c => (48 ≤ c.val ∧ c.val ≤ 57) ∨ (97 ≤ c.val ∧ c.val ≤ 102)

/-- `_HEX64.match`: `$` also stands before a newline that ends the text. -/
def matchesHex64 (s : PyStr) : Bool := isHex64 s || (s.getLast? = some (codePoint 10) && isHex64 s.dropLast)

def isText : Json → Bool
  | .str _ => true
  | _ => false

def textOf : Json → PyStr
  | .str s => s
  | _ => []

def unenumeratedIn (ms : Members) (fields : List String) : List PyStr :=
  (ms.map Prod.fst).filter (· ∉ fields.map pyStr)

def missingFrom (ms : Members) (fields : List String) : List String :=
  fields.filter fun field => pyStr field ∉ ms.map Prod.fst

/-- `json.loads(raw.decode("utf-8"))`, and it must be an object. -/
def receive (floats : FloatText) (raw : ByteArray) : Except ClientError Members :=
  match loadBytes floats raw with
  | none => .error .notJson
  | some (.obj ms) => .ok ms
  | some _ => .error .notObject

/-! ## Identity -/

structure Pins where
  expectedRetrieverId : PyStr
  expectedFreezeDigest : PyStr
  requireEffectiveFreeze : Bool

/-- `_require_id_summarises_identity` -/
def requireIdSummarisesIdentity (sha256Hex : ByteArray → String) (floats : FloatText) (retrieverId : PyStr)
    (identity : Members) : Except ClientError Unit :=
  match canonicalJson floats (ofJson (.obj identity)) with
  | .error _ => .error .identityNotCanonical
  | .ok raw =>
    if pyStr (sha256Hex raw) = retrieverId then pure () else .error (.notTheDigest retrieverId (pyStr (sha256Hex raw)))

/-- The freeze checks of `verify`. -/
def checkFreeze (pins : Pins) (freeze : Json) : Except ClientError Unit := do
  if pins.expectedFreezeDigest ≠ [] then
    match freeze with
    | .obj ms => if equalsText pins.expectedFreezeDigest (Members.get ms "digest") then pure () else throw .otherFreeze
    | _ => throw .noFreeze
  if pins.requireEffectiveFreeze then
    match freeze with
    | .obj ms => if (Members.get ms "effective").truthy then pure () else throw .freezeNotInForce
    | _ => throw .noFreeze

/-- `verify`: the retriever id of a health answer that passed. -/
def verify (sha256Hex : ByteArray → String) (floats : FloatText) (pins : Pins) (health : Members) :
    Except ClientError PyStr :=
  match Members.get health "retriever", Members.get health "retriever_id" with
  | .obj identity, .str retrieverId =>
    if matchesHex64 retrieverId then do
      requireIdSummarisesIdentity sha256Hex floats retrieverId identity
      if pins.expectedRetrieverId ≠ [] ∧ retrieverId ≠ pins.expectedRetrieverId then
        throw (.otherRetriever retrieverId)
      checkFreeze pins (Members.get identity "freeze")
      pure retrieverId
    else .error (.notDigest retrieverId)
  | _, _ => .error .noIdentity

/-! ## Responses -/

/-- `float(score)` of a finite number. -/
def finiteScore : Json → Except RowError ℚ
  | .int n => if floatOverflow ≤ n.natAbs then .error .tooLargeForFloat else .ok n
  | .float (.finite q) => .ok q
  | .float _ => .error .notFinite
  | _ => .error .notNumeric

/-- `row["score"] = float(score)` -/
def withScore (ms : Members) (q : ℚ) : Json :=
  .obj (ms.map fun e => if e.1 = pyStr "score" then (e.1, .float (.finite q)) else e)

/-- The docid of a row that fits the schema at its position, and the row as it is yielded. -/
def validateRow (position : ℕ) : Json → Except RowError (PyStr × Json)
  | .obj ms =>
    if unenumeratedIn ms resultFields ≠ [] then .error (.unenumerated (unenumeratedIn ms resultFields))
    else if missingFrom ms resultFields ≠ [] then .error (.missing (missingFrom ms resultFields))
    else match textFields.find? fun field => ¬ isText (Members.get ms field) with
      | some field => .error (.notText field)
      | none =>
        let docid := textOf (Members.get ms "docid")
        let occurrenceId := textOf (Members.get ms "occurrence_id")
        if docid = [] then .error .emptyDocid
        else if ¬ matchesHex64 occurrenceId then .error (.notDerived occurrenceId)
        else if ¬ equalsInt position (Members.get ms "rank") then .error .otherRank
        else do
          let q ← finiteScore (Members.get ms "score")
          pure (docid, withScore ms q)
  | _ => .error .notObject

def validateRows : List PyStr → ℕ → List Json → Except ClientError (List Json)
  | _, _, [] => pure []
  | seen, position, v :: vs =>
    match validateRow position v with
    | .error e => .error (.row position e)
    | .ok (docid, row) =>
      if docid ∈ seen then .error (.row position (.repeated docid))
      else do
        let rows ← validateRows (docid :: seen) (position + 1) vs
        pure (row :: rows)

/-- `_validate_response` -/
def validateResponse (retrieverId query : PyStr) (maxResults : ℤ) (ms : Members) : Except ClientError (List Json) :=
  if unenumeratedIn ms responseFields ≠ [] then .error (.unenumerated (unenumeratedIn ms responseFields))
  else if missingFrom ms responseFields ≠ [] then .error (.missing (missingFrom ms responseFields))
  else if ¬ equalsText query (Members.get ms "query") then .error .otherQuery
  else if ¬ equalsInt maxResults (Members.get ms "top_k") then .error .otherTopK
  else if ¬ equalsText retrieverId (Members.get ms "retriever_id") then
    .error (.otherRetriever (textOf (Members.get ms "retriever_id")))
  else match Members.get ms "results" with
    | .arr results =>
      if ¬ equalsInt results.length (Members.get ms "count") then .error .otherCount
      else if maxResults < results.length then .error (.tooMany results.length)
      else validateRows [] 1 results
    | _ => .error .resultsNotList

/-- `search_rows` of a verified client on the body the service sent. -/
def searchRows (floats : FloatText) (retrieverId query : PyStr) (maxResults : ℤ) (raw : ByteArray) :
    Except ClientError (List Json) :=
  if query.all fun c => Unicode.isSpaceCode c.val then .error .emptyQuery
  else if maxResults < 1 then .error (.notPositive maxResults)
  else do
    let payload ← receive floats raw
    validateResponse retrieverId query maxResults payload

end Shapeflow.Retrieval
