import Mathlib.Data.List.Sort
import Mathlib.Data.Set.Function
import Shapeflow.Dict
import Shapeflow.FirstOccurrences
import Shapeflow.JsonDocument

set_option autoImplicit false

/-!
# The source pool of a task

Every result a query returned becomes an occurrence. The first occurrence of a URL is what
a selector sees; the later ones stay for the audit and point at it.
-/
namespace Shapeflow.World
open Py Canonical Utf8 Fallible

structure RawResult where
  url : PyStr
  title : PyStr
  rank : ℤ
  snippet : PyStr
  rawContent : Option PyStr
  score : Option PyFloat
  publishedDate : Option PyStr

structure QueryResponse where
  querySnapshotId : PyStr
  queryText : PyStr
  results : List RawResult

inductive Visibility
  | vendorVisible
  | auditOnly
deriving DecidableEq, Repr

structure SourceOccurrence where
  occurrenceId : String
  taskId : PyStr
  querySnapshotId : PyStr
  url : PyStr
  title : Option PyStr
  rank : ℤ
  score : Option PyFloat
  publishedDate : Option PyStr
  contentHash : Option String
  snippetContent : Option PyStr
  visibility : Visibility
  duplicateOfOccurrenceId : Option String
  vendorVisibleOrder : Option ℕ
deriving DecidableEq

structure CanonicalSnapshot where
  contentHash : String
  rawContentFormat : String
  byteLen : ℕ
  objectRef : String
  normalizationVersion : String
  fetchedAtUtc : PyStr
deriving DecidableEq

structure SourcePool where
  taskId : PyStr
  occurrences : List SourceOccurrence
  snapshots : Dict String CanonicalSnapshot
deriving DecidableEq

def SourceOccurrence.Visible (o : SourceOccurrence) : Prop := o.visibility = .vendorVisible

instance : DecidablePred SourceOccurrence.Visible := fun o => inferInstanceAs (Decidable (o.visibility = .vendorVisible))

/-- Comparing `None` with anything raises. -/
def SourcePool.vendorVisible (pool : SourcePool) : Except PyError (List SourceOccurrence) :=
  let visible := pool.occurrences.filter fun o => o.Visible
  if 2 ≤ visible.length ∧ ∃ o ∈ visible, o.vendorVisibleOrder = none then .error .typeError
  else .ok (visible.insertionSort fun o p => o.vendorVisibleOrder.getD 0 ≤ p.vendorVisibleOrder.getD 0)

def SourcePool.auditGraph (pool : SourcePool) : List SourceOccurrence := pool.occurrences

/-! ## Freezing content -/

/-- What a pool is built with: the digest, the text of floats, Unicode's NFC, and the object store. -/
structure Runtime (σ ε : Type) where
  sha256Hex : ByteArray → String
  floats : FloatText
  nfc : PyStr → PyStr
  putBytes : σ → ByteArray → Except ε σ

inductive PoolError (ε : Type)
  | id (e : IdError)
  | unicodeEncodeError
  | unexpectedFormat (rawContentFormat : String)
  | store (e : ε)
deriving DecidableEq

def normalizationVersion : String := "normalize_v1"

def carriageReturn : CodePoint := codePoint 13

def lineFeed : CodePoint := codePoint 10

/-- `text.replace("\r\n", "\n")` -/
def replaceCrLf : PyStr → PyStr
  | c :: d :: r => if c = carriageReturn ∧ d = lineFeed then lineFeed :: replaceCrLf r else c :: replaceCrLf (d :: r)
  | s => s

section
variable {σ ε : Type} (rt : Runtime σ ε)

def normalizeV1 (raw : PyStr) : Except (PoolError ε) ByteArray :=
  let text := rt.nfc ((replaceCrLf raw).map fun c => if c = carriageReturn then lineFeed else c)
  if Encodable text then .ok (utf8 (text.map rawChar)) else .error .unicodeEncodeError

def contentId (raw : ByteArray) : Except IdError String := (preimage (pyStr "content") raw).map rt.sha256Hex

/-- `SnapshotStore.freeze` -/
def freeze (store : σ) (rawContent : PyStr) (rawContentFormat : String) (fetchedAtUtc : PyStr) :
    Except (PoolError ε) (CanonicalSnapshot × σ) :=
  if rawContentFormat ∉ ["markdown", "text", "dom_html"] then .error (.unexpectedFormat rawContentFormat)
  else do
    let normalized ← normalizeV1 rt rawContent
    let store ← (rt.putBytes store normalized).mapError .store
    let contentHash ← (contentId rt normalized).mapError .id
    return (⟨contentHash, rawContentFormat, normalized.size, rt.sha256Hex normalized, normalizationVersion,
      fetchedAtUtc⟩, store)

/-! ## Building the pool -/

def occurrenceFields (querySnapshotId : PyStr) (rank : ℤ) (url : PyStr) : List (String × Json) :=
  [("query_snapshot_id", .str querySnapshotId), ("rank", .int rank), ("url", .str url)]

def occurrenceId (querySnapshotId : PyStr) (rank : ℤ) (url : PyStr) : Except IdError String :=
  deriveId rt.sha256Hex rt.floats (pyStr "occurrence") (ofJson (document (occurrenceFields querySnapshotId rank url)))

/-- The locals of `build_source_pool` and the store it writes to. -/
structure Building (σ : Type) where
  pool : SourcePool
  seenUrlToWinner : Dict PyStr String
  nextVisibleOrder : ℕ
  store : σ

/-- The content hash of a result and, beside it, the state after its content was frozen. -/
def freezeContent (fetchedAtUtc : PyStr) (st : Building σ) (result : RawResult) :
    Except (PoolError ε) (Option String × Building σ) :=
  match result.rawContent with
  | none | some [] => .ok (none, st)
  | some (c :: r) => do
    let (snap, store) ← freeze rt st.store (c :: r) "markdown" fetchedAtUtc
    let snapshots := st.pool.snapshots.setDefault snap.contentHash snap
    return (some snap.contentHash, { st with pool := { st.pool with snapshots }, store })

def SourcePool.append (pool : SourcePool) (o : SourceOccurrence) : SourcePool :=
  { pool with occurrences := pool.occurrences ++ [o] }

/-- The body of the inner loop. -/
def addResult (taskId fetchedAtUtc querySnapshotId : PyStr) (st : Building σ) (result : RawResult) :
    Except (PoolError ε) (Building σ) := do
  let oid ← (occurrenceId rt querySnapshotId result.rank result.url).mapError .id
  let (contentHash, st) ← freezeContent rt fetchedAtUtc st result
  match st.seenUrlToWinner.get? result.url with
  | none =>
    return { st with
      seenUrlToWinner := st.seenUrlToWinner.set result.url oid
      pool := st.pool.append
        ⟨oid, taskId, querySnapshotId, result.url, some result.title, result.rank, result.score, result.publishedDate,
          contentHash, some result.snippet, .vendorVisible, none, some st.nextVisibleOrder⟩
      nextVisibleOrder := st.nextVisibleOrder + 1 }
  | some winner =>
    return { st with
      pool := st.pool.append
        ⟨oid, taskId, querySnapshotId, result.url, some result.title, result.rank, result.score, result.publishedDate,
          contentHash, some result.snippet, .auditOnly, some winner, none⟩ }

def emptyPool (taskId : PyStr) : SourcePool := ⟨taskId, [], Dict.empty⟩

def buildSourcePool (taskId : PyStr) (responses : List QueryResponse) (store : σ) (fetchedAtUtc : PyStr) :
    Except (PoolError ε) (SourcePool × σ) := do
  let built ← responses.foldlM
    (fun st response => response.results.foldlM (addResult rt taskId fetchedAtUtc response.querySnapshotId) st)
    ⟨emptyPool taskId, Dict.empty, 0, store⟩
  return (built.pool, built.store)

end
end Shapeflow.World
