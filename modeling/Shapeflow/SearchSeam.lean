import Shapeflow.PageStrategy
import Shapeflow.RetrievalService
import Shapeflow.ScriptRules
import Shapeflow.SharedView

set_option autoImplicit false

/-!
# The search seam

Every search result leaves for the graph through one wrapper, which bounds its
page to the shared budget and files the bounded bytes under their digest. A
checkpoint names a page by the digest of what the graph reads of it, and the
page strategies look the bytes up there.
-/
namespace Shapeflow.Seam
open Utf8 Evidence Py
open PageH (VendorVisibleResult)
open Script

/-! ## Pages by their bytes -/

/-- The id a checkpoint has for the bytes of a page. -/
def contentId (sha256Hex : ByteArray → String) (text : String) : String := sha256Hex (utf8 text.toList)

structure PageRegistry where
  text : Dict String String
  occurrence : Dict String String

def PageRegistry.empty : PageRegistry := ⟨Dict.empty, Dict.empty⟩

/-- `record`: the first writer wins, and a page with no body has no id. -/
def PageRegistry.record (sha256Hex : ByteArray → String) (pages : PageRegistry) (text occurrenceId : String) :
    PageRegistry :=
  if text = "" then pages
  else
    let id := contentId sha256Hex text
    { text := pages.text.setDefault id text
      occurrence := pages.occurrence.setDefault id (if occurrenceId = "" then id else occurrenceId) }

/-- The entries of `e` at keys that `d` does not have yet. -/
def fill (d e : Dict String String) : Dict String String := e.entries.foldl (fun d x => d.setDefault x.1 x.2) d

def PageRegistry.prefill (pages : PageRegistry) (textById occurrenceById : Dict String String) : PageRegistry :=
  ⟨fill pages.text textById, fill pages.occurrence occurrenceById⟩

def PageRegistry.textFor (pages : PageRegistry) (id : String) : String := (pages.text.get? id).getD ""

def PageRegistry.occurrenceFor (pages : PageRegistry) (id : String) : String := (pages.occurrence.get? id).getD id

/-! ## Searching -/

structure SearchRecord where
  url : String
  title : String
  content : String
  rawContent : Option String
  score : PyFloat
  occurrenceId : String

/-- An entry of `content_truncations`. -/
structure Truncation where
  reason : TruncationReason
  originalTokens : ℕ
  keptTokens : ℕ
  charTruncated : Bool
deriving DecidableEq, Repr

/-- What `on_query` is told of a query. -/
structure QueryEvent where
  query : String
  resultCount : ℕ
  maxResults : ℤ
  topic : String
  sourceOccurrenceIds : List String
deriving DecidableEq, Repr

/-- What searching reads and writes, the wrapped backend's own state in front. -/
structure SeamStore (β : Type) where
  backend : β
  pages : PageRegistry
  contentTruncations : Dict String Truncation
  queries : List QueryEvent

inductive SeamRaised (ε : Type)
  | notPositive (maxResults : ℤ)
  | otherTopK (asked installed : ℤ)
  | tooMany (results : ℕ)
  | notBounded (e : BudgetError)
  | backend (e : ε)

structure BudgetedBackend (β ε : Type) where
  backend : String → ℤ → Script β ε (List SearchRecord)
  contentBudget : Option SharedContentBudget
  tokenizer : Option Tokenizer
  topK : ℤ

section
variable {β ε α : Type}

def onBackend (body : Script β ε α) : Script (SeamStore β) (SeamRaised ε) α := fun s =>
  match body s.backend with
  | (.ok a, t) => (.ok a, { s with backend := t })
  | (.error e, t) => (.error (.backend e), { s with backend := t })

def SeamStore.registered (sha256Hex : ByteArray → String) (s : SeamStore β) (text occurrenceId : String) :
    SeamStore β :=
  { s with pages := s.pages.record sha256Hex text occurrenceId }

def truncationOf (shared : SharedContent) : Truncation :=
  ⟨shared.reason, shared.originalTokens, shared.keptTokens, shared.charTruncated⟩

/-- Only a page that lost something is noted. -/
def SeamStore.noted (s : SeamStore β) (occurrenceId : String) (shared : SharedContent) : SeamStore β :=
  if shared.reason = .none then s
  else { s with contentTruncations := s.contentTruncations.set occurrenceId (truncationOf shared) }

variable (sha256Hex : ByteArray → String) (seam : BudgetedBackend β ε)

/-- The turn of `search` for one record of the backend. -/
def bounded (record : SearchRecord) : Script (SeamStore β) (SeamRaised ε) SearchRecord :=
  let raw := record.rawContent.getD ""
  match seam.contentBudget with
  | none => do
    let s ← getStore
    setStore (s.registered sha256Hex raw record.occurrenceId)
    pure record
  | some budget =>
    if raw = "" then pure record
    else
      match applySharedBudget raw.toList budget seam.tokenizer with
      | .error e => raise (.notBounded e)
      | .ok shared => do
        let s ← getStore
        setStore ((s.noted record.occurrenceId shared).registered sha256Hex (String.ofList shared.text)
          record.occurrenceId)
        pure { record with rawContent := some (String.ofList shared.text) }

def BudgetedBackend.search (query : String) (maxResults : ℤ) :
    Script (SeamStore β) (SeamRaised ε) (List SearchRecord) :=
  if maxResults < 1 then raise (.notPositive maxResults)
  else if maxResults ≠ seam.topK then raise (.otherTopK maxResults seam.topK)
  else do
    let records ← onBackend (seam.backend query maxResults)
    if maxResults < records.length then raise (.tooMany records.length)
    else forEach (bounded sha256Hex seam) records

/-- A call of vendor's search function. -/
structure SearchCall where
  queries : List String
  maxResults : ℤ
  topic : String
  includeRawContent : Bool

def eventOf (call : SearchCall) (query : String) (records : List SearchRecord) : QueryEvent where
  query := query
  resultCount := records.length
  maxResults := call.maxResults
  topic := call.topic
  sourceOccurrenceIds := records.map (·.occurrenceId)

/-- The turn of `frozen_search_async` for one query. -/
def answerQuery (call : SearchCall) (query : String) :
    Script (SeamStore β) (SeamRaised ε) (String × List SearchRecord) := do
  let records ← seam.search sha256Hex query call.maxResults
  let s ← getStore
  setStore { s with queries := s.queries ++ [eventOf call query records] }
  pure (query, records.map fun r => if call.includeRawContent then r else { r with rawContent := none })

def frozenSearch (call : SearchCall) : Script (SeamStore β) (SeamRaised ε) (List (String × List SearchRecord)) :=
  forEach (answerQuery sha256Hex seam call) call.queries

/-- The results of one call; a call that raised has none. -/
def resultsOf : Except (SeamRaised ε) (List (String × List SearchRecord)) → List SearchRecord
  | .ok answers => answers.flatMap (·.2)
  | .error _ => []

/-- The calls of a cell in turn, with the results they hand to the graph. -/
def serve : List SearchCall → SeamStore β → List SearchRecord × SeamStore β
  | [], s => ([], s)
  | call :: calls, s =>
    let answered := frozenSearch sha256Hex seam call s
    let others := serve calls answered.2
    (resultsOf answered.1 ++ others.1, others.2)

end

/-! ## What a checkpoint captures -/

/-- The prefix of a page that vendor reads. -/
def visibleRaw (maxContentLength : ℕ) (result : SearchRecord) : Option String :=
  match result.rawContent with
  | none => none
  | some raw => if raw = "" then none else some (String.ofList (raw.toList.take maxContentLength))

/-- The turn of `visible_results` for the result at a position. -/
def visibleResult (sha256Hex : ByteArray → String) (maxContentLength order : ℕ) (result : SearchRecord) :
    VendorVisibleResult where
  vendorVisibleOrder := order
  url := result.url
  title := result.title
  snippet := result.content
  rawContentId := (visibleRaw maxContentLength result).map (contentId sha256Hex)
  sourceOccurrenceId := some result.occurrenceId

def visibleResults (sha256Hex : ByteArray → String) (maxContentLength : ℕ) (results : List SearchRecord) :
    List VendorVisibleResult :=
  results.zipIdx.map fun e => visibleResult sha256Hex maxContentLength e.2 e.1

end Shapeflow.Seam
