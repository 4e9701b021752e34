import Shapeflow.ObjectStore
import Shapeflow.SearchSeamView

set_option autoImplicit false

/-!
# Replaying checkpoints

A checkpoint names its pages by digest only. They are rebuilt from the documents
a run's retrieval traces name, and what is rebuilt has to have the digest the
checkpoint recorded.
-/
namespace Shapeflow.Replay
open Evidence Py Seam
open PageH (VendorVisibleResult HCheckpoint)
open Retrieval (CorpusStore)
open Script

/-! ## Retrieval traces -/

/-- A search as the client's trace records it. -/
structure TraceRow where
  query : String
  topK : ℤ
  docids : List String
  scores : List PyFloat
  occurrenceIds : List String
deriving DecidableEq

inductive IndexError
  | notKey (key : String)
  | notParallel (query : String) (docids occurrenceIds : ℕ)
  | resolvesToBoth (occurrenceId existing docid : String)
deriving DecidableEq, Repr

structure OccurrenceIndex where
  docid : Dict String String
  rows : ℕ

def OccurrenceIndex.empty : OccurrenceIndex := ⟨Dict.empty, 0⟩

/-- The turn of `add_trace` for one result: the first writer wins, and has to be right. -/
def addResult (index : OccurrenceIndex) (result : String × String) : Except IndexError OccurrenceIndex :=
  match index.docid.get? result.1 with
  | none => .ok ⟨index.docid.set result.1 result.2, index.rows + 1⟩
  | some existing =>
    if existing = result.2 then .ok ⟨index.docid, index.rows + 1⟩
    else .error (.resolvesToBoth result.1 existing result.2)

def addRow (index : OccurrenceIndex) (row : TraceRow) : Except IndexError OccurrenceIndex :=
  if row.docids.length ≠ row.occurrenceIds.length then
    .error (.notParallel row.query row.docids.length row.occurrenceIds.length)
  else (row.occurrenceIds.zip row.docids).foldlM addResult index

def OccurrenceIndex.addTrace (index : OccurrenceIndex) (trace : List TraceRow) : Except IndexError OccurrenceIndex :=
  trace.foldlM addRow index

def OccurrenceIndex.docidFor (index : OccurrenceIndex) (occurrenceId : String) : Option String :=
  index.docid.get? occurrenceId

section
variable {γ : Type}

/-- The turn of `load_occurrence_index` for a blob: one that does not verify, or holds no cell's output, is passed
    over. -/
def addBlob (hash : γ → String) (traceOf : γ → Option (List TraceRow)) (index : OccurrenceIndex)
    (blob : ObjectStore γ × String) : Except IndexError OccurrenceIndex :=
  match blob.1.getBytes hash blob.2 with
  | .ok raw => index.addTrace ((traceOf raw).getD [])
  | .error .valueError => .error (.notKey blob.2)
  | .error .keyError => .ok index
  | .error .corruptObject => .ok index

/-- `load_occurrence_index`; a store comes with the stems of its files, in the order they are walked. -/
def loadOccurrenceIndex (hash : γ → String) (traceOf : γ → Option (List TraceRow))
    (stores : List (ObjectStore γ × List String)) : Except IndexError OccurrenceIndex :=
  (stores.flatMap fun s => s.2.map fun key => (s.1, key)).foldlM (addBlob hash traceOf) OccurrenceIndex.empty

end

/-! ## Pages -/

inductive PageStatus
  | snippetOnly
  | verified
  | noDocid
  | noDocument
  | hashMismatch
deriving DecidableEq, Repr

structure PageResolution where
  rawContentId : String
  occurrenceId : String
  status : PageStatus
  docid : String
  text : String
deriving DecidableEq, Repr

def PageResolution.usable (page : PageResolution) : Bool := page.status = .verified ∨ page.status = .snippetOnly

/-- A checkpoint as it is stored, with the digest its document carries. -/
structure StoredCheckpoint where
  digest : String
  checkpoint : HCheckpoint
deriving DecidableEq, Repr

/-- A stored document: of the kind asked for, or of another. -/
inductive StoredDocument
  | h (stored : StoredCheckpoint)
  | other
deriving DecidableEq, Repr

/-- `iter_checkpoints` of kind H; a file is its stem and, where it can be read, its document. -/
def iterCheckpoints : List String → List (String × Option StoredDocument) → List StoredCheckpoint
  | _, [] => []
  | seen, (stem, document) :: files =>
    if stem ∈ seen then iterCheckpoints seen files
    else
      match document with
      | none => iterCheckpoints seen files
      | some (.h stored) => stored :: iterCheckpoints (stem :: seen) files
      | some .other => iterCheckpoints (stem :: seen) files

structure BatchReconstruction where
  checkpointDigest : String
  taskId : String
  siblings : ℕ
  pages : List PageResolution
deriving DecidableEq, Repr

def BatchReconstruction.complete (batch : BatchReconstruction) : Bool := batch.pages.all PageResolution.usable

def BatchReconstruction.verified (batch : BatchReconstruction) : List PageResolution :=
  batch.pages.filter fun p => p.status = .verified

/-- `registry_prefill` -/
def BatchReconstruction.textById (batch : BatchReconstruction) : Dict String String :=
  Dict.ofPairs (batch.verified.map fun p => (p.rawContentId, p.text))

def BatchReconstruction.occurrenceById (batch : BatchReconstruction) : Dict String String :=
  Dict.ofPairs (batch.verified.map fun p => (p.rawContentId, p.occurrenceId))

structure PageReconstructor where
  sha256Hex : ByteArray → String
  corpus : CorpusStore
  budget : SharedContentBudget
  tokenizer : Option Tokenizer
  occurrences : OccurrenceIndex

section
variable (r : PageReconstructor)

/-- What was left of a document; a docid the corpus does not hold has no document. -/
def truncatedText (docid : String) : Except BudgetError (Option String) :=
  match r.corpus.docs.get? docid with
  | none => .ok none
  | some document =>
    match applySharedBudget document.text.toList r.budget r.tokenizer with
    | .error e => .error e
    | .ok shared => .ok (some (String.ofList shared.text))

/-- The truncated text of a document, from `_text_by_docid` where it is there. -/
def textByDocid (docid : String) : Script (Dict String String) BudgetError (Option String) :=
  memoise (truncatedText r) docid

/-- What the text found for a page makes of it. -/
def resolution (rawContentId occurrenceId docid : String) : Option String → PageResolution
  | none => ⟨rawContentId, occurrenceId, .noDocument, docid, ""⟩
  | some text =>
    if contentId r.sha256Hex text ≠ rawContentId then ⟨rawContentId, occurrenceId, .hashMismatch, docid, ""⟩
    else ⟨rawContentId, occurrenceId, .verified, docid, text⟩

def resolve (result : VendorVisibleResult) : Script (Dict String String) BudgetError PageResolution :=
  let rawContentId := result.rawContentId.getD ""
  let occurrenceId := result.sourceOccurrenceId.getD ""
  if rawContentId = "" then pure ⟨"", occurrenceId, .snippetOnly, "", ""⟩
  else
    match r.occurrences.docidFor occurrenceId with
    | none => pure ⟨rawContentId, occurrenceId, .noDocid, "", ""⟩
    | some docid => do
      let text ← textByDocid r docid
      pure (resolution r rawContentId occurrenceId docid text)

def pagesOf (document : HCheckpoint) : List VendorVisibleResult := document.searchResultSets.flatMap (·.2)

def batchOf (stored : StoredCheckpoint) (pages : List PageResolution) : BatchReconstruction :=
  ⟨stored.digest, stored.checkpoint.taskId, stored.checkpoint.searchResultSets.length, pages⟩

def rebuild (stored : StoredCheckpoint) : Script (Dict String String) BudgetError BatchReconstruction := do
  let pages ← forEach (resolve r) (pagesOf stored.checkpoint)
  pure (batchOf stored pages)

/-! ## The walk over the checkpoints -/

/-- A trial: a whole batch, and the registry its strategy reads. -/
structure Trial where
  stored : StoredCheckpoint
  batch : BatchReconstruction
  pages : PageRegistry

/-- What the walk keeps between batches. -/
structure WalkStore where
  texts : Dict String String
  pages : PageRegistry

/-- The turn of the walk for one checkpoint: a whole batch that has no trial yet is replayed, over all the pages
    filled in so far. -/
def replay (done : StoredCheckpoint → Bool) (stored : StoredCheckpoint) :
    Script WalkStore BudgetError (Option Trial) := fun s =>
  match rebuild r stored s.texts with
  | (.error e, texts) => (.error e, { s with texts := texts })
  | (.ok batch, texts) =>
    if ¬ batch.complete ∨ done stored then (.ok none, { s with texts := texts })
    else
      let pages := s.pages.prefill batch.textById batch.occurrenceById
      (.ok (some ⟨stored, batch, pages⟩), ⟨texts, pages⟩)

def walk (done : StoredCheckpoint → Bool) (documents : List StoredCheckpoint) :
    Script WalkStore BudgetError (List (Option Trial)) := forEach (replay r done) documents

end

end Shapeflow.Replay
