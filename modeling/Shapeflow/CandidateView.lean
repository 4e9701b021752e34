import Shapeflow.Renderer

set_option autoImplicit false

/-!
# The offered candidate view

The candidates as the selector saw them, their bytes already resolved, and the
registry and frozen storage they were resolved from. The registry is shared with
whoever built the view and may have changed since.
-/
namespace Shapeflow.P1
open Utf8

structure OfferedCandidate where
  label : String
  publicationHandle : String
  spanId : String
  spanNamespace : String
  text : String
  originKind : String
  messageRole : String
  headingPath : List String
  context : List String
deriving DecidableEq, Repr

/-- The digests: of bytes, and of the source metadata. -/
structure Digests where
  sha256Hex : ByteArray → String
  sourceMetaSha256 : Dict String SourceMeta → String

structure CandidateViewRecord where
  spanNamespace : String
  candidates : List OfferedCandidate
  registry : Registry
  countTokens : String → ℕ
  queryStatus : Dict String String
  sourceMeta : Dict String SourceMeta
  sourceMetaSha256 : String
  visibleViews : Dict String ByteArray
  snapshotTexts : Dict String String

inductive ViewConstructionError
  | unresolvable (spanId : String)
  | unknownNamespace (spanId : String) (spanNamespace : Option String)
  | foreignRef (spanId kind contentHash source : String)
  | refUnavailable (spanId kind contentHash : String)
  | refOutOfBounds (spanId kind : String) (start stop : ℤ)
  | refMismatch (spanId kind : String)
deriving DecidableEq, Repr

/-- `_source_of` of the view. -/
def viewSource (span : Span) : String := firstText [span.contentHash, span.visibleCompressorViewHash] ""

/-- `_resolve_body` -/
def resolveBody (snapshotTexts : Dict String String) (visibleViews : Dict String ByteArray) (span : Span) :
    Except ViewConstructionError String :=
  let body? : Option String :=
    if span.spanNamespace = some "RAW_SOURCE" then do
      let text ← snapshotTexts.get? (← span.contentHash)
      pure (String.ofList (sliceText text (← span.charStart) (← span.charEnd)))
    else do
      let view ← visibleViews.get? (← span.visibleCompressorViewHash)
      let body ← decode (sliceBytes view (← span.byteStart) (← span.byteEnd))
      pure (String.ofList body)
  if span.spanNamespace = some "RAW_SOURCE" ∨ span.spanNamespace = some "VISIBLE_MESSAGE" then
    match body? with
    | none => .error (.unresolvable span.id)
    | some body => .ok body
  else .error (.unknownNamespace span.id span.spanNamespace)

/-- One ref of `_resolve_refs`. -/
def resolveRef (sha256Hex : ByteArray → String) (snapshotTexts : Dict String String) (span : Span) (kind : String)
    (ref : EvidenceRef) : Except ViewConstructionError String :=
  if ref.contentHash ≠ viewSource span then .error (.foreignRef span.id kind ref.contentHash (viewSource span))
  else match snapshotTexts.get? ref.contentHash with
    | none => .error (.refUnavailable span.id kind ref.contentHash)
    | some text =>
      if 0 ≤ ref.charStart ∧ ref.charStart ≤ ref.charEnd ∧ ref.charEnd ≤ text.length then
        let exact := sliceText text ref.charStart ref.charEnd
        if sha256Hex (utf8 exact) = ref.textSha256 then .ok (String.ofList exact)
        else .error (.refMismatch span.id kind)
      else .error (.refOutOfBounds span.id kind ref.charStart ref.charEnd)

def resolveRefs (sha256Hex : ByteArray → String) (snapshotTexts : Dict String String) (span : Span) (kind : String)
    (refs : List EvidenceRef) : Except ViewConstructionError (List String) :=
  refs.mapM (resolveRef sha256Hex snapshotTexts span kind)

namespace CandidateViewRecord
variable (view : CandidateViewRecord)

/-- `_by_id` -/
def byId : Dict String OfferedCandidate := Dict.ofPairs (view.candidates.map fun c => (c.spanId, c))

def candidateFor (spanId : String) : Except Raised OfferedCandidate := subscript spanId (view.byId.get? spanId)

def textFor (spanId : String) : Except Raised String := (view.candidateFor spanId).map (·.text)

def publicationHandleFor (spanId : String) : Except Raised String :=
  (view.candidateFor spanId).map (·.publicationHandle)

def renderInputs : RenderInputs where
  registry := view.registry
  sourceTextFor span := view.textFor span.id
  labelFor := view.publicationHandleFor
  resolvedContextFor span := (view.candidateFor span.id).map (·.context)
  resolvedHeadingsFor span := (view.candidateFor span.id).map (·.headingPath)
  countTokens := view.countTokens
  sourceMeta := view.sourceMeta
  visibleViews := view.visibleViews
  queryStatus := view.queryStatus

def render (evidence : AggregatedEvidence) : Except Raised RenderResult := P1.render view.renderInputs evidence

inductive Drift
  | sourceMeta
  | unresolvable (spanId : String) (error : ViewConstructionError)
  | changed (spanId : String)
deriving DecidableEq, Repr

/-- What a registered span now resolves to: bytes, headings and context. -/
def resolved (digests : Digests) (span : Span) :
    Except ViewConstructionError (String × List String × List String) := do
  let text ← resolveBody view.snapshotTexts view.visibleViews span
  let headings ← resolveRefs digests.sha256Hex view.snapshotTexts span "heading" span.headingRefs
  let context ← resolveRefs digests.sha256Hex view.snapshotTexts span "context" span.contextRefs
  pure (text, headings, context)

/-- `drift_errors` of one published span. -/
def driftOf (digests : Digests) (spanId : String) : Option Drift :=
  match view.byId.get? spanId, view.registry.get? spanId with
  | some candidate, some span =>
    match view.resolved digests span with
    | .error e => some (.unresolvable spanId e)
    | .ok (text, headings, context) =>
      if (text, headings, context, span.kind.getD "", span.messageRole.getD "") =
          (candidate.text, candidate.headingPath, candidate.context, candidate.originKind, candidate.messageRole)
      then none
      else some (.changed spanId)
  | _, _ => none

def driftErrors (digests : Digests) (spanIds : List String) : List Drift :=
  (if digests.sourceMetaSha256 view.sourceMeta ≠ view.sourceMetaSha256 then [Drift.sourceMeta] else []) ++
    spanIds.filterMap (view.driftOf digests)

end CandidateViewRecord
end Shapeflow.P1
