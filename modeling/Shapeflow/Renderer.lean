import Shapeflow.Selection
import Shapeflow.Utf8
import Mathlib.Data.List.SplitBy
import Mathlib.Data.List.Sort

set_option autoImplicit false

/-!
# Rendering evidence

Items in canonical order, adjacent ones of one source under one header, then the
gaps and the bridges. A lookup that fails and source metadata that does not
reconstruct raise.
-/
namespace Shapeflow.P1
open Utf8

/-! ## Slices -/

/-- The position a slice bound stands for in a sequence of `n` elements. -/
def sliceIndex (n : ℕ) (i : ℤ) : ℕ := if i < 0 then (i + n).toNat else min i.toNat n

/-- `text[start:stop]` -/
def sliceText (text : String) (start stop : ℤ) : List Char :=
  let cs := text.toList
  (cs.take (sliceIndex cs.length stop)).drop (sliceIndex cs.length start)

/-- `view[start:stop]` -/
def sliceBytes (view : ByteArray) (start stop : ℤ) : ByteArray :=
  view.extract (sliceIndex view.size start) (sliceIndex view.size stop)

/-! ## Metadata and errors -/

/-- Title and address of a span's source; the coordinates bind them to a compressor view. -/
structure SourceMeta where
  bindingVersion : Option String := none
  title : Option String := none
  url : Option String := none
  messageId : Option String := none
  visibleCompressorViewHash : Option String := none
  byteStart : Option ℤ := none
  byteEnd : Option ℤ := none
  titleByteStart : Option ℤ := none
  titleByteEnd : Option ℤ := none
  urlByteStart : Option ℤ := none
  urlByteEnd : Option ℤ := none
  sourceOccurrenceIds : List String := []
  sourceLabel : Option String := none
deriving DecidableEq, Repr

inductive MetaLeak
  | onContext
  | unbound
  | otherView
  | viewUnavailable
  | outsideRange
  | notReconstructed (field value : String)
deriving DecidableEq, Repr

inductive Raised
  | keyError (key : String)
  | unicodeDecodeError
  | sourceMetaLeak (spanId : String) (leak : MetaLeak)
deriving DecidableEq, Repr

/-- `record[key]` of a field that may be missing. -/
def subscript {α : Type} (key : String) : Option α → Except Raised α
  | none => .error (.keyError key)
  | some value => .ok value

structure RenderResult where
  text : String
  tokenCount : ℕ
  byteLen : ℕ
deriving DecidableEq, Repr

/-- What rendering reads beside the evidence. -/
structure RenderInputs where
  registry : Registry
  sourceTextFor : Span → Except Raised String
  labelFor : String → Except Raised String
  resolvedContextFor : Span → Except Raised (List String)
  resolvedHeadingsFor : Span → Except Raised (List String)
  countTokens : String → ℕ
  sourceMeta : Dict String SourceMeta
  visibleViews : Dict String ByteArray
  queryStatus : Dict String String

/-! ## Order and runs -/

/-- `_source_of` -/
def Span.source (span : Span) : String := firstText [span.contentHash, span.messageId] span.id

/-- `_start_end` -/
def startEnd (span : Span) : Except Raised (ℤ × ℤ) :=
  match span.charStart with
  | some start => do
    let stop ← subscript "char_end" span.charEnd
    pure (start, stop)
  | none => do
    let start ← subscript "byte_start" span.byteStart
    let stop ← subscript "byte_end" span.byteEnd
    pure (start, stop)

/-- An item with its span and where the span stands. -/
structure Placed where
  item : AggregatedItem
  span : Span
  start : ℤ
  stop : ℤ

def place (registry : Registry) (item : AggregatedItem) : Except Raised Placed := do
  let span ← subscript item.spanId (registry.get? item.spanId)
  let (start, stop) ← startEnd span
  pure ⟨item, span, start, stop⟩

/-- The renderer's `_order_key`. -/
def Placed.orderKey (p : Placed) : OrderKey :=
  let source :=
    if p.span.spanNamespace = some "VISIBLE_MESSAGE" then p.span.visibleCompressorViewHash.getD ""
    else p.span.source
  toLex (p.span.spanNamespace.getD "", toLex (source, toLex (p.start, toLex (p.stop, p.span.id))))

/-- `_canonical_order` -/
def canonicalOrder (registry : Registry) (items : List AggregatedItem) : Except Raised (List Placed) := do
  let placed ← items.mapM (place registry)
  pure (placed.insertionSort fun a b => a.orderKey ≤ b.orderKey)

/-- The span's own id, or the id it was selected by. -/
def Placed.id (p : Placed) : String := if p.span.id = "" then p.item.spanId else p.span.id

inductive SourceIdentity
  | visibleSourceRange (view : Option String) (start stop : Option ℤ) (occurrences : List String)
  | spanSource (spanNamespace : Option String) (source : String)
deriving DecidableEq, Repr

/-- `_render_source_identity` -/
def sourceIdentity (sourceMeta : Dict String SourceMeta) (p : Placed) : SourceIdentity :=
  let bound := (sourceMeta.get? p.id).filter fun m => m ≠ {}
  match bound with
  | some m =>
    if p.span.spanNamespace = some "VISIBLE_MESSAGE" then
      .visibleSourceRange m.visibleCompressorViewHash m.byteStart m.byteEnd m.sourceOccurrenceIds
    else .spanSource p.span.spanNamespace p.span.source
  | none => .spanSource p.span.spanNamespace p.span.source

/-- One source, and nothing but the whitespace a chunker leaves between. -/
def adjacent (sourceMeta : Dict String SourceMeta) (previous next : Placed) : Bool :=
  sourceIdentity sourceMeta previous = sourceIdentity sourceMeta next ∧
    0 ≤ next.start - previous.stop ∧ next.start - previous.stop ≤ 2

/-- `_contiguous_runs` -/
def contiguousRuns (sourceMeta : Dict String SourceMeta) (placed : List Placed) : List (List Placed) :=
  placed.splitBy (adjacent sourceMeta)

/-! ## Lines -/

def contextKinds : List String := ["TOOL_UNATTRIBUTED_CONTEXT", "MODEL_DERIVED_CONTEXT", "USER_CONTEXT"]

/-- `_is_non_citable_context` -/
def isNonCitableContext (span : Span) : Bool :=
  span.spanNamespace = some "VISIBLE_MESSAGE" ∧ span.kind.getD "" ∈ contextKinds

/-- `_context_header` -/
def contextHeader (kind : String) : String :=
  if kind = "TOOL_UNATTRIBUTED_CONTEXT" then "UNATTRIBUTED TOOL CONTEXT (non-citable; not source evidence):"
  else if kind = "MODEL_DERIVED_CONTEXT" then "MODEL-DERIVED CONTEXT (non-citable; not source evidence):"
  else "USER CONTEXT (non-citable; not source evidence):"

/-- `text.strip(chars)` -/
def stripChars (chars : List Char) (text : String) : String :=
  let left := text.toList.dropWhile (· ∈ chars)
  String.ofList (left.reverse.dropWhile (· ∈ chars)).reverse

/-- `_title_url` -/
def titleUrl (sourceMeta : Dict String SourceMeta) (spanId : String) : String :=
  let m := (sourceMeta.get? spanId).getD {}
  let title := m.title.getD ""
  let url := m.url.getD ""
  if title = "" ∧ url = "" then "(source)" else stripChars [' ', '—'] (title ++ " — " ++ url)

/-- One bound field of `_check_visible_provenance`. -/
def checkField (spanId field : String) (value : Option String) (start stop : Option ℤ) (view : ByteArray) :
    Except Raised Unit := do
  let first ← subscript (field ++ "_byte_start") start
  let last ← subscript (field ++ "_byte_end") stop
  match decode (sliceBytes view first last) with
  | none => .error .unicodeDecodeError
  | some actual =>
    if value.getD "" = "(untitled source)" ∧ first = last then pure ()
    else if String.ofList actual = value.getD "" then pure ()
    else .error (.sourceMetaLeak spanId (.notReconstructed field (value.getD "")))

/-- `_check_visible_provenance` -/
def checkVisibleProvenance (sourceMeta : Dict String SourceMeta) (visibleViews : Dict String ByteArray) (p : Placed) :
    Except Raised Unit :=
  match (sourceMeta.get? p.id).filter fun m => m ≠ {} with
  | none => pure ()
  | some m =>
    let leak := fun reason => Except.error (Raised.sourceMetaLeak p.id reason)
    if m.bindingVersion ≠ some "visible_source_byte_range_v1" then leak .unbound
    else if m.visibleCompressorViewHash.getD "" ≠ p.span.visibleCompressorViewHash.getD "" then leak .otherView
    else match visibleViews.get? (m.visibleCompressorViewHash.getD "") with
      | none => leak .viewUnavailable
      | some view => do
        let blockStart ← subscript "byte_start" m.byteStart
        let blockEnd ← subscript "byte_end" m.byteEnd
        if blockStart < 0 then leak .outsideRange
        else
          let start ← subscript "byte_start" p.span.byteStart
          if start < blockStart then leak .outsideRange
          else
            let stop ← subscript "byte_end" p.span.byteEnd
            if start ≤ stop ∧ stop ≤ blockEnd ∧ blockEnd ≤ view.size then
              checkField p.id "title" m.title m.titleByteStart m.titleByteEnd view
              checkField p.id "url" m.url m.urlByteStart m.urlByteEnd view
            else leak .outsideRange

/-- The relations shown with an item; one without a role is not. -/
def shownRelations (relations : List Relation) : List String :=
  (relations.filter fun r => r.2.getD "" ≠ "").map fun r =>
    if r.1 ≠ overallFacet then r.2.getD "" ++ ":" ++ r.1 else r.2.getD ""

/-- An item's own lines: its handle and annotations, its context, its bytes. -/
def itemLines (inputs : RenderInputs) (p : Placed) : Except Raised (List String) := do
  let isContext := isNonCitableContext p.span
  let label ← inputs.labelFor p.item.spanId
  let handle := if isContext then "CONTEXT ITEM (handle " ++ label ++ "; non-citable)" else "[" ++ label ++ "]"
  let shown := shownRelations p.item.relations
  let joined := ", ".intercalate shown
  let roles :=
    if shown = [] then []
    else if isContext then ["context roles: " ++ joined]
    else ["(" ++ joined ++ ")"]
  let headings ← inputs.resolvedHeadingsFor p.span
  let under := if headings = [] then [] else ["under: " ++ " > ".intercalate headings]
  let contexts ← inputs.resolvedContextFor p.span
  let body ← inputs.sourceTextFor p.span
  pure (" ".intercalate (handle :: (roles ++ under)) :: (contexts.map ("  ctx| " ++ ·) ++ [body]))

/-- The metadata checks before a run is shown. -/
def checkRun (inputs : RenderInputs) (first : Placed) (run : List Placed) : Except Raised Unit :=
  if first.span.spanNamespace = some "VISIBLE_MESSAGE" then
    if isNonCitableContext first.span then
      if run.any fun p => ((inputs.sourceMeta.get? p.item.spanId).filter fun m => m ≠ {}).isSome then
        .error (.sourceMetaLeak first.id .onContext)
      else pure ()
    else run.forM (checkVisibleProvenance inputs.sourceMeta inputs.visibleViews)
  else pure ()

def runHeader (sourceMeta : Dict String SourceMeta) (first : Placed) : String :=
  if isNonCitableContext first.span then contextHeader (first.span.kind.getD "")
  else "SOURCE: " ++ titleUrl sourceMeta first.id

def runLines (inputs : RenderInputs) : List Placed → Except Raised (List String)
  | [] => pure []
  | first :: rest => do
    checkRun inputs first (first :: rest)
    let lines ← (first :: rest).mapM (itemLines inputs)
    pure (runHeader inputs.sourceMeta first :: (lines.flatten ++ [""]))

/-- Statuses of lookups that did look at the sources. -/
def answeredStatuses : List String := ["OK", "EMPTY"]

def gapLine (queryStatus : Dict String String) (gap : ParsedGap) : String :=
  let statuses := (gap.queryAttemptIds.map fun q => (queryStatus.get? q).getD "UNKNOWN").dedup
  let note :=
    if statuses.any (· ∈ answeredStatuses) then "no evidence found"
    else "search did not complete (" ++ "/".intercalate (statuses.insertionSort (· ≤ ·)) ++ "); coverage unknown"
  "[GAP facet " ++ gap.facetId ++ "] " ++ note ++ " (" ++ ",".intercalate gap.queryAttemptIds ++ ")"

def bridgeLine (inputs : RenderInputs) (bridge : ParsedBridge) : Except Raised String := do
  let refs ← bridge.evidenceSpanIds.mapM inputs.labelFor
  pure ("[BRIDGE] " ++ bridge.text ++ " (" ++ ",".intercalate refs ++ ")")

def render (inputs : RenderInputs) (evidence : AggregatedEvidence) : Except Raised RenderResult := do
  let placed ← canonicalOrder inputs.registry evidence.items
  let runs ← (contiguousRuns inputs.sourceMeta placed).mapM (runLines inputs)
  let bridges ← evidence.bridges.mapM (bridgeLine inputs)
  let text := "\n".intercalate (runs.flatten ++ evidence.gaps.map (gapLine inputs.queryStatus) ++ bridges)
  pure ⟨text, inputs.countTokens text, text.utf8ByteSize⟩

end Shapeflow.P1
