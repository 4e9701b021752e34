import Shapeflow.BudgetPack
import Shapeflow.CandidateView

set_option autoImplicit false

/-!
# The publication preflight

Structural checks of an aggregated object against the selection it was made from
and the view it is published from. Each failed check is an error entry; a render
is handed back only beside no error at all.
-/
namespace Shapeflow.P1
open Utf8

/-- The characters `\d` and `\w` match. -/
structure TextClasses where
  isDecimal : Char → Bool
  isWord : Char → Bool

structure PreflightConfig where
  selectedTokenBudget : ℤ
  bridgeTokenCapTotal : Option ℤ
  bridgeTokenCapEach : Option ℤ
  expectedNamespace : Option String
  expectedContract : Option String

inductive RefField
  | contextRefs
  | headingRefs
deriving DecidableEq, Repr

inductive Novelty
  | entity (text : List Char)
  | number (text : List Char)
deriving DecidableEq, Repr

inductive PreflightError
  | contract (got expected : String)
  | bridgeCapsMissing
  | notInRegistry (spanId : String)
  | notSelected (spanId : String)
  | rewritten (spanId : String) (role : Option String) (facetIds : List String) (chosenRole : Option String)
      (chosenFacetIds : List String)
  | annotatedId (spanId : String)
  | idGapsOrBridges
  | gapsAltered (dropped added : List String)
  | bridgeNotSelected (text : String)
  | droppedBridgeUnknown (text : String)
  | droppedBridgeSupported (text : String)
  | droppedBridges (recorded lost : List String)
  | droppedForBudget (recorded vanished : List String)
  | notOffered (spanId : String)
  | drift (drift : CandidateViewRecord.Drift)
  | contextMarked (origin spanId : String) (roles : List String)
  | bridgeCitesContext (text : String) (spanIds : List String)
  | viewNamespace (got expected : String)
  | spanNamespace (spanId : String) (got : Option String) (expected : String)
  | snapshotUnavailable (spanId contentHash : String)
  | offsetsOutOfBounds (spanId : String) (start stop : ℤ) (length : ℕ)
  | hashMismatch (spanId : String)
  | unknownNamespace (spanId : String) (got : Option String)
  | unknownOccurrence (spanId occurrenceId : String)
  | refMissing (spanId : String) (field : RefField) (contentHash : String)
  | refOutOfBounds (spanId : String) (field : RefField) (start stop : ℤ) (length : ℕ)
  | refMismatch (spanId : String) (field : RefField)
  | oneSided (facet role : String)
  | dangling (text : String) (spanIds : List String)
  | novelty (text : String) (problem : Novelty)
  | notRendered (raised : Raised)
  | overBudget (tokenCount : ℕ) (selectedTokenBudget : ℤ)
  | bridgeOverCap (each : ℕ) (cap : ℤ)
  | bridgesOverCap (total : ℕ) (cap : ℤ)
deriving DecidableEq, Repr

structure PreflightResult where
  errors : List PreflightError
  rendered : Option RenderResult
deriving DecidableEq, Repr

/-- `span.get("span_id") or span.get("visible_span_id") or "?"` -/
def Span.shown (span : Span) : String := firstText [span.spanId, span.visibleSpanId] "?"

/-! ## Spans -/

def reconstructs (digests : Digests) (exact : ByteArray) (recorded spanId : String) : Option PreflightError :=
  if digests.sha256Hex exact = recorded then none else some (.hashMismatch spanId)

/-- `_raw_source_error` -/
def rawSourceError (digests : Digests) (snapshotTexts : Dict String String) (span : Span) :
    Except Raised (Option PreflightError) := do
  let contentHash ← subscript "content_hash" span.contentHash
  match snapshotTexts.get? contentHash with
  | none => pure (some (.snapshotUnavailable span.shown contentHash))
  | some text =>
    let start ← subscript "char_start" span.charStart
    let stop ← subscript "char_end" span.charEnd
    if 0 ≤ start ∧ start ≤ stop ∧ stop ≤ text.length then
      let recorded ← subscript "text_sha256" span.textSha256
      pure (reconstructs digests (utf8 (sliceText text start stop)) recorded span.shown)
    else pure (some (.offsetsOutOfBounds span.shown start stop text.length))

/-- `_visible_message_error` -/
def visibleMessageError (digests : Digests) (visibleViews : Dict String ByteArray) (span : Span) :
    Except Raised (Option PreflightError) := do
  let viewHash ← subscript "visible_compressor_view_hash" span.visibleCompressorViewHash
  match visibleViews.get? viewHash with
  | none => pure (some (.snapshotUnavailable span.shown viewHash))
  | some view =>
    let start ← subscript "byte_start" span.byteStart
    let stop ← subscript "byte_end" span.byteEnd
    if 0 ≤ start ∧ start ≤ stop ∧ stop ≤ view.size then
      let recorded ← subscript "exact_text_sha256" span.exactTextSha256
      pure (reconstructs digests (sliceBytes view start stop) recorded span.shown)
    else pure (some (.offsetsOutOfBounds span.shown start stop view.size))

def reconstructionError (digests : Digests) (view : CandidateViewRecord) (span : Span) :
    Except Raised (Option PreflightError) :=
  if span.spanNamespace = some "RAW_SOURCE" then rawSourceError digests view.snapshotTexts span
  else if span.spanNamespace = some "VISIBLE_MESSAGE" then visibleMessageError digests view.visibleViews span
  else pure (some (.unknownNamespace span.shown span.spanNamespace))

/-- `reconstruction_errors` -/
def reconstructionErrors (digests : Digests) (view : CandidateViewRecord) (spans : List Span) :
    Except Raised (List PreflightError) := do
  let found ← spans.mapM (reconstructionError digests view)
  pure found.reduceOption

/-- `lineage_closure_errors` -/
def lineageClosureErrors (spans : List Span) (knownOccurrenceIds : List String) : List PreflightError :=
  spans.flatMap fun span =>
    (span.sourceOccurrenceIds.filter (· ∉ knownOccurrenceIds)).map (PreflightError.unknownOccurrence span.shown)

def refError (digests : Digests) (snapshotTexts : Dict String String) (spanId : String) (field : RefField)
    (ref : EvidenceRef) : Option PreflightError :=
  match snapshotTexts.get? ref.contentHash with
  | none => some (.refMissing spanId field ref.contentHash)
  | some text =>
    if 0 ≤ ref.charStart ∧ ref.charStart ≤ ref.charEnd ∧ ref.charEnd ≤ text.length then
      if digests.sha256Hex (utf8 (sliceText text ref.charStart ref.charEnd)) = ref.textSha256 then none
      else some (.refMismatch spanId field)
    else some (.refOutOfBounds spanId field ref.charStart ref.charEnd text.length)

/-- `ref_errors` -/
def refErrors (digests : Digests) (snapshotTexts : Dict String String) (spans : List Span) : List PreflightError :=
  spans.flatMap fun span =>
    span.contextRefs.filterMap (refError digests snapshotTexts span.shown .contextRefs) ++
      span.headingRefs.filterMap (refError digests snapshotTexts span.shown .headingRefs)

/-! ## Bridges -/

/-- `\d[\d,.]*`, all matches from the left. -/
def findNumbers (classes : TextClasses) : ℕ → List Char → List (List Char)
  | _, [] => []
  | skip + 1, _ :: r => findNumbers classes skip r
  | 0, c :: r =>
    if classes.isDecimal c then
      let tail := r.takeWhile fun d => classes.isDecimal d || d = ',' || d = '.'
      (c :: tail) :: findNumbers classes tail.length r
    else findNumbers classes 0 r

/-- `[A-Za-z0-9-]` -/
def isEntityChar (c : Char) : Bool := c.isAlpha || c.isDigit || c = '-'

/-- Whether `\b` holds between two characters; at either end of the text there is none. -/
def boundary (classes : TextClasses) (left right : Option Char) : Bool :=
  left.any classes.isWord ≠ right.any classes.isWord

/-- The longest match of `[A-Za-z0-9-]{2,}\b` of at most `n` characters. -/
def entityTail (classes : TextClasses) (r : List Char) : ℕ → Option ℕ
  | n + 2 => if boundary classes r[n + 1]? r[n + 2]? then some (n + 2) else entityTail classes r (n + 1)
  | _ => none

/-- `\b[A-Z][A-Za-z0-9-]{2,}\b`, all matches from the left after `previous`. -/
def findEntities (classes : TextClasses) : ℕ → Option Char → List Char → List (List Char)
  | _, _, [] => []
  | skip + 1, _, c :: r => findEntities classes skip (some c) r
  | 0, previous, c :: r =>
    match if c.isUpper ∧ boundary classes previous (some c) then
        entityTail classes r (r.takeWhile isEntityChar).length
      else none with
    | some n => (c :: r.take n) :: findEntities classes n (some c) r
    | none => findEntities classes 0 (some c) r

def allowedCaps : List String :=
  ["The", "This", "These", "Those", "Both", "Neither", "However", "Although", "While", "Whereas", "They", "It",
    "There", "Some", "Other", "Sources", "Evidence", "Together", "One", "Two", "Three", "First", "Second", "Third",
    "Overall", "Across", "Within"]

/-- `number.rstrip(".,")` -/
def normalizedNumber (number : List Char) : List Char :=
  (number.reverse.dropWhile fun c => c = '.' || c = ',').reverse

/-- `bridge_novelty_errors`, the entities before the numbers as their messages sort. -/
def bridgeNoveltyErrors (classes : TextClasses) (text : String) (citedTexts : List String) : List Novelty :=
  let haystack := (" ".intercalate citedTexts).toList
  let entities := ((findEntities classes 0 none text.toList).dedup.filter fun e =>
    String.ofList e ∉ allowedCaps ∧ ¬ e <:+: haystack)
  let numbers := (((findNumbers classes 0 text.toList).dedup.map normalizedNumber).filter fun n =>
    n ≠ [] ∧ ¬ n <:+: haystack)
  (entities.insertionSort (· ≤ ·)).map .entity ++ (numbers.insertionSort (· ≤ ·)).map .number

/-- `body_for(registry[sid])` -/
def citedText (view : CandidateViewRecord) (spanId : String) : Except Raised String := do
  let span ← subscript spanId (view.registry.get? spanId)
  view.textFor span.id

def bridgeErrors (classes : TextClasses) (view : CandidateViewRecord) (keptIds : List String) (bridge : ParsedBridge) :
    Except Raised (List PreflightError) :=
  let dangling := bridge.evidenceSpanIds.filter (· ∉ keptIds)
  if dangling ≠ [] then pure [.dangling bridge.text dangling]
  else do
    let cited ← bridge.evidenceSpanIds.mapM (citedText view)
    pure ((bridgeNoveltyErrors classes bridge.text cited).map (PreflightError.novelty bridge.text))

/-! ## Provenance -/

/-- The check of one published item against the item the selector chose. -/
def annotationError (bySpan : Dict String ParsedItem) (item : AggregatedItem) : Option PreflightError :=
  match bySpan.get? item.spanId with
  | none => some (.notSelected item.spanId)
  | some chosen =>
    if roleOf item.relations = roleOf chosen.relations ∧ facetIdsOf item.relations = facetIdsOf chosen.relations then
      none
    else some (.rewritten item.spanId (roleOf item.relations) (facetIdsOf item.relations) (roleOf chosen.relations)
      (facetIdsOf chosen.relations))

/-- The role of an item is set and not empty, or it names a facet. -/
def annotated (item : AggregatedItem) : Bool := roleOf item.relations ≠ none ∨ facetIdsOf item.relations ≠ []

def idErrors (selection : ParsedSelection) (aggregated : AggregatedEvidence) : List PreflightError :=
  if selection.contract = "P1_ID" then
    (aggregated.items.filter fun item => annotated item).map (fun item => .annotatedId item.spanId) ++
      if aggregated.gaps ≠ [] ∨ aggregated.bridges ≠ [] then [.idGapsOrBridges] else []
  else []

def gapErrors (selection : ParsedSelection) (aggregated : AggregatedEvidence) : List PreflightError :=
  if aggregated.gaps ≠ selection.gaps then
    [.gapsAltered (((selection.gaps.filter (· ∉ aggregated.gaps)).map (·.facetId)).insertionSort (· ≤ ·))
      (((aggregated.gaps.filter (· ∉ selection.gaps)).map (·.facetId)).insertionSort (· ≤ ·))]
  else []

def Supported (publishedIds : List String) (bridge : ParsedBridge) : Prop :=
  ∀ spanId ∈ bridge.evidenceSpanIds, spanId ∈ publishedIds

instance (publishedIds : List String) : DecidablePred (Supported publishedIds) :=
  fun _ => inferInstanceAs (Decidable (∀ _ ∈ _, _))

def droppedBridgeError (declared : Dict String ParsedBridge) (publishedIds : List String) (text : String) :
    Option PreflightError :=
  match declared.get? text with
  | none => some (.droppedBridgeUnknown text)
  | some bridge => if Supported publishedIds bridge then some (.droppedBridgeSupported text) else none

/-- Equal as sets. -/
def SameSet (xs ys : List String) : Prop := (∀ x ∈ xs, x ∈ ys) ∧ ∀ y ∈ ys, y ∈ xs

instance (xs ys : List String) : Decidable (SameSet xs ys) := instDecidableAnd

def sortedSetOf (xs : List String) : List String := xs.dedup.insertionSort (· ≤ ·)

/-- A ledger that must name exactly what is expected. -/
def ledgerError (error : List String → List String → PreflightError) (recorded expected : List String) :
    List PreflightError :=
  if SameSet recorded expected then [] else [error (recorded.insertionSort (· ≤ ·)) (sortedSetOf expected)]

/-- `_provenance_errors` -/
def provenanceErrors (selection : ParsedSelection) (aggregated : AggregatedEvidence) : List PreflightError :=
  let bySpan := Dict.ofPairs (selection.items.map fun item => (item.spanId, item))
  let declared := Dict.ofPairs (selection.bridges.map fun b => (b.text, b))
  let publishedIds := aggregated.items.map (·.spanId)
  let lost := (selection.bridges.filter fun b => ¬ Supported publishedIds b).map (·.text)
  let vanished := selection.selectedSpanIds.filter (· ∉ publishedIds)
  aggregated.items.filterMap (annotationError bySpan) ++
    idErrors selection aggregated ++
    gapErrors selection aggregated ++
    (aggregated.bridges.filter (· ∉ selection.bridges)).map (fun b => .bridgeNotSelected b.text) ++
    aggregated.droppedBridges.filterMap (droppedBridgeError declared publishedIds) ++
    ledgerError .droppedBridges aggregated.droppedBridges lost ++
    ledgerError .droppedForBudget aggregated.droppedForBudget vanished

/-! ## The checks in order -/

def contractErrors (selection : ParsedSelection) (config : PreflightConfig) : List PreflightError :=
  (match config.expectedContract with
    | some expected => if selection.contract ≠ expected then [.contract selection.contract expected] else []
    | none => []) ++
  if selection.contract = "P1_BRIDGE" ∧ (config.bridgeTokenCapEach = none ∨ config.bridgeTokenCapTotal = none) then
    [.bridgeCapsMissing]
  else []

def nonCitableIds (view : CandidateViewRecord) : List String :=
  (view.candidates.filter fun c => c.spanNamespace = "VISIBLE_MESSAGE" ∧ c.originKind ∈ contextKinds).map (·.spanId)

/-- Context may only be background, and no bridge may cite it. -/
def contextErrors (selection : ParsedSelection) (view : CandidateViewRecord) : List PreflightError :=
  let context := nonCitableIds view
  (selection.items.filterMap fun item =>
    let disallowed := (item.relations.filterMap Prod.snd).filter (· ≠ "background")
    if item.spanId ∈ context ∧ disallowed ≠ [] then
      some (.contextMarked (((view.byId.get? item.spanId).map (·.originKind)).getD "") item.spanId
        (sortedSetOf disallowed))
    else none) ++
  selection.bridges.filterMap fun bridge =>
    let refs := bridge.evidenceSpanIds.filter (· ∈ context)
    if refs ≠ [] then some (.bridgeCitesContext bridge.text refs) else none

def namespaceErrors (view : CandidateViewRecord) (config : PreflightConfig) (spans : List Span) :
    List PreflightError :=
  match config.expectedNamespace with
  | none => []
  | some expected =>
    (if view.spanNamespace ≠ expected then [.viewNamespace view.spanNamespace expected] else []) ++
      (spans.filter fun span => span.spanNamespace ≠ some expected).map fun span =>
        .spanNamespace span.shown span.spanNamespace expected

/-- A facet declared as a disagreement must be published as one. -/
def contradictionErrors (selection : ParsedSelection) (aggregated : AggregatedEvidence) : List PreflightError :=
  let published := facetRoles (aggregated.items.flatMap (·.relations))
  (contradictionFacets selection.items).flatMap fun facet =>
    (["support", "contradict"].filter (· ∉ (published.get? facet).getD [])).map (PreflightError.oneSided facet)

def capErrors (view : CandidateViewRecord) (config : PreflightConfig) (bridges : List ParsedBridge) :
    List PreflightError :=
  let counts := bridges.map fun b => view.countTokens b.text
  let total := counts.sum
  (match config.bridgeTokenCapEach with
    | some cap => (counts.filter fun n : ℕ => cap < n).map fun n => .bridgeOverCap n cap
    | none => []) ++
  match config.bridgeTokenCapTotal with
    | some cap => if bridges ≠ [] ∧ cap < total then [.bridgesOverCap total cap] else []
    | none => []

/-- The published spans that are registered. -/
def publishedSpans (view : CandidateViewRecord) (aggregated : AggregatedEvidence) : List Span :=
  aggregated.items.filterMap fun item => view.registry.get? item.spanId

/-- The checks up to the render. -/
def integrityErrors (digests : Digests) (classes : TextClasses) (selection : ParsedSelection)
    (aggregated : AggregatedEvidence) (view : CandidateViewRecord) (knownOccurrenceIds : List String)
    (config : PreflightConfig) : Except Raised (List PreflightError) := do
  let ids := aggregated.items.map (·.spanId)
  let offered := view.candidates.map (·.spanId)
  let spans := publishedSpans view aggregated
  let reconstruction ← reconstructionErrors digests view spans
  let bridges ← aggregated.bridges.mapM (bridgeErrors classes view ids)
  pure (contractErrors selection config ++
    (ids.filter (view.registry.get? · = none)).map .notInRegistry ++
    provenanceErrors selection aggregated ++
    (ids.filter (· ∉ offered)).map .notOffered ++
    (view.driftErrors digests ids).map .drift ++
    contextErrors selection view ++
    namespaceErrors view config spans ++
    reconstruction ++
    lineageClosureErrors spans knownOccurrenceIds ++
    refErrors digests view.snapshotTexts spans ++
    contradictionErrors selection aggregated ++
    bridges.flatten)

/-- The render and its errors; nothing is rendered once a check failed. -/
def guardedRender (view : CandidateViewRecord) (aggregated : AggregatedEvidence) (config : PreflightConfig)
    (errors : List PreflightError) : List PreflightError × Option RenderResult :=
  if errors ≠ [] then ([], none)
  else match view.render aggregated with
    | .error raised => ([.notRendered raised], none)
    | .ok rendered =>
      (if config.selectedTokenBudget < rendered.tokenCount then
        [.overBudget rendered.tokenCount config.selectedTokenBudget] else [], some rendered)

def preflight (digests : Digests) (classes : TextClasses) (selection : ParsedSelection)
    (aggregated : AggregatedEvidence) (view : CandidateViewRecord) (knownOccurrenceIds : List String)
    (config : PreflightConfig) : Except Raised PreflightResult := do
  let integrity ← integrityErrors digests classes selection aggregated view knownOccurrenceIds config
  let (rendering, rendered) := guardedRender view aggregated config integrity
  let errors := integrity ++ rendering ++ capErrors view config aggregated.bridges
  -- fail closed: no render is handed back alongside errors
  pure ⟨errors, if errors ≠ [] then none else rendered⟩

end Shapeflow.P1
