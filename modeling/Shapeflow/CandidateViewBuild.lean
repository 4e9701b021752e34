import Shapeflow.CandidateView
import Shapeflow.Fallible
import Shapeflow.HandleCodec
import Shapeflow.SelectorOutput

set_option autoImplicit false

/-!
# Building the offered view

Every candidate is resolved from frozen storage and labelled before the prompt is
rendered; whatever is foreign, unresolvable or not closed refuses the whole view.
-/
namespace Shapeflow.P1
open Utf8

/-! ## The prompt -/

/-- `_INSTRUCTIONS` -/
def instructions : String → Option String
  | "P1_ID" => some ("Select the candidate material ids that best support answering the question. " ++
      "TOOL_EVIDENCE is citable source evidence. TOOL_UNATTRIBUTED_CONTEXT, " ++
      "MODEL_DERIVED_CONTEXT, and USER_CONTEXT are non-citable context: selecting them may " ++
      "preserve useful context, but never turns them into source support. " ++
      "Return ONLY a JSON object \x7b\"contract\":\"P1_ID\",\"selected_ids\":[...]\x7d using ids " ++
      "from the list. Do not write prose. Do not invent ids or facts.")
  | "P1_TYPED" => some ("Select material ids, each with a role (support|contradict|background) and optional " ++
      "facet labels, and list any facet you could not support as a gap tied to a query " ++
      "attempt id. TOOL_EVIDENCE is citable source evidence. TOOL_UNATTRIBUTED_CONTEXT, " ++
      "MODEL_DERIVED_CONTEXT, and USER_CONTEXT are non-citable context and may only be marked " ++
      "background, never support or contradict. Return ONLY the JSON object for the P1_TYPED " ++
      "contract. Use only ids from the list; never invent ids or facts.")
  | "P1_BRIDGE" => some ("As P1_TYPED, plus you may add short 'bridge' sentences that connect evidence. Every " ++
      "bridge must cite at least one TOOL_EVIDENCE (or raw-source) id, must never cite " ++
      "TOOL_UNATTRIBUTED_CONTEXT, MODEL_DERIVED_CONTEXT, or USER_CONTEXT, and may not " ++
      "introduce any entity or number absent from its cited source spans. Return ONLY the " ++
      "JSON object for the P1_BRIDGE contract.")
  | _ => none

/-- `message_role or other` -/
def roleOr (messageRole other : String) : String := if messageRole = "" then other else messageRole

/-- The origin a candidate's line shows. -/
def originTag (originKind messageRole : String) : String :=
  if originKind = "TOOL_EVIDENCE" then
    " <TOOL_EVIDENCE role=" ++ roleOr messageRole "tool" ++ "; CITABLE_SOURCE>"
  else if originKind = "TOOL_UNATTRIBUTED_CONTEXT" then " <TOOL_UNATTRIBUTED_CONTEXT role=tool; NON_CITABLE_CONTEXT>"
  else if originKind = "MODEL_DERIVED_CONTEXT" then
    " <MODEL_DERIVED_CONTEXT role=" ++ roleOr messageRole "ai" ++ "; NON_CITABLE_CONTEXT>"
  else if originKind = "USER_CONTEXT" then
    " <USER_CONTEXT role=" ++ roleOr messageRole "human" ++ "; NON_CITABLE_CONTEXT>"
  else ""

/-- The lines of `_render_candidates` for one candidate. -/
def candidateLines (c : OfferedCandidate) : List String :=
  let under := if c.headingPath = [] then "" else " (under: " ++ " > ".intercalate c.headingPath ++ ")"
  ("[" ++ c.label ++ "]" ++ originTag c.originKind c.messageRole ++ under ++ " " ++ c.text) ::
    c.context.map ("    ctx| " ++ ·)

/-- The rendered query attempts, `(none)` where nothing was rendered. -/
def attemptLines (queryTexts : List String) : String :=
  firstText ["\n".intercalate ((queryTexts.zipIdx 1).map fun p => "[Q" ++ toString p.2 ++ "] " ++ p.1)] "(none)"

/-- `render_selector_prompt` -/
def renderSelectorPrompt (topic : String) (candidates : List OfferedCandidate) (queryTexts : List String) (budget : ℤ)
    (contract : String) : Option String :=
  (instructions contract).map fun instructions =>
    "You are selecting evidence, not writing a report.\n\nQUESTION / RESEARCH TOPIC:\n" ++ topic ++
      "\n\nCANDIDATE MATERIAL (use these exact ids):\n" ++ "\n".intercalate (candidates.flatMap candidateLines) ++
      "\n\nQUERY ATTEMPTS (for marking gaps):\n" ++ attemptLines queryTexts ++
      "\n\nTOKEN BUDGET for your selected evidence: " ++ toString budget ++ "\n\n" ++ instructions ++ "\n"

/-! ## What a view is built from -/

structure ViewInputs where
  spanNamespace : String
  topic : String
  contract : String
  tokenBudget : ℤ
  /-- Ids and texts. -/
  queryAttempts : List (String × String)
  snapshotTexts : Dict String String
  visibleViews : Dict String ByteArray
  sourceMeta : Dict String SourceMeta
  queryStatus : Dict String String
  publicationScope : Option (List ℤ)
  publicationOrdinals : Option (Dict String ℤ)

/-- The view of `CandidateViewRecord.build`, with what the selector reads of it. -/
structure OfferedView extends CandidateViewRecord where
  candidateSet : CandidateSet
  /-- `publication_handle_token_counts` -/
  handleTokens : List (String × ℕ)
  prompt : String

inductive MetaRefusal
  | outsideView
  | onContext
  | openFields
  | bindingVersion
  | otherView
  | otherMessage
  | noView
  | notContained
  | escapes (field : String)
  | notReconstructed (field : String)
  | noLineage
  | lineageDisagrees
deriving DecidableEq, Repr

/-- The `ViewConstructionError`s of the construction. -/
inductive ViewRefusal
  | publicationScope
  | ordinalNotPositive
  | ordinalsCollide
  | ordinalsForbidden
  | foreignNamespace (spanId : String) (got : Option String) (expected : String)
  | unknownOrigin (spanId originKind : String)
  | otherRole (spanId originKind messageRole : String)
  | contextWithOccurrences (spanId originKind : String)
  | noOrdinal (spanId : String)
  | handleOverCap (handle : String) (tokens : ℕ)
  | resolution (error : ViewConstructionError)
  | sourceMeta (spanId : String) (why : MetaRefusal)
deriving DecidableEq, Repr

inductive BuildRaised
  | refused (why : ViewRefusal)
  | handleDomain (error : HandleCodec.HandleError)
  | raised (raised : Raised)
  | unknownNamespace (spanNamespace : String)
  | noInstructions (contract : String)
deriving DecidableEq, Repr

abbrev Building (α : Type) : Type := Except BuildRaised α

def refuse {α : Type} (why : ViewRefusal) : Building α := .error (.refused why)

/-! ## Publication handles -/

def maxPublicationHandleTokens : ℕ := 8

/-- The slot of an atomic batch, and the ordinals of its spans. -/
structure PublicationSlot where
  structural : ℤ
  turnIndex : ℤ
  toolsetOrdinal : ℤ
  ordinals : Dict String ℤ

/-- `compact_publication_handle` in a slot whose structural ordinal is known. -/
def PublicationSlot.handle (slot : PublicationSlot) (ordinal : ℤ) : Building String :=
  (HandleCodec.encode HandleCodec.frozenRadices (.int slot.structural) (.int slot.turnIndex) (.int slot.toolsetOrdinal)
    (.int ordinal)).mapError .handleDomain

/-- The researcher coordinate, the turn and the toolset of a scope. -/
def readScope (scope : Option (List ℤ)) : Building (Option (ℤ × ℤ) × ℤ × ℤ) :=
  match scope with
  | none | some [] => pure (none, 0, 0)
  | some [turn, toolset] => pure (none, turn, toolset)
  | some [iteration, child, turn, toolset] => pure (some (iteration, child), turn, toolset)
  | some _ => refuse .publicationScope

/-- The slot of a raw-source view; every other view takes neither scope nor ordinals. -/
def publicationSlot (inputs : ViewInputs) (spans : List Span) : Building (Option PublicationSlot) :=
  if inputs.spanNamespace = "RAW_SOURCE" then do
    let (coordinate, turn, toolset) ← readScope inputs.publicationScope
    let structural ← (HandleCodec.structuralOrdinal HandleCodec.frozenRadices
      (coordinate.map fun c => (.int c.1, .int c.2))).mapError BuildRaised.handleDomain
    let ordinals := inputs.publicationOrdinals.getD
      (Dict.ofPairs ((spans.zipIdx 1).map fun p => (p.1.id, (p.2 : ℤ))))
    let slot : PublicationSlot := ⟨structural, turn, toolset, ordinals⟩
    let _ ← slot.handle 1
    if ∃ ordinal ∈ ordinals.values, ordinal ≤ 0 then refuse .ordinalNotPositive
    else if ¬ ordinals.values.Nodup then refuse .ordinalsCollide
    else pure (some slot)
  else if inputs.publicationScope ≠ none ∨ inputs.publicationOrdinals ≠ none then refuse .ordinalsForbidden
  else pure none

/-! ## Candidates -/

/-- The roles a visible message of an origin may have. -/
def allowedRoles (originKind : String) : Option (List String) :=
  if originKind = "TOOL_EVIDENCE" ∨ originKind = "TOOL_UNATTRIBUTED_CONTEXT" then some ["tool"]
  else if originKind = "MODEL_DERIVED_CONTEXT" then some ["ai"]
  else if originKind = "USER_CONTEXT" then some ["human", "system"]
  else none

/-- A visible message has a known origin, a role of that origin, and occurrences only as evidence. -/
def checkOrigin (inputs : ViewInputs) (span : Span) : Building Unit :=
  let originKind := span.kind.getD ""
  let messageRole := span.messageRole.getD ""
  if inputs.spanNamespace ≠ "VISIBLE_MESSAGE" then pure ()
  else match allowedRoles originKind with
  | none => refuse (.unknownOrigin span.id originKind)
  | some roles =>
    if messageRole ∉ roles then refuse (.otherRole span.id originKind messageRole)
    else if originKind ≠ "TOOL_EVIDENCE" ∧ span.sourceOccurrenceIds ≠ [] then
      refuse (.contextWithOccurrences span.id originKind)
    else pure ()

/-- The handle of the `index`-th candidate and what it costs. -/
def handleOf (countTokens : String → ℕ) (slot : Option PublicationSlot) (index : ℕ) (span : Span) :
    Building (String × ℕ) :=
  match slot with
  | none => pure ("E" ++ toString index, countTokens ("[E" ++ toString index ++ "]"))
  | some slot =>
    match slot.ordinals.get? span.id with
    | none => refuse (.noOrdinal span.id)
    | some ordinal => do
      let handle ← slot.handle ordinal
      let tokens := countTokens ("[" ++ handle ++ "]")
      if maxPublicationHandleTokens < tokens then refuse (.handleOverCap handle tokens) else pure (handle, tokens)

def resolving {α : Type} (result : Except ViewConstructionError α) : Building α :=
  result.mapError fun error => .refused (.resolution error)

/-- One turn of the loop over the spans: the candidate and the tokens of its handle. -/
def offer (sha256Hex : ByteArray → String) (countTokens : String → ℕ) (inputs : ViewInputs)
    (slot : Option PublicationSlot) (indexed : Span × ℕ) : Building (OfferedCandidate × ℕ) :=
  let (span, index) := indexed
  if span.spanNamespace ≠ some inputs.spanNamespace then
    refuse (.foreignNamespace span.id span.spanNamespace inputs.spanNamespace)
  else do
    checkOrigin inputs span
    let (handle, tokens) ← handleOf countTokens slot index span
    let text ← resolving (resolveBody inputs.snapshotTexts inputs.visibleViews span)
    let headings ← resolving (resolveRefs sha256Hex inputs.snapshotTexts span "heading" span.headingRefs)
    let context ← resolving (resolveRefs sha256Hex inputs.snapshotTexts span "context" span.contextRefs)
    let candidate : OfferedCandidate :=
      { label := "E" ++ toString index
        publicationHandle := handle
        spanId := span.id
        spanNamespace := inputs.spanNamespace
        text := text
        originKind := span.kind.getD ""
        messageRole := span.messageRole.getD ""
        headingPath := headings
        context := context }
    pure (candidate, tokens)

/-! ## Source metadata -/

/-- `_VISIBLE_SOURCE_META_FIELDS` are all there. -/
def SourceMeta.closed (m : SourceMeta) : Bool :=
  m.bindingVersion.isSome ∧ m.title.isSome ∧ m.url.isSome ∧ m.messageId.isSome ∧ m.visibleCompressorViewHash.isSome ∧
    m.byteStart.isSome ∧ m.byteEnd.isSome ∧ m.titleByteStart.isSome ∧ m.titleByteEnd.isSome ∧ m.urlByteStart.isSome ∧
    m.urlByteEnd.isSome ∧ m.sourceLabel.isSome

/-- The title or the address stands in the view where the metadata says. -/
def checkMetaField (spanId : String) (view : ByteArray) (blockStart blockEnd : ℤ) (field : String)
    (fieldStart fieldEnd : ℤ) (expected : String) : Building Unit :=
  if ¬ (blockStart ≤ fieldStart ∧ fieldStart ≤ fieldEnd ∧ fieldEnd ≤ blockEnd) then
    refuse (.sourceMeta spanId (.escapes field))
  else
    match decode (sliceBytes view fieldStart fieldEnd) with
    | none => .error (.raised .unicodeDecodeError)
    | some actual =>
      -- the placeholder of an empty title does not claim to have been shown
      if expected = "(untitled source)" ∧ fieldStart = fieldEnd then pure ()
      else if String.ofList actual ≠ expected then refuse (.sourceMeta spanId (.notReconstructed field))
      else pure ()

/-- The checks on one entry whose fields are all there. -/
def checkMeta (visibleViews : Dict String ByteArray) (span : Span) (spanId : String) (m : SourceMeta) : Building Unit :=
  let viewHash := m.visibleCompressorViewHash.getD ""
  if span.kind ≠ some "TOOL_EVIDENCE" then refuse (.sourceMeta spanId .onContext)
  else if ¬ m.closed then refuse (.sourceMeta spanId .openFields)
  else if m.bindingVersion ≠ some "visible_source_byte_range_v1" then refuse (.sourceMeta spanId .bindingVersion)
  else if viewHash ≠ span.visibleCompressorViewHash.getD "" then refuse (.sourceMeta spanId .otherView)
  else if m.messageId.getD "" ≠ span.messageId.getD "" then refuse (.sourceMeta spanId .otherMessage)
  else match visibleViews.get? viewHash with
    | none => refuse (.sourceMeta spanId .noView)
    | some view => do
      let blockStart := m.byteStart.getD 0
      let blockEnd := m.byteEnd.getD 0
      let start ← (subscript "byte_start" span.byteStart).mapError BuildRaised.raised
      let stop ← (subscript "byte_end" span.byteEnd).mapError BuildRaised.raised
      if ¬ (0 ≤ blockStart ∧ blockStart ≤ start ∧ start ≤ stop ∧ stop ≤ blockEnd ∧ blockEnd ≤ view.size) then
        refuse (.sourceMeta spanId .notContained)
      else do
        checkMetaField spanId view blockStart blockEnd "title" (m.titleByteStart.getD 0) (m.titleByteEnd.getD 0)
          (m.title.getD "")
        checkMetaField spanId view blockStart blockEnd "url" (m.urlByteStart.getD 0) (m.urlByteEnd.getD 0)
          (m.url.getD "")
        if m.sourceOccurrenceIds = [] ∨ ∃ value ∈ m.sourceOccurrenceIds, value = "" then
          refuse (.sourceMeta spanId .noLineage)
        else if ∃ value ∈ m.sourceOccurrenceIds, value ∉ span.sourceOccurrenceIds then
          refuse (.sourceMeta spanId .lineageDisagrees)
        else pure ()

/-- `_validate_source_meta` -/
def validateSourceMeta (inputs : ViewInputs) (spans : List Span) : Building Unit :=
  if inputs.spanNamespace ≠ "VISIBLE_MESSAGE" then pure ()
  else
    let byId := Dict.ofPairs (spans.map fun span => (span.id, span))
    match (inputs.sourceMeta.keys.filter (· ∉ byId.keys)).insertionSort (· ≤ ·) with
    | unknown :: _ => refuse (.sourceMeta unknown .outsideView)
    | [] => inputs.sourceMeta.entries.forM fun entry =>
      match byId.get? entry.1 with
      | none => .error (.raised (.keyError entry.1))
      | some span => checkMeta inputs.visibleViews span entry.1 entry.2

/-! ## The view -/

/-- `CandidateViewRecord.build` -/
def buildView (digests : Digests) (countTokens : String → ℕ) (inputs : ViewInputs) (spans : List Span) :
    Building OfferedView := do
  let slot ← publicationSlot inputs spans
  let offered ← (spans.zipIdx 1).mapM (offer digests.sha256Hex countTokens inputs slot)
  let candidates := offered.map Prod.fst
  validateSourceMeta inputs spans
  let rendered :=
    renderSelectorPrompt inputs.topic candidates (inputs.queryAttempts.map Prod.snd) inputs.tokenBudget inputs.contract
  if inputs.spanNamespace ∉ ["RAW_SOURCE", "VISIBLE_MESSAGE"] then .error (.unknownNamespace inputs.spanNamespace)
  else match rendered with
    | none => .error (.noInstructions inputs.contract)
    | some prompt =>
      pure
        { spanNamespace := inputs.spanNamespace
          candidates := candidates
          registry := Dict.ofPairs (spans.map fun span => (span.id, span))
          countTokens := countTokens
          queryStatus := inputs.queryStatus
          sourceMeta := inputs.sourceMeta
          sourceMetaSha256 := digests.sourceMetaSha256 inputs.sourceMeta
          visibleViews := inputs.visibleViews
          snapshotTexts := inputs.snapshotTexts
          candidateSet := .build (candidates.map (·.spanId)) (inputs.queryAttempts.map Prod.fst)
          handleTokens := offered.map fun p => (p.1.publicationHandle, p.2)
          prompt := prompt }

end Shapeflow.P1
