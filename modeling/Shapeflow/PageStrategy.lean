import Shapeflow.Chunkers
import Shapeflow.PageSelection
import Shapeflow.SelectionBounds

set_option autoImplicit false

/-!
# The page strategy

The search results of each sibling call become groups of spans, a selection is
run over each, and what the selections publish becomes one tool message, with
the occurrences of the sources it shows.
-/
namespace Shapeflow.PageStrategy
open P1 Evidence Utf8
open PageH (VendorVisibleResult HCheckpoint PageScope ScopeKey textOrElse)

/-! ## The spans of a page -/

def kindName : ChunkKind → String
  | .fixedWindow => "fixed_window"
  | .paragraph => "paragraph"
  | .sentence => "sentence"
  | .heading => "heading"
  | .code => "code"
  | .tableHeader => "table_header"
  | .tableRow => "table_row"
  | .blockquote => "blockquote"
  | .listItem => "list_item"

/-- What the id of an evidence span is derived from. -/
structure EvidenceSpanFields where
  contentHash : String
  charStart : ℕ
  charEnd : ℕ
  textSha256 : String
  kind : String
  chunkerVersion : String
  sourceOccurrenceIds : List String
deriving DecidableEq

structure PageStrategyConfig where
  chunker : String
  scope : PageScope
  contract : String
  aggregation : String
  tokenBudget : ℤ
  bridgeTokenCapEach : Option ℤ
  bridgeTokenCapTotal : Option ℤ
  promptAdmission : String
  promptBudget : ℤ
  promptWindowCeiling : ℤ

structure PageSelectionStrategy where
  config : PageStrategyConfig
  env : Environment
  rawTextFor : String → String
  occurrenceFor : String → String
  /-- The chunker of the configuration under its tokenizer and size. -/
  chunks : List Char → List Chunk
  /-- `derive_id("evidence_span", ..)` -/
  evidenceSpanId : EvidenceSpanFields → String
  checkpointDigest : HCheckpoint → String
  /-- What earlier batches bound their scopes to. -/
  publicationScopeDigests : Dict ScopeKey String

section
variable (s : PageSelectionStrategy)

def refOf (contentHash : String) (text : List Char) (range : ℕ × ℕ) : EvidenceRef where
  contentHash := contentHash
  charStart := range.1
  charEnd := range.2
  textSha256 := s.env.digests.sha256Hex (utf8 (slice text range.1 range.2))

def spanFields (contentHash occurrenceId : String) (text : List Char) (chunk : Chunk) : EvidenceSpanFields where
  contentHash := contentHash
  charStart := chunk.charStart
  charEnd := chunk.charEnd
  textSha256 := s.env.digests.sha256Hex (utf8 (chunk.text text))
  kind := kindName chunk.kind
  chunkerVersion := s.config.chunker
  sourceOccurrenceIds := [occurrenceId]

/-- `build_evidence_span` of one occurrence. -/
def buildEvidenceSpan (contentHash occurrenceId : String) (text : List Char) (chunk : Chunk) : Span where
  spanNamespace := some "RAW_SOURCE"
  spanId := some (s.evidenceSpanId (spanFields s contentHash occurrenceId text chunk))
  contentHash := some contentHash
  charStart := some chunk.charStart
  charEnd := some chunk.charEnd
  textSha256 := some (s.env.digests.sha256Hex (utf8 (chunk.text text)))
  kind := some (kindName chunk.kind)
  contextRefs := chunk.contextRanges.map (refOf s contentHash text)
  headingRefs := chunk.headingRanges.map (refOf s contentHash text)
  sourceOccurrenceIds := [occurrenceId]

def spansFromPage (text : List Char) (contentHash occurrenceId : String) : List Span :=
  (s.chunks text).map (buildEvidenceSpan s contentHash occurrenceId text)

/-! ## Groups -/

/-- What one selector call is offered, and the snippets that pass it by. -/
structure Group where
  spans : List Span
  snapshotTexts : Dict String String
  sourceMeta : Dict String SourceMeta
  occurrenceIds : List String
  passthrough : List String
  passthroughOccurrenceIds : List String

def Group.empty : Group := ⟨[], Dict.empty, Dict.empty, [], [], []⟩

/-- `_vendor_snippet` -/
def vendorSnippet (result : VendorVisibleResult) : String :=
  "--- SOURCE " ++ toString (result.vendorVisibleOrder + 1) ++ ": " ++ result.title ++ " ---\nURL: " ++ result.url ++
    "\n\nSUMMARY:\n" ++ result.snippet ++ "\n\n" ++ String.ofList (List.replicate 80 '-')

/-- The id of an occurrence that was recorded. -/
def occurrenceOf (result : VendorVisibleResult) : List String :=
  (result.sourceOccurrenceId.toList).filter (· ≠ "")

/-- The group of one result: its page, or its snippet where it has no raw content. -/
def sourceGroup (result : VendorVisibleResult) : Group :=
  match result.rawContentId with
  | none => { Group.empty with
      passthrough := [vendorSnippet result]
      passthroughOccurrenceIds := occurrenceOf result }
  | some contentId =>
    let text := s.rawTextFor contentId
    let contentHash := s.env.digests.sha256Hex (utf8 text.toList)
    let occurrenceId := textOrElse result.sourceOccurrenceId (s.occurrenceFor contentId)
    let spans := spansFromPage s text.toList contentHash occurrenceId
    { Group.empty with
      spans := spans
      snapshotTexts := Dict.ofPairs [(contentHash, text)]
      sourceMeta := Dict.ofPairs (spans.map fun span =>
        (span.spanId.getD "", { title := some result.title, url := some result.url }))
      occurrenceIds := [occurrenceId] }

/-- One call over all the groups of a sibling. -/
def mergeGroups (groups : List Group) : Group where
  spans := groups.flatMap (·.spans)
  snapshotTexts := groups.foldl (fun texts g => texts.updateAll g.snapshotTexts) Dict.empty
  sourceMeta := groups.foldl (fun metas g => metas.updateAll g.sourceMeta) Dict.empty
  occurrenceIds := firstSeen (groups.flatMap (·.occurrenceIds))
  passthrough := groups.flatMap (·.passthrough)
  passthroughOccurrenceIds := firstSeen (groups.flatMap (·.passthroughOccurrenceIds))

/-- `_groups_for` -/
def groupsFor (results : List VendorVisibleResult) : List Group :=
  let perSource := results.map (sourceGroup s)
  match s.config.scope with
  | .perToolCall | .wholeBatch => [mergeGroups perSource]
  | .perPage | .hierarchical => if perSource.isEmpty then [Group.empty] else perSource

/-- `_merged_group`: the survivors of the map stage, with what backs them. -/
def mergedGroup (groups : List Group) (spans : List Span) : Group :=
  let wanted := spans.map Span.id
  let backing := groups.filter fun g => g.spans.any fun span => span.id ∈ wanted
  { spans := spans
    snapshotTexts := backing.foldl (fun texts g => texts.updateAll g.snapshotTexts) Dict.empty
    sourceMeta := backing.foldl (fun metas g =>
      metas.updateAll (Dict.ofPairs (g.sourceMeta.entries.filter fun e => e.1 ∈ wanted))) Dict.empty
    occurrenceIds := firstSeen (backing.flatMap (·.occurrenceIds))
    passthrough := []
    passthroughOccurrenceIds := [] }

/-! ## The publication scope -/

inductive PageFailure
  | wholeBatchMultiSibling (siblings : ℕ)
  | publicationScopeReuse
  | selection (failure : SelectionFailure)
deriving DecidableEq, Repr

inductive PageRaised
  | page (failure : PageFailure)
  | run (why : RunRaised)
deriving DecidableEq, Repr

def allocate (ordinals : Dict String ℤ) (span : Span) : Dict String ℤ :=
  if span.id ∈ ordinals.keys then ordinals else ordinals.set span.id (ordinals.keys.length + 1)

def ordinalsOf (groups : List Group) : Dict String ℤ := (groups.flatMap (·.spans)).foldl allocate Dict.empty

def publicationScope (checkpoint : HCheckpoint) (toolsetOrdinal : ℕ) : List ℤ :=
  match checkpoint.researcherCoordinate with
  | some (iteration, child, _) => [iteration, child, checkpoint.assistantTurnIndex, toolsetOrdinal]
  | none => [checkpoint.assistantTurnIndex, toolsetOrdinal]

/-- What a sibling's selections share: the scope and the ordinals of their handles. -/
structure Bound where
  topic : String
  checkpoint : HCheckpoint
  scope : List ℤ
  ordinals : Dict String ℤ

/-- `_bind_publication_scope`: the scope is free, or bound to these bytes. -/
def bindPublicationScope (topic : String) (checkpoint : HCheckpoint) (toolsetOrdinal : ℕ) (groups : List Group) :
    Except PageRaised Bound :=
  let key : ScopeKey := ⟨checkpoint.taskId, checkpoint.researcherId, checkpoint.researcherCoordinate,
    checkpoint.assistantTurnIndex, toolsetOrdinal⟩
  if (s.publicationScopeDigests.get? key).any fun previous => previous ≠ s.checkpointDigest checkpoint then
    .error (.page .publicationScopeReuse)
  else .ok ⟨topic, checkpoint, publicationScope checkpoint toolsetOrdinal, ordinalsOf groups⟩

/-! ## One selection -/

def runInputs (bound : Bound) (stage : String) (group : Group) : RunInputs where
  spanNamespace := "RAW_SOURCE"
  topic := bound.topic
  contract := s.config.contract
  tokenBudget := s.config.tokenBudget
  queryAttempts := []
  snapshotTexts := group.snapshotTexts
  visibleViews := Dict.empty
  sourceMeta := group.sourceMeta
  queryStatus := Dict.empty
  publicationScope := some bound.scope
  publicationOrdinals := some bound.ordinals
  aggregation := s.config.aggregation
  chunker := s.config.chunker
  knownOccurrenceIds := group.occurrenceIds
  bridgeTokenCapEach := s.config.bridgeTokenCapEach
  bridgeTokenCapTotal := s.config.bridgeTokenCapTotal
  checkpointHash := s.checkpointDigest bound.checkpoint
  stage := stage
  promptAdmission := s.config.promptAdmission
  promptBudget := s.config.promptBudget
  promptWindowCeiling := s.config.promptWindowCeiling

/-- The outcome of a group that has nothing to select from. -/
def passedBy (bound : Bound) (stage : String) (group : Group) : SelectionOutcome where
  text := some ("\n\n".intercalate group.passthrough)
  contract := s.config.contract
  aggregation := s.config.aggregation
  stage := stage
  checkpointHash := s.checkpointDigest bound.checkpoint
  chunker := s.config.chunker
  tokenizerSha256 := s.env.tokenizerSha256
  offeredSourceOccurrenceIds := group.occurrenceIds

/-- `outcome.ok` -/
def outcomeOk (outcome : SelectionOutcome) : Bool := outcome.failure.isNone && outcome.text.isSome

/-- A published text is followed by the snippets of its group. -/
def withPassthrough (group : Group) (outcome : SelectionOutcome) : SelectionOutcome :=
  if outcomeOk outcome ∧ group.passthrough ≠ [] then
    { outcome with text := some ("\n\n".intercalate (outcome.text.getD "" :: group.passthrough)) }
  else outcome

/-- `_select_group` -/
def selectGroup (bound : Bound) (stage : String) (selector : OfferedView → Reply) (group : Group) :
    Except PageRaised SelectionOutcome :=
  if group.spans = [] then .ok (passedBy s bound stage group)
  else match runSelection s.env (runInputs s bound stage group) selector group.spans with
    | .error why => .error (.run why)
    | .ok ran => .ok (withPassthrough group ran.outcome)

/-! ## One sibling -/

structure ToolObservation where
  toolCallId : String
  content : String
  sourceOccurrenceIds : List String
deriving DecidableEq, Repr

/-- `_format` -/
def format (rendered : List String) : String :=
  let body := "\n\n".intercalate (rendered.filter (· ≠ ""))
  if body = "" then
    "No valid search results found. Please try different search queries or use a different search API."
  else "Selected evidence: \n\n" ++ body ++ "\n"

/-- `_published_occurrences` -/
def publishedOccurrences (groups : List Group) (published : List SelectionOutcome) : List String :=
  let spanIds := published.flatMap (·.publishedSpanIds)
  firstSeen ((groups.flatMap fun g =>
    (g.spans.filter fun span => span.id ∈ spanIds).flatMap (·.sourceOccurrenceIds) ++
      g.passthroughOccurrenceIds).filter (· ≠ ""))

/-- What reducing one sibling comes to. -/
structure Reduced where
  observation : Option ToolObservation
  outcomes : List SelectionOutcome
  work : WorkRecord
  failure : Option SelectionFailure

/-- The failure of the first outcome that is not ok. -/
def firstFailure (outcomes : List SelectionOutcome) : Option SelectionFailure :=
  (outcomes.find? fun outcome => ¬ outcomeOk outcome).bind (·.failure)

def workOf (outcomes : List SelectionOutcome) : WorkRecord := outcomes.foldl (fun work o => work.add o.work) {}

/-- What each selector call of a sibling replies. -/
structure Selectors where
  single : ℕ → OfferedView → Reply
  shortlist : ℕ → OfferedView → Reply
  reduce : OfferedView → Reply

def observed (toolCallId : String) (groups : List Group) (rendered : List String) (outcomes : List SelectionOutcome)
    (published : List SelectionOutcome) : Reduced :=
  ⟨some ⟨toolCallId, format rendered, publishedOccurrences groups published⟩, outcomes, workOf outcomes, none⟩

/-- The map stage over the pages, then one selection over what survived it. -/
def reduceHierarchically (bound : Bound) (selectors : Selectors) (toolCallId : String) (groups : List Group) :
    Except PageRaised Reduced := do
  let selectable := groups.filter fun g => g.spans ≠ []
  let mapped ← selectable.zipIdx.mapM fun g => selectGroup s bound "local" (selectors.shortlist g.2) g.1
  match firstFailure mapped with
  | some failure => pure ⟨none, mapped, workOf mapped, some failure⟩
  | none =>
    let shortlist := mapped.flatMap (·.publishedSpanIds)
    let union := (selectable.flatMap (·.spans)).filter fun span => span.id ∈ shortlist
    let snippets := groups.flatMap (·.passthrough)
    if union = [] then pure (observed toolCallId groups snippets mapped [])
    else do
      let reduced ← selectGroup s bound "global" selectors.reduce (mergedGroup selectable union)
      let outcomes := mapped ++ [reduced]
      if ¬ outcomeOk reduced then pure ⟨none, outcomes, workOf outcomes, reduced.failure⟩
      else pure (observed toolCallId groups (reduced.text.getD "" :: snippets) outcomes [reduced])

/-- One selection for each group. -/
def reduceGroups (bound : Bound) (selectors : Selectors) (toolCallId : String) (groups : List Group) :
    Except PageRaised Reduced := do
  let selected ← groups.zipIdx.mapM fun g => selectGroup s bound "single" (selectors.single g.2) g.1
  match firstFailure selected with
  | some failure => pure ⟨none, selected, workOf selected, some failure⟩
  | none => pure (observed toolCallId groups (selected.map fun o => o.text.getD "") selected selected)

/-- `_transform_one_tool_call` -/
def transformOneToolCall (topic : String) (checkpoint : HCheckpoint) (selectors : Selectors) (toolsetOrdinal : ℕ)
    (toolCallId : String) (results : List VendorVisibleResult) : Except PageRaised Reduced := do
  let groups := groupsFor s results
  let bound ← bindPublicationScope s topic checkpoint toolsetOrdinal groups
  match s.config.scope with
  | .hierarchical => reduceHierarchically s bound selectors toolCallId groups
  | _ => reduceGroups s bound selectors toolCallId groups

/-! ## A batch -/

structure Batch where
  observations : List ToolObservation
  outcomes : List SelectionOutcome
  work : WorkRecord

/-- `transform_tool_batch`: the siblings are published together, or not at all. -/
def transformToolBatch (topic : String) (checkpoint : HCheckpoint) (selectors : ℕ → Selectors) :
    Except PageRaised Batch := do
  let siblings := checkpoint.searchResultSets
  if s.config.scope = .wholeBatch ∧ siblings.length ≠ 1 then
    .error (.page (.wholeBatchMultiSibling siblings.length))
  else do
    let reduced ← siblings.zipIdx.mapM fun p =>
      transformOneToolCall s topic checkpoint (selectors p.2) p.2 p.1.1 p.1.2
    match reduced.findSome? fun r => r.failure with
    | some failure => .error (.page (.selection failure))
    | none =>
      .ok
        { observations := reduced.filterMap (·.observation)
          outcomes := reduced.flatMap (·.outcomes)
          work := reduced.foldl (fun work r => work.add r.work) {} }

end
end Shapeflow.PageStrategy
