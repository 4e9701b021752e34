import Shapeflow.Aggregators
import Shapeflow.CandidateViewBuild
import Shapeflow.Preflight
import Shapeflow.PromptPack

set_option autoImplicit false

/-!
# The selection pipeline

Offer, select, publish. The offer shrinks until its prompt fits, the selector is
called once, and every stage after it may refuse; what was spent is recorded
either way, and what is refused is not published.
-/
namespace Shapeflow.P1

/-! ## Work and outcomes -/

structure WorkRecord where
  selectorCalls : ℤ := 0
  promptTokens : ℤ := 0
  completionTokens : ℤ := 0
  cpuSeconds : ℚ := 0
  retries : ℤ := 0
deriving DecidableEq

def WorkRecord.add (work other : WorkRecord) : WorkRecord where
  selectorCalls := work.selectorCalls + other.selectorCalls
  promptTokens := work.promptTokens + other.promptTokens
  completionTokens := work.completionTokens + other.completionTokens
  cpuSeconds := work.cpuSeconds + other.cpuSeconds
  retries := work.retries + other.retries

inductive InfeasiblePrompt
  | pack (error : PackError)
  | noBudgetLeft (rendered : ℕ) (ceiling : ℤ)
  | notConverged
  | wholeBatch (promptTokens : ℕ) (ceiling : ℤ)
deriving DecidableEq, Repr

def InfeasiblePrompt.text : InfeasiblePrompt → String
  | .pack error => error.text
  | .noBudgetLeft rendered ceiling =>
    "the rendered prompt is " ++ toString rendered ++ " tokens against a " ++ toString ceiling ++
      "-token ceiling and no admission budget remains; no prompt covering this batch fits the window"
  | .notConverged => "prompt admission did not converge to a prompt inside the window"
  | .wholeBatch promptTokens ceiling =>
    "whole-batch prompt is " ++ toString promptTokens ++ " tokens against a " ++ toString ceiling ++ "-token ceiling"

inductive SelectionFailure
  | promptInfeasible (why : InfeasiblePrompt)
  | viewConstruction (why : ViewRefusal)
  | selectorError (kind message : String)
  | contract (why : SelectionContractError)
  | aggregation (why : AggregateRaised)
  | preflight (errors : List PreflightError)
deriving DecidableEq, Repr

def SelectionFailure.reason : SelectionFailure → String
  | .promptInfeasible _ => "PROMPT_INFEASIBLE"
  | .viewConstruction _ => "VIEW_CONSTRUCTION"
  | .selectorError _ _ => "SELECTOR_ERROR"
  | .contract _ => "CONTRACT"
  | .aggregation _ => "AGGREGATION"
  | .preflight _ => "PREFLIGHT"

/-- Facets with the attempts of their gaps. -/
abbrev GapIds : Type := String × List String

/-- Span, facet and role. -/
abbrev SpanRelation : Type := String × String × Option String

structure SelectionOutcome where
  text : Option String := none
  work : WorkRecord := {}
  failure : Option SelectionFailure := none
  viewSha256 : String := ""
  selected : ℕ := 0
  offered : ℕ := 0
  droppedForBudget : ℕ := 0
  normalization : Option NormalizationRecord := none
  selectorAttempted : Bool := false
  offeredSpanIds : List String := []
  offeredSpanTokenCounts : List (String × ℕ) := []
  publicationHandleMap : List (String × String) := []
  publicationHandleTokenCounts : List (String × ℕ) := []
  publicationMapSha256 : String := ""
  offeredMaterialTokens : ℕ := 0
  offeredEvidenceTokens : ℤ := 0
  offeredContextTokens : ℕ := 0
  stagedRenderedTokens : ℕ := 0
  publishedRenderedTokens : ℕ := 0
  offeredSourceOccurrenceIds : List String := []
  selectedSpanIds : List String := []
  stagedSpanIds : List String := []
  publishedSpanIds : List String := []
  selectedRelations : List SpanRelation := []
  stagedRelations : List SpanRelation := []
  publishedRelations : List SpanRelation := []
  selectedGaps : List GapIds := []
  stagedGaps : List GapIds := []
  publishedGaps : List GapIds := []
  offeredQueryAttemptIds : List String := []
  selectedQueryAttemptIds : List String := []
  stagedQueryAttemptIds : List String := []
  publishedQueryAttemptIds : List String := []
  contract : String := ""
  aggregation : String := ""
  chunker : String := ""
  tokenizerSha256 : String := ""
  stage : String := "single"
  checkpointHash : String := ""
  publishedSourceOccurrenceIds : List String := []
  promptAdmission : Option PackAccounting := none
  promptAdmissionDroppedSpanIds : List String := []

/-! ## What a run reads -/

/-- What a run takes from outside: digests, character classes, the tokenizer, the order of a set, and the quotient of
two integers through a double, which may overflow. -/
structure Environment where
  digests : Digests
  classes : TextClasses
  order : SetOrder
  countTokens : String → ℕ
  tokenizerSha256 : String
  viewSha256 : OfferedView → String
  publicationMapSha256 : List (String × String) → List (String × ℕ) → String
  /-- `int(a / b)` -/
  truncatedQuotient : ℤ → ℤ → Option ℤ

structure RunInputs extends ViewInputs where
  aggregation : String
  chunker : String
  knownOccurrenceIds : List String
  bridgeTokenCapEach : Option ℤ
  bridgeTokenCapTotal : Option ℤ
  checkpointHash : String
  stage : String
  promptAdmission : String
  promptBudget : ℤ
  promptWindowCeiling : ℤ

/-- An admission stage runs. -/
def RunInputs.admits (inputs : RunInputs) : Prop := inputs.promptAdmission ≠ "" ∧ inputs.promptAdmission ≠ "none"

instance (inputs : RunInputs) : Decidable inputs.admits := instDecidableAnd

structure Usage where
  promptTokens : ℤ := 0
  completionTokens : ℤ := 0
  retries : ℤ := 0

/-- What awaiting the selector comes to. A document that has none of the shapes of a selector output is rejected
before its rows are read. -/
inductive Reply
  | output (raw : SelectorOutput) (work : WorkRecord)
  | misshapen (rejected : Rejected) (work : WorkRecord)
  | raised (kind message : String) (usage : Usage)
  | cancelled

/-- What leaves a run as an exception. -/
inductive RunRaised
  | unknownAdmission (name : String)
  | pack (error : PackError)
  | overflow
  | build (why : BuildRaised)
  | expectedContract (rejected : Rejected)
  | preflight (raised : Raised)
  | noRender
  | cancelled
deriving DecidableEq, Repr

/-! ## Admission -/

inductive AdmissionStop
  | infeasible (why : InfeasiblePrompt)
  | refused (why : ViewRefusal)
  | raised (why : RunRaised)
deriving DecidableEq, Repr

/-- Only `PromptPackUnsatisfiable` is caught. -/
def packStop (error : PackError) : AdmissionStop :=
  if error.unsatisfiable then .infeasible (.pack error) else .raised (.pack error)

/-- Only `ViewConstructionError` is caught. -/
def buildStop : BuildRaised → AdmissionStop
  | .refused why => .refused why
  | why => .raised (.build why)

/-- The spans that were kept, the view built from them, and what the admission made of the offer. -/
structure Admitted where
  spans : List Span
  view : OfferedView
  pack : Option PromptPackResult

section
variable (env : Environment) (inputs : RunInputs)

/-- `_build` -/
def build (spans : List Span) : Except AdmissionStop OfferedView :=
  (buildView env.digests env.countTokens inputs.toViewInputs spans).mapError buildStop

/-- The text of a span that its admission is scored by. -/
def offeredText (span : Span) : String :=
  String.ofList (sliceText ((inputs.snapshotTexts.get? (span.contentHash.getD "")).getD "") (span.charStart.getD 0)
    (span.charEnd.getD 0))

/-- One admission under a budget: the pack and the spans it keeps. -/
def admitUnder (offered : List Span) (budget : ℤ) : Except AdmissionStop (PromptPackResult × List Span) := do
  let texts := offered.map (offeredText inputs)
  let pack ← (promptPackV1 offered texts (texts.map fun t => (env.countTokens t : ℤ)) budget inputs.topic 1).mapError
    packStop
  pure (pack, offered.filter fun span => span.spanId.getD "" ∈ pack.spanIds)

/-- Admit, build, check the rendered prompt, and shrink while attempts are left. -/
def admitLoop (offered : List Span) : ℕ → ℤ → Except AdmissionStop Admitted
  | 0, _ => .error (.infeasible .notConverged)
  | attempts + 1, budget => do
    let (pack, kept) ← admitUnder env inputs offered budget
    let view ← build env inputs kept
    let rendered := env.countTokens view.prompt
    if inputs.promptWindowCeiling = 0 ∨ (rendered : ℤ) ≤ inputs.promptWindowCeiling then pure ⟨kept, view, some pack⟩
    else match env.truncatedQuotient (budget * inputs.promptWindowCeiling) rendered with
      | none => .error (.raised .overflow)
      | some quotient =>
        if quotient - 256 ≤ 0 then .error (.infeasible (.noBudgetLeft rendered inputs.promptWindowCeiling))
        else admitLoop offered attempts (quotient - 256)

def admission (spans : List Span) : Except AdmissionStop Admitted :=
  if inputs.admits then
    if inputs.promptAdmission ≠ "prompt_pack_v1" then .error (.raised (.unknownAdmission inputs.promptAdmission))
    else admitLoop env inputs spans 6 inputs.promptBudget
  else do
    let view ← build env inputs spans
    pure ⟨spans, view, none⟩

/-! ## The outcome of each stage -/

def relationsOf (spanId : String) (relations : List Relation) : List SpanRelation :=
  relations.map fun r => (spanId, r.1, r.2)

def gapIds (gaps : List ParsedGap) : List GapIds := gaps.map fun gap => (gap.facetId, gap.queryAttemptIds)

def attemptsOf (gaps : List ParsedGap) : List String := firstSeen (gaps.flatMap (·.queryAttemptIds))

/-- What every outcome says of the run. -/
def baseOutcome : SelectionOutcome where
  contract := inputs.contract
  aggregation := inputs.aggregation
  chunker := inputs.chunker
  stage := inputs.stage
  tokenizerSha256 := env.tokenizerSha256
  checkpointHash := inputs.checkpointHash
  offeredQueryAttemptIds := firstSeen (inputs.queryAttempts.map Prod.fst)
  offeredSourceOccurrenceIds := inputs.knownOccurrenceIds.dedup.insertionSort (· ≤ ·)

def offerOutcome (view : OfferedView) : SelectionOutcome :=
  { baseOutcome env inputs with
    viewSha256 := env.viewSha256 view
    offered := view.candidates.length
    offeredSpanIds := view.candidates.map (·.spanId) }

/-- `tokenizer.count(candidate.text)` of each candidate. -/
def spanTokenCounts (view : OfferedView) : List (String × ℕ) :=
  view.candidates.map fun c => (c.spanId, env.countTokens c.text)

/-- The tokens of the candidates whose id is that of a context candidate. -/
def contextTokens (view : OfferedView) : ℕ :=
  let context := (view.candidates.filter fun c => c.originKind ∈ contextKinds).map (·.spanId)
  (((spanTokenCounts env view).filter fun p => p.1 ∈ context).map Prod.snd).sum

def handleMap (view : OfferedView) : List (String × String) :=
  view.candidates.map fun c => (c.publicationHandle, c.spanId)

def attemptedOutcome (view : OfferedView) : SelectionOutcome :=
  let material := ((spanTokenCounts env view).map Prod.snd).sum
  { offerOutcome env inputs view with
    selectorAttempted := true
    offeredSpanTokenCounts := spanTokenCounts env view
    publicationHandleMap := handleMap view
    publicationHandleTokenCounts := view.handleTokens
    publicationMapSha256 := env.publicationMapSha256 (handleMap view) view.handleTokens
    offeredMaterialTokens := material
    offeredEvidenceTokens := (material : ℤ) - contextTokens env view
    offeredContextTokens := contextTokens env view }

def selectedOutcome (view : OfferedView) (work : WorkRecord) (selection : ParsedSelection)
    (record : NormalizationRecord) : SelectionOutcome :=
  { attemptedOutcome env inputs view with
    work := work
    normalization := some record
    selectedSpanIds := selection.selectedSpanIds
    selectedRelations := selection.items.flatMap fun item => relationsOf item.spanId item.relations
    selectedGaps := gapIds selection.gaps
    selectedQueryAttemptIds := attemptsOf selection.gaps }

def stagedOutcome (chosen : SelectionOutcome) (aggregated : AggregatedEvidence) : SelectionOutcome :=
  { chosen with
    stagedSpanIds := aggregated.items.map (·.spanId)
    stagedRelations := aggregated.items.flatMap fun item => relationsOf item.spanId item.relations
    stagedGaps := gapIds aggregated.gaps
    stagedQueryAttemptIds := attemptsOf aggregated.gaps }

/-- `source_of_span`: the first occurrence of each kept span. -/
def sourceOfSpan (spans : List Span) : Dict String String :=
  Dict.ofPairs (spans.map fun span => (span.spanId.getD "", span.sourceOccurrenceIds.headD ""))

def publishedOutcome (staged : SelectionOutcome) (admitted : Admitted) (aggregated : AggregatedEvidence)
    (rendered : RenderResult) : SelectionOutcome :=
  { staged with
    text := some rendered.text
    publishedSourceOccurrenceIds := firstSeen ((staged.stagedSpanIds.map fun spanId =>
      ((sourceOfSpan admitted.spans).get? spanId).getD "").filter (· ≠ ""))
    promptAdmission := admitted.pack.map (·.accounting)
    promptAdmissionDroppedSpanIds := (admitted.pack.map (·.droppedSpanIds)).getD []
    selected := aggregated.items.length
    droppedForBudget := aggregated.droppedForBudget.length
    stagedRenderedTokens := rendered.tokenCount
    publishedRenderedTokens := rendered.tokenCount
    publishedSpanIds := staged.stagedSpanIds
    publishedRelations := staged.stagedRelations
    publishedGaps := staged.stagedGaps
    publishedQueryAttemptIds := staged.stagedQueryAttemptIds }

/-! ## The stages after the selector's call -/

/-- `view.coster()` -/
def costerOf (view : OfferedView) : RaisingCoster := fun evidence _ =>
  (view.render evidence).map fun rendered => (rendered.tokenCount : ℤ)

def preflightConfig : PreflightConfig where
  selectedTokenBudget := inputs.tokenBudget
  bridgeTokenCapEach := inputs.bridgeTokenCapEach
  bridgeTokenCapTotal := inputs.bridgeTokenCapTotal
  expectedNamespace := some inputs.spanNamespace
  expectedContract := some inputs.contract

/-- The preflight of what was staged, and its publication. -/
def publish (admitted : Admitted) (selection : ParsedSelection) (aggregated : AggregatedEvidence)
    (staged : SelectionOutcome) : Except RunRaised SelectionOutcome := do
  let result ← (preflight env.digests env.classes selection aggregated admitted.view.toCandidateViewRecord
    inputs.knownOccurrenceIds (preflightConfig inputs)).mapError .preflight
  if result.errors ≠ [] then pure { staged with failure := some (.preflight (result.errors.take 3)) }
  else match result.rendered with
    | none => .error .noRender
    | some rendered => pure (publishedOutcome staged admitted aggregated rendered)

/-- What a parsed selection comes to. -/
def settle (admitted : Admitted) (work : WorkRecord) (selection : ParsedSelection) (record : NormalizationRecord) :
    Except RunRaised SelectionOutcome :=
  let chosen := selectedOutcome env inputs admitted.view work selection record
  match aggregate env.order inputs.aggregation selection admitted.view.registry inputs.tokenBudget
      (costerOf admitted.view) with
  | .error why => .ok { chosen with failure := some (.aggregation why) }
  | .ok aggregated => publish env inputs admitted selection aggregated (stagedOutcome chosen aggregated)

/-- A rejected reply; the tokens were spent all the same. -/
def rejectedOutcome (view : OfferedView) (work : WorkRecord) (rejected : Rejected) : SelectionOutcome :=
  { attemptedOutcome env inputs view with
    work := work
    normalization := rejected.normalization
    failure := some (.contract rejected.why) }

/-- The `SelectionContractError`s are caught, the `ValueError` of an unknown contract is not. -/
def rejection (admitted : Admitted) (work : WorkRecord) (rejected : Rejected) : Except RunRaised SelectionOutcome :=
  match rejected.why with
  | .unknownExpected _ => .error (.expectedContract rejected)
  | _ => .ok (rejectedOutcome env inputs admitted.view work rejected)

def afterReply (admitted : Admitted) : Reply → Except RunRaised SelectionOutcome
  | .cancelled => .error .cancelled
  | .raised kind message usage =>
    .ok { attemptedOutcome env inputs admitted.view with
      work := ({} : WorkRecord).add ⟨1, usage.promptTokens, usage.completionTokens, 0, usage.retries⟩
      normalization := some ⟨0, 0, 0, 0, some "failure_before_parse"⟩
      failure := some (.selectorError kind message) }
  | .misshapen rejected work => rejection env inputs admitted (({} : WorkRecord).add work) rejected
  | .output raw work =>
    match parseSelection admitted.view.candidateSet (some inputs.contract) raw with
    | .error rejected => rejection env inputs admitted (({} : WorkRecord).add work) rejected
    | .ok (selection, record) => settle env inputs admitted (({} : WorkRecord).add work) selection record

/-! ## The run -/

/-- A run's outcome, and the view its selector was called with. -/
structure Ran where
  outcome : SelectionOutcome
  sent : Option OfferedView

/-- A refusal before the call. -/
def refused (failure : SelectionFailure) : Ran := ⟨{ baseOutcome env inputs with failure := some failure }, none⟩

def runSelection (selector : OfferedView → Reply) (spans : List Span) : Except RunRaised Ran :=
  if spans = [] then .ok ⟨{ baseOutcome env inputs with text := some "" }, none⟩
  else match admission env inputs spans with
    | .error (.infeasible why) => .ok (refused env inputs (.promptInfeasible why))
    | .error (.refused why) => .ok (refused env inputs (.viewConstruction why))
    | .error (.raised why) => .error why
    | .ok admitted =>
      let promptTokens := env.countTokens admitted.view.prompt
      -- without an admission stage the prompt may simply not fit
      if inputs.promptWindowCeiling ≠ 0 ∧ ¬ inputs.admits ∧ inputs.promptWindowCeiling < promptTokens then
        .ok ⟨{ offerOutcome env inputs admitted.view with
          failure := some (.promptInfeasible (.wholeBatch promptTokens inputs.promptWindowCeiling)) }, none⟩
      else (afterReply env inputs admitted (selector admitted.view)).map fun outcome =>
        ⟨outcome, some admitted.view⟩

end
end Shapeflow.P1
