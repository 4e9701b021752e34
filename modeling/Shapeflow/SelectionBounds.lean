import Shapeflow.PreflightTotal
import Shapeflow.PromptPackBudget
import Shapeflow.SelectionPipeline
import Shapeflow.SelectorOutputResult

set_option autoImplicit false

/-!
# The selection pipeline within its offer

What a run publishes was selected, what was selected was offered, and what was
offered is a part of the input that misses no source.
-/
namespace Shapeflow.P1
open Fallible

/-! ## The view -/

theorem offer_ok {sha256Hex : ByteArray → String} {countTokens : String → ℕ} {inputs : ViewInputs}
    {slot : Option PublicationSlot} {indexed : Span × ℕ} {offered : OfferedCandidate × ℕ}
    (h : offer sha256Hex countTokens inputs slot indexed = .ok offered) : offered.1.spanId = indexed.1.id := by
  obtain ⟨span, index⟩ := indexed
  unfold offer at h
  simp only at h
  by_cases hforeign : span.spanNamespace ≠ some inputs.spanNamespace
  · rw [if_pos hforeign] at h
    cases h
  · rw [if_neg hforeign] at h
    obtain ⟨_, -, h⟩ := bind_ok.mp h
    obtain ⟨_, -, h⟩ := bind_ok.mp h
    obtain ⟨_, -, h⟩ := bind_ok.mp h
    obtain ⟨_, -, h⟩ := bind_ok.mp h
    obtain ⟨_, -, h⟩ := bind_ok.mp h
    cases h
    rfl

/-- The candidates of a view are its spans, in order, and its labels stand for them. -/
theorem buildView_ok {digests : Digests} {countTokens : String → ℕ} {inputs : ViewInputs} {spans : List Span}
    {view : OfferedView} (h : buildView digests countTokens inputs spans = .ok view) :
    view.candidates.map (·.spanId) = spans.map Span.id ∧
      view.candidateSet = .build (spans.map Span.id) (inputs.queryAttempts.map Prod.fst) := by
  obtain ⟨slot, -, h⟩ := bind_ok.mp h
  obtain ⟨offered, hoffered, h⟩ := bind_ok.mp h
  obtain ⟨_, -, h⟩ := bind_ok.mp h
  have hids : (offered.map Prod.fst).map (·.spanId) = spans.map Span.id := by
    have hpairs := (mapM_forall₂.mp hoffered).imp fun _ _ hoffer => offer_ok hoffer
    have hzip : offered.map (fun p => p.1.spanId) = (spans.zipIdx 1).map fun p => p.1.id := by
      rw [← List.forall₂_eq_eq_eq, List.forall₂_map_left_iff, List.forall₂_map_right_iff]
      exact hpairs.flip
    calc (offered.map Prod.fst).map (·.spanId) = offered.map fun p => p.1.spanId := List.map_map
      _ = (spans.zipIdx 1).map fun p => p.1.id := hzip
      _ = ((spans.zipIdx 1).map Prod.fst).map Span.id := (List.map_map (f := Prod.fst) (g := Span.id)).symm
      _ = spans.map Span.id := by rw [List.zipIdx_map_fst]
  by_cases hnamespace : inputs.spanNamespace ∉ ["RAW_SOURCE", "VISIBLE_MESSAGE"]
  · rw [if_pos hnamespace] at h
    cases h
  · rw [if_neg hnamespace] at h
    split at h
    · cases h
    · cases h
      exact ⟨hids, by rw [← hids]⟩

/-! ## Admission -/

/-- A part of an offer, in its order, that misses no source. -/
structure Covering (offered kept : List Span) : Prop where
  part : kept.Sublist offered
  sources : ∀ span ∈ offered, ∃ other ∈ kept, sourceKey other = sourceKey span

section
variable {env : Environment} {inputs : RunInputs}

/-- The floor of one span per source is kept. -/
theorem admitUnder_covering {offered kept : List Span} {budget : ℤ} {pack : PromptPackResult}
    (h : admitUnder env inputs offered budget = .ok (pack, kept)) : Covering offered kept := by
  obtain ⟨pack', hpack, h⟩ := bind_ok.mp h
  cases h
  refine ⟨List.filter_sublist, fun span hspan => ?_⟩
  obtain ⟨indices, dropped, hreports⟩ := promptPackV1_reports (mapError_ok.mp hpack)
  have hkey : sourceKey span ∈ offered.map sourceKey := List.mem_map_of_mem hspan
  have hcount : 0 < (indices.map (sourceAt offered)).count (sourceKey span) := by
    have hfloor := hreports.floor _ hkey
    have hoffered : 0 < (offered.map sourceKey).count (sourceKey span) := List.count_pos_iff.mpr hkey
    omega
  obtain ⟨i, hi, hsource⟩ := List.mem_map.mp (List.count_pos_iff.mp hcount)
  have hlt : i < offered.length := List.mem_range.mp (hreports.keptInOrder.subset hi)
  have hget : offered[i]? = some offered[i] := List.getElem?_eq_getElem hlt
  refine ⟨offered[i], List.mem_filter.mpr ⟨List.getElem_mem hlt, ?_⟩, ?_⟩
  · rw [decide_eq_true_eq, hreports.spanIds]
    refine List.mem_map.mpr ⟨i, hi, ?_⟩
    rw [spanIdAt, hget]
    rfl
  · rw [← hsource, sourceAt, hget]
    rfl

/-- What an admission hands on: a view of a covering part of the offer, its prompt within the ceiling. -/
structure Admissible (env : Environment) (inputs : RunInputs) (offered : List Span) (admitted : Admitted) : Prop where
  covering : Covering offered admitted.spans
  candidates : admitted.view.candidates.map (·.spanId) = admitted.spans.map Span.id
  labels : admitted.view.candidateSet = .build (admitted.spans.map Span.id) (inputs.queryAttempts.map Prod.fst)
  fits : inputs.promptWindowCeiling = 0 ∨ (env.countTokens admitted.view.prompt : ℤ) ≤ inputs.promptWindowCeiling

/-- The induction is on the attempts left: a pass ends the loop, or hands on to the next. -/
theorem admitLoop_admissible {offered : List Span} {attempts : ℕ} {budget : ℤ} {admitted : Admitted}
    (h : admitLoop env inputs offered attempts budget = .ok admitted) : Admissible env inputs offered admitted := by
  induction attempts generalizing budget with
  | zero => cases h
  | succ attempts ih =>
    obtain ⟨⟨pack, kept⟩, hkept, h⟩ := bind_ok.mp h
    obtain ⟨view, hview, h⟩ := bind_ok.mp h
    simp only at h hview
    by_cases hfits : inputs.promptWindowCeiling = 0 ∨ (env.countTokens view.prompt : ℤ) ≤ inputs.promptWindowCeiling
    · rw [if_pos hfits] at h
      cases h
      obtain ⟨hcandidates, hlabels⟩ := buildView_ok (mapError_ok.mp hview)
      exact ⟨admitUnder_covering hkept, hcandidates, hlabels, hfits⟩
    · rw [if_neg hfits] at h
      split at h
      · cases h
      · split_ifs at h with hleft
        exact ih h

theorem admission_admissible (hadmits : inputs.admits) {spans : List Span} {admitted : Admitted}
    (h : admission env inputs spans = .ok admitted) : Admissible env inputs spans admitted := by
  unfold admission at h
  rw [if_pos hadmits] at h
  split_ifs at h
  exact admitLoop_admissible h

/-! ## The selection -/

/-- Every parsed span is one that a label stands for. -/
theorem normalizeRelations_spans {claims : List Claim} {tally tally' : Tally} {items : List ParsedItem}
    (h : normalizeRelations claims tally = .ok (items, tally')) {item : ParsedItem} (hitem : item ∈ items) :
    item.spanId ∈ claims.map (·.1) := by
  obtain ⟨s, hs, hresult⟩ := bind_ok.mp h
  cases hresult
  have hfolded := (Folded.start tally).run hs
  rw [List.nil_append] at hfolded
  obtain ⟨e, he, rfl⟩ := List.mem_map.mp hitem
  exact (hfolded.spans e.1).mp (List.mem_map_of_mem he)

theorem idOf_mem {spanIds queryAttemptIds : List String} {label : String}
    (h : label ∈ ((CandidateSet.build spanIds queryAttemptIds).table .evidence).keys) :
    idOf (.build spanIds queryAttemptIds) .evidence label ∈ spanIds := by
  obtain ⟨spanId, hget⟩ := Dict.mem_keys_iff.mp h
  obtain ⟨p, hp, hpair⟩ := List.mem_map.mp (Dict.mem_of_get?_ofPairs hget)
  cases hpair
  rw [idOf, hget]
  exact List.fst_mem_of_mem_zipIdx hp

/-- Only what was offered is selected. -/
theorem parseSelection_offered {spanIds queryAttemptIds : List String} {expected : Option String}
    {raw : SelectorOutput} {selection : ParsedSelection} {record : NormalizationRecord}
    (h : parseSelection (.build spanIds queryAttemptIds) expected raw = .ok (selection, record)) :
    ∀ spanId ∈ selection.selectedSpanIds, spanId ∈ spanIds := by
  obtain ⟨-, -, hbody⟩ := parseSelection_ok.mp h
  intro spanId hspan
  obtain ⟨item, hitem, rfl⟩ := List.mem_map.mp hspan
  obtain hrows | ⟨ids, rfl⟩ := raw.rows_or_id
  · rw [parseBody_rows hrows] at hbody
    obtain ⟨⟨hoffered, -, -⟩, items, tally, hitems, gaps, tally', -, -, rfl, -⟩ := parseRows_stages.mp hbody
    obtain ⟨claim, hclaim, heq⟩ := List.mem_map.mp (normalizeRelations_spans hitems hitem)
    obtain ⟨row, hrow, hfacet⟩ := List.mem_flatMap.mp hclaim
    obtain ⟨facet, -, rfl⟩ := List.mem_map.mp hfacet
    rw [← heq]
    exact idOf_mem (hoffered _ (List.mem_map_of_mem hrow))
  · obtain ⟨hoffered, rfl, -⟩ := parseId_ok.mp hbody
    obtain ⟨id, hid, rfl⟩ := List.mem_map.mp hitem
    obtain ⟨label, hlabel, rfl⟩ := List.mem_map.mp (mem_firstSeen.mp hid)
    exact idOf_mem (hoffered label hlabel)

/-! ## Publication -/

/-- Nothing left the run. -/
structure Unpublished (outcome : SelectionOutcome) : Prop where
  text : outcome.text = none
  spans : outcome.publishedSpanIds = []
  relations : outcome.publishedRelations = []
  gaps : outcome.publishedGaps = []
  attempts : outcome.publishedQueryAttemptIds = []
  sources : outcome.publishedSourceOccurrenceIds = []
  tokens : outcome.publishedRenderedTokens = 0

/-- A clean preflight found nothing wrong with the provenance. -/
theorem preflight_provenance {selection : ParsedSelection} {aggregated : AggregatedEvidence} {view : CandidateViewRecord}
    {digests : Digests} {classes : TextClasses} {known : List String} {config : PreflightConfig}
    {result : PreflightResult} (h : preflight digests classes selection aggregated view known config = .ok result)
    (hclean : result.errors = []) : provenanceErrors selection aggregated = [] := by
  obtain ⟨integrity, hintegrity, h⟩ := bind_ok.mp h
  cases h
  obtain ⟨reconstruction, -, hintegrity⟩ := bind_ok.mp hintegrity
  obtain ⟨bridges, -, hintegrity⟩ := bind_ok.mp hintegrity
  cases hintegrity
  simp only [List.append_eq_nil_iff] at hclean
  tauto

/-- An annotation is checked only of a selected span. -/
theorem provenance_selected {selection : ParsedSelection} {aggregated : AggregatedEvidence}
    (h : provenanceErrors selection aggregated = []) :
    aggregated.items.map (·.spanId) ⊆ selection.selectedSpanIds := by
  simp only [provenanceErrors, List.append_eq_nil_iff] at h
  have hannotations := h.1.1.1.1.1.1
  rw [List.filterMap_eq_nil_iff] at hannotations
  intro spanId hspan
  obtain ⟨item, hitem, rfl⟩ := List.mem_map.mp hspan
  have hnone := hannotations item hitem
  unfold annotationError at hnone
  cases hchosen : (Dict.ofPairs (selection.items.map fun item => (item.spanId, item))).get? item.spanId with
  | none => simp [hchosen] at hnone
  | some chosen =>
    obtain ⟨other, hother, hpair⟩ := List.mem_map.mp (Dict.mem_of_get?_ofPairs hchosen)
    exact (Prod.mk.inj hpair).1 ▸ List.mem_map_of_mem hother

/-- An outcome that failed published nothing; one that did not keeps within what was selected and the budget. -/
structure Gated (offered : List String) (tokenBudget : ℤ) (outcome : SelectionOutcome) : Prop where
  offers : outcome.offeredSpanIds = offered
  failed : outcome.failure ≠ none → Unpublished outcome
  selected : outcome.selectedSpanIds ⊆ offered
  published : outcome.publishedSpanIds ⊆ outcome.selectedSpanIds
  rendered : outcome.failure = none → (outcome.publishedRenderedTokens : ℤ) ≤ tokenBudget

/-- Failing leaves an outcome that has published nothing as it is. -/
theorem Unpublished.gated {outcome : SelectionOutcome} (h : Unpublished outcome) {offered : List String}
    (hoffered : outcome.offeredSpanIds = offered) (hselected : outcome.selectedSpanIds ⊆ offered)
    (hfailed : outcome.failure.isSome) (tokenBudget : ℤ) : Gated offered tokenBudget outcome where
  offers := hoffered
  failed _ := h
  selected := hselected
  published := by
    rw [h.spans]
    exact List.nil_subset _
  rendered hnone := by
    rw [hnone] at hfailed
    cases hfailed

variable {admitted : Admitted}

theorem publish_gated {selection : ParsedSelection} {aggregated : AggregatedEvidence} {work : WorkRecord}
    {record : NormalizationRecord} {outcome : SelectionOutcome}
    (hselected : selection.selectedSpanIds ⊆ admitted.view.candidates.map (·.spanId))
    (h : publish env inputs admitted selection aggregated
      (stagedOutcome (selectedOutcome env inputs admitted.view work selection record) aggregated) = .ok outcome) :
    Gated (admitted.view.candidates.map (·.spanId)) inputs.tokenBudget outcome := by
  obtain ⟨result, hresult, h⟩ := bind_ok.mp h
  have hpreflight := mapError_ok.mp hresult
  by_cases herrors : result.errors ≠ []
  · rw [if_pos herrors] at h
    cases h
    refine Unpublished.gated ?_ ?_ hselected ?_ _
    · exact ⟨rfl, rfl, rfl, rfl, rfl, rfl, rfl⟩
    · rfl
    · rfl
  · rw [if_neg herrors] at h
    have hclean := not_not.mp herrors
    obtain ⟨rendered, -, hrendered, hbudget⟩ := (preflight_failClosed _ _ _ _ _ _ _ hpreflight).accepted hclean
    rw [hrendered] at h
    cases h
    exact ⟨rfl, fun hfailed => absurd rfl hfailed, hselected, provenance_selected (preflight_provenance hpreflight hclean),
      fun _ => hbudget⟩

theorem settle_gated {selection : ParsedSelection} {work : WorkRecord} {record : NormalizationRecord}
    {outcome : SelectionOutcome} (hselected : selection.selectedSpanIds ⊆ admitted.view.candidates.map (·.spanId))
    (h : settle env inputs admitted work selection record = .ok outcome) :
    Gated (admitted.view.candidates.map (·.spanId)) inputs.tokenBudget outcome := by
  unfold settle at h
  split at h
  · cases h
    refine Unpublished.gated ?_ ?_ hselected ?_ _
    · exact ⟨rfl, rfl, rfl, rfl, rfl, rfl, rfl⟩
    · rfl
    · rfl
  · exact publish_gated hselected h

theorem rejection_gated {work : WorkRecord} {rejected : Rejected} {outcome : SelectionOutcome}
    (h : rejection env inputs admitted work rejected = .ok outcome) :
    Gated (admitted.view.candidates.map (·.spanId)) inputs.tokenBudget outcome := by
  unfold rejection at h
  split at h
  · cases h
  · cases h
    refine Unpublished.gated ?_ ?_ (List.nil_subset _) ?_ _
    · exact ⟨rfl, rfl, rfl, rfl, rfl, rfl, rfl⟩
    · rfl
    · rfl

/-- Whatever the selector replies. -/
theorem afterReply_gated {reply : Reply} {outcome : SelectionOutcome} {spanIds queryAttemptIds : List String}
    (hlabels : admitted.view.candidateSet = .build spanIds queryAttemptIds)
    (hids : admitted.view.candidates.map (·.spanId) = spanIds)
    (h : afterReply env inputs admitted reply = .ok outcome) :
    Gated (admitted.view.candidates.map (·.spanId)) inputs.tokenBudget outcome := by
  cases reply with
  | cancelled => cases h
  | raised kind message usage =>
    cases h
    refine Unpublished.gated ?_ ?_ (List.nil_subset _) ?_ _
    · exact ⟨rfl, rfl, rfl, rfl, rfl, rfl, rfl⟩
    · rfl
    · rfl
  | misshapen rejected work => exact @rejection_gated env inputs admitted _ rejected _ h
  | output raw work =>
    simp only [afterReply] at h
    cases hparsed : parseSelection admitted.view.candidateSet (some inputs.contract) raw with
    | error rejected =>
      rw [hparsed] at h
      exact rejection_gated h
    | ok result =>
      rw [hparsed] at h
      rw [hlabels] at hparsed
      refine settle_gated ?_ h
      rw [hids]
      exact parseSelection_offered hparsed

/-! ## The run -/

/-- A run against its offer and its ceilings: the prompt that was sent, the part of the input it offered, and what
was selected of it, published and rendered. -/
structure Bounded (env : Environment) (inputs : RunInputs) (spans : List Span) (ran : Ran) : Prop where
  sent : spans ≠ [] → ran.sent ≠ none
  prompt : ∀ view ∈ ran.sent, (env.countTokens view.prompt : ℤ) ≤ inputs.promptWindowCeiling
  candidates : ∃ kept, Covering spans kept ∧ ran.outcome.offeredSpanIds = kept.map Span.id ∧
    ∀ view ∈ ran.sent, view.candidates.map (·.spanId) = kept.map Span.id
  selected : ran.outcome.selectedSpanIds ⊆ ran.outcome.offeredSpanIds
  published : ran.outcome.publishedSpanIds ⊆ ran.outcome.selectedSpanIds
  rendered : (ran.outcome.publishedRenderedTokens : ℤ) ≤ inputs.tokenBudget

/-- With an admission stage and a ceiling, a run that did not fail keeps within its offer and its ceilings, and a run
that failed published nothing. -/
theorem runSelection_bounded (env : Environment) (inputs : RunInputs) (selector : OfferedView → Reply)
    (spans : List Span) {ran : Ran} (hadmits : inputs.admits) (hceiling : 0 < inputs.promptWindowCeiling)
    (hbudget : 0 ≤ inputs.tokenBudget) (h : runSelection env inputs selector spans = .ok ran) :
    (ran.outcome.failure = none → Bounded env inputs spans ran) ∧
      (ran.outcome.failure ≠ none → Unpublished ran.outcome) := by
  unfold runSelection at h
  by_cases hempty : spans = []
  · rw [if_pos hempty] at h
    cases h
    subst hempty
    refine ⟨fun _ => ?_, fun hfailed => absurd rfl hfailed⟩
    exact ⟨fun hne => absurd rfl hne, by simp, ⟨[], ⟨List.Sublist.refl _, by simp⟩, rfl, by simp⟩,
      List.nil_subset _, List.nil_subset _, hbudget⟩
  · rw [if_neg hempty] at h
    cases hadmission : admission env inputs spans with
    | error stop =>
      rw [hadmission] at h
      cases stop with
      | infeasible why =>
        cases h
        exact ⟨fun hnone => absurd hnone (Option.some_ne_none _), fun _ => ⟨rfl, rfl, rfl, rfl, rfl, rfl, rfl⟩⟩
      | refused why =>
        cases h
        exact ⟨fun hnone => absurd hnone (Option.some_ne_none _), fun _ => ⟨rfl, rfl, rfl, rfl, rfl, rfl, rfl⟩⟩
      | raised why => cases h
    | ok admitted =>
      have hadmitted := admission_admissible hadmits hadmission
      simp only [hadmission] at h
      rw [if_neg fun hover => hover.2.1 hadmits] at h
      cases hreply : afterReply env inputs admitted (selector admitted.view) with
      | error why =>
        rw [hreply] at h
        cases h
      | ok outcome =>
        rw [hreply] at h
        cases h
        have hgated := afterReply_gated hadmitted.labels hadmitted.candidates hreply
        refine ⟨fun hnone => ?_, hgated.failed⟩
        have hfits : (env.countTokens admitted.view.prompt : ℤ) ≤ inputs.promptWindowCeiling :=
          hadmitted.fits.resolve_left hceiling.ne'
        refine ⟨fun _ => by simp, fun view hview => ?_, ⟨admitted.spans, hadmitted.covering, ?_, fun view hview => ?_⟩, ?_,
          hgated.published, hgated.rendered hnone⟩
        · cases hview
          exact hfits
        · exact hgated.offers.trans hadmitted.candidates
        · cases hview
          exact hadmitted.candidates
        · rw [hgated.offers]
          exact hgated.selected

end

/-- One page's tool message under a tokenizer that counts a text as one token. -/
def onePageEnvironment : Environment where
  digests := ⟨fun _ => "", fun _ => ""⟩
  classes := ⟨Char.isDigit, Char.isAlphanum⟩
  order := ⟨fun ids => ids.sort (· ≤ ·), fun ids => by simp⟩
  countTokens _ := 1
  tokenizerSha256 := ""
  viewSha256 _ := ""
  publicationMapSha256 _ _ := ""
  truncatedQuotient a b := some (a / b)

def onePageInputs : RunInputs where
  spanNamespace := "VISIBLE_MESSAGE"
  topic := "topic"
  contract := "P1_ID"
  tokenBudget := 512
  queryAttempts := []
  snapshotTexts := Dict.empty
  visibleViews := Dict.ofPairs [("view", "page".toUTF8)]
  sourceMeta := Dict.empty
  queryStatus := Dict.empty
  publicationScope := none
  publicationOrdinals := none
  aggregation := "stable_union_v1"
  chunker := "paragraph_sentence_v1"
  knownOccurrenceIds := []
  bridgeTokenCapEach := none
  bridgeTokenCapTotal := none
  checkpointHash := ""
  stage := "single"
  promptAdmission := "prompt_pack_v1"
  promptBudget := 16
  promptWindowCeiling := 32

def onePage : List Span :=
  [{ spanNamespace := some "VISIBLE_MESSAGE", visibleSpanId := some "page", messageId := some "m",
     visibleCompressorViewHash := some "view", byteStart := some 0, byteEnd := some 4, exactTextSha256 := some "",
     kind := some "TOOL_EVIDENCE", messageRole := some "tool" }]

def selectFirst (_ : OfferedView) : Reply := .output (.id ["E1"]) {}

theorem runSelection_bounded_onePage :
    ∃ ran, runSelection onePageEnvironment onePageInputs selectFirst onePage = .ok ran ∧
      ran.outcome.publishedSpanIds = ["page"] ∧ Bounded onePageEnvironment onePageInputs onePage ran := by
  refine ⟨_, rfl, rfl, ?_⟩
  exact (runSelection_bounded onePageEnvironment onePageInputs selectFirst onePage (by decide) (by decide) (by decide)
    rfl).1 rfl

end Shapeflow.P1
