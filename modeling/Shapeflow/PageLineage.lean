import Shapeflow.PageStrategy

set_option autoImplicit false

/-!
# The lineage of a page message

A tool message is made of renderings and snippets. The occurrences attached to
it are those of the spans rendered in it and of the snippets it passes on,
whatever the scope, and whatever an earlier stage kept.
-/
namespace Shapeflow.PageStrategy
open P1 Fallible Evidence Utf8
open PageH (VendorVisibleResult HCheckpoint PageScope textOrElse)

/-! ## What a selection shows -/

/-- The view of an admission is built from the spans it kept. -/
structure BuiltFrom (env : Environment) (inputs : RunInputs) (offered : List Span) (admitted : Admitted) : Prop where
  part : admitted.spans ⊆ offered
  built : build env inputs admitted.spans = .ok admitted.view

section
variable {env : Environment} {inputs : RunInputs}

theorem admitUnder_part {offered kept : List Span} {budget : ℤ} {pack : PromptPackResult}
    (h : admitUnder env inputs offered budget = .ok (pack, kept)) : kept ⊆ offered := by
  obtain ⟨_, -, h⟩ := bind_ok.mp h
  cases h
  exact List.filter_sublist.subset

/-- The induction is on the attempts left. -/
theorem admitLoop_built {offered : List Span} {attempts : ℕ} {budget : ℤ} {admitted : Admitted}
    (h : admitLoop env inputs offered attempts budget = .ok admitted) : BuiltFrom env inputs offered admitted := by
  induction attempts generalizing budget with
  | zero => cases h
  | succ attempts ih =>
    obtain ⟨⟨pack, kept⟩, hkept, h⟩ := bind_ok.mp h
    obtain ⟨view, hview, h⟩ := bind_ok.mp h
    simp only at h hview
    split at h
    · cases h
      exact ⟨admitUnder_part hkept, hview⟩
    · split at h
      · cases h
      · split_ifs at h with hleft
        exact ih h

theorem admission_built {spans : List Span} {admitted : Admitted} (h : admission env inputs spans = .ok admitted) :
    BuiltFrom env inputs spans admitted := by
  unfold admission at h
  split_ifs at h with hadmits hunknown
  · exact admitLoop_built h
  · obtain ⟨view, hview, h⟩ := bind_ok.mp h
    cases h
    exact ⟨List.Subset.refl _, hview⟩

/-- A view looks its spans up among those it is built from. -/
theorem buildView_registry {digests : Digests} {countTokens : String → ℕ} {view : ViewInputs} {spans : List Span}
    {offered : OfferedView} (h : buildView digests countTokens view spans = .ok offered) :
    offered.registry = Dict.ofPairs (spans.map fun span => (span.id, span)) := by
  obtain ⟨_, -, h⟩ := bind_ok.mp h
  obtain ⟨_, -, h⟩ := bind_ok.mp h
  obtain ⟨_, -, h⟩ := bind_ok.mp h
  simp only at h
  by_cases hnamespace : view.spanNamespace ∉ ["RAW_SOURCE", "VISIBLE_MESSAGE"]
  · rw [if_pos hnamespace] at h
    cases h
  · rw [if_neg hnamespace] at h
    split at h
    · cases h
    · cases h
      rfl

/-- What an outcome shows: evidence about some of the spans, rendered by a view of them. -/
structure Shows (stage : String) (spans : List Span) (outcome : SelectionOutcome) (view : OfferedView)
    (evidence : AggregatedEvidence) (result : RenderResult) : Prop where
  render : view.render evidence = .ok result
  text : outcome.text = some result.text
  published : outcome.publishedSpanIds = evidence.items.map (·.spanId)
  ofStage : outcome.stage = stage
  found : ∀ item ∈ evidence.items, ∃ span ∈ spans, span.id = item.spanId ∧
    view.registry.get? item.spanId = some span

theorem publish_shown {admitted : Admitted} {selection : ParsedSelection} {aggregated : AggregatedEvidence}
    {staged outcome : SelectionOutcome} (hstaged : staged.stagedSpanIds = aggregated.items.map (·.spanId))
    (h : publish env inputs admitted selection aggregated staged = .ok outcome) (hfailure : outcome.failure = none) :
    ∃ result, admitted.view.render aggregated = .ok result ∧ outcome.text = some result.text ∧
      outcome.publishedSpanIds = aggregated.items.map (·.spanId) ∧ outcome.stage = staged.stage := by
  obtain ⟨result, hresult, h⟩ := bind_ok.mp h
  by_cases herrors : result.errors ≠ []
  · rw [if_pos herrors] at h
    cases h
    cases hfailure
  · rw [if_neg herrors] at h
    obtain ⟨rendered, hrender, hrendered, -⟩ :=
      (preflight_failClosed _ _ _ _ _ _ _ (mapError_ok.mp hresult)).accepted (not_not.mp herrors)
    rw [hrendered] at h
    cases h
    exact ⟨rendered, hrender, rfl, hstaged, rfl⟩

theorem rejection_failed {admitted : Admitted} {work : WorkRecord} {rejected : Rejected} {outcome : SelectionOutcome}
    (h : rejection env inputs admitted work rejected = .ok outcome) : outcome.failure ≠ none := by
  unfold rejection at h
  split at h
  · cases h
  · cases h
    exact Option.some_ne_none _

theorem afterReply_shown {admitted : Admitted} {reply : Reply} {outcome : SelectionOutcome}
    (h : afterReply env inputs admitted reply = .ok outcome) (hfailure : outcome.failure = none) :
    ∃ evidence result, admitted.view.render evidence = .ok result ∧ outcome.text = some result.text ∧
      outcome.publishedSpanIds = evidence.items.map (·.spanId) ∧ outcome.stage = inputs.stage := by
  cases reply with
  | cancelled => cases h
  | raised kind message usage =>
    cases h
    cases hfailure
  | misshapen rejected work => exact absurd hfailure (@rejection_failed env inputs admitted _ rejected _ h)
  | output raw work =>
    simp only [afterReply] at h
    cases hparsed : parseSelection admitted.view.candidateSet (some inputs.contract) raw with
    | error rejected =>
      rw [hparsed] at h
      exact absurd hfailure (rejection_failed h)
    | ok result =>
      rw [hparsed] at h
      simp only [settle] at h
      split at h
      · cases h
        cases hfailure
      · next aggregated _ => exact ⟨aggregated, publish_shown rfl h hfailure⟩

/-- A run that did not fail shows what it published. -/
theorem runSelection_shown {selector : OfferedView → Reply} {spans : List Span} {ran : Ran} (hspans : spans ≠ [])
    (h : runSelection env inputs selector spans = .ok ran) (hfailure : ran.outcome.failure = none) :
    ∃ view evidence result, Shows inputs.stage spans ran.outcome view evidence result := by
  unfold runSelection at h
  rw [if_neg hspans] at h
  cases hadmission : admission env inputs spans with
  | error stop =>
    rw [hadmission] at h
    cases stop with
    | infeasible why =>
      cases h
      cases hfailure
    | refused why =>
      cases h
      cases hfailure
    | raised why => cases h
  | ok admitted =>
    have hbuilt := admission_built hadmission
    have hview := mapError_ok.mp hbuilt.built
    obtain ⟨hcandidates, hlabels⟩ := buildView_ok hview
    simp only [hadmission] at h
    split at h
    · cases h
      cases hfailure
    · cases hreply : afterReply env inputs admitted (selector admitted.view) with
      | error why =>
        rw [hreply] at h
        cases h
      | ok outcome =>
        rw [hreply] at h
        cases h
        obtain ⟨evidence, result, hrender, htext, hpublished, hstage⟩ := afterReply_shown hreply hfailure
        have hgated := afterReply_gated hlabels hcandidates hreply
        refine ⟨admitted.view, evidence, result, hrender, htext, hpublished, hstage, fun item hitem => ?_⟩
        have hoffered : item.spanId ∈ admitted.spans.map Span.id := by
          rw [← hcandidates]
          refine hgated.selected (hgated.published ?_)
          rw [hpublished]
          exact List.mem_map_of_mem hitem
        have hkeys : item.spanId ∈ admitted.view.registry.keys := by
          rw [buildView_registry hview, Dict.mem_keys_ofPairs, List.map_map]
          exact hoffered
        obtain ⟨span, hget⟩ := Dict.mem_keys_iff.mp hkeys
        have hfound := hget
        rw [buildView_registry hview] at hfound
        obtain ⟨other, hother, hpair⟩ := List.mem_map.mp (Dict.mem_of_get?_ofPairs hfound)
        obtain ⟨hid, rfl⟩ := Prod.mk.inj hpair
        exact ⟨other, hbuilt.part hother, hid, hget⟩

end

/-! ## What a message is made of -/

/-- A part of a message: some spans, rendered by a view, or the snippet of a result without raw content. -/
inductive Material
  | rendering (view : OfferedView) (evidence : AggregatedEvidence) (result : RenderResult)
  | snippet (result : VendorVisibleResult)

def Material.text : Material → String
  | .rendering _ _ result => result.text
  | .snippet result => vendorSnippet result

/-- The occurrences of the spans, or of the snippet. -/
def Material.occurrences : Material → List String
  | .rendering view evidence _ =>
    evidence.items.flatMap fun item => ((view.registry.get? item.spanId).map (·.sourceOccurrenceIds)).getD []
  | .snippet result => occurrenceOf result

/-- Where the parts of a message come from: the last stage of the call, or its results. -/
inductive Placed (results : List VendorVisibleResult) (outcomes : List SelectionOutcome) : Material → Prop
  | rendering {view : OfferedView} {evidence : AggregatedEvidence} {result : RenderResult} {outcome : SelectionOutcome}
      (hrender : view.render evidence = .ok result) (houtcome : outcome ∈ outcomes) (hok : outcomeOk outcome)
      (hstage : outcome.stage ≠ "local") (hpublished : outcome.publishedSpanIds = evidence.items.map (·.spanId)) :
      Placed results outcomes (.rendering view evidence result)
  | snippet {result : VendorVisibleResult} (hresult : result ∈ results) (hraw : result.rawContentId = none) :
      Placed results outcomes (.snippet result)

def blockText (block : List Material) : String := "\n\n".intercalate (block.map Material.text)

/-- A message is the text of its parts, and has the occurrences of these parts. -/
def Lineage (results : List VendorVisibleResult) (outcomes : List SelectionOutcome) (observation : ToolObservation) :
    Prop :=
  ∃ blocks : List (List Material), observation.content = format (blocks.map blockText) ∧
    (∀ material ∈ blocks.flatten, Placed results outcomes material) ∧
    (∀ occurrenceId, occurrenceId ∈ observation.sourceOccurrenceIds ↔
      occurrenceId ≠ "" ∧ ∃ material ∈ blocks.flatten, occurrenceId ∈ material.occurrences) ∧
    observation.sourceOccurrenceIds.Nodup

theorem Placed.mono {results : List VendorVisibleResult} {outcomes outcomes' : List SelectionOutcome}
    {material : Material} (h : Placed results outcomes material) (hsubset : outcomes ⊆ outcomes') :
    Placed results outcomes' material := by
  cases h with
  | rendering hrender houtcome hok hstage hpublished => exact .rendering hrender (hsubset houtcome) hok hstage hpublished
  | snippet hresult hraw => exact .snippet hresult hraw

theorem Lineage.mono {results : List VendorVisibleResult} {outcomes outcomes' : List SelectionOutcome}
    {observation : ToolObservation} (h : Lineage results outcomes observation) (hsubset : outcomes ⊆ outcomes') :
    Lineage results outcomes' observation := by
  obtain ⟨blocks, hcontent, hplaced, hoccurrences, hnodup⟩ := h
  exact ⟨blocks, hcontent, fun material hmaterial => (hplaced material hmaterial).mono hsubset, hoccurrences, hnodup⟩

/-! ## The groups of a sibling -/

section
variable {s : PageSelectionStrategy} {results : List VendorVisibleResult}

/-- The fields of the spans of a result's page. -/
def pageFields (s : PageSelectionStrategy) (result : VendorVisibleResult) : List EvidenceSpanFields :=
  match result.rawContentId with
  | none => []
  | some contentId =>
    let text := (s.rawTextFor contentId).toList
    (s.chunks text).map (spanFields s (s.env.digests.sha256Hex (utf8 text))
      (textOrElse result.sourceOccurrenceId (s.occurrenceFor contentId)) text)

/-- Spans of these results that differ have ids that differ. -/
def DistinctIds (s : PageSelectionStrategy) (results : List VendorVisibleResult) : Prop :=
  ∀ fields ∈ results.flatMap (pageFields s), ∀ other ∈ results.flatMap (pageFields s),
    s.evidenceSpanId fields = s.evidenceSpanId other → fields = other

/-- A span of the results, whose id tells its occurrence. -/
def Built (s : PageSelectionStrategy) (results : List VendorVisibleResult) (span : Span) : Prop :=
  ∃ fields ∈ results.flatMap (pageFields s), span.id = s.evidenceSpanId fields ∧
    span.sourceOccurrenceIds = fields.sourceOccurrenceIds

theorem buildEvidenceSpan_id (contentHash occurrenceId : String) (text : List Char) (chunk : Chunk) :
    (buildEvidenceSpan s contentHash occurrenceId text chunk).id =
      s.evidenceSpanId (spanFields s contentHash occurrenceId text chunk) := by
  simp only [Span.id, buildEvidenceSpan, firstText]
  split_ifs with hempty
  · exact hempty.symm
  · rfl

theorem Built.occurrences_eq (hdistinct : DistinctIds s results) {span span' : Span} (hspan : Built s results span)
    (hspan' : Built s results span') (hid : span.id = span'.id) :
    span.sourceOccurrenceIds = span'.sourceOccurrenceIds := by
  obtain ⟨fields, hfields, hspanId, hoccurrences⟩ := hspan
  obtain ⟨other, hother, hotherId, hoccurrences'⟩ := hspan'
  rw [hoccurrences, hoccurrences', hdistinct fields hfields other hother (hspanId ▸ hotherId ▸ hid)]

/-- A group cut from the results: the spans of pages, and the snippets of results without one. -/
structure GroupOf (s : PageSelectionStrategy) (results : List VendorVisibleResult) (g : Group) : Prop where
  spans : ∀ span ∈ g.spans, Built s results span
  snippets : ∃ snippets : List VendorVisibleResult, (∀ r ∈ snippets, r ∈ results ∧ r.rawContentId = none) ∧
    g.passthrough = snippets.map vendorSnippet ∧
    ∀ occurrenceId, occurrenceId ∈ g.passthroughOccurrenceIds ↔ ∃ r ∈ snippets, occurrenceId ∈ occurrenceOf r

theorem groupOf_empty : GroupOf s results .empty where
  spans span hspan := absurd hspan (List.not_mem_nil)
  snippets := ⟨[], by simp, rfl, by simp [Group.empty]⟩

theorem sourceGroup_of {result : VendorVisibleResult} (hresult : result ∈ results) :
    GroupOf s results (sourceGroup s result) := by
  cases hraw : result.rawContentId with
  | none =>
    simp only [sourceGroup, hraw]
    refine ⟨fun span hspan => absurd hspan (List.not_mem_nil), [result], ?_, rfl, by simp⟩
    intro r hr
    rw [List.mem_singleton.mp hr]
    exact ⟨hresult, hraw⟩
  | some contentId =>
    simp only [sourceGroup, hraw]
    refine ⟨fun span hspan => ?_, [], by simp, rfl, by simp [Group.empty]⟩
    obtain ⟨chunk, hchunk, rfl⟩ := List.mem_map.mp hspan
    refine ⟨_, List.mem_flatMap.mpr ⟨result, hresult, ?_⟩, buildEvidenceSpan_id _ _ _ _, rfl⟩
    simp only [pageFields, hraw]
    exact List.mem_map_of_mem hchunk

/-- The snippets of all the groups. -/
theorem snippets_of {groups : List Group} (hgroups : ∀ g ∈ groups, GroupOf s results g) :
    ∃ snippets : List VendorVisibleResult, (∀ r ∈ snippets, r ∈ results ∧ r.rawContentId = none) ∧
      groups.flatMap (·.passthrough) = snippets.map vendorSnippet ∧
      ∀ occurrenceId, (∃ g ∈ groups, occurrenceId ∈ g.passthroughOccurrenceIds) ↔
        ∃ r ∈ snippets, occurrenceId ∈ occurrenceOf r := by
  induction groups with
  | nil => exact ⟨[], by simp, rfl, by simp⟩
  | cons g groups ih =>
    obtain ⟨first, hfirst, htext, hids⟩ := (hgroups g List.mem_cons_self).snippets
    obtain ⟨rest, hrest, htexts, hall⟩ := ih fun g' hg' => hgroups g' (List.mem_cons_of_mem g hg')
    refine ⟨first ++ rest, fun r hr => ?_, ?_, fun occurrenceId => ?_⟩
    · rcases List.mem_append.mp hr with hr | hr
      · exact hfirst r hr
      · exact hrest r hr
    · rw [List.flatMap_cons, htext, htexts, List.map_append]
    · rw [List.exists_mem_cons_iff, hids, hall]
      simp only [List.mem_append, or_and_right, exists_or]

theorem mergeGroups_of {groups : List Group} (hgroups : ∀ g ∈ groups, GroupOf s results g) :
    GroupOf s results (mergeGroups groups) := by
  obtain ⟨snippets, hsnippets, htext, hids⟩ := snippets_of hgroups
  refine ⟨fun span hspan => ?_, snippets, hsnippets, htext, fun occurrenceId => ?_⟩
  · obtain ⟨g, hg, hspan⟩ := List.mem_flatMap.mp hspan
    exact (hgroups g hg).spans span hspan
  · rw [← hids]
    exact mem_firstSeen.trans List.mem_flatMap

theorem groupsFor_of : ∀ g ∈ groupsFor s results, GroupOf s results g := by
  have hsources : ∀ g ∈ results.map (sourceGroup s), GroupOf s results g := by
    intro g hg
    obtain ⟨result, hresult, rfl⟩ := List.mem_map.mp hg
    exact sourceGroup_of hresult
  have hmerged : ∀ g ∈ [mergeGroups (results.map (sourceGroup s))], GroupOf s results g := by
    intro g hg
    rw [List.mem_singleton.mp hg]
    exact mergeGroups_of hsources
  have hpages : ∀ g ∈ if (results.map (sourceGroup s)).isEmpty then [Group.empty] else results.map (sourceGroup s),
      GroupOf s results g := by
    intro g hg
    split_ifs at hg with hempty
    · rw [List.mem_singleton.mp hg]
      exact groupOf_empty
    · exact hsources g hg
  unfold groupsFor
  cases s.config.scope with
  | perPage => exact hpages
  | perToolCall => exact hmerged
  | wholeBatch => exact hmerged
  | hierarchical => exact hpages

/-! ## The parts a selection adds -/

/-- What one selection adds to its message: its text is that of a block of parts, and their occurrences are those of
the spans it published and of the snippets of its group. -/
structure BlockOf (results : List VendorVisibleResult) (spans : List Span) (g : Group) (outcome : SelectionOutcome)
    (block : List Material) : Prop where
  text : outcome.text = some (blockText block)
  placed : ∀ material ∈ block, Placed results [outcome] material
  occurrences : ∀ occurrenceId, (∃ material ∈ block, occurrenceId ∈ material.occurrences) ↔
    (∃ span ∈ spans, span.id ∈ outcome.publishedSpanIds ∧ occurrenceId ∈ span.sourceOccurrenceIds) ∨
      occurrenceId ∈ g.passthroughOccurrenceIds

theorem blockText_snippets (snippets : List VendorVisibleResult) :
    blockText (snippets.map .snippet) = "\n\n".intercalate (snippets.map vendorSnippet) := by
  rw [blockText, List.map_map]
  rfl

theorem snippets_occurrences {snippets : List VendorVisibleResult} {occurrenceId : String} :
    (∃ material ∈ snippets.map Material.snippet, occurrenceId ∈ material.occurrences) ↔
      ∃ r ∈ snippets, occurrenceId ∈ occurrenceOf r := by
  simp only [List.mem_map, exists_exists_and_eq_and, Material.occurrences]

theorem snippets_placed {snippets : List VendorVisibleResult} {outcomes : List SelectionOutcome}
    (hsnippets : ∀ r ∈ snippets, r ∈ results ∧ r.rawContentId = none) :
    ∀ material ∈ snippets.map Material.snippet, Placed results outcomes material := by
  intro material hmaterial
  obtain ⟨r, hr, rfl⟩ := List.mem_map.mp hmaterial
  exact .snippet (hsnippets r hr).1 (hsnippets r hr).2

theorem withPassthrough_published (g : Group) (outcome : SelectionOutcome) :
    (withPassthrough g outcome).publishedSpanIds = outcome.publishedSpanIds ∧
      (withPassthrough g outcome).stage = outcome.stage ∧ (withPassthrough g outcome).failure = outcome.failure := by
  unfold withPassthrough
  split_ifs
  · exact ⟨rfl, rfl, rfl⟩
  · exact ⟨rfl, rfl, rfl⟩

theorem withPassthrough_text {g : Group} {outcome : SelectionOutcome} {text : String} (hok : outcomeOk outcome)
    (htext : outcome.text = some text) :
    (withPassthrough g outcome).text = some ("\n\n".intercalate (text :: g.passthrough)) := by
  unfold withPassthrough
  split_ifs with hpass
  · rw [htext, Option.getD_some]
  · have hnone : g.passthrough = [] := by
      by_contra hsome
      exact hpass ⟨hok, hsome⟩
    rw [hnone, htext]
    rfl

theorem outcomeOk_iff {outcome : SelectionOutcome} :
    outcomeOk outcome ↔ outcome.failure = none ∧ outcome.text.isSome := by
  simp only [outcomeOk, Bool.and_eq_true, Option.isNone_iff_eq_none]

/-! ## One selection of a sibling -/

/-- The spans of a sibling's groups. -/
structure SpansOf (s : PageSelectionStrategy) (results : List VendorVisibleResult) (spans : List Span) (g : Group) : Prop where
  built : ∀ span ∈ spans, Built s results span
  part : g.spans ⊆ spans

theorem Shows.occurrences (hdistinct : DistinctIds s results) {spans : List Span} {g : Group} {stage : String}
    {outcome : SelectionOutcome} {view : OfferedView} {evidence : AggregatedEvidence} {result : RenderResult}
    (hspans : SpansOf s results spans g) (h : Shows stage g.spans outcome view evidence result) (occurrenceId : String) :
    occurrenceId ∈ (Material.rendering view evidence result).occurrences ↔
      ∃ span ∈ spans, span.id ∈ outcome.publishedSpanIds ∧ occurrenceId ∈ span.sourceOccurrenceIds := by
  constructor
  · intro hoccurrence
    obtain ⟨item, hitem, hoccurrence⟩ := List.mem_flatMap.mp hoccurrence
    obtain ⟨span, hspan, hid, hget⟩ := h.found item hitem
    rw [hget] at hoccurrence
    refine ⟨span, hspans.part hspan, ?_, hoccurrence⟩
    rw [h.published, hid]
    exact List.mem_map_of_mem hitem
  · rintro ⟨span, hspan, hpublished, hoccurrence⟩
    rw [h.published] at hpublished
    obtain ⟨item, hitem, hid⟩ := List.mem_map.mp hpublished
    obtain ⟨shown, hshown, hshownId, hget⟩ := h.found item hitem
    -- the span that was rendered may be another one, of the same id
    have hsame := Built.occurrences_eq hdistinct (hspans.built span hspan)
      (hspans.built shown (hspans.part hshown)) (hid.symm.trans hshownId.symm)
    refine List.mem_flatMap.mpr ⟨item, hitem, ?_⟩
    rw [hget, Option.map_some, Option.getD_some, ← hsame]
    exact hoccurrence

theorem selectGroup_ok {bound : Bound} {stage : String} {selector : OfferedView → Reply} {g : Group}
    {outcome : SelectionOutcome} (h : selectGroup s bound stage selector g = .ok outcome)
    (hfailure : outcome.failure = none) : outcomeOk outcome := by
  unfold selectGroup at h
  split_ifs at h with hspans
  · cases h
    rfl
  · split at h
    · cases h
    · next ran hran =>
      cases h
      obtain ⟨view, evidence, result, hshows⟩ :=
        runSelection_shown hspans hran ((withPassthrough_published g ran.outcome).2.2.symm.trans hfailure)
      have hran := outcomeOk_iff.mpr ⟨(withPassthrough_published g ran.outcome).2.2.symm.trans hfailure,
        by rw [hshows.text]; rfl⟩
      rw [outcomeOk_iff, withPassthrough_text hran hshows.text]
      exact ⟨hfailure, rfl⟩

theorem selectGroup_block (hdistinct : DistinctIds s results) {spans : List Span} {bound : Bound} {stage : String}
    {selector : OfferedView → Reply} {g : Group} {outcome : SelectionOutcome} (hstage : stage ≠ "local")
    (hspans : SpansOf s results spans g) (hg : GroupOf s results g) (h : selectGroup s bound stage selector g = .ok outcome)
    (hfailure : outcome.failure = none) : ∃ block, BlockOf results spans g outcome block := by
  have hok := selectGroup_ok h hfailure
  obtain ⟨snippets, hsnippets, htexts, hids⟩ := hg.snippets
  unfold selectGroup at h
  split_ifs at h with hempty
  · cases h
    refine ⟨snippets.map .snippet, ?_, snippets_placed hsnippets, fun occurrenceId => ?_⟩
    · rw [blockText_snippets, ← htexts]
      rfl
    · rw [snippets_occurrences, hids]
      refine (or_iff_right ?_).symm
      rintro ⟨span, -, hpublished, -⟩
      exact List.not_mem_nil hpublished
  · split at h
    · cases h
    · next ran hran =>
      cases h
      obtain ⟨hpublished, hstaged, hfailed⟩ := withPassthrough_published g ran.outcome
      obtain ⟨view, evidence, result, hshows⟩ := runSelection_shown hempty hran (hfailed.symm.trans hfailure)
      have hran := outcomeOk_iff.mpr ⟨hfailed.symm.trans hfailure, by rw [hshows.text]; rfl⟩
      refine ⟨.rendering view evidence result :: snippets.map .snippet, ?_, ?_, fun occurrenceId => ?_⟩
      · rw [withPassthrough_text hran hshows.text, htexts, blockText, List.map_cons, List.map_map]
        rfl
      · intro material hmaterial
        rcases List.mem_cons.mp hmaterial with rfl | hmaterial
        · refine .rendering hshows.render (List.mem_singleton_self _) hok ?_ (hpublished.trans hshows.published)
          rw [hstaged, hshows.ofStage]
          exact hstage
        · exact snippets_placed hsnippets material hmaterial
      · rw [List.exists_mem_cons_iff, snippets_occurrences, hids, hpublished, hshows.occurrences hdistinct hspans]

/-! ## One sibling -/

/-- The blocks of several selections, one for each group. -/
theorem blocks_of {spans : List Span} {groups : List Group} {outcomes : List SelectionOutcome}
    (h : List.Forall₂ (fun g outcome => ∃ block, BlockOf results spans g outcome block) groups outcomes) :
    ∃ blocks : List (List Material), (outcomes.map fun o => o.text.getD "") = blocks.map blockText ∧
      (∀ material ∈ blocks.flatten, Placed results outcomes material) ∧
      ∀ occurrenceId, (∃ material ∈ blocks.flatten, occurrenceId ∈ material.occurrences) ↔
        (∃ span ∈ spans, (∃ o ∈ outcomes, span.id ∈ o.publishedSpanIds) ∧ occurrenceId ∈ span.sourceOccurrenceIds) ∨
          ∃ g ∈ groups, occurrenceId ∈ g.passthroughOccurrenceIds := by
  induction h with
  | nil => exact ⟨[], rfl, by simp, by simp⟩
  | @cons g outcome groups outcomes hblock _ ih =>
    obtain ⟨block, hblock⟩ := hblock
    obtain ⟨blocks, htexts, hplaced, hoccurrences⟩ := ih
    refine ⟨block :: blocks, ?_, fun material hmaterial => ?_, fun occurrenceId => ?_⟩
    · rw [List.map_cons, List.map_cons, htexts, hblock.text, Option.getD_some]
    · rcases List.mem_append.mp hmaterial with hmaterial | hmaterial
      · exact (hblock.placed material hmaterial).mono (List.cons_subset_cons _ (List.nil_subset _))
      · exact (hplaced material hmaterial).mono (List.subset_cons_self _ _)
    · have hsplit : (∃ material ∈ (block :: blocks).flatten, occurrenceId ∈ material.occurrences) ↔
          (∃ material ∈ block, occurrenceId ∈ material.occurrences) ∨
            ∃ material ∈ blocks.flatten, occurrenceId ∈ material.occurrences := by
        simp only [List.flatten_cons, List.mem_append, or_and_right, exists_or]
      rw [hsplit, hblock.occurrences, hoccurrences, List.exists_mem_cons_iff]
      constructor
      · rintro ((⟨span, hspan, hid, hmem⟩ | hpass) | (⟨span, hspan, ⟨o, ho, hid⟩, hmem⟩ | hpass))
        · exact .inl ⟨span, hspan, ⟨outcome, List.mem_cons_self, hid⟩, hmem⟩
        · exact .inr (.inl hpass)
        · exact .inl ⟨span, hspan, ⟨o, List.mem_cons_of_mem _ ho, hid⟩, hmem⟩
        · exact .inr (.inr hpass)
      · rintro (⟨span, hspan, ⟨o, ho, hid⟩, hmem⟩ | (hpass | hpass))
        · rcases List.mem_cons.mp ho with rfl | ho
          · exact .inl (.inl ⟨span, hspan, hid, hmem⟩)
          · exact .inr (.inl ⟨span, hspan, ⟨o, ho, hid⟩, hmem⟩)
        · exact .inl (.inr hpass)
        · exact .inr (.inr hpass)

theorem mem_publishedOccurrences {groups : List Group} {published : List SelectionOutcome} {occurrenceId : String} :
    occurrenceId ∈ publishedOccurrences groups published ↔ occurrenceId ≠ "" ∧
      ((∃ span ∈ groups.flatMap (·.spans), (∃ o ∈ published, span.id ∈ o.publishedSpanIds) ∧
          occurrenceId ∈ span.sourceOccurrenceIds) ∨
        ∃ g ∈ groups, occurrenceId ∈ g.passthroughOccurrenceIds) := by
  simp only [publishedOccurrences, mem_firstSeen, List.mem_filter, List.mem_flatMap, List.mem_append, decide_eq_true_eq]
  constructor
  · rintro ⟨⟨g, hg, ⟨span, ⟨hspan, hid⟩, hmem⟩ | hpass⟩, hne⟩
    · exact ⟨hne, .inl ⟨span, ⟨g, hg, hspan⟩, hid, hmem⟩⟩
    · exact ⟨hne, .inr ⟨g, hg, hpass⟩⟩
  · rintro ⟨hne, ⟨span, ⟨g, hg, hspan⟩, hid, hmem⟩ | ⟨g, hg, hpass⟩⟩
    · exact ⟨⟨g, hg, .inl ⟨span, ⟨hspan, hid⟩, hmem⟩⟩, hne⟩
    · exact ⟨⟨g, hg, .inr hpass⟩, hne⟩

theorem firstFailure_none {outcomes : List SelectionOutcome} (hok : ∀ o ∈ outcomes, o.failure = none → outcomeOk o)
    (h : firstFailure outcomes = none) : ∀ o ∈ outcomes, o.failure = none := by
  unfold firstFailure at h
  cases hfind : outcomes.find? fun outcome => ¬ outcomeOk outcome with
  | none =>
    intro o ho
    have hfound := List.find?_eq_none.mp hfind o ho
    simp only [decide_not, Bool.not_eq_true', decide_eq_false_iff_not, not_not] at hfound
    exact (outcomeOk_iff.mp hfound).1
  | some failed =>
    rw [hfind, Option.bind_some] at h
    have hfailed := List.find?_some hfind
    simp only [decide_not, Bool.not_eq_true', decide_eq_false_iff_not] at hfailed
    exact absurd (hok failed (List.mem_of_find?_eq_some hfind) h) hfailed

/-- A sibling that did not fail has a message, and its lineage. -/
def Traced (results : List VendorVisibleResult) (toolCallId : String) (reduced : Reduced) : Prop :=
  reduced.failure = none → ∃ observation, reduced.observation = some observation ∧
    observation.toolCallId = toolCallId ∧ Lineage results reduced.outcomes observation

theorem spans_built {groups : List Group} (hgroups : ∀ g ∈ groups, GroupOf s results g) :
    ∀ span ∈ groups.flatMap (·.spans), Built s results span := by
  intro span hspan
  obtain ⟨g, hg, hspan⟩ := List.mem_flatMap.mp hspan
  exact (hgroups g hg).spans span hspan

theorem reduceGroups_traced (hdistinct : DistinctIds s results) {bound : Bound} {selectors : Selectors}
    {toolCallId : String} {groups : List Group} {reduced : Reduced} (hgroups : ∀ g ∈ groups, GroupOf s results g)
    (h : reduceGroups s bound selectors toolCallId groups = .ok reduced) : Traced results toolCallId reduced := by
  intro hfailure
  obtain ⟨selected, hselected, h⟩ := bind_ok.mp h
  have hsound : ∀ o ∈ selected, o.failure = none → outcomeOk o := by
    intro o ho
    obtain ⟨p, -, hp⟩ := mem_mapM hselected ho
    exact selectGroup_ok hp
  cases hfirst : firstFailure selected with
  | some failure =>
    simp only [hfirst] at h
    cases h
    cases hfailure
  | none =>
    simp only [hfirst] at h
    cases h
    have hblocks : List.Forall₂ (fun g outcome =>
        ∃ block, BlockOf results (groups.flatMap (·.spans)) g outcome block) groups selected := by
      refine mapM_zipIdx hselected fun g hg i outcome houtcome hselect => ?_
      have hpart : g.spans ⊆ groups.flatMap (·.spans) := fun span hspan => List.mem_flatMap.mpr ⟨g, hg, hspan⟩
      exact selectGroup_block hdistinct (by decide) ⟨spans_built hgroups, hpart⟩ (hgroups g hg) hselect
        (firstFailure_none hsound hfirst outcome houtcome)
    obtain ⟨blocks, htexts, hplaced, hoccurrences⟩ := blocks_of hblocks
    refine ⟨_, rfl, rfl, blocks, ?_, hplaced, fun occurrenceId => ?_, nodup_firstSeen _⟩
    · rw [← htexts]
    · rw [hoccurrences]
      exact mem_publishedOccurrences

/-- The survivors of the map stage, as one group. -/
theorem mergedGroup_of {groups : List Group} {spans : List Span} (hspans : ∀ span ∈ spans, Built s results span) :
    GroupOf s results (mergedGroup groups spans) where
  spans := hspans
  snippets := ⟨[], by simp, rfl, by simp [mergedGroup]⟩

theorem survivors_part {groups : List Group} {kept : List String} :
    (((groups.filter fun g => g.spans ≠ []).flatMap (·.spans)).filter fun span => span.id ∈ kept) ⊆
      groups.flatMap (·.spans) := by
  intro span hspan
  obtain ⟨g, hg, hspan⟩ := List.mem_flatMap.mp (List.mem_filter.mp hspan).1
  exact List.mem_flatMap.mpr ⟨g, (List.mem_filter.mp hg).1, hspan⟩

theorem reduceHierarchically_traced (hdistinct : DistinctIds s results) {bound : Bound} {selectors : Selectors}
    {toolCallId : String} {groups : List Group} {reduced : Reduced} (hgroups : ∀ g ∈ groups, GroupOf s results g)
    (h : reduceHierarchically s bound selectors toolCallId groups = .ok reduced) :
    Traced results toolCallId reduced := by
  intro hfailure
  obtain ⟨mapped, -, h⟩ := bind_ok.mp h
  obtain ⟨snippets, hsnippets, htexts, hids⟩ := snippets_of hgroups
  have htext : (snippets.map fun r => [Material.snippet r]).map blockText = groups.flatMap (·.passthrough) := by
    rw [htexts, List.map_map]
    rfl
  have hflatten : (snippets.map fun r => [Material.snippet r]).flatten = snippets.map .snippet := by
    rw [← List.flatMap_def, List.map_eq_flatMap]
  cases hfirst : firstFailure mapped with
  | some failure =>
    simp only [hfirst] at h
    cases h
    cases hfailure
  | none =>
    simp only [hfirst] at h
    split_ifs at h with hunion
    · cases h
      refine ⟨_, rfl, rfl, snippets.map fun r => [Material.snippet r], ?_, ?_, fun occurrenceId => ?_,
        nodup_firstSeen _⟩
      · rw [htext]
      · rw [hflatten]
        exact snippets_placed hsnippets
      · rw [hflatten, snippets_occurrences, ← hids]
        refine mem_publishedOccurrences.trans (and_congr_right fun _ => or_iff_right ?_)
        rintro ⟨span, -, ⟨o, ho, -⟩, -⟩
        exact List.not_mem_nil ho
    · obtain ⟨chosen, hchosen, h⟩ := bind_ok.mp h
      by_cases hok : outcomeOk chosen
      · rw [if_neg (not_not.mpr hok)] at h
        cases h
        have hpart := @survivors_part groups (mapped.flatMap (·.publishedSpanIds))
        have hbuilt := spans_built hgroups
        obtain ⟨block, hblock⟩ := selectGroup_block hdistinct (by decide) ⟨hbuilt, hpart⟩
          (@mergedGroup_of s results _ _ fun span hspan => hbuilt span (hpart hspan)) hchosen (outcomeOk_iff.mp hok).1
        refine ⟨_, rfl, rfl, block :: snippets.map fun r => [Material.snippet r], ?_, ?_, fun occurrenceId => ?_,
          nodup_firstSeen _⟩
        · rw [List.map_cons, htext, hblock.text, Option.getD_some]
        · intro material hmaterial
          rw [List.flatten_cons, hflatten] at hmaterial
          rcases List.mem_append.mp hmaterial with hmaterial | hmaterial
          · exact (hblock.placed material hmaterial).mono (List.subset_append_right _ _)
          · exact snippets_placed hsnippets material hmaterial
        · have hparts : (∃ material ∈ block ++ snippets.map Material.snippet, occurrenceId ∈ material.occurrences) ↔
              (∃ material ∈ block, occurrenceId ∈ material.occurrences) ∨
                ∃ material ∈ snippets.map Material.snippet, occurrenceId ∈ material.occurrences := by
            simp only [List.mem_append, or_and_right, exists_or]
          rw [List.flatten_cons, hflatten, hparts, snippets_occurrences, ← hids, hblock.occurrences]
          refine mem_publishedOccurrences.trans (and_congr_right fun _ => ?_)
          simp only [List.mem_singleton, exists_eq_left, mergedGroup, List.not_mem_nil, or_false]
      · rw [if_pos hok] at h
        cases h
        exact absurd (selectGroup_ok hchosen hfailure) hok

theorem transformOneToolCall_traced (hdistinct : DistinctIds s results) {topic : String} {checkpoint : HCheckpoint}
    {selectors : Selectors} {toolsetOrdinal : ℕ} {toolCallId : String} {reduced : Reduced}
    (h : transformOneToolCall s topic checkpoint selectors toolsetOrdinal toolCallId results = .ok reduced) :
    Traced results toolCallId reduced := by
  obtain ⟨bound, -, h⟩ := bind_ok.mp h
  cases hscope : s.config.scope with
  | hierarchical =>
    rw [hscope] at h
    exact reduceHierarchically_traced hdistinct groupsFor_of h
  | perPage =>
    rw [hscope] at h
    exact reduceGroups_traced hdistinct groupsFor_of h
  | perToolCall =>
    rw [hscope] at h
    exact reduceGroups_traced hdistinct groupsFor_of h
  | wholeBatch =>
    rw [hscope] at h
    exact reduceGroups_traced hdistinct groupsFor_of h

/-! ## A batch -/

/-- The siblings' messages, in their order. -/
theorem observations_of {outcomes : List SelectionOutcome} {siblings : List (String × List VendorVisibleResult)}
    {reduced : List Reduced} (hsubset : ∀ r ∈ reduced, r.outcomes ⊆ outcomes) (hok : ∀ r ∈ reduced, r.failure = none)
    (h : List.Forall₂ (fun sibling r => Traced sibling.2 sibling.1 r) siblings reduced) :
    List.Forall₂ (fun sibling observation =>
      observation.toolCallId = sibling.1 ∧ Lineage sibling.2 outcomes observation) siblings
      (reduced.filterMap (·.observation)) := by
  induction h with
  | nil => exact .nil
  | @cons sibling r siblings reduced htraced _ ih =>
    obtain ⟨observation, hobservation, hid, hlineage⟩ := htraced (hok r List.mem_cons_self)
    rw [List.filterMap_cons_some hobservation]
    refine .cons ⟨hid, hlineage.mono (hsubset r List.mem_cons_self)⟩ (ih ?_ ?_)
    · exact fun r' hr' => hsubset r' (List.mem_cons_of_mem r hr')
    · exact fun r' hr' => hok r' (List.mem_cons_of_mem r hr')

end

/-- Two pages and a snippet: the map stage keeps both pages, the reduce stage one of them. -/
def twoPagesStrategy : PageSelectionStrategy where
  config :=
    { chunker := "paragraph_sentence_v1"
      scope := .hierarchical
      contract := "P1_ID"
      aggregation := "stable_union_v1"
      tokenBudget := 512
      bridgeTokenCapEach := none
      bridgeTokenCapTotal := none
      promptAdmission := "prompt_pack_v1"
      promptBudget := 16
      promptWindowCeiling := 32 }
  env := { onePageEnvironment with digests := ⟨fun bytes => toString bytes.size, fun _ => ""⟩ }
  rawTextFor := id
  occurrenceFor := id
  chunks text := [⟨0, text.length, .paragraph, [], 1, [], []⟩]
  evidenceSpanId fields := "span " ++ fields.textSha256
  checkpointDigest _ := ""
  publicationScopeDigests := Dict.empty

def pageResult (order : ℕ) (content : Option String) (occurrence : String) : VendorVisibleResult where
  vendorVisibleOrder := order
  title := "title"
  url := "url"
  snippet := "snippet"
  rawContentId := content
  sourceOccurrenceId := some occurrence

def twoPages : HCheckpoint where
  taskId := "task"
  researcherId := "researcher"
  researcherCoordinate := none
  assistantTurnIndex := 0
  envelope := ""
  searchResultSets :=
    [("call", [pageResult 0 (some "alpha") "o1", pageResult 1 (some "beta") "o2", pageResult 2 none "o3"])]

def selectEvery (_ : ℕ) : Selectors := ⟨fun _ => selectFirst, fun _ => selectFirst, selectFirst⟩

end Shapeflow.PageStrategy
