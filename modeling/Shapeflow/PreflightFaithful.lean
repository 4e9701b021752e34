import Shapeflow.SelectionBounds

set_option autoImplicit false

/-!
# What a clean preflight certifies

The preflight compares the role and the facet ids derived from an item's relations, and
the ids of spans as sets. What differs behind these projections passes.
-/
namespace Shapeflow.P1

/-- The published object says of each span what the selector said, and accounts for every selected span once. -/
structure Faithful (selection : ParsedSelection) (aggregated : AggregatedEvidence) : Prop where
  relations : ∀ item ∈ aggregated.items, ∃ chosen ∈ selection.items, chosen.spanId = item.spanId ∧
    ∀ relation, relation ∈ item.relations ↔ relation ∈ chosen.relations
  gaps : aggregated.gaps = selection.gaps
  bridges : ∀ bridge ∈ aggregated.bridges, bridge ∈ selection.bridges
  accounted : ∀ spanId ∈ selection.selectedSpanIds,
    ((aggregated.items.map (·.spanId)).count spanId = 1 ∧ spanId ∉ aggregated.droppedForBudget) ∨
      (aggregated.droppedForBudget.count spanId = 1 ∧ spanId ∉ aggregated.items.map (·.spanId))

/-- No published item changes its relations and keeps the role and the facet ids derived from them. -/
def NothingHidden (selection : ParsedSelection) (aggregated : AggregatedEvidence) : Prop :=
  ∀ item ∈ aggregated.items, ∀ chosen ∈ selection.items, chosen.spanId = item.spanId →
    roleOf item.relations = roleOf chosen.relations → facetIdsOf item.relations = facetIdsOf chosen.relations →
    ∀ relation, relation ∈ item.relations ↔ relation ∈ chosen.relations

/-- What no provenance error means. -/
structure Traced (selection : ParsedSelection) (aggregated : AggregatedEvidence) : Prop where
  chosen : ∀ item ∈ aggregated.items, ∃ chosen ∈ selection.items, chosen.spanId = item.spanId ∧
    roleOf item.relations = roleOf chosen.relations ∧ facetIdsOf item.relations = facetIdsOf chosen.relations
  gaps : aggregated.gaps = selection.gaps
  bridges : ∀ bridge ∈ aggregated.bridges, bridge ∈ selection.bridges
  dropped : ∀ spanId, spanId ∈ aggregated.droppedForBudget ↔
    spanId ∈ selection.selectedSpanIds ∧ spanId ∉ aggregated.items.map (·.spanId)

theorem annotationError_none {items : List ParsedItem} {item : AggregatedItem}
    (h : annotationError (Dict.ofPairs (items.map fun chosen => (chosen.spanId, chosen))) item = none) :
    ∃ chosen ∈ items, chosen.spanId = item.spanId ∧ roleOf item.relations = roleOf chosen.relations ∧
      facetIdsOf item.relations = facetIdsOf chosen.relations := by
  unfold annotationError at h
  split at h
  · cases h
  · rename_i chosen hchosen
    obtain ⟨other, hother, hpair⟩ := List.mem_map.mp (Dict.mem_of_get?_ofPairs hchosen)
    obtain ⟨hspan, rfl⟩ := Prod.mk.inj hpair
    split at h
    · rename_i hsame
      exact ⟨_, hother, hspan, hsame⟩
    · cases h

theorem ledgerError_nil {error : List String → List String → PreflightError} {recorded expected : List String}
    (h : ledgerError error recorded expected = []) : ∀ x, x ∈ recorded ↔ x ∈ expected := by
  unfold ledgerError at h
  split at h
  · rename_i hsame
    exact fun x => ⟨hsame.1 x, hsame.2 x⟩
  · cases h

theorem provenance_traced {selection : ParsedSelection} {aggregated : AggregatedEvidence}
    (h : provenanceErrors selection aggregated = []) : Traced selection aggregated := by
  simp only [provenanceErrors, List.append_eq_nil_iff] at h
  obtain ⟨⟨⟨⟨⟨⟨hannotations, -⟩, hgaps⟩, hbridges⟩, -⟩, -⟩, hdropped⟩ := h
  refine ⟨fun item hitem => ?_, ?_, fun bridge hbridge => ?_, fun spanId => ?_⟩
  · exact annotationError_none (List.filterMap_eq_nil_iff.mp hannotations item hitem)
  · unfold gapErrors at hgaps
    by_contra hne
    rw [if_pos hne] at hgaps
    cases hgaps
  · by_contra hout
    have hmem : bridge ∈ aggregated.bridges.filter (· ∉ selection.bridges) :=
      List.mem_filter.mpr ⟨hbridge, by simpa using hout⟩
    rw [List.map_eq_nil_iff.mp hbridges] at hmem
    cases hmem
  · rw [ledgerError_nil hdropped spanId, List.mem_filter, decide_eq_true_eq]

/-- A parsed selection has one item a span. -/
theorem parseSelection_nodup {candidates : CandidateSet} {expected : Option String} {raw : SelectorOutput}
    {selection : ParsedSelection} {record : NormalizationRecord}
    (h : parseSelection candidates expected raw = .ok (selection, record)) :
    (selection.items.map (·.spanId)).Nodup := by
  obtain hrows | ⟨ids, rfl⟩ := raw.rows_or_id
  · exact (parseSelection_reads hrows h).2.spans
  · obtain ⟨-, -, hbody⟩ := parseSelection_ok.mp h
    obtain ⟨-, rfl, -⟩ := parseId_ok.mp hbody
    rw [List.map_map]
    exact (nodup_firstSeen _).map fun _ _ heq => heq

theorem nodup_of_count {xs : List String} (h : ∀ x ∈ xs, xs.count x = 1) : xs.Nodup := by
  refine List.nodup_iff_count_le_one.mpr fun x => ?_
  by_cases hx : x ∈ xs
  · exact (h x hx).le
  · rw [List.count_eq_zero_of_not_mem hx]
    exact Nat.zero_le 1

section
private def pageDigests : Digests where
  sha256Hex _ := "3660315a9af3df255d8f19ab077e4797822b41488a0e2a04bc6af71213c23274"
  sourceMetaSha256 _ := "44136fa355b3678a1146ad16f7e8649e94fb4fc21fe77e8310c060f61caaff8a"

private def pageView : CandidateViewRecord :=
  let spans := onePage.map fun span => { span with exactTextSha256 := some (pageDigests.sha256Hex "page".toUTF8) }
  ((buildView pageDigests (fun _ => 1) onePageInputs.toViewInputs spans).toOption.map
    (·.toCandidateViewRecord)).getD emptyView

private def pageConfig : PreflightConfig := ⟨512, none, none, some "VISIBLE_MESSAGE", some "P1_TYPED"⟩

private def bothRoles : SelectorOutput := .typed [⟨"E1", "support", some ["f1"]⟩, ⟨"E1", "contradict", some ["f2"]⟩] none

private def bothRolesParsed : ParsedSelection :=
  ⟨"P1_TYPED", [⟨"page", [("f1", some "support"), ("f2", some "contradict")]⟩], [], []⟩

private def publishedAs (relations : List Relation) : AggregatedEvidence := ⟨[⟨"page", relations⟩], [], [], [], []⟩

theorem bothRoles_parsed : ∃ record, parseSelection (.build ["page"] []) (some "P1_TYPED") bothRoles =
    .ok (bothRolesParsed, record) :=
  ⟨_, rfl⟩

end

end Shapeflow.P1
