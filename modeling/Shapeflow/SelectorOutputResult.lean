import Shapeflow.SelectorOutputRows

set_option autoImplicit false

/-!
# What a selector output is accepted as

An output is accepted when its labels are offered, its claims agree and its facets close;
none of this looks at the order of its rows. What it is accepted as is given by its rows
up to order, and the tally counts every repeated claim, gap and bridge.
-/
namespace Shapeflow.P1
open Fallible

section
variable {candidates : CandidateSet} {expected : Option String} {raw : SelectorOutput}
  {selection : ParsedSelection} {record : NormalizationRecord}

/-! ## Acceptance -/

theorem contract_mem (raw : SelectorOutput) : raw.contract ∈ p1Contracts := by
  cases raw <;> simp [SelectorOutput.contract, p1Contracts]

theorem checkContract_ok : checkContract expected raw = .ok () ↔ ∀ e ∈ expected, raw.contract = e := by
  unfold checkContract
  cases expected with
  | none => simp
  | some e =>
    simp only [Option.mem_some_iff, forall_eq']
    by_cases he : raw.contract = e
    · subst he
      simp [contract_mem]
    · refine iff_of_false (fun h => ?_) he
      split_ifs at h
      cases h

/-- The part of the parser after the schema. -/
def parseBody (candidates : CandidateSet) : SelectorOutput → Parsing (ParsedSelection × NormalizationRecord)
  | .id selectedIds => parseId candidates selectedIds
  | raw => parseRows candidates raw

theorem parseSelection_ok {result : ParsedSelection × NormalizationRecord} :
    parseSelection candidates expected raw = .ok result ↔
      (∀ e ∈ expected, raw.contract = e) ∧ raw.SchemaValid ∧ parseBody candidates raw = .ok result := by
  have heq : parseSelection candidates expected raw = (do
      checkContract expected raw
      if raw.SchemaValid then parseBody candidates raw
      else (⟨raw.elementCount, 0, 0⟩ : Tally).reject .schema "schema") := by
    cases raw <;> rfl
  rw [heq, bind_ok, ← checkContract_ok]
  constructor
  · rintro ⟨_, hcontract, hbody⟩
    split_ifs at hbody with hschema
    · exact ⟨hcontract, hschema, hbody⟩
    · cases hbody
  · rintro ⟨hcontract, hschema, hbody⟩
    refine ⟨(), hcontract, ?_⟩
    rw [if_pos hschema]
    exact hbody

/-- Every claim of an output's rows. -/
def claims (candidates : CandidateSet) (raw : SelectorOutput) : List Claim :=
  raw.selections.flatMap (rowClaims candidates)

/-- The repeats within the fields of an output. -/
def fieldRepeats (candidates : CandidateSet) (raw : SelectorOutput) : ℕ :=
  (raw.selections.map fun row => repeats (row.facetIds.getD [])).sum +
    (raw.gaps.map fun row => repeats (row.queryAttemptIds.map (idOf candidates .queryAttempt))).sum +
    (raw.bridges.map fun row => repeats (row.evidenceIds.map (idOf candidates .evidence))).sum

/-- The rows that repeat a claim, a gap's facet or a bridge. -/
def rowRepeats (candidates : CandidateSet) (raw : SelectorOutput) : ℕ :=
  repeats ((claims candidates raw).map fun claim => (claim.1, claim.2.1)) + repeats (raw.gaps.map (·.facetId)) +
    repeats (raw.bridges.map (rowBridge candidates))

/-- An output's rows resolve and their claims agree. -/
structure Agrees (candidates : CandidateSet) (raw : SelectorOutput) : Prop where
  spans : Offered candidates .evidence (raw.selections.map (·.spanId))
  roles : Consistent (claims candidates raw)
  attempts : ∀ row ∈ raw.gaps, Offered candidates .queryAttempt row.queryAttemptIds
  bridges : ∀ row ∈ raw.bridges, row.Binds candidates
  /-- No facet, the overall one apart, is claimed and declared a gap. -/
  closed : ∀ claim ∈ claims candidates raw, claim.2.1 ≠ overallFacet → claim.2.1 ∉ raw.gaps.map (·.facetId)

/-- What an output's rows are read as, up to order. -/
structure ReadAs (candidates : CandidateSet) (raw : SelectorOutput) (selection : ParsedSelection)
    (record : NormalizationRecord) : Prop where
  spans : (selection.items.map (·.spanId)).Nodup
  facets : ∀ item ∈ selection.items, (item.relations.map Prod.fst).Nodup
  relates : ∀ spanId relation, Relates selection.items spanId relation ↔
    ∃ role, relation.2 = some role ∧ (spanId, relation.1, role) ∈ claims candidates raw
  gapFacets : (selection.gaps.map (·.facetId)).Nodup
  declared : ∀ facet, facet ∈ selection.gaps.map (·.facetId) ↔ facet ∈ raw.gaps.map (·.facetId)
  gapped : ∀ facet attempt, Gapped selection.gaps facet attempt ↔
    Gapped (raw.gaps.map (rowGap candidates)) facet attempt
  bridges : selection.bridges = firstSeen (raw.bridges.map (rowBridge candidates))
  itemCount : selection.items.length = (firstSeen ((claims candidates raw).map (·.1))).length
  gapCount : selection.gaps.length = (firstSeen (raw.gaps.map (·.facetId))).length
  record : record = ⟨raw.selections.length + raw.gaps.length + raw.bridges.length,
    selection.items.length + selection.gaps.length + selection.bridges.length,
    fieldRepeats candidates raw + rowRepeats candidates raw, 0, none⟩

theorem overlap_eq_nil {items : List ParsedItem} {gaps : List ParsedGap} :
    overlap items gaps = [] ↔ ∀ spanId relation, Relates items spanId relation → relation.1 ≠ overallFacet →
      relation.1 ∉ gaps.map (·.facetId) := by
  have hempty : overlap items gaps = [] ↔ ∀ facet, facet ∉ overlap items gaps := List.eq_nil_iff_forall_not_mem
  rw [hempty]
  simp only [overlap, List.mem_dedup, List.mem_filter, List.mem_flatMap, facetIdsOf, decide_eq_true_eq, ne_eq, not_and,
    not_exists]
  constructor
  · rintro h spanId relation ⟨item, hitem, -, hrelation⟩ hoverall hgap
    exact h relation.1 hgap item hitem (List.mem_map.mpr ⟨relation, hrelation, rfl⟩) hoverall
  · intro h facet hgap item hitem hfacet hoverall
    obtain ⟨relation, hrelation, rfl⟩ := List.mem_map.mp hfacet
    exact h item.spanId relation ⟨item, hitem, rfl, hrelation⟩ hoverall hgap

/-- The stages of an accepted output. -/
theorem parseRows_stages :
    parseRows candidates raw = .ok (selection, record) ↔
      (Offered candidates .evidence (raw.selections.map (·.spanId)) ∧
        (∀ row ∈ raw.gaps, Offered candidates .queryAttempt row.queryAttemptIds) ∧
        ∀ row ∈ raw.bridges, row.Binds candidates) ∧
      ∃ items tally, normalizeRelations (claims candidates raw)
          ((⟨raw.selections.length + raw.gaps.length + raw.bridges.length, 0, 0⟩ : Tally).duplicated
            (raw.selections.map fun row => repeats (row.facetIds.getD [])).sum) = .ok (items, tally) ∧
        ∃ gaps tally', normalizeGaps (raw.gaps.map (rowGap candidates)) (tally.duplicated
            (raw.gaps.map fun row => repeats (row.queryAttemptIds.map (idOf candidates .queryAttempt))).sum) =
            (gaps, tally') ∧ overlap items gaps = [] ∧
          selection = ⟨raw.contract, items, gaps, firstSeen (raw.bridges.map (rowBridge candidates))⟩ ∧
          record = (tally'.duplicated ((raw.bridges.map fun row =>
              repeats (row.evidenceIds.map (idOf candidates .evidence))).sum +
            repeats (raw.bridges.map (rowBridge candidates)))).record
              (items.length + gaps.length + (firstSeen (raw.bridges.map (rowBridge candidates))).length) := by
  simp only [parseRows, bind_ok, Prod.exists, claimsOf_ok, resolveGaps_ok, parseBridges_ok]
  constructor
  · rintro ⟨_, _, ⟨hspans, rfl, rfl⟩, items, tally, hitems, _, _, ⟨hattempts, rfl, rfl⟩, _, _, ⟨hbridges, rfl, rfl⟩,
      hresult⟩
    split_ifs at hresult with hclosed
    · cases hresult
    · cases hresult
      exact ⟨⟨hspans, hattempts, hbridges⟩, items, tally, hitems, _, _, rfl, by_contra hclosed, rfl, rfl⟩
  · rintro ⟨⟨hspans, hattempts, hbridges⟩, items, tally, hitems, gaps, tally', hgaps, hclosed, rfl, rfl⟩
    refine ⟨_, _, ⟨hspans, rfl, rfl⟩, items, tally, hitems, _, _, ⟨hattempts, rfl, rfl⟩, ?_⟩
    rw [hgaps]
    refine ⟨_, _, ⟨hbridges, rfl, rfl⟩, ?_⟩
    rw [if_neg (not_not_intro hclosed)]
    rfl

/-- The closed facets of an output are those of its items. -/
theorem overlap_eq_nil_of_relates {items : List ParsedItem} {gaps : List ParsedGap}
    (hrelates : ∀ spanId relation, Relates items spanId relation ↔
      ∃ role, relation.2 = some role ∧ (spanId, relation.1, role) ∈ claims candidates raw)
    (hdeclared : ∀ facet, facet ∈ gaps.map (·.facetId) ↔ facet ∈ raw.gaps.map (·.facetId)) :
    overlap items gaps = [] ↔ ∀ claim ∈ claims candidates raw, claim.2.1 ≠ overallFacet →
      claim.2.1 ∉ raw.gaps.map (·.facetId) := by
  rw [overlap_eq_nil]
  simp only [hrelates, hdeclared]
  constructor
  · rintro h ⟨spanId, facet, role⟩ hclaim
    exact h spanId (facet, some role) ⟨role, rfl, hclaim⟩
  · rintro h spanId ⟨facet, role?⟩ ⟨role, rfl, hclaim⟩
    exact h (spanId, facet, role) hclaim

theorem gapFacets (candidates : CandidateSet) (rows : List GapRow) :
    (rows.map (rowGap candidates)).map (·.facetId) = rows.map (·.facetId) := by
  rw [List.map_map]
  rfl

theorem parseRows_ok (h : parseRows candidates raw = .ok (selection, record)) :
    Agrees candidates raw ∧ ReadAs candidates raw selection record := by
  obtain ⟨⟨hspans, hattempts, hbridges⟩, items, tally, hitems, gaps, tally', hgaps, hclosed, rfl, rfl⟩ :=
    parseRows_stages.mp h
  obtain ⟨hdistinct, hfacets, hrelates, hitemCount, rfl⟩ := normalizeRelations_ok hitems
  have hspec := normalizeGaps_spec (raw.gaps.map (rowGap candidates)) (Tally.duplicated (Tally.duplicated
    (Tally.duplicated ⟨raw.selections.length + raw.gaps.length + raw.bridges.length, 0, 0⟩
      (raw.selections.map fun row => repeats (row.facetIds.getD [])).sum)
    (repeats ((claims candidates raw).map fun claim => (claim.1, claim.2.1))))
    (raw.gaps.map fun row => repeats (row.queryAttemptIds.map (idOf candidates .queryAttempt))).sum)
  rw [hgaps, gapFacets] at hspec
  obtain ⟨hfacetsDistinct, hdeclared, hgapped, hgapCount, htally⟩ := hspec
  have hroles : Consistent (claims candidates raw) := normalizeRelations_returns.mp ⟨_, hitems⟩
  refine ⟨⟨hspans, hroles, hattempts, hbridges, (overlap_eq_nil_of_relates hrelates hdeclared).mp hclosed⟩, ?_⟩
  refine ⟨hdistinct, hfacets, hrelates, hfacetsDistinct, hdeclared, hgapped, rfl, hitemCount, hgapCount, ?_⟩
  simp only at htally
  rw [htally]
  simp only [Tally.record, Tally.duplicated, fieldRepeats, rowRepeats, NormalizationRecord.mk.injEq, true_and, and_true]
  omega

theorem parseRows_returns : Returns (parseRows candidates raw) ↔ Agrees candidates raw := by
  constructor
  · rintro ⟨⟨selection, record⟩, h⟩
    exact (parseRows_ok h).1
  · intro h
    obtain ⟨⟨items, tally⟩, hitems⟩ := normalizeRelations_returns.mpr h.roles
    obtain ⟨-, -, hrelates, -, -⟩ := normalizeRelations_ok hitems
    refine ⟨_, parseRows_stages.mpr ⟨⟨h.spans, h.attempts, h.bridges⟩, items, tally, hitems, _, _, rfl, ?_, rfl, rfl⟩⟩
    refine (overlap_eq_nil_of_relates hrelates fun facet => ?_).mpr h.closed
    rw [← gapFacets candidates]
    exact (normalizeGaps_spec _ _).2.1 facet

theorem parseId_ok {selectedIds : List String} :
    parseId candidates selectedIds = .ok (selection, record) ↔
      Offered candidates .evidence selectedIds ∧
        selection = ⟨"P1_ID", (firstSeen (selectedIds.map (idOf candidates .evidence))).map fun id => ⟨id, []⟩, [], []⟩ ∧
        record = ⟨selectedIds.length, (firstSeen (selectedIds.map (idOf candidates .evidence))).length,
          repeats (selectedIds.map (idOf candidates .evidence)), 0, none⟩ := by
  simp only [parseId, bind_ok, resolveAll_ok]
  constructor
  · rintro ⟨ids, ⟨hoffered, rfl⟩, hresult⟩
    cases hresult
    refine ⟨hoffered, rfl, ?_⟩
    simp [Tally.record, Tally.dedup_eq, Tally.duplicated]
  · rintro ⟨hoffered, rfl, rfl⟩
    refine ⟨_, ⟨hoffered, rfl⟩, ?_⟩
    simp [Tally.record, Tally.dedup_eq, Tally.duplicated, pure, Except.pure]

/-! ## The order of the rows -/

/-- The rows of an output in another order. -/
inductive SelectorOutput.Reordered : SelectorOutput → SelectorOutput → Prop
  | typed {rows rows' : List SelectionRow} {gaps gaps' : Option (List GapRow)} (hrows : rows.Perm rows')
    (hgaps : Option.Rel List.Perm gaps gaps') : Reordered (.typed rows gaps) (.typed rows' gaps')
  | bridge {rows rows' : List SelectionRow} {gaps gaps' : Option (List GapRow)} {bridges : Option (List BridgeRow)}
    (hrows : rows.Perm rows') (hgaps : Option.Rel List.Perm gaps gaps') :
    Reordered (.bridge rows gaps bridges) (.bridge rows' gaps' bridges)

theorem getD_perm {gaps gaps' : Option (List GapRow)} (h : Option.Rel List.Perm gaps gaps') :
    (gaps.getD []).Perm (gaps'.getD []) := by
  cases h with
  | none => exact List.Perm.refl []
  | some hperm => exact hperm

section
variable {raw' : SelectorOutput}

theorem SelectorOutput.Reordered.selections_perm (h : raw.Reordered raw') : raw.selections.Perm raw'.selections := by
  cases h with
  | typed hrows _ => exact hrows
  | bridge hrows _ => exact hrows

theorem SelectorOutput.Reordered.gaps_perm (h : raw.Reordered raw') : raw.gaps.Perm raw'.gaps := by
  cases h with
  | typed _ hgaps => exact getD_perm hgaps
  | bridge _ hgaps => exact getD_perm hgaps

theorem SelectorOutput.Reordered.bridges_eq (h : raw.Reordered raw') : raw.bridges = raw'.bridges := by
  cases h with
  | typed _ _ => rfl
  | bridge _ _ => rfl

theorem SelectorOutput.Reordered.contract_eq (h : raw.Reordered raw') : raw.contract = raw'.contract := by
  cases h with
  | typed _ _ => rfl
  | bridge _ _ => rfl

theorem SelectorOutput.Reordered.schemaValid (h : raw.Reordered raw') : raw.SchemaValid ↔ raw'.SchemaValid := by
  have hrows := h.selections_perm
  have hgaps := h.gaps_perm
  have hbridges := h.bridges_eq
  have hrowsMem : ∀ row, row ∈ raw.selections ↔ row ∈ raw'.selections := fun _ => hrows.mem_iff
  have hgapsMem : ∀ row, row ∈ raw.gaps ↔ row ∈ raw'.gaps := fun _ => hgaps.mem_iff
  have heq : ((raw.selections.length ≤ 64 ∧ ∀ row ∈ raw.selections, row.Fits) ∧
      (raw.gaps.length ≤ 16 ∧ ∀ row ∈ raw.gaps, row.Fits) ∧
        (raw.bridges.length ≤ 16 ∧ ∀ row ∈ raw.bridges, row.Fits)) ↔
      ((raw'.selections.length ≤ 64 ∧ ∀ row ∈ raw'.selections, row.Fits) ∧
        (raw'.gaps.length ≤ 16 ∧ ∀ row ∈ raw'.gaps, row.Fits) ∧
          (raw'.bridges.length ≤ 16 ∧ ∀ row ∈ raw'.bridges, row.Fits)) := by
    simp only [hrows.length_eq, hgaps.length_eq, hbridges, hrowsMem, hgapsMem]
  cases h with
  | typed _ _ => exact heq
  | bridge _ _ => exact heq

theorem SelectorOutput.Reordered.claims_perm (h : raw.Reordered raw') :
    (claims candidates raw).Perm (claims candidates raw') := by
  exact h.selections_perm.flatMap_right _

theorem SelectorOutput.Reordered.symm (h : raw.Reordered raw') : raw'.Reordered raw := by
  have hflip : ∀ {gaps gaps' : Option (List GapRow)}, Option.Rel List.Perm gaps gaps' →
      Option.Rel List.Perm gaps' gaps := by
    rintro _ _ (hperm | _)
    · exact .some hperm.symm
    · exact .none
  cases h with
  | typed hrows hgaps => exact .typed hrows.symm (hflip hgaps)
  | bridge hrows hgaps => exact .bridge hrows.symm (hflip hgaps)

theorem SelectorOutput.Reordered.agrees (h : raw.Reordered raw') (hagrees : Agrees candidates raw) :
    Agrees candidates raw' := by
  have hclaims : ∀ claim, claim ∈ claims candidates raw' → claim ∈ claims candidates raw :=
    fun _ => h.claims_perm.mem_iff.mpr
  have hgaps : ∀ row, row ∈ raw'.gaps → row ∈ raw.gaps := fun _ => h.gaps_perm.mem_iff.mpr
  refine ⟨fun label hlabel => ?_, fun spanId facet role role' hrole hrole' => ?_, fun row hrow => ?_, ?_,
    fun claim hclaim hoverall hgap => ?_⟩
  · exact hagrees.spans label ((h.selections_perm.map _).mem_iff.mpr hlabel)
  · exact hagrees.roles spanId facet role role' (hclaims _ hrole) (hclaims _ hrole')
  · exact hagrees.attempts row (hgaps row hrow)
  · rw [← h.bridges_eq]
    exact hagrees.bridges
  · exact hagrees.closed claim (hclaims _ hclaim) hoverall ((h.gaps_perm.map _).mem_iff.mpr hgap)

/-- An output the parser accepts under the contract expected. -/
structure Acceptable (candidates : CandidateSet) (expected : Option String) (raw : SelectorOutput) : Prop where
  contract : ∀ e ∈ expected, raw.contract = e
  schema : raw.SchemaValid
  agrees : Agrees candidates raw

/-- The overall facet is claimed and declared a gap. -/
def ClaimsOverallGap (candidates : CandidateSet) (raw : SelectorOutput) : Prop :=
  overallFacet ∈ (claims candidates raw).map (·.2.1) ∧ overallFacet ∈ raw.gaps.map (·.facetId)

theorem parseBody_rows (h : raw.Reordered raw') : parseBody candidates raw = parseRows candidates raw := by
  cases h <;> rfl

theorem parseSelection_returns (h : raw.Reordered raw') :
    Returns (parseSelection candidates expected raw) ↔ Acceptable candidates expected raw := by
  unfold Returns
  simp only [parseSelection_ok, parseBody_rows h]
  constructor
  · rintro ⟨result, hcontract, hschema, hrows⟩
    exact ⟨hcontract, hschema, parseRows_returns.mp ⟨result, hrows⟩⟩
  · rintro ⟨hcontract, hschema, hagrees⟩
    obtain ⟨result, hrows⟩ := parseRows_returns.mpr hagrees
    exact ⟨result, hcontract, hschema, hrows⟩

theorem parseSelection_reads (hrows : raw.Reordered raw')
    (h : parseSelection candidates expected raw = .ok (selection, record)) :
    Agrees candidates raw ∧ ReadAs candidates raw selection record := by
  obtain ⟨-, -, hbody⟩ := parseSelection_ok.mp h
  rw [parseBody_rows hrows] at hbody
  exact parseRows_ok hbody

theorem SelectorOutput.Reordered.acceptable (h : raw.Reordered raw') (hacceptable : Acceptable candidates expected raw) :
    Acceptable candidates expected raw' :=
  ⟨fun e he => h.contract_eq ▸ hacceptable.contract e he, h.schemaValid.mp hacceptable.schema,
    h.agrees hacceptable.agrees⟩

/-- Nothing about an output depends on the order of its rows, and what it is accepted as is coherent. -/
structure OrderFree (candidates : CandidateSet) (expected : Option String) (raw : SelectorOutput) : Prop where
  accepted : ∀ raw', raw.Reordered raw' →
    (Returns (parseSelection candidates expected raw) ↔ Returns (parseSelection candidates expected raw'))
  same : ∀ raw', raw.Reordered raw' → ∀ selection record selection' record',
    parseSelection candidates expected raw = .ok (selection, record) →
    parseSelection candidates expected raw' = .ok (selection', record') →
    (∀ spanId relation, Relates selection.items spanId relation ↔ Relates selection'.items spanId relation) ∧
      (∀ facet, facet ∈ selection.gaps.map (·.facetId) ↔ facet ∈ selection'.gaps.map (·.facetId)) ∧
      ∀ facet attempt, Gapped selection.gaps facet attempt ↔ Gapped selection'.gaps facet attempt
  coherent : ∀ selection record, parseSelection candidates expected raw = .ok (selection, record) →
    (selection.items.map (·.spanId)).Nodup ∧
      (∀ spanId facet role role', Relates selection.items spanId (facet, role) →
        Relates selection.items spanId (facet, role') → role = role') ∧
      ∀ spanId facet role, Relates selection.items spanId (facet, role) → facet ∉ selection.gaps.map (·.facetId)

theorem ReadAs.same (h : ReadAs candidates raw selection record) {selection' : ParsedSelection}
    {record' : NormalizationRecord} (hrows : raw.Reordered raw') (h' : ReadAs candidates raw' selection' record') :
    (∀ spanId relation, Relates selection.items spanId relation ↔ Relates selection'.items spanId relation) ∧
      (∀ facet, facet ∈ selection.gaps.map (·.facetId) ↔ facet ∈ selection'.gaps.map (·.facetId)) ∧
      ∀ facet attempt, Gapped selection.gaps facet attempt ↔ Gapped selection'.gaps facet attempt := by
  have hclaims : ∀ claim, claim ∈ claims candidates raw ↔ claim ∈ claims candidates raw' :=
    fun _ => hrows.claims_perm.mem_iff
  have hgaps : ∀ gap, gap ∈ raw.gaps.map (rowGap candidates) ↔ gap ∈ raw'.gaps.map (rowGap candidates) :=
    fun _ => (hrows.gaps_perm.map _).mem_iff
  refine ⟨fun spanId relation => ?_, fun facet => ?_, fun facet attempt => ?_⟩
  · rw [h.relates, h'.relates]
    simp only [hclaims]
  · rw [h.declared, h'.declared]
    exact (hrows.gaps_perm.map _).mem_iff
  · rw [h.gapped, h'.gapped, Gapped, Gapped]
    simp only [hgaps]

theorem ReadAs.oneRole (h : ReadAs candidates raw selection record) (hagrees : Agrees candidates raw)
    {spanId facet : String} {role role' : Option String} (hrole : Relates selection.items spanId (facet, role))
    (hrole' : Relates selection.items spanId (facet, role')) : role = role' := by
  obtain ⟨r, rfl, hr⟩ := (h.relates spanId _).mp hrole
  obtain ⟨r', rfl, hr'⟩ := (h.relates spanId _).mp hrole'
  rw [hagrees.roles spanId facet r r' hr hr']

theorem SelectorOutput.rows_or_id (raw : SelectorOutput) : raw.Reordered raw ∨ ∃ ids, raw = .id ids := by
  have hgaps : ∀ gaps : Option (List GapRow), Option.Rel List.Perm gaps gaps := by
    rintro (_ | gaps)
    · exact .none
    · exact .some (List.Perm.refl gaps)
  cases raw with
  | id ids => exact .inr ⟨ids, rfl⟩
  | typed rows gaps => exact .inl (.typed (List.Perm.refl rows) (hgaps gaps))
  | bridge rows gaps bridges => exact .inl (.bridge (List.Perm.refl rows) (hgaps gaps))

/-- What an output is accepted as, the overall facet apart. -/
theorem ReadAs.closed (h : ReadAs candidates raw selection record) (hagrees : Agrees candidates raw)
    (hoverall : ¬ ClaimsOverallGap candidates raw) {spanId facet : String} {role : Option String}
    (hrole : Relates selection.items spanId (facet, role)) : facet ∉ selection.gaps.map (·.facetId) := by
  rw [h.declared]
  obtain ⟨r, -, hclaim⟩ := (h.relates spanId _).mp hrole
  by_cases hfacet : facet = overallFacet
  · subst hfacet
    exact fun hgap => hoverall ⟨List.mem_map.mpr ⟨_, hclaim, rfl⟩, hgap⟩
  · exact hagrees.closed _ hclaim hfacet

/-- The order of the rows is free unless an acceptable output declares a gap on the overall facet that it
also claims. -/
theorem parseSelection_orderFree_iff (candidates : CandidateSet) (expected : Option String) (raw : SelectorOutput) :
    OrderFree candidates expected raw ↔ ¬ (Acceptable candidates expected raw ∧ ClaimsOverallGap candidates raw) := by
  constructor
  · rintro hfree ⟨hacceptable, hclaim, hgap⟩
    obtain hrows | ⟨ids, rfl⟩ := raw.rows_or_id
    · obtain ⟨⟨selection, record⟩, h⟩ := (parseSelection_returns hrows).mpr hacceptable
      obtain ⟨-, hread⟩ := parseSelection_reads hrows h
      obtain ⟨⟨spanId, facet, role⟩, hmem, rfl⟩ := List.mem_map.mp hclaim
      have hrelates := (hread.relates spanId (overallFacet, some role)).mpr ⟨role, rfl, hmem⟩
      exact (hfree.coherent selection record h).2.2 spanId _ _ hrelates ((hread.declared _).mpr hgap)
    · cases hgap
  · intro hoverall
    refine ⟨fun raw' hrows => ?_, fun raw' hrows selection record selection' record' h h' => ?_,
      fun selection record h => ?_⟩
    · rw [parseSelection_returns hrows, parseSelection_returns hrows.symm]
      exact ⟨hrows.acceptable, hrows.symm.acceptable⟩
    · exact (parseSelection_reads hrows h).2.same hrows (parseSelection_reads hrows.symm h').2
    · obtain hrows | ⟨ids, rfl⟩ := raw.rows_or_id
      · obtain ⟨hagrees, hread⟩ := parseSelection_reads hrows h
        have hacceptable := (parseSelection_returns hrows).mp ⟨_, h⟩
        refine ⟨hread.spans, fun _ _ _ _ hrole hrole' => hread.oneRole hagrees hrole hrole', fun _ _ _ hrole => ?_⟩
        exact hread.closed hagrees (fun hclaim => hoverall ⟨hacceptable, hclaim⟩) hrole
      · obtain ⟨-, -, hbody⟩ := parseSelection_ok.mp h
        obtain ⟨-, rfl, -⟩ := parseId_ok.mp hbody
        have hnone : ∀ spanId relation, ¬ Relates
            ((firstSeen (ids.map (idOf candidates .evidence))).map fun id => (⟨id, []⟩ : ParsedItem)) spanId relation := by
          rintro spanId relation ⟨item, hitem, -, hrelation⟩
          obtain ⟨id, -, rfl⟩ := List.mem_map.mp hitem
          cases hrelation
        refine ⟨?_, fun spanId facet role _ hrole => (hnone spanId _ hrole).elim,
          fun spanId facet role hrole => (hnone spanId _ hrole).elim⟩
        rw [List.map_map]
        exact (nodup_firstSeen _).map fun _ _ heq => heq

/-- A claim on the question as a whole, and a gap declared on it. -/
def overallGap : SelectorOutput :=
  .typed [⟨"E1", "support", none⟩] (some [⟨overallFacet, ["Q1"]⟩])

theorem overallGap_accepted :
    Returns (parseSelection (.build ["x"] ["q"]) none overallGap) ∧
      ¬ OrderFree (.build ["x"] ["q"]) none overallGap := by
  have hparse : parseSelection (.build ["x"] ["q"]) none overallGap =
      .ok (⟨"P1_TYPED", [⟨"x", [(overallFacet, some "support")]⟩], [⟨overallFacet, ["q"]⟩], []⟩, ⟨2, 2, 0, 0, none⟩) := by
    rfl
  refine ⟨⟨_, hparse⟩, fun hfree => ?_⟩
  refine (hfree.coherent _ _ hparse).2.2 "x" overallFacet (some "support") ⟨_, List.mem_singleton_self _, rfl, ?_⟩ ?_
  · exact List.mem_singleton_self _
  · exact List.mem_singleton_self _

end

/-! ## The tally of an accepted output -/

def SelectorOutput.selectedIds : SelectorOutput → List String
  | .id selectedIds => selectedIds
  | .typed _ _ | .bridge _ _ _ => []

/-- The rows whose span, facet or bridge stood before. -/
def mergedAway (candidates : CandidateSet) (raw : SelectorOutput) : ℕ :=
  repeats (raw.selectedIds.map (idOf candidates .evidence)) +
    repeats (raw.selections.map fun row => idOf candidates .evidence row.spanId) +
    repeats (raw.gaps.map (·.facetId)) + repeats (raw.bridges.map (rowBridge candidates))

/-- No two rows select one id, claim one facet of a span, declare one facet or bind one bridge, and no field
holds a value twice. -/
structure Unrepeated (candidates : CandidateSet) (raw : SelectorOutput) : Prop where
  ids : (raw.selectedIds.map (idOf candidates .evidence)).Nodup
  claimed : raw.selections.Pairwise fun row row' =>
    idOf candidates .evidence row.spanId = idOf candidates .evidence row'.spanId →
      List.Disjoint (facetsOf row.facetIds) (facetsOf row'.facetIds)
  declared : (raw.gaps.map (·.facetId)).Nodup
  bound : (raw.bridges.map (rowBridge candidates)).Nodup
  facetIds : ∀ row ∈ raw.selections, (row.facetIds.getD []).Nodup
  queryAttemptIds : ∀ row ∈ raw.gaps, (row.queryAttemptIds.map (idOf candidates .queryAttempt)).Nodup
  evidenceIds : ∀ row ∈ raw.bridges, (row.evidenceIds.map (idOf candidates .evidence)).Nodup

theorem facetsOf_nodup (facetIds : Option (List String)) : (facetsOf facetIds).Nodup := by
  simp only [facetsOf]
  split
  · exact List.nodup_singleton _
  · exact nodup_firstSeen _

theorem facetsOf_ne_nil (facetIds : Option (List String)) : facetsOf facetIds ≠ [] := by
  simp only [facetsOf]
  split
  · exact List.cons_ne_nil _ _
  · assumption

/-- The spans claimed are the spans of the rows. -/
theorem claims_spans (candidates : CandidateSet) (raw : SelectorOutput) :
    (firstSeen ((claims candidates raw).map (·.1))).length =
      (firstSeen (raw.selections.map fun row => idOf candidates .evidence row.spanId)).length := by
  rw [length_firstSeen, length_firstSeen]
  congr 1
  ext spanId
  simp only [List.mem_toFinset, List.mem_map, claims, List.mem_flatMap, rowClaims]
  constructor
  · rintro ⟨_, ⟨row, hrow, facet, -, rfl⟩, rfl⟩
    exact ⟨row, hrow, rfl⟩
  · rintro ⟨row, hrow, rfl⟩
    obtain ⟨facet, hfacet⟩ := List.exists_mem_of_ne_nil _ (facetsOf_ne_nil row.facetIds)
    exact ⟨_, ⟨row, hrow, facet, hfacet, rfl⟩, rfl⟩

/-- No facet of a span is claimed twice when the rows of a span claim different facets. -/
theorem claims_nodup (candidates : CandidateSet) (raw : SelectorOutput) :
    ((claims candidates raw).map fun claim => (claim.1, claim.2.1)).Nodup ↔
      raw.selections.Pairwise fun row row' =>
        idOf candidates .evidence row.spanId = idOf candidates .evidence row'.spanId →
          List.Disjoint (facetsOf row.facetIds) (facetsOf row'.facetIds) := by
  have hpairs : (claims candidates raw).map (fun claim => (claim.1, claim.2.1)) = raw.selections.flatMap fun row =>
      (facetsOf row.facetIds).map fun facet => (idOf candidates .evidence row.spanId, facet) := by
    simp only [claims, List.map_flatMap, rowClaims, List.map_map]
    rfl
  have hdisjoint : ∀ row row' : SelectionRow,
      List.Disjoint ((facetsOf row.facetIds).map fun facet => (idOf candidates .evidence row.spanId, facet))
        ((facetsOf row'.facetIds).map fun facet => (idOf candidates .evidence row'.spanId, facet)) ↔
      (idOf candidates .evidence row.spanId = idOf candidates .evidence row'.spanId →
        List.Disjoint (facetsOf row.facetIds) (facetsOf row'.facetIds)) := by
    intro row row'
    constructor
    · intro h hspan facet hfacet hfacet'
      refine h (List.mem_map.mpr ⟨facet, hfacet, rfl⟩) (List.mem_map.mpr ⟨facet, hfacet', ?_⟩)
      rw [hspan]
    · rintro h ⟨spanId, facet⟩ hpair hpair'
      obtain ⟨f, hf, heq⟩ := List.mem_map.mp hpair
      obtain ⟨f', hf', heq'⟩ := List.mem_map.mp hpair'
      rw [← heq'] at heq
      have hspan := (Prod.mk.inj heq).1
      rw [(Prod.mk.inj heq).2] at hf
      exact h hspan hf hf'
  rw [hpairs, List.nodup_flatMap]
  constructor
  · rintro ⟨-, h⟩
    exact h.imp fun hpair => (hdisjoint _ _).mp hpair
  · intro h
    refine ⟨fun row _ => (facetsOf_nodup _).map fun _ _ heq => (Prod.mk.inj heq).2, ?_⟩
    exact h.imp fun hpair => (hdisjoint _ _).mpr hpair

theorem fieldRepeats_eq_zero : fieldRepeats candidates raw = 0 ↔
    (∀ row ∈ raw.selections, (row.facetIds.getD []).Nodup) ∧
      (∀ row ∈ raw.gaps, (row.queryAttemptIds.map (idOf candidates .queryAttempt)).Nodup) ∧
      ∀ row ∈ raw.bridges, (row.evidenceIds.map (idOf candidates .evidence)).Nodup := by
  simp only [fieldRepeats, Nat.add_eq_zero_iff, List.sum_eq_zero_iff_forall_eq_nat, List.forall_mem_map, repeats_eq_zero_iff, and_assoc]

theorem rowRepeats_eq_zero : rowRepeats candidates raw = 0 ↔
    (raw.selections.Pairwise fun row row' =>
      idOf candidates .evidence row.spanId = idOf candidates .evidence row'.spanId →
        List.Disjoint (facetsOf row.facetIds) (facetsOf row'.facetIds)) ∧
      (raw.gaps.map (·.facetId)).Nodup ∧ (raw.bridges.map (rowBridge candidates)).Nodup := by
  simp only [rowRepeats, Nat.add_eq_zero_iff, repeats_eq_zero_iff, claims_nodup, and_assoc]

/-- What the record of an accepted output reports. -/
structure Reports (candidates : CandidateSet) (raw : SelectorOutput) (selection : ParsedSelection)
    (record : NormalizationRecord) : Prop where
  rawCount : record.rawCount = raw.elementCount
  uniqueCount : record.uniqueCount = selection.items.length + selection.gaps.length + selection.bridges.length
  distinct : (selection.items.map (·.spanId)).Nodup ∧ (selection.gaps.map (·.facetId)).Nodup ∧
    selection.bridges.Nodup
  merged : record.rawCount = record.uniqueCount + mergedAway candidates raw
  repaired : record.wasRepaired = false ↔ record.duplicateCount = 0
  duplicates : record.duplicateCount = 0 ↔ Unrepeated candidates raw

theorem length_add_repeats {α : Type} [DecidableEq α] (xs : List α) : (firstSeen xs).length + repeats xs = xs.length := by
  have hle := length_firstSeen_le xs
  unfold repeats
  omega

theorem ReadAs.reports (h : ReadAs candidates raw selection record) (hrows : raw.Reordered raw) :
    Reports candidates raw selection record := by
  have hids : raw.selectedIds = [] := by
    cases hrows <;> rfl
  have hcount : raw.elementCount = raw.selections.length + raw.gaps.length + raw.bridges.length := by
    cases hrows <;> rfl
  have hitems := h.itemCount
  rw [claims_spans] at hitems
  have hspans := length_add_repeats (raw.selections.map fun row => idOf candidates .evidence row.spanId)
  have hgaps := length_add_repeats (raw.gaps.map (·.facetId))
  have hbridges := length_add_repeats (raw.bridges.map (rowBridge candidates))
  rw [List.length_map] at hspans hgaps hbridges
  rw [← h.bridges] at hbridges
  rw [← hitems] at hspans
  rw [← h.gapCount] at hgaps
  have hduplicates : record.duplicateCount = fieldRepeats candidates raw + rowRepeats candidates raw := by rw [h.record]
  have hraw : record.rawCount = raw.selections.length + raw.gaps.length + raw.bridges.length := by rw [h.record]
  have hunique : record.uniqueCount =
      selection.items.length + selection.gaps.length + selection.bridges.length := by rw [h.record]
  refine ⟨by rw [hraw, hcount], hunique, ⟨h.spans, h.gapFacets, ?_⟩, ?_, ?_, ?_⟩
  · rw [h.bridges]
    exact nodup_firstSeen _
  · rw [hraw, hunique, mergedAway, hids, List.map_nil]
    have hnil : repeats ([] : List String) = 0 := rfl
    omega
  · rw [h.record]
    simp [NormalizationRecord.wasRepaired]
  · rw [hduplicates, Nat.add_eq_zero_iff, fieldRepeats_eq_zero, rowRepeats_eq_zero]
    constructor
    · rintro ⟨⟨hfacetIds, hattempts, hevidence⟩, hclaimed, hdeclared, hbound⟩
      exact ⟨by simp [hids], hclaimed, hdeclared, hbound, hfacetIds, hattempts, hevidence⟩
    · rintro ⟨-, hclaimed, hdeclared, hbound, hfacetIds, hattempts, hevidence⟩
      exact ⟨⟨hfacetIds, hattempts, hevidence⟩, hclaimed, hdeclared, hbound⟩

theorem parseId_reports {selectedIds : List String}
    (h : parseId candidates selectedIds = .ok (selection, record)) :
    Reports candidates (.id selectedIds) selection record := by
  obtain ⟨-, rfl, rfl⟩ := parseId_ok.mp h
  have hlength := length_add_repeats (selectedIds.map (idOf candidates .evidence))
  rw [List.length_map] at hlength
  have hnone : repeats (([] : List SelectionRow).map fun row => idOf candidates .evidence row.spanId) +
      repeats (([] : List GapRow).map (·.facetId)) + repeats (([] : List BridgeRow).map (rowBridge candidates)) = 0 := rfl
  have hmerged : mergedAway candidates (.id selectedIds) = repeats (selectedIds.map (idOf candidates .evidence)) := by
    simp only [mergedAway, SelectorOutput.selectedIds, SelectorOutput.selections, SelectorOutput.gaps,
      SelectorOutput.bridges]
    omega
  refine ⟨rfl, by simp, ⟨?_, List.nodup_nil, List.nodup_nil⟩, ?_, ?_, ?_⟩
  · rw [List.map_map]
    exact (nodup_firstSeen _).map fun _ _ heq => heq
  · rw [hmerged]
    exact hlength.symm
  · simp [NormalizationRecord.wasRepaired]
  · rw [repeats_eq_zero_iff]
    constructor
    · intro hids
      exact ⟨hids, List.Pairwise.nil, List.nodup_nil, List.nodup_nil, by simp [SelectorOutput.selections],
        by simp [SelectorOutput.gaps], by simp [SelectorOutput.bridges]⟩
    · intro hunrepeated
      exact hunrepeated.ids

/-- An accepted output's raw count is its parsed elements and the rows merged away, and no duplicates are reported
when nothing is repeated; rows of one span on different facets are no repeat. -/
theorem parseSelection_reports (h : parseSelection candidates expected raw = .ok (selection, record)) :
    Reports candidates raw selection record := by
  obtain hrows | ⟨ids, rfl⟩ := raw.rows_or_id
  · exact (parseSelection_reads hrows h).2.reports hrows
  · obtain ⟨-, -, hbody⟩ := parseSelection_ok.mp h
    exact parseId_reports hbody

/-- A span selected for one facet, and again for another. -/
def twoFacets : SelectorOutput :=
  .typed [⟨"E1", "support", some ["diet"]⟩, ⟨"E1", "support", some ["origin"]⟩] none

theorem twoFacets_parsed : parseSelection (.build ["x"] []) none twoFacets =
    .ok (⟨"P1_TYPED", [⟨"x", [("diet", some "support"), ("origin", some "support")]⟩], [], []⟩, ⟨2, 1, 0, 0, none⟩) := by
  rfl

theorem parseSelection_reports_twoFacets : Reports (.build ["x"] []) twoFacets
    ⟨"P1_TYPED", [⟨"x", [("diet", some "support"), ("origin", some "support")]⟩], [], []⟩ ⟨2, 1, 0, 0, none⟩ :=
  parseSelection_reports twoFacets_parsed

/-- Its two rows are merged, and no repair is reported. -/
theorem twoFacets_merged_unreported : ∃ selection record,
    parseSelection (.build ["x"] []) none twoFacets = .ok (selection, record) ∧
      record.wasRepaired = false ∧ record.duplicateCount = 0 ∧ mergedAway (.build ["x"] []) twoFacets = 1 :=
  ⟨_, _, twoFacets_parsed, rfl, rfl, rfl⟩

end
end Shapeflow.P1
