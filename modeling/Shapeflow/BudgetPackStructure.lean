import Shapeflow.BudgetPackLimit

set_option autoImplicit false

/-!
# What packing keeps together

Kept and dropped ids part the selected ones. Units meet only if they are equal, and
the loop takes a unit whole or not at all, so the spans of a live disagreement
share one fate.
-/
namespace Shapeflow.P1

/-! ## Live disagreements -/

/-- A span of the item is claimed for the facet, in any role or none. -/
def Names (facet : String) (item : ParsedItem) : Prop := facet ∈ item.relations.map Prod.fst

/-- Some item claims the role for the facet. -/
def Claimed (items : List ParsedItem) (facet role : String) : Prop :=
  ∃ item ∈ items, (facet, some role) ∈ item.relations

theorem mem_claimedRoles {relations : List Relation} {facet role : String} :
    (facet, role) ∈ claimedRoles relations ↔ (facet, some role) ∈ relations ∧ role ≠ "" := by
  simp only [claimedRoles, List.mem_filterMap, Prod.exists]
  constructor
  · rintro ⟨f, r, hmem, hclaim⟩
    cases r with
    | none => cases hclaim
    | some r =>
      simp only at hclaim
      split_ifs at hclaim with hempty
      cases hclaim
      exact ⟨hmem, hempty⟩
  · rintro ⟨hmem, hempty⟩
    exact ⟨facet, some role, hmem, if_neg hempty⟩

theorem mem_contradictionFacets {items : List ParsedItem} {facet : String} :
    facet ∈ contradictionFacets items ↔ Claimed items facet "support" ∧ Claimed items facet "contradict" := by
  have hrole : ∀ role : String, role ≠ "" →
      (role ∈ Dict.under (claimedRoles (items.flatMap (·.relations))) facet ↔ Claimed items facet role) := by
    intro role hrole
    rw [Dict.mem_under, mem_claimedRoles, List.mem_flatMap]
    exact and_iff_left hrole
  rw [← hrole "support" (by decide), ← hrole "contradict" (by decide), contradictionFacets, facetRoles]
  simp only [List.mem_map, List.mem_filter, decide_eq_true_eq, Prod.exists, exists_and_right, exists_eq_right]
  constructor
  · rintro ⟨roles, hentry, hroles⟩
    have hget := Dict.get?_of_mem hentry
    rw [Dict.get?_collect] at hget
    split at hget
    · cases hget
      exact hroles
    · cases hget
  · rintro ⟨hsupport, hcontradict⟩
    refine ⟨_, Dict.mem_of_get? ?_, hsupport, hcontradict⟩
    rw [Dict.get?_collect, if_pos]
    exact List.mem_map.mpr ⟨_, Dict.mem_under.mp hsupport, rfl⟩

theorem mem_disputed {items : List ParsedItem} {facets : List String} {facet spanId : String} :
    (facet, spanId) ∈ disputed items facets ↔
      facet ∈ facets ∧ ∃ item ∈ items, item.spanId = spanId ∧ Names facet item := by
  simp only [disputed, Names, List.mem_flatMap, List.mem_map, List.mem_filter, decide_eq_true_eq]
  constructor
  · rintro ⟨item, hitem, relation, ⟨hrelation, hfacet⟩, heq⟩
    cases heq
    exact ⟨hfacet, item, hitem, rfl, relation, hrelation, rfl⟩
  · rintro ⟨hfacet, item, hitem, rfl, relation, hrelation, rfl⟩
    exact ⟨item, hitem, relation, ⟨hrelation, hfacet⟩, rfl⟩

/-! ## Units -/

/-- The forest in which the units are the trees. -/
def unitForest (items : List ParsedItem) (facets : List String) : Forest String :=
  Forest.unions Forest.singletons ((Dict.collect (disputed items facets)).values.flatMap joined)

theorem root_eq_of_joined {f : Forest String} {pairs : List (String × String)} {members : List String}
    (h : ∀ p ∈ joined members, p ∈ pairs) {a b : String} (ha : a ∈ members) (hb : b ∈ members) :
    (f.unions pairs).root a = (f.unions pairs).root b := by
  cases members with
  | nil => cases ha
  | cons first others =>
    have hfirst : ∀ other ∈ first :: others, (f.unions pairs).root first = (f.unions pairs).root other := by
      intro other hother
      obtain rfl | hother := List.mem_cons.mp hother
      · rfl
      · exact f.root_unions_joins (h (first, other) (List.mem_map.mpr ⟨other, hother, rfl⟩))
    rw [← hfirst a ha, ← hfirst b hb]

/-- Two spans naming one disputed facet are in one tree. -/
theorem root_eq_of_disputed {items : List ParsedItem} {facets : List String} {facet a b : String}
    (ha : (facet, a) ∈ disputed items facets) (hb : (facet, b) ∈ disputed items facets) :
    (unitForest items facets).root a = (unitForest items facets).root b := by
  have hvalue : Dict.under (disputed items facets) facet ∈ (Dict.collect (disputed items facets)).values := by
    have hget := Dict.get?_collect (disputed items facets) facet
    rw [if_pos (List.mem_map.mpr ⟨_, ha, rfl⟩)] at hget
    exact List.mem_map.mpr ⟨_, Dict.mem_of_get? hget, rfl⟩
  refine root_eq_of_joined (fun p hp => ?_) (Dict.mem_under.mpr ha) (Dict.mem_under.mpr hb)
  exact List.mem_flatMap.mpr ⟨_, hvalue, hp⟩

theorem mem_rooted {f : Forest String} {ids : List String} {root spanId : String} :
    spanId ∈ Dict.under (findAll f ids) root ↔ spanId ∈ ids ∧ f.root spanId = root := by
  rw [Dict.mem_under, findAll_eq]
  simp only [List.mem_map, Prod.mk.injEq]
  constructor
  · rintro ⟨i, hi, rfl, rfl⟩
    exact ⟨hi, rfl⟩
  · rintro ⟨hi, rfl⟩
    exact ⟨spanId, hi, rfl, rfl⟩

/-- A unit holds the ids of one tree. -/
theorem mem_unit {items : List ParsedItem} {facets unit : List String} (h : unit ∈ atomicUnits items facets) :
    ∃ root, ∀ spanId, spanId ∈ unit ↔
      spanId ∈ items.map (·.spanId) ∧ (unitForest items facets).root spanId = root := by
  obtain ⟨root, -, rfl⟩ := Dict.mem_values_collect h
  exact ⟨root, fun spanId => mem_rooted⟩

theorem exists_unit {items : List ParsedItem} {facets : List String} {spanId : String}
    (h : spanId ∈ items.map (·.spanId)) : ∃ unit ∈ atomicUnits items facets, spanId ∈ unit := by
  have hget := Dict.get?_collect (findAll (unitForest items facets) (items.map (·.spanId)))
    ((unitForest items facets).root spanId)
  have hmem : spanId ∈ Dict.under (findAll (unitForest items facets) (items.map (·.spanId)))
      ((unitForest items facets).root spanId) := mem_rooted.mpr ⟨h, rfl⟩
  rw [if_pos (List.mem_map.mpr ⟨_, Dict.mem_under.mp hmem, rfl⟩)] at hget
  exact ⟨_, List.mem_map.mpr ⟨_, Dict.mem_of_get? hget, rfl⟩, hmem⟩

/-- Units that meet have the same members. -/
theorem units_meet {items : List ParsedItem} {facets u v : List String} (hu : u ∈ atomicUnits items facets)
    (hv : v ∈ atomicUnits items facets) {spanId : String} (hsu : spanId ∈ u) (hsv : spanId ∈ v) :
    ∀ i, i ∈ u ↔ i ∈ v := by
  obtain ⟨root, hroot⟩ := mem_unit hu
  obtain ⟨root', hroot'⟩ := mem_unit hv
  have heq : root = root' := ((hroot spanId).mp hsu).2.symm.trans ((hroot' spanId).mp hsv).2
  intro i
  rw [hroot, hroot', heq]

/-! ## Units are taken whole -/

def Whole (kept unit : List String) : Prop := (∀ i ∈ unit, i ∈ kept) ∨ ∀ i ∈ unit, i ∉ kept

theorem admitUnit_whole (costOf : List String → ℤ) (tokenBudget : ℤ) {kept unit other : List String}
    (h : Whole kept other) (hmeet : ∀ i ∈ unit, i ∈ other → ∀ j, j ∈ unit ↔ j ∈ other) :
    Whole (admitUnit costOf tokenBudget kept unit) other := by
  obtain heq | ⟨heq, -⟩ := admitUnit_eq costOf tokenBudget kept unit
  · rw [heq]
    exact h
  · have hmem : ∀ i, i ∈ admitUnit costOf tokenBudget kept unit ↔ i ∈ kept ∨ i ∈ unit := by
      intro i
      rw [heq, List.mem_append, List.mem_filter, decide_eq_true_eq]
      tauto
    simp only [Whole, hmem]
    by_cases hshared : ∃ i ∈ unit, i ∈ other
    · obtain ⟨i, hi, hother⟩ := hshared
      exact .inl fun j hj => .inr ((hmeet i hi hother j).mpr hj)
    · obtain hall | hnone := h
      · exact .inl fun j hj => .inl (hall j hj)
      · refine .inr fun j hj hkept => ?_
        obtain hkept | hunit := hkept
        · exact hnone j hj hkept
        · exact hshared ⟨j, hunit, hj⟩

theorem loop_whole (costOf : List String → ℤ) (tokenBudget : ℤ) {other : List String} (units : List (List String))
    (hmeet : ∀ unit ∈ units, ∀ i ∈ unit, i ∈ other → ∀ j, j ∈ unit ↔ j ∈ other) {kept : List String}
    (h : Whole kept other) : Whole (units.foldl (admitUnit costOf tokenBudget) kept) other := by
  induction units generalizing kept with
  | nil => exact h
  | cons unit units ih =>
    obtain ⟨hunit, hunits⟩ := List.forall_mem_cons.mp hmeet
    exact ih hunits (admitUnit_whole costOf tokenBudget h hunit)

section
variable {selection : ParsedSelection} {registry : Registry} {tokenBudget : ℤ} {coster : Coster} {minSources : ℤ}
  {selectionRank : Option (Dict String ℤ)}

theorem keptIds_whole {unit : List String}
    (h : unit ∈ atomicUnits (dedupItems selection.items).values
      (contradictionFacets (dedupItems selection.items).values)) :
    Whole (keptIds selection registry tokenBudget coster minSources selectionRank) unit := by
  refine loop_whole _ tokenBudget _ (fun other hother i hi hunit => ?_) (.inr fun i _ => List.not_mem_nil)
  exact units_meet (mem_consideredUnits.mp hother) h hi hunit

/-- The spans naming a live disagreement are all kept or all left. -/
theorem keptIds_disputed {facet : String} (hsupport : Claimed (dedupItems selection.items).values facet "support")
    (hcontradict : Claimed (dedupItems selection.items).values facet "contradict") :
    let kept := keptIds selection registry tokenBudget coster minSources selectionRank
    (∀ item ∈ (dedupItems selection.items).values, Names facet item → item.spanId ∈ kept) ∨
      ∀ item ∈ (dedupItems selection.items).values, Names facet item → item.spanId ∉ kept := by
  intro kept
  have hfacet := mem_contradictionFacets.mpr ⟨hsupport, hcontradict⟩
  have hdisputed : ∀ item ∈ (dedupItems selection.items).values, Names facet item →
      (facet, item.spanId) ∈ disputed (dedupItems selection.items).values
        (contradictionFacets (dedupItems selection.items).values) :=
    fun item hitem hnames => mem_disputed.mpr ⟨hfacet, item, hitem, rfl, hnames⟩
  obtain ⟨first, hfirst, hrelation⟩ := hsupport
  have hnames : Names facet first := List.mem_map.mpr ⟨_, hrelation, rfl⟩
  obtain ⟨unit, hunit, hmem⟩ := @exists_unit _ (contradictionFacets (dedupItems selection.items).values) _
    (List.mem_map.mpr ⟨first, hfirst, rfl⟩)
  obtain ⟨root, hroot⟩ := mem_unit hunit
  have hin : ∀ item ∈ (dedupItems selection.items).values, Names facet item → item.spanId ∈ unit := by
    intro item hitem hitem_names
    rw [hroot]
    refine ⟨List.mem_map.mpr ⟨item, hitem, rfl⟩, ?_⟩
    rw [← ((hroot first.spanId).mp hmem).2]
    exact root_eq_of_disputed (hdisputed item hitem hitem_names) (hdisputed first hfirst hnames)
  have hwhole : Whole (keptIds selection registry tokenBudget coster minSources selectionRank) unit :=
    keptIds_whole hunit
  obtain hall | hnone := hwhole
  · exact .inl fun item hitem hitem_names => hall _ (hin item hitem hitem_names)
  · exact .inr fun item hitem hitem_names => hnone _ (hin item hitem hitem_names)

end
/-! ## The packed object -/

def AggregatedEvidence.keptIds (evidence : AggregatedEvidence) : List String := evidence.items.map (·.spanId)

/-- What packing a selection promises; of a span selected twice the first item counts. -/
structure Packs (selection : ParsedSelection) (registry : Registry) (evidence : AggregatedEvidence) : Prop where
  once : (evidence.keptIds ++ evidence.droppedForBudget).Nodup
  parted : ∀ spanId, spanId ∈ evidence.keptIds ++ evidence.droppedForBudget ↔ spanId ∈ selection.selectedSpanIds
  ordered : evidence.keptIds.Pairwise fun a b => keyAt registry a ≤ keyAt registry b
  unchanged : ∀ item ∈ evidence.items, ∃ first, (dedupItems selection.items).get? item.spanId = some first ∧
    item = AggregatedItem.fromParsed first
  bridgesKept : evidence.bridges =
    selection.bridges.filter fun b => ∀ spanId ∈ b.evidenceSpanIds, spanId ∈ evidence.keptIds
  bridgesDropped : evidence.droppedBridges =
    (selection.bridges.filter fun b => ¬ ∀ spanId ∈ b.evidenceSpanIds, spanId ∈ evidence.keptIds).map (·.text)
  undivided : ∀ facet, Claimed (dedupItems selection.items).values facet "support" →
    Claimed (dedupItems selection.items).values facet "contradict" →
    (∀ item ∈ (dedupItems selection.items).values, Names facet item → item.spanId ∈ evidence.keptIds) ∨
      ∀ item ∈ (dedupItems selection.items).values, Names facet item → item.spanId ∉ evidence.keptIds

theorem unsupported_eq (bridges : List ParsedBridge) (ids : List String) :
    bridges.filter (· ∉ bridgesSupportedBy bridges ids) =
      bridges.filter fun b => ¬ ∀ spanId ∈ b.evidenceSpanIds, spanId ∈ ids := by
  apply List.filter_congr
  intro b hb
  simp only [bridgesSupportedBy, List.mem_filter, hb, true_and, decide_eq_true_eq]

theorem mem_keys_dedupItems_iff {items : List ParsedItem} {spanId : String} :
    spanId ∈ (dedupItems items).keys ↔ spanId ∈ items.map (·.spanId) := by
  induction items using List.reverseRecOn with
  | nil => rfl
  | append_singleton items item ih =>
    rw [dedupItems_append, Dict.mem_keys_setDefault, List.map_append, List.mem_append, ← ih]
    simp

theorem map_spanId_itemsAt {items : List ParsedItem} {registry : Registry} {ids : List String}
    (h : ∀ i ∈ ids, i ∈ (dedupItems items).keys) :
    (itemsAt registry (dedupItems items) ids).map (·.spanId) = sortedIds registry ids := by
  have hfound : ∀ l : List String, (∀ i ∈ l, i ∈ (dedupItems items).keys) →
      ((l.filterMap (dedupItems items).get?).map AggregatedItem.fromParsed).map (·.spanId) = l := by
    intro l hl
    induction l with
    | nil => rfl
    | cons i l ih =>
      obtain ⟨hi, hl⟩ := List.forall_mem_cons.mp hl
      obtain ⟨item, hitem⟩ := Dict.mem_keys_iff.mp hi
      have hid : item.spanId = i := (mem_entries_dedupItems (Dict.mem_of_get? hitem)).2
      rw [List.filterMap_cons_some hitem, List.map_cons, List.map_cons, ih hl]
      exact congrArg (· :: l) hid
  exact hfound _ fun i hi => h i ((List.mem_insertionSort _).mp hi)

theorem mem_itemsAt {items : List ParsedItem} {registry : Registry} {ids : List String} {item : AggregatedItem}
    (h : item ∈ itemsAt registry (dedupItems items) ids) :
    ∃ first, (dedupItems items).get? item.spanId = some first ∧ item = AggregatedItem.fromParsed first := by
  obtain ⟨first, hfirst, rfl⟩ := List.mem_map.mp h
  obtain ⟨i, -, hget⟩ := List.mem_filterMap.mp hfirst
  have hid : first.spanId = i := (mem_entries_dedupItems (Dict.mem_of_get? hget)).2
  refine ⟨first, ?_, rfl⟩
  change (dedupItems items).get? first.spanId = some first
  rw [hid]
  exact hget

section
variable {selection : ParsedSelection} {registry : Registry} {tokenBudget : ℤ} {coster : Coster} {minSources : ℤ}
  {selectionRank : Option (Dict String ℤ)} {order : SetOrder}

/-- The assembled object keeps its promises, whichever of the selected ids are kept. -/
theorem packs_packed {kept : List String} (hkept : ∀ i ∈ kept, i ∈ (dedupItems selection.items).keys)
    (hundivided : ∀ facet, Claimed (dedupItems selection.items).values facet "support" →
      Claimed (dedupItems selection.items).values facet "contradict" →
      (∀ item ∈ (dedupItems selection.items).values, Names facet item → item.spanId ∈ kept) ∨
        ∀ item ∈ (dedupItems selection.items).values, Names facet item → item.spanId ∉ kept) :
    Packs selection registry (packed order selection registry (dedupItems selection.items) kept) := by
  have hiterate : ∀ i, i ∈ order.iterate kept.toFinset ↔ i ∈ kept := by
    intro i
    rw [order.mem_iterate, List.mem_toFinset]
  have hids : (packed order selection registry (dedupItems selection.items) kept).keptIds =
      sortedIds registry (order.iterate kept.toFinset) :=
    map_spanId_itemsAt fun i hi => hkept i ((hiterate i).mp hi)
  have hmem : ∀ i, i ∈ (packed order selection registry (dedupItems selection.items) kept).keptIds ↔ i ∈ kept := by
    intro i
    rw [hids, sortedIds, List.mem_insertionSort, hiterate]
  have hdropped : ∀ i, i ∈ (packed order selection registry (dedupItems selection.items) kept).droppedForBudget ↔
      i ∈ (dedupItems selection.items).keys ∧ i ∉ kept := by
    intro i
    simp only [packed, List.mem_filter, decide_eq_true_eq]
  refine ⟨?_, ?_, ?_, fun item hitem => mem_itemsAt hitem, ?_, ?_, ?_⟩
  · refine List.nodup_append.mpr ⟨?_, (dedupItems selection.items).keys_nodup.filter _, ?_⟩
    · rw [hids, sortedIds, (List.perm_insertionSort _ _).nodup_iff]
      exact order.iterate_nodup _
    · rintro i hi j hj rfl
      exact ((hdropped i).mp hj).2 ((hmem i).mp hi)
  · intro i
    rw [List.mem_append, hmem, hdropped, ParsedSelection.selectedSpanIds, ← mem_keys_dedupItems_iff]
    by_cases hi : i ∈ kept
    · simp [hi, hkept i hi]
    · simp [hi]
  · rw [hids]
    exact pairwise_sortedIds registry _
  · simp only [hmem]
    rfl
  · simp only [hmem]
    exact congrArg (List.map (·.text)) (unsupported_eq selection.bridges kept)
  · intro facet hsupport hcontradict
    simp only [hmem]
    exact hundivided facet hsupport hcontradict

theorem budgetPackV1_ok {evidence : AggregatedEvidence} (hitems : selection.items ≠ [])
    (h : budgetPackV1 order selection registry tokenBudget coster minSources selectionRank = .ok evidence) :
    evidence = packed order selection registry (dedupItems selection.items)
      (keptIds selection registry tokenBudget coster minSources selectionRank) := by
  unfold budgetPackV1 at h
  obtain ⟨-, -, h⟩ := Fallible.bind_ok.mp h
  simp only [if_neg (dedupItems_ne_nil hitems)] at h
  split at h
  · cases h
  · exact (Except.ok.inj h).symm

theorem packs_of_items {evidence : AggregatedEvidence} (hitems : selection.items ≠ [])
    (h : budgetPackV1 order selection registry tokenBudget coster minSources selectionRank = .ok evidence) :
    Packs selection registry evidence := by
  rw [budgetPackV1_ok hitems h]
  refine packs_packed keptIds_selected.2 fun facet hsupport hcontradict => ?_
  exact keptIds_disputed hsupport hcontradict

/-- Nothing was selected: every bridge is handed on, supported or not. -/
theorem packs_nothing (hitems : selection.items = []) :
    Packs selection registry ⟨[], selection.gaps, selection.bridges, [], []⟩ ↔
      ∀ bridge ∈ selection.bridges, bridge.evidenceSpanIds = [] := by
  have hsupported : bridgesSupportedBy selection.bridges [] = selection.bridges ↔
      ∀ bridge ∈ selection.bridges, bridge.evidenceSpanIds = [] := by
    rw [bridgesSupportedBy, List.filter_eq_self]
    simp only [decide_eq_true_eq, List.not_mem_nil, imp_false, List.eq_nil_iff_forall_not_mem]
  constructor
  · intro h
    exact hsupported.mp h.bridgesKept.symm
  · intro hbridges
    have hkept := hsupported.mpr hbridges
    refine ⟨List.nodup_nil, ?_, List.Pairwise.nil, by simp, hkept.symm, ?_, ?_⟩
    · simp [AggregatedEvidence.keptIds, ParsedSelection.selectedSpanIds, hitems]
    · rw [List.filter_eq_nil_iff.mpr]
      · rfl
      · intro b hb
        simp [hbridges b hb]
    · rintro facet ⟨item, hitem, -⟩
      simp [dedupItems, Dict.values, Dict.empty, hitems] at hitem

end

/-- Where packing returns, its promises hold unless nothing was selected and some bridge has evidence. -/
theorem budgetPackV1_packs_iff (order : SetOrder) (selection : ParsedSelection) (registry : Registry)
    (tokenBudget : ℤ) (coster : Coster) (minSources : ℤ) (selectionRank : Option (Dict String ℤ))
    (evidence : AggregatedEvidence)
    (h : budgetPackV1 order selection registry tokenBudget coster minSources selectionRank = .ok evidence) :
    Packs selection registry evidence ↔
      selection.items ≠ [] ∨ ∀ bridge ∈ selection.bridges, bridge.evidenceSpanIds = [] := by
  by_cases hitems : selection.items = []
  · rw [budgetPackV1_nothing order hitems, Except.ok.injEq] at h
    subst h
    rw [packs_nothing hitems]
    simp [hitems]
  · simp only [ne_eq, hitems, not_false_eq_true, true_or, iff_true]
    exact packs_of_items hitems h

theorem budgetPackV1_packs_iff_onePage :
    ∃ evidence, budgetPackV1 sortedOrder ⟨"P1_BRIDGE", [⟨"s1", [("f", some "support")]⟩], [], [⟨"b", ["s1"]⟩]⟩
        pageRegistry 3 lineCost.coster 1 none = .ok evidence ∧
      Packs ⟨"P1_BRIDGE", [⟨"s1", [("f", some "support")]⟩], [], [⟨"b", ["s1"]⟩]⟩ pageRegistry evidence :=
  ⟨_, rfl, (budgetPackV1_packs_iff sortedOrder _ pageRegistry 3 lineCost.coster 1 none _ rfl).mpr (.inl (by simp))⟩

/-- A reply that selects nothing and bridges one offered span: the bridge is kept, its evidence is not. -/
theorem bridge_kept_unsupported :
    budgetPackV1 sortedOrder ⟨"P1_BRIDGE", [], [], [⟨"b", ["s1"]⟩]⟩ pageRegistry 3 lineCost.coster 1 none =
        .ok ⟨[], [], [⟨"b", ["s1"]⟩], [], []⟩ ∧
      ¬ Packs ⟨"P1_BRIDGE", [], [], [⟨"b", ["s1"]⟩]⟩ pageRegistry ⟨[], [], [⟨"b", ["s1"]⟩], [], []⟩ := by
  refine ⟨rfl, ?_⟩
  rw [packs_nothing rfl]
  simp

end Shapeflow.P1
