import Shapeflow.BudgetPack
import Shapeflow.Fallible

set_option autoImplicit false

/-!
# When packing stays within its budget

The loop keeps nothing until some unit fits alone, and what it keeps afterwards
was costed within the budget. The assembled object shows what the last trial
showed, so it overruns exactly when nothing was ever admitted, or nothing was
selected, and what is shown without items overruns.
-/
namespace Shapeflow.P1

/-! ## The selection without repeats -/

theorem dedupItems_append (items : List ParsedItem) (item : ParsedItem) :
    dedupItems (items ++ [item]) = (dedupItems items).setDefault item.spanId item := by
  simp [dedupItems, List.foldl_append]

theorem mem_entries_dedupItems {items : List ParsedItem} {e : String × ParsedItem}
    (he : e ∈ (dedupItems items).entries) : e.2 ∈ items ∧ e.2.spanId = e.1 := by
  induction items using List.reverseRecOn with
  | nil => simp [dedupItems, Dict.empty] at he
  | append_singleton items item ih =>
    rw [dedupItems_append, Dict.setDefault] at he
    split at he
    · obtain ⟨hmem, hid⟩ := ih he
      exact ⟨by simp [hmem], hid⟩
    · rename_i hnew
      have hentries : ((dedupItems items).set item.spanId item).entries =
          (dedupItems items).entries ++ [(item.spanId, item)] := if_neg hnew
      rw [hentries, List.mem_append] at he
      rcases he with he | he
      · obtain ⟨hmem, hid⟩ := ih he
        exact ⟨by simp [hmem], hid⟩
      · rw [List.mem_singleton.mp he]
        simp

theorem dedupItems_ne_nil {items : List ParsedItem} (h : items ≠ []) : (dedupItems items).values ≠ [] := by
  induction items using List.reverseRecOn with
  | nil => exact absurd rfl h
  | append_singleton items item _ =>
    have hkey : item.spanId ∈ (dedupItems (items ++ [item])).keys := by
      rw [dedupItems_append, Dict.setDefault]
      split
      · assumption
      · rw [Dict.mem_keys_set]
        exact .inr rfl
    intro hvalues
    rw [Dict.values, List.map_eq_nil_iff] at hvalues
    simp [Dict.keys, hvalues] at hkey

theorem map_spanId_values (items : List ParsedItem) :
    (dedupItems items).values.map (·.spanId) = (dedupItems items).keys := by
  rw [Dict.values, Dict.keys, List.map_map]
  apply List.map_congr_left
  intro e he
  exact (mem_entries_dedupItems he).2

theorem mem_keys_dedupItems {items : List ParsedItem} {spanId : String}
    (h : spanId ∈ (dedupItems items).keys) : ∃ item ∈ items, item.spanId = spanId := by
  obtain ⟨e, he, rfl⟩ := List.mem_map.mp h
  exact ⟨e.2, mem_entries_dedupItems he⟩

/-! ## Units -/

theorem findAll_eq (f : Forest String) (ids : List String) :
    findAll f ids = ids.map fun spanId => (f.root spanId, spanId) := by
  induction ids generalizing f with
  | nil => rfl
  | cons spanId ids ih =>
    rw [findAll, ih, List.map_cons]
    simp only [Forest.root_find]
    rfl

/-- A unit lists some of the ids, in selection order and at least one. -/
theorem atomicUnits_sublist {items : List ParsedItem} {facets unit : List String}
    (h : unit ∈ atomicUnits items facets) : unit.Sublist (items.map (·.spanId)) ∧ unit ≠ [] := by
  obtain ⟨root, hroot, rfl⟩ := Dict.mem_values_collect h
  rw [findAll_eq] at hroot ⊢
  constructor
  · rw [Dict.under, List.filter_map, List.map_map]
    have hid : (Prod.snd ∘ fun spanId : String =>
        ((Forest.unions Forest.singletons
          ((Dict.collect (disputed items facets)).values.flatMap joined)).root spanId, spanId)) = id := rfl
    rw [hid, List.map_id]
    exact List.filter_sublist
  · obtain ⟨p, hp, rfl⟩ := List.mem_map.mp hroot
    exact List.ne_nil_of_mem (Dict.mem_under.mpr hp)

theorem mem_promoteSteps {registry : Registry} {minSources : ℤ} {unit : List String}
    (units : List (List String)) (p : Promotion) :
    let q := units.foldl (promoteStep registry minSources) p
    unit ∈ q.promoted ++ q.remainder ↔ unit ∈ p.promoted ++ p.remainder ∨ unit ∈ units := by
  induction units generalizing p with
  | nil => simp
  | cons next units ih =>
    have hstep : unit ∈ (promoteStep registry minSources p next).promoted ++
        (promoteStep registry minSources p next).remainder ↔
          unit ∈ p.promoted ++ p.remainder ∨ unit = next := by
      simp only [promoteStep]
      split
      · simp only [List.mem_append, List.mem_singleton]
        tauto
      · simp only [List.mem_append, List.mem_singleton]
        tauto
    have hrun := ih (promoteStep registry minSources p next)
    simp only [List.foldl_cons] at hrun ⊢
    rw [hrun, hstep, List.mem_cons]
    tauto

theorem mem_promoteNewSources {registry : Registry} {minSources : ℤ} {unit : List String}
    {units : List (List String)} : unit ∈ promoteNewSources registry minSources units ↔ unit ∈ units := by
  rw [promoteNewSources]
  split
  · rfl
  · simpa using mem_promoteSteps units ⟨[], [], []⟩

theorem mem_consideredUnits {items : List ParsedItem} {dedup : Dict String ParsedItem} {registry : Registry}
    {minSources : ℤ} {selectionRank : Option (Dict String ℤ)} {unit : List String} :
    unit ∈ consideredUnits items dedup registry minSources selectionRank ↔
      unit ∈ atomicUnits items (contradictionFacets items) := by
  rw [consideredUnits, mem_promoteNewSources, List.mem_insertionSort]

/-! ## The loop -/

section
variable (costOf : List String → ℤ) (tokenBudget : ℤ)

theorem admitUnit_eq (kept unit : List String) :
    admitUnit costOf tokenBudget kept unit = kept ∨
      (admitUnit costOf tokenBudget kept unit = kept ++ unit.filter (· ∉ kept) ∧
        costOf (admitUnit costOf tokenBudget kept unit) ≤ tokenBudget) := by
  simp only [admitUnit]
  split
  · exact .inl rfl
  · split
    · rename_i hcost
      exact .inr ⟨rfl, hcost⟩
    · exact .inl rfl

theorem admitUnit_nil (unit : List String) (hunit : unit ≠ []) :
    admitUnit costOf tokenBudget [] unit = if costOf unit ≤ tokenBudget then unit else [] := by
  have htrial : ([] : List String) ++ unit.filter (· ∉ ([] : List String)) = unit := by simp
  simp only [admitUnit, htrial]
  rw [if_neg (by simp [hunit])]

/-- Once a unit was admitted, what is kept is not empty and was costed within the budget. -/
theorem loop_within {kept : List String} (units : List (List String)) (hne : kept ≠ [])
    (hkept : costOf kept ≤ tokenBudget) :
    units.foldl (admitUnit costOf tokenBudget) kept ≠ [] ∧
      costOf (units.foldl (admitUnit costOf tokenBudget) kept) ≤ tokenBudget := by
  induction units generalizing kept with
  | nil => exact ⟨hne, hkept⟩
  | cons unit units ih =>
    rw [List.foldl_cons]
    rcases admitUnit_eq costOf tokenBudget kept unit with heq | ⟨heq, hcost⟩
    · rw [heq]
      exact ih hne hkept
    · refine ih ?_ hcost
      rw [heq]
      simp [hne]

/-- The loop from nothing: either some unit fits alone and the budget holds, or nothing is kept. -/
theorem loop_from_nil (units : List (List String)) (hunits : ∀ unit ∈ units, unit ≠ []) :
    ((∃ unit ∈ units, costOf unit ≤ tokenBudget) ∧
        costOf (units.foldl (admitUnit costOf tokenBudget) []) ≤ tokenBudget) ∨
      ((∀ unit ∈ units, tokenBudget < costOf unit) ∧ units.foldl (admitUnit costOf tokenBudget) [] = []) := by
  induction units with
  | nil => exact .inr ⟨by simp, rfl⟩
  | cons unit units ih =>
    have hunit := hunits unit (by simp)
    rw [List.foldl_cons, admitUnit_nil costOf tokenBudget unit hunit]
    by_cases hcost : costOf unit ≤ tokenBudget
    · rw [if_pos hcost]
      exact .inl ⟨⟨unit, by simp, hcost⟩, (loop_within costOf tokenBudget units hunit hcost).2⟩
    · rw [if_neg hcost]
      rcases ih fun u hu => hunits u (by simp [hu]) with ⟨⟨u, hu, hfit⟩, hwithin⟩ | ⟨hnone, hnil⟩
      · exact .inl ⟨⟨u, by simp [hu], hfit⟩, hwithin⟩
      · refine .inr ⟨?_, hnil⟩
        intro u hu
        rcases List.mem_cons.mp hu with rfl | hu
        · omega
        · exact hnone u hu

/-- Only members of units are kept, and no id twice. -/
theorem loop_kept {ids : List String} {kept : List String} (units : List (List String))
    (hunits : ∀ unit ∈ units, unit.Sublist ids) (hids : ids.Nodup) (hnodup : kept.Nodup) (hkept : ∀ i ∈ kept, i ∈ ids) :
    (units.foldl (admitUnit costOf tokenBudget) kept).Nodup ∧
      ∀ i ∈ units.foldl (admitUnit costOf tokenBudget) kept, i ∈ ids := by
  induction units generalizing kept with
  | nil => exact ⟨hnodup, hkept⟩
  | cons unit units ih =>
    rw [List.foldl_cons]
    have hunit := hunits unit (by simp)
    have hrest : ∀ u ∈ units, u.Sublist ids := fun u hu => hunits u (by simp [hu])
    rcases admitUnit_eq costOf tokenBudget kept unit with heq | ⟨heq, -⟩
    · rw [heq]
      exact ih hrest hnodup hkept
    · rw [heq]
      apply ih hrest
      · refine List.nodup_append.mpr ⟨hnodup, (hids.sublist hunit).filter _, ?_⟩
        rintro a ha b hb rfl
        have := List.mem_filter.mp hb
        simp [ha] at this
      · intro i hi
        rcases List.mem_append.mp hi with hi | hi
        · exact hkept i hi
        · exact hunit.subset (List.mem_of_mem_filter hi)

end

/-! ## Canonical order -/

theorem orderKey_orderId (span : Span) : (ofLex (ofLex (ofLex (ofLex (orderKey span)).2).2).2).2 = span.orderId := by
  rw [orderKey]
  split
  · rfl
  · rfl

/-- Spans registered under their own ids have different order keys. -/
theorem keyAt_injective {registry : Registry} (hnamed : ∀ e ∈ registry.entries, e.2.Named e.1) {a b : String}
    (ha : a ∈ registry.keys) (hkey : keyAt registry a = keyAt registry b) : a = b := by
  obtain ⟨s, hs⟩ := Dict.mem_keys_iff.mp ha
  rw [keyAt, keyAt, hs, Option.map_some] at hkey
  obtain ⟨t, ht, hst⟩ := Option.map_eq_some_iff.mp hkey.symm
  have hsa : s.orderId = a := (hnamed _ (Dict.mem_of_get? hs)).2
  have htb : t.orderId = b := (hnamed _ (Dict.mem_of_get? ht)).2
  rw [← hsa, ← htb, ← orderKey_orderId, ← orderKey_orderId, hst]

theorem pairwise_sortedIds (registry : Registry) (ids : List String) :
    (sortedIds registry ids).Pairwise fun a b => keyAt registry a ≤ keyAt registry b :=
  SortedLists.pairwise_insertionSort_key (keyAt registry) ids

/-- Registered ids are sorted into one list, whatever order they come in. -/
theorem sortedIds_eq_of_perm {registry : Registry} (hnamed : ∀ e ∈ registry.entries, e.2.Named e.1)
    {ids ids' : List String} (hperm : ids.Perm ids') (hreg : ∀ i ∈ ids, i ∈ registry.keys) :
    sortedIds registry ids = sortedIds registry ids' := by
  refine List.Perm.eq_of_pairwise ?_ (pairwise_sortedIds registry ids) (pairwise_sortedIds registry ids') ?_
  · intro a b ha _ hab hba
    have hmem : a ∈ ids := (List.mem_insertionSort _).mp ha
    exact keyAt_injective hnamed (hreg a hmem) (le_antisymm hab hba)
  · exact (List.perm_insertionSort _ ids).trans (hperm.trans (List.perm_insertionSort _ ids').symm)

/-- The assembled object shows what the trial of the kept ids showed. -/
theorem packed_shows {registry : Registry} (hnamed : ∀ e ∈ registry.entries, e.2.Named e.1) (order : SetOrder)
    (selection : ParsedSelection) (dedup : Dict String ParsedItem) {kept : List String} (hnodup : kept.Nodup)
    (hreg : ∀ i ∈ kept, i ∈ registry.keys) :
    (packed order selection registry dedup kept).items = itemsAt registry dedup kept := by
  have hperm : kept.Perm (order.iterate kept.toFinset) := by
    rw [← Multiset.coe_eq_coe, order.perm]
    exact (congrArg Finset.val (List.toFinset_eq hnodup))
  simp only [packed, itemsAt, sortedIds_eq_of_perm hnamed hperm hreg]

/-! ## The budget -/

theorem require_ok {registry : Registry} {items : List ParsedItem}
    (h : ∀ item ∈ items, item.spanId ∈ registry.keys) :
    (items.forM fun item => discard (require registry item.spanId)) = .ok () := by
  induction items with
  | nil => rfl
  | cons item items ih =>
    obtain ⟨span, hspan⟩ := Dict.mem_keys_iff.mp (h item (by simp))
    have hitem : (discard (require registry item.spanId) : Except AggregationError Unit) = .ok () := by
      simp [require, hspan, discard, Functor.discard, Functor.mapConst, Except.map]
    have hcons : ((item :: items).forM fun item => discard (require registry item.spanId)) =
        (discard (require registry item.spanId) >>= fun _ : Unit =>
          items.forM fun item => discard (require registry item.spanId)) := rfl
    rw [hcons, hitem, Fallible.ok_bind]
    exact ih fun i hi => h i (by simp [hi])

section
variable {selection : ParsedSelection} {registry : Registry} {tokenBudget : ℤ} {coster : Coster} {minSources : ℤ}
  {selectionRank : Option (Dict String ℤ)}

theorem mem_keys_registry (hreg : ∀ item ∈ selection.items, item.spanId ∈ registry.keys) {spanId : String}
    (h : spanId ∈ (dedupItems selection.items).keys) : spanId ∈ registry.keys := by
  obtain ⟨item, hitem, rfl⟩ := mem_keys_dedupItems h
  exact hreg item hitem

theorem budgetPackV1_nothing (order : SetOrder) (h : selection.items = []) :
    budgetPackV1 order selection registry tokenBudget coster minSources selectionRank =
      .ok ⟨[], selection.gaps, selection.bridges, [], []⟩ := by
  unfold budgetPackV1
  rw [h]
  rfl

theorem budgetPackV1_something (order : SetOrder) (h : selection.items ≠ [])
    (hreg : ∀ item ∈ selection.items, item.spanId ∈ registry.keys) :
    budgetPackV1 order selection registry tokenBudget coster minSources selectionRank =
      let result := packed order selection registry (dedupItems selection.items)
        (keptIds selection registry tokenBudget coster minSources selectionRank)
      if coster result registry > tokenBudget then .error (.differsFromTrial (coster result registry) tokenBudget)
      else .ok result := by
  unfold budgetPackV1
  rw [require_ok hreg, Fallible.ok_bind]
  simp only [if_neg (dedupItems_ne_nil h)]
  rfl

theorem consideredUnits_sublist {unit : List String}
    (h : unit ∈ consideredUnits (dedupItems selection.items).values (dedupItems selection.items) registry minSources
      selectionRank) : unit.Sublist (dedupItems selection.items).keys ∧ unit ≠ [] := by
  rw [← map_spanId_values]
  exact atomicUnits_sublist (mem_consideredUnits.mp h)

/-- The kept ids are among the selected ones, each once. -/
theorem keptIds_selected :
    (keptIds selection registry tokenBudget coster minSources selectionRank).Nodup ∧
      ∀ i ∈ keptIds selection registry tokenBudget coster minSources selectionRank,
        i ∈ (dedupItems selection.items).keys :=
  loop_kept _ tokenBudget _ (fun _ hu => (consideredUnits_sublist hu).1) (dedupItems selection.items).keys_nodup
    (by simp) (by simp)

end

/-! ## The budget -/

/-- What a coster sees of an object. -/
abbrev Shown : Type := List AggregatedItem → List ParsedGap → List ParsedBridge → ℤ

def Shown.coster (shown : Shown) : Coster := fun evidence _ => shown evidence.items evidence.gaps evidence.bridges

/-- The cost of showing exactly these spans of a selection. -/
def Shown.cost (shown : Shown) (selection : ParsedSelection) (registry : Registry) (ids : List String) : ℤ :=
  shown (itemsAt registry (dedupItems selection.items) ids) selection.gaps
    (bridgesSupportedBy selection.bridges ids)

/-- Nothing selected: the gaps and all bridges fit. Else: the gaps fit without any item, or some unit
fits alone. -/
def Fits (shown : Shown) (selection : ParsedSelection) (registry : Registry) (tokenBudget : ℤ) : Prop :=
  let items := (dedupItems selection.items).values
  if selection.items = [] then shown [] selection.gaps selection.bridges ≤ tokenBudget
  else shown.cost selection registry [] ≤ tokenBudget ∨
    ∃ unit ∈ atomicUnits items (contradictionFacets items), shown.cost selection registry unit ≤ tokenBudget

section
variable {selection : ParsedSelection} {registry : Registry} {tokenBudget : ℤ} {minSources : ℤ}
  {selectionRank : Option (Dict String ℤ)} {shown : Shown}

/-- The final measurement is the one of the trial of the kept ids. -/
theorem packed_cost (hnamed : ∀ e ∈ registry.entries, e.2.Named e.1) (order : SetOrder)
    (hreg : ∀ item ∈ selection.items, item.spanId ∈ registry.keys) :
    let kept := keptIds selection registry tokenBudget shown.coster minSources selectionRank
    shown.coster (packed order selection registry (dedupItems selection.items) kept) registry =
      shown.cost selection registry kept := by
  obtain ⟨hnodup, hmem⟩ :=
    @keptIds_selected selection registry tokenBudget shown.coster minSources selectionRank
  have hshows := packed_shows hnamed order selection (dedupItems selection.items) hnodup
    fun i hi => mem_keys_registry hreg (hmem i hi)
  simp only [Shown.coster, Shown.cost] at hshows ⊢
  rw [hshows]
  rfl

theorem kept_cost_iff (minSources : ℤ) (selectionRank : Option (Dict String ℤ)) (h : selection.items ≠ []) :
    shown.cost selection registry (keptIds selection registry tokenBudget shown.coster minSources selectionRank) ≤
        tokenBudget ↔ Fits shown selection registry tokenBudget := by
  have hloop := loop_from_nil (shown.cost selection registry) tokenBudget
    (consideredUnits (dedupItems selection.items).values (dedupItems selection.items) registry minSources
      selectionRank) fun u hu => (consideredUnits_sublist hu).2
  simp only [mem_consideredUnits] at hloop
  simp only [Fits, if_neg h]
  rcases hloop with ⟨hsome, hwithin⟩ | ⟨hnone, hnil⟩
  · exact ⟨fun _ => .inr hsome, fun _ => hwithin⟩
  · have hkept : keptIds selection registry tokenBudget shown.coster minSources selectionRank = [] := hnil
    rw [hkept]
    refine ⟨.inl, ?_⟩
    rintro (hempty | ⟨unit, hunit, hfit⟩)
    · exact hempty
    · exact absurd hfit (not_le.mpr (hnone unit hunit))

end

theorem budgetPackV1_within_iff (order : SetOrder) (selection : ParsedSelection) (registry : Registry)
    (hnamed : ∀ e ∈ registry.entries, e.2.Named e.1) (hreg : ∀ item ∈ selection.items, item.spanId ∈ registry.keys)
    (tokenBudget : ℤ) (shown : Shown) (minSources : ℤ) (selectionRank : Option (Dict String ℤ)) :
    (∃ evidence, budgetPackV1 order selection registry tokenBudget shown.coster minSources selectionRank =
        .ok evidence ∧ shown.coster evidence registry ≤ tokenBudget) ↔
      Fits shown selection registry tokenBudget := by
  by_cases hnone : selection.items = []
  · rw [budgetPackV1_nothing order hnone]
    simp only [Except.ok.injEq, exists_eq_left', Fits, if_pos hnone]
    rfl
  · rw [budgetPackV1_something order hnone hreg, ← kept_cost_iff minSources selectionRank hnone,
      ← packed_cost hnamed order hreg]
    simp only
    split
    · rename_i hover
      refine ⟨?_, fun h => absurd hover (not_lt.mpr h)⟩
      rintro ⟨_, h, _⟩
      cases h
    · rename_i hfit
      exact ⟨fun _ => not_lt.mp hfit, fun h => ⟨_, rfl, h⟩⟩

/-- Sets listed in the order of their texts. -/
def sortedOrder : SetOrder where
  iterate ids := Quot.liftOn ids.val (fun l => l.insertionSort (· ≤ ·)) fun _ _ => SortedLists.insertionSort_eq_of_perm _
  perm ids := Quot.inductionOn ids.val fun l => Quot.sound (List.perm_insertionSort (· ≤ ·) l)

def pageSpan : Span :=
  { spanNamespace := some "RAW_SOURCE", spanId := some "s1", contentHash := some "c", charStart := some 0,
    charEnd := some 9 }

def pageRegistry : Registry := Dict.empty.set "s1" pageSpan

/-- Two tokens for an item, one for a gap. -/
def lineCost : Shown := fun items gaps _ => 2 * items.length + gaps.length

theorem budgetPackV1_within_iff_onePage :
    ∃ evidence, budgetPackV1 sortedOrder ⟨"P1_TYPED", [⟨"s1", [("f", some "support")]⟩], [⟨"g", ["q"]⟩], []⟩
        pageRegistry 3 lineCost.coster 1 none = .ok evidence ∧ lineCost.coster evidence pageRegistry ≤ 3 :=
  (budgetPackV1_within_iff sortedOrder _ pageRegistry (by decide) (by decide) 3 lineCost 1 none).mpr
    (.inr ⟨["s1"], by decide, by decide⟩)

/-- A gap alone overruns a budget of nothing: it is returned when nothing is selected, and blamed on
the assembly when nothing selected fits. -/
theorem gap_overruns :
    let pack := fun items => budgetPackV1 sortedOrder ⟨"P1_TYPED", items, [⟨"g", ["q"]⟩], []⟩ pageRegistry 0
      lineCost.coster 1 none
    pack [] = .ok ⟨[], [⟨"g", ["q"]⟩], [], [], []⟩ ∧ ¬ lineCost [] [⟨"g", ["q"]⟩] [] ≤ 0 ∧
      pack [⟨"s1", [("f", some "support")]⟩] = .error (.differsFromTrial 1 0) :=
  ⟨rfl, by decide, rfl⟩

end Shapeflow.P1
