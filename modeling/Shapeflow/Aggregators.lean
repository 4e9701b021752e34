import Shapeflow.BudgetPack
import Shapeflow.Fallible
import Shapeflow.Renderer
import Shapeflow.SelectorOutput

set_option autoImplicit false

/-!
# The aggregators

What a selection is made of before it is published: a plain union, a greedy pack
that force-admits, the atomic pack and the reranked one. A coster renders, so it
may raise.
-/
namespace Shapeflow.P1

/-- Rendered tokens of a whole evidence object, or what rendering it raised. -/
abbrev RaisingCoster : Type := AggregatedEvidence → Registry → Except Raised ℤ

inductive AggregateRaised
  | aggregation (error : AggregationError)
  | coster (raised : Raised)
  | unknownAggregator (name : String)
deriving DecidableEq, Repr

/-- `raise` of the aggregator's own errors. -/
def AggregateRaised.fromAggregation {α : Type} : Except AggregationError α → Except AggregateRaised α :=
  Except.mapError .aggregation

def AggregateRaised.fromCoster {α : Type} : Except Raised α → Except AggregateRaised α := Except.mapError .coster

/-- `_require` of every selected span. -/
def requireAll (registry : Registry) (items : List ParsedItem) : Except AggregateRaised Unit :=
  AggregateRaised.fromAggregation (items.forM fun item => discard (require registry item.spanId))

/-! ## `stable_union_v1` -/

def stableUnionV1 (selection : ParsedSelection) (registry : Registry) : Except AggregateRaised AggregatedEvidence := do
  requireAll registry selection.items
  let ordered := (dedupItems selection.items).values.insertionSort fun a b =>
    keyAt registry a.spanId ≤ keyAt registry b.spanId
  pure ⟨ordered.map .fromParsed, selection.gaps, selection.bridges, [], []⟩

/-! ## `coverage_budget_v1` -/

/-- The source of a registered span. -/
def sourceOf (registry : Registry) (spanId : String) : String := ((registry.get? spanId).map sourceKey).getD ""

structure Coverage where
  kept : List AggregatedItem
  keptSources : List String
  dropped : List String

/-- The object `would_fit` costs. -/
def coverageTrial (selection : ParsedSelection) (candidate : List AggregatedItem) : AggregatedEvidence where
  items := candidate
  gaps := selection.gaps
  bridges := bridgesSupportedBy selection.bridges (candidate.map (·.spanId))
  droppedForBudget := []
  droppedBridges := []

/-- A side of a live disagreement, or one of the first sources, is kept whatever it costs. -/
def forced (registry : Registry) (facets : List String) (minSources : ℤ) (s : Coverage) (item : ParsedItem) : Prop :=
  (∃ r ∈ item.relations, r.1 ∈ facets) ∨
    ((s.keptSources.length : ℤ) < minSources ∧ sourceOf registry item.spanId ∉ s.keptSources)

instance (registry : Registry) (facets : List String) (minSources : ℤ) (s : Coverage) (item : ParsedItem) :
    Decidable (forced registry facets minSources s item) := inferInstanceAs (Decidable (_ ∨ _))

/-- One item of the loop; its cost is asked for even where it is forced. -/
def coverStep (selection : ParsedSelection) (registry : Registry) (tokenBudget : ℤ) (coster : RaisingCoster)
    (facets : List String) (minSources : ℤ) (s : Coverage) (item : ParsedItem) : Except Raised Coverage := do
  let trial := s.kept ++ [AggregatedItem.fromParsed item]
  let cost ← coster (coverageTrial selection trial) registry
  if cost ≤ tokenBudget ∨ forced registry facets minSources s item then
    pure { s with kept := trial, keptSources := (s.keptSources ++ [sourceOf registry item.spanId]).dedup }
  else pure { s with dropped := s.dropped ++ [item.spanId] }

def covered (selection : ParsedSelection) (registry : Registry) (s : Coverage) : AggregatedEvidence :=
  let ordered := s.kept.insertionSort fun a b => keyAt registry a.spanId ≤ keyAt registry b.spanId
  let bridges := bridgesSupportedBy selection.bridges (ordered.map (·.spanId))
  { items := ordered
    gaps := selection.gaps
    bridges := bridges
    droppedForBudget := s.dropped
    droppedBridges := (selection.bridges.filter (· ∉ bridges)).map (·.text) }

def coverageBudgetV1 (selection : ParsedSelection) (registry : Registry) (tokenBudget : ℤ) (coster : RaisingCoster)
    (minSources : ℤ) (selectionRank : Option (Dict String ℤ)) : Except AggregateRaised AggregatedEvidence := do
  requireAll registry selection.items
  let items := (dedupItems selection.items).values
  let facets := contradictionFacets items
  let ranked := items.insertionSort fun a b =>
    sortKey selectionRank registry a ≤ sortKey selectionRank registry b
  let s ← AggregateRaised.fromCoster
    (ranked.foldlM (coverStep selection registry tokenBudget coster facets minSources) ⟨[], [], []⟩)
  pure (covered selection registry s)

/-! ## `budget_pack_v1` under a coster that may raise -/

def admitUnitRaising (costOf : List String → Except Raised ℤ) (tokenBudget : ℤ) (kept unit : List String) :
    Except Raised (List String) :=
  let trial := kept ++ unit.filter (· ∉ kept)
  if trial = [] ∨ trial.length = kept.length then .ok kept
  else do
    let cost ← costOf trial
    pure (if cost ≤ tokenBudget then trial else kept)

def keptIdsRaising (selection : ParsedSelection) (registry : Registry) (tokenBudget : ℤ) (coster : RaisingCoster)
    (minSources : ℤ) (selectionRank : Option (Dict String ℤ)) : Except Raised (List String) :=
  let dedup := dedupItems selection.items
  let costOf := fun ids => coster (trialOf selection registry dedup ids) registry
  let units := consideredUnits dedup.values dedup registry minSources selectionRank
  units.foldlM (admitUnitRaising costOf tokenBudget) []

def budgetPackRaising (order : SetOrder) (selection : ParsedSelection) (registry : Registry) (tokenBudget : ℤ)
    (coster : RaisingCoster) (minSources : ℤ) (selectionRank : Option (Dict String ℤ)) :
    Except AggregateRaised AggregatedEvidence := do
  requireAll registry selection.items
  let dedup := dedupItems selection.items
  if dedup.values = [] then
    pure ⟨[], selection.gaps, selection.bridges, [], []⟩
  else
    let kept ← AggregateRaised.fromCoster (keptIdsRaising selection registry tokenBudget coster minSources selectionRank)
    let result := packed order selection registry dedup kept
    let final ← AggregateRaised.fromCoster (coster result registry)
    if final > tokenBudget then .error (.aggregation (.differsFromTrial final tokenBudget)) else pure result

/-! ## `global_rerank_v1` -/

/-- `{item.span_id: i for i, item in enumerate(items)}` -/
def positions (items : List ParsedItem) : Dict String ℤ :=
  Dict.ofPairs (items.zipIdx.map fun p => (p.1.spanId, (p.2 : ℤ)))

/-- No score is handed over: the order the spans were selected in is their rank. -/
def globalRerankV1 (selection : ParsedSelection) (registry : Registry) (tokenBudget : ℤ) (coster : RaisingCoster) :
    Except AggregateRaised AggregatedEvidence :=
  let rankById := positions selection.items
  let reordered := selection.items.insertionSort fun a b =>
    (rankById.get? a.spanId).getD 0 ≤ (rankById.get? b.spanId).getD 0
  coverageBudgetV1 { selection with items := reordered } registry tokenBudget coster 1 (some rankById)

/-! ## The choice of one -/

/-- The order the selector emitted its spans in. -/
def selectionRanks (selection : ParsedSelection) : Dict String ℤ :=
  Dict.ofPairs ((firstSeen selection.selectedSpanIds).zipIdx.map fun p => (p.1, (p.2 : ℤ)))

/-- `_aggregate` -/
def aggregate (order : SetOrder) (name : String) (selection : ParsedSelection) (registry : Registry) (tokenBudget : ℤ)
    (coster : RaisingCoster) : Except AggregateRaised AggregatedEvidence :=
  if name = "stable_union_v1" then stableUnionV1 selection registry
  else if name = "coverage_budget_v1" then coverageBudgetV1 selection registry tokenBudget coster 1 none
  else if name = "budget_pack_v1" then
    budgetPackRaising order selection registry tokenBudget coster 1 (some (selectionRanks selection))
  else if name = "global_rerank_v1" then globalRerankV1 selection registry tokenBudget coster
  else .error (.unknownAggregator name)

/-! ## A coster that does not raise -/

section
variable (selection : ParsedSelection) (registry : Registry) (tokenBudget : ℤ) (coster : Coster)

/-- Where the coster does not raise, the loop keeps what it keeps under its costs. -/
theorem foldlM_admitUnitRaising (costOf : List String → ℤ) (units : List (List String)) (kept : List String) :
    units.foldlM (admitUnitRaising (fun ids => .ok (costOf ids)) tokenBudget) kept =
      .ok (units.foldl (admitUnit costOf tokenBudget) kept) := by
  induction units generalizing kept with
  | nil => rfl
  | cons unit units ih =>
    have hstep : admitUnitRaising (fun ids => .ok (costOf ids)) tokenBudget kept unit =
        .ok (admitUnit costOf tokenBudget kept unit) := by
      unfold admitUnitRaising admitUnit
      simp only
      split_ifs with hgrows hcost
      · rfl
      · rw [Fallible.ok_bind, if_pos hcost]
        rfl
      · rw [Fallible.ok_bind, if_neg hcost]
        rfl
    rw [List.foldlM_cons, hstep, Fallible.ok_bind, ih, List.foldl_cons]

/-- The raising packer is `budget_pack_v1` where nothing raises. -/
theorem budgetPackRaising_eq (order : SetOrder) (minSources : ℤ) (selectionRank : Option (Dict String ℤ)) :
    budgetPackRaising order selection registry tokenBudget (fun evidence r => .ok (coster evidence r)) minSources
        selectionRank =
      AggregateRaised.fromAggregation
        (budgetPackV1 order selection registry tokenBudget coster minSources selectionRank) := by
  have hkept : keptIdsRaising selection registry tokenBudget (fun evidence r => .ok (coster evidence r)) minSources
      selectionRank = .ok (keptIds selection registry tokenBudget coster minSources selectionRank) :=
    foldlM_admitUnitRaising tokenBudget _ _ _
  unfold budgetPackRaising budgetPackV1 requireAll
  cases hrequired : selection.items.forM fun item => discard (require registry item.spanId) with
  | error e => rfl
  | ok u =>
    simp only [AggregateRaised.fromAggregation, Except.mapError, Fallible.ok_bind, hkept, AggregateRaised.fromCoster]
    split_ifs <;> rfl

end
end Shapeflow.P1
