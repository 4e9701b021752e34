import Shapeflow.Collect
import Shapeflow.Selection
import Shapeflow.UnionFind

set_option autoImplicit false

/-!
# Packing a selection under a rendered-token budget

Spans of a live disagreement form one unit that is admitted or dropped together.
Units are tried in rank order; what is admitted is costed as a whole object.
-/
namespace Shapeflow.P1

/-- Rendered tokens of a whole evidence object. -/
abbrev Coster : Type := AggregatedEvidence → Registry → ℤ

inductive AggregationError
  | notRegistered (spanId : String)
  | differsFromTrial (final tokenBudget : ℤ)
deriving DecidableEq, Repr

def AggregationError.text : AggregationError → String
  | .notRegistered spanId => "selected span " ++ short spanId ++ " is not in the candidate registry"
  | .differsFromTrial final tokenBudget =>
    "budget_pack_v1 assembled " ++ toString final ++ " rendered tokens against a " ++ toString tokenBudget ++
      " budget; the packed object differs from the trial that was costed"

/-! ## Order -/

/-- `_source_key` -/
def sourceKey (span : Span) : String := firstText [span.contentHash, span.messageId] (span.spanId.getD "")

/-- `_order_key` -/
def orderKey (span : Span) : OrderKey :=
  if span.spanNamespace = some "VISIBLE_MESSAGE" then
    toLex ("VISIBLE_MESSAGE", toLex (span.visibleCompressorViewHash.getD "",
      toLex (span.byteStart.getD 0, toLex (span.byteEnd.getD 0, span.orderId))))
  else
    toLex (span.spanNamespace.getD "", toLex (sourceKey span,
      toLex (span.charStart.getD (span.byteStart.getD 0),
        toLex (span.charEnd.getD (span.byteEnd.getD 0), span.orderId))))

/-- `_order_key(registry[span_id])` of a registered span. -/
def keyAt (registry : Registry) (spanId : String) : WithBot OrderKey := (registry.get? spanId).map orderKey

def sortedIds (registry : Registry) (ids : List String) : List String :=
  ids.insertionSort fun a b => keyAt registry a ≤ keyAt registry b

def require (registry : Registry) (spanId : String) : Except AggregationError Span :=
  match registry.get? spanId with
  | none => .error (.notRegistered spanId)
  | some span => .ok span

/-- The first item of each span, in selection order. -/
def dedupItems (items : List ParsedItem) : Dict String ParsedItem :=
  items.foldl (fun seen item => seen.setDefault item.spanId item) Dict.empty

/-- `_ROLE_RANK.get(r, 2)` -/
def roleRank (role : String) : ℕ :=
  if role = "contradict" then 0 else if role = "support" then 1 else if role = "background" then 3 else 2

def rank (relations : List Relation) : ℕ := (((rolesOf relations).map roleRank).min?).getD 2

abbrev SortKey : Type := ℤ ×ₗ ℕ ×ₗ WithBot OrderKey

instance sortKeyPreorder : Preorder SortKey := (inferInstance : LinearOrder SortKey).toPreorder

def sortKey (selectionRank : Option (Dict String ℤ)) (registry : Registry) (item : ParsedItem) : SortKey :=
  toLex ((selectionRank.map fun ranks => (ranks.get? item.spanId).getD ranks.keys.length).getD 0,
    toLex (rank item.relations, keyAt registry item.spanId))

/-! ## Atomic units -/

/-- `(facet, role)` of every claimed role. -/
def claimedRoles (relations : List Relation) : List (String × String) :=
  relations.filterMap fun r =>
    match r.2 with
    | none => none
    | some role => if role = "" then none else some (r.1, role)

/-- The facets with roles, and the roles claimed on each. -/
def facetRoles (relations : List Relation) : Dict String (List String) := Dict.collect (claimedRoles relations)

/-- The facets marked as a live disagreement. -/
def contradictionFacets (items : List ParsedItem) : List String :=
  ((facetRoles (items.flatMap (·.relations))).entries.filter fun e =>
    "support" ∈ e.2 ∧ "contradict" ∈ e.2).map Prod.fst

/-- `(facet, span_id)` of every relation on a contradiction facet. -/
def disputed (items : List ParsedItem) (facets : List String) : List (String × String) :=
  items.flatMap fun item => (item.relations.filter fun r => r.1 ∈ facets).map fun r => (r.1, item.spanId)

/-- The first member of a group with each of the others. -/
def joined : List String → List (String × String)
  | [] => []
  | first :: others => others.map fun other => (first, other)

/-- `(find(id), id)` of each id, every search compressing what the next one climbs. -/
def findAll : Forest String → List String → List (String × String)
  | _, [] => []
  | f, spanId :: ids => ((f.find spanId).1, spanId) :: findAll (f.find spanId).2 ids

/-- `_atomic_units` -/
def atomicUnits (items : List ParsedItem) (facets : List String) : List (List String) :=
  let byFacet := Dict.collect (disputed items facets)
  let forest := Forest.unions Forest.singletons (byFacet.values.flatMap joined)
  (Dict.collect (findAll forest (items.map (·.spanId)))).values

/-- Units in the order of their best member; no unit is empty. -/
def unitLe (key : String → WithTop SortKey) (a b : List String) : Prop :=
  (a.map key).foldr min ⊤ ≤ (b.map key).foldr min ⊤

instance (key : String → WithTop SortKey) : DecidableRel (unitLe key) :=
  fun _ _ => inferInstanceAs (Decidable (_ ≤ _))

/-- The sources a unit's spans come from. -/
def sourcesOf (registry : Registry) (unit : List String) : List String :=
  (unit.filterMap fun spanId => (registry.get? spanId).map sourceKey).dedup

structure Promotion where
  promoted : List (List String)
  remainder : List (List String)
  seen : List String

def promoteStep (registry : Registry) (minSources : ℤ) (p : Promotion) (unit : List String) : Promotion :=
  let fresh := (sourcesOf registry unit).filter (· ∉ p.seen)
  if fresh ≠ [] ∧ (p.seen.length : ℤ) < minSources then
    { p with promoted := p.promoted ++ [unit], seen := p.seen ++ fresh }
  else { p with remainder := p.remainder ++ [unit] }

/-- `_promote_new_sources` -/
def promoteNewSources (registry : Registry) (minSources : ℤ) (units : List (List String)) : List (List String) :=
  if minSources ≤ 1 then units
  else
    let p := units.foldl (promoteStep registry minSources) ⟨[], [], []⟩
    p.promoted ++ p.remainder

/-! ## Packing -/

/-- `_bridges_supported_by` -/
def bridgesSupportedBy (bridges : List ParsedBridge) (ids : List String) : List ParsedBridge :=
  bridges.filter fun b => ∀ spanId ∈ b.evidenceSpanIds, spanId ∈ ids

/-- The items of the ids, in canonical order. -/
def itemsAt (registry : Registry) (dedup : Dict String ParsedItem) (ids : List String) : List AggregatedItem :=
  ((sortedIds registry ids).filterMap dedup.get?).map AggregatedItem.fromParsed

/-- The object `cost_of` measures. -/
def trialOf (selection : ParsedSelection) (registry : Registry) (dedup : Dict String ParsedItem)
    (ids : List String) : AggregatedEvidence where
  items := itemsAt registry dedup ids
  gaps := selection.gaps
  bridges := bridgesSupportedBy selection.bridges ids
  droppedForBudget := []
  droppedBridges := []

/-- One unit of the loop; `kept` is both the list and the set of kept ids. -/
def admitUnit (costOf : List String → ℤ) (tokenBudget : ℤ) (kept unit : List String) : List String :=
  let trial := kept ++ unit.filter (· ∉ kept)
  if trial = [] ∨ trial.length = kept.length then kept
  else if costOf trial ≤ tokenBudget then trial
  else kept

/-- The units in consideration order. -/
def consideredUnits (items : List ParsedItem) (dedup : Dict String ParsedItem) (registry : Registry)
    (minSources : ℤ) (selectionRank : Option (Dict String ℤ)) : List (List String) :=
  let key : String → WithTop SortKey := fun spanId => (dedup.get? spanId).map (sortKey selectionRank registry)
  let units := (atomicUnits items (contradictionFacets items)).insertionSort (unitLe key)
  promoteNewSources registry minSources units

def packed (order : SetOrder) (selection : ParsedSelection) (registry : Registry)
    (dedup : Dict String ParsedItem) (kept : List String) : AggregatedEvidence :=
  let bridges := bridgesSupportedBy selection.bridges kept
  { items := itemsAt registry dedup (order.iterate kept.toFinset)
    gaps := selection.gaps
    bridges := bridges
    droppedForBudget := dedup.keys.filter (· ∉ kept)
    droppedBridges := (selection.bridges.filter (· ∉ bridges)).map (·.text) }

/-- What the loop over the units keeps. -/
def keptIds (selection : ParsedSelection) (registry : Registry) (tokenBudget : ℤ) (coster : Coster)
    (minSources : ℤ) (selectionRank : Option (Dict String ℤ)) : List String :=
  let dedup := dedupItems selection.items
  let costOf := fun ids => coster (trialOf selection registry dedup ids) registry
  let units := consideredUnits dedup.values dedup registry minSources selectionRank
  units.foldl (admitUnit costOf tokenBudget) []

def budgetPackV1 (order : SetOrder) (selection : ParsedSelection) (registry : Registry) (tokenBudget : ℤ)
    (coster : Coster) (minSources : ℤ) (selectionRank : Option (Dict String ℤ)) :
    Except AggregationError AggregatedEvidence := do
  selection.items.forM fun item => discard (require registry item.spanId)
  let dedup := dedupItems selection.items
  if dedup.values = [] then
    pure ⟨[], selection.gaps, selection.bridges, [], []⟩
  else
    let kept := keptIds selection registry tokenBudget coster minSources selectionRank
    let result := packed order selection registry dedup kept
    let final := coster result registry
    if final > tokenBudget then .error (.differsFromTrial final tokenBudget) else pure result

end Shapeflow.P1
