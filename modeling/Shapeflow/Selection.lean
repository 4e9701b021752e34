import Shapeflow.Dict
import Mathlib.Algebra.Order.Ring.Int
import Mathlib.Data.Finset.Sort
import Mathlib.Data.Prod.Lex
import Shapeflow.SortedLists

set_option autoImplicit false

/-!
# Selections and evidence spans

What a selector's reply parses to, what an aggregator makes of it, and the spans
both address. A span is a record of frozen storage whose fields may be missing.
-/
namespace Shapeflow.P1

/-- `a or b or other`: the first text that is present and not empty. -/
def firstText : List (Option String) → String → String
  | [], other => other
  | none :: texts, other => firstText texts other
  | some text :: texts, other => if text = "" then firstText texts other else text

/-- `text[:12]` -/
def short (text : String) : String := String.ofList (text.toList.take 12)

/-! ## Selections -/

/-- The facet of a role claimed without naming one. -/
def overallFacet : String := "__overall__"

/-- `(facet_id, role)` -/
abbrev Relation : Type := String × Option String

/-- `{r for _, r in relations if r}` -/
def rolesOf (relations : List Relation) : List String :=
  ((relations.filterMap Prod.snd).filter (· ≠ "")).dedup

/-- The single role, when there is exactly one. -/
def roleOf (relations : List Relation) : Option String :=
  match rolesOf relations with
  | [role] => some role
  | _ => none

def facetIdsOf (relations : List Relation) : List String :=
  (relations.map Prod.fst).filter (· ≠ overallFacet)

structure ParsedItem where
  spanId : String
  relations : List Relation
deriving DecidableEq, Repr

structure ParsedGap where
  facetId : String
  queryAttemptIds : List String
deriving DecidableEq, Repr

structure ParsedBridge where
  text : String
  evidenceSpanIds : List String
deriving DecidableEq, Repr

structure ParsedSelection where
  contract : String
  items : List ParsedItem
  gaps : List ParsedGap
  bridges : List ParsedBridge
deriving DecidableEq, Repr

def ParsedSelection.selectedSpanIds (selection : ParsedSelection) : List String :=
  selection.items.map (·.spanId)

structure AggregatedItem where
  spanId : String
  relations : List Relation
deriving DecidableEq, Repr

def AggregatedItem.fromParsed (item : ParsedItem) : AggregatedItem := ⟨item.spanId, item.relations⟩

structure AggregatedEvidence where
  items : List AggregatedItem
  gaps : List ParsedGap
  bridges : List ParsedBridge
  droppedForBudget : List String
  droppedBridges : List String
deriving DecidableEq, Repr

/-! ## Spans -/

/-- A range of a snapshot, with the digest of the bytes it addresses. -/
structure EvidenceRef where
  contentHash : String
  charStart : ℤ
  charEnd : ℤ
  textSha256 : String
deriving DecidableEq, Repr

structure Span where
  spanNamespace : Option String := none
  spanId : Option String := none
  visibleSpanId : Option String := none
  contentHash : Option String := none
  messageId : Option String := none
  visibleCompressorViewHash : Option String := none
  charStart : Option ℤ := none
  charEnd : Option ℤ := none
  byteStart : Option ℤ := none
  byteEnd : Option ℤ := none
  textSha256 : Option String := none
  exactTextSha256 : Option String := none
  kind : Option String := none
  messageRole : Option String := none
  contextRefs : List EvidenceRef := []
  headingRefs : List EvidenceRef := []
  sourceOccurrenceIds : List String := []
deriving DecidableEq, Repr

/-- `_span_id_of` -/
def Span.id (span : Span) : String := firstText [span.spanId, span.visibleSpanId] ""

/-- Spans under their ids. -/
abbrev Registry : Type := Dict String Span

/-- Namespace, source or view, start, end and id. -/
abbrev OrderKey : Type := String ×ₗ String ×ₗ ℤ ×ₗ ℤ ×ₗ String

instance orderKeyPreorder : Preorder OrderKey := (inferInstance : LinearOrder OrderKey).toPreorder

/-- The id an order key ends with; a visible span's own id comes first there. -/
def Span.orderId (span : Span) : String :=
  if span.spanNamespace = some "VISIBLE_MESSAGE" then firstText [span.visibleSpanId, span.spanId] ""
  else firstText [span.spanId, span.visibleSpanId] ""

/-- Registered under its own id, whichever of the two fields holds it. -/
def Span.Named (spanId : String) (span : Span) : Prop := span.id = spanId ∧ span.orderId = spanId

instance (spanId : String) (span : Span) : Decidable (span.Named spanId) := instDecidableAnd

/-! ## Sets of ids -/

/-- The order in which iterating a set of texts lists its members. -/
structure SetOrder where
  iterate : Finset String → List String
  perm : ∀ ids, (iterate ids : Multiset String) = ids.val

theorem SetOrder.mem_iterate (order : SetOrder) {ids : Finset String} {spanId : String} :
    spanId ∈ order.iterate ids ↔ spanId ∈ ids := by
  rw [← Multiset.mem_coe, order.perm]
  rfl

theorem SetOrder.iterate_nodup (order : SetOrder) (ids : Finset String) : (order.iterate ids).Nodup := by
  rw [← Multiset.coe_nodup, order.perm]
  exact ids.nodup

end Shapeflow.P1
