import Shapeflow.Collect
import Shapeflow.Fallible
import Shapeflow.Selection
import Shapeflow.UnicodeText

set_option autoImplicit false

/-!
# Parsing a selector's output

A reply has one of three contracts. It has to fit the schema, name offered labels
only, and claim no two roles for one facet of a span; rows that repeat are merged
and the merges are tallied.
-/
namespace Shapeflow.P1

/-! ## Raw output -/

structure SelectionRow where
  spanId : String
  role : String
  facetIds : Option (List String)
deriving DecidableEq, Repr

structure GapRow where
  facetId : String
  queryAttemptIds : List String
deriving DecidableEq, Repr

structure BridgeRow where
  text : String
  evidenceIds : List String
deriving DecidableEq, Repr

/-- A reply with the fields of its contract; a field that is not required may be missing. -/
inductive SelectorOutput
  | id (selectedIds : List String)
  | typed (selections : List SelectionRow) (gaps : Option (List GapRow))
  | bridge (selections : List SelectionRow) (gaps : Option (List GapRow)) (bridges : Option (List BridgeRow))
deriving DecidableEq, Repr

namespace SelectorOutput

def contract : SelectorOutput → String
  | id _ => "P1_ID"
  | typed _ _ => "P1_TYPED"
  | bridge _ _ _ => "P1_BRIDGE"

def selections : SelectorOutput → List SelectionRow
  | id _ => []
  | typed rows _ | bridge rows _ _ => rows

def gaps : SelectorOutput → List GapRow
  | id _ => []
  | typed _ rows | bridge _ rows _ => rows.getD []

def bridges : SelectorOutput → List BridgeRow
  | id _ | typed _ _ => []
  | bridge _ _ rows => rows.getD []

/-- `_raw_element_count` -/
def elementCount : SelectorOutput → ℕ
  | id selectedIds => selectedIds.length
  | raw => raw.selections.length + raw.gaps.length + raw.bridges.length

end SelectorOutput

/-! ## The schema -/

/-- `^E[0-9]{1,4}$` and `^Q[0-9]{1,4}$`; the `$` also stands before a newline at the end. -/
def isLabel (letter : Char) (label : String) : Bool :=
  let body := if label.toList.getLast? = some '\n' then label.toList.dropLast else label.toList
  match body with
  | [] => false
  | c :: digits => c = letter ∧ 1 ≤ digits.length ∧ digits.length ≤ 4 ∧ digits.all Char.isDigit

def roles : List String := ["support", "contradict", "background"]

def SelectionRow.Fits (row : SelectionRow) : Prop :=
  isLabel 'E' row.spanId ∧ row.role ∈ roles ∧
    ∀ facets ∈ row.facetIds, facets.length ≤ 8 ∧ ∀ facet ∈ facets, facet.length ≤ 64

def GapRow.Fits (row : GapRow) : Prop :=
  row.facetId.length ≤ 64 ∧ 1 ≤ row.queryAttemptIds.length ∧ row.queryAttemptIds.length ≤ 8 ∧
    ∀ label ∈ row.queryAttemptIds, isLabel 'Q' label

def BridgeRow.Fits (row : BridgeRow) : Prop :=
  1 ≤ row.text.length ∧ row.text.length ≤ 600 ∧ 1 ≤ row.evidenceIds.length ∧ row.evidenceIds.length ≤ 16 ∧
    ∀ label ∈ row.evidenceIds, isLabel 'E' label

instance (row : SelectionRow) : Decidable row.Fits := inferInstanceAs (Decidable (_ ∧ _ ∧ _))

instance (row : GapRow) : Decidable row.Fits := inferInstanceAs (Decidable (_ ∧ _ ∧ _ ∧ _))

instance (row : BridgeRow) : Decidable row.Fits := inferInstanceAs (Decidable (_ ∧ _ ∧ _ ∧ _ ∧ _))

/-- `selector_output.schema.json` -/
def SelectorOutput.SchemaValid : SelectorOutput → Prop
  | .id selectedIds => selectedIds.length ≤ 64 ∧ ∀ label ∈ selectedIds, isLabel 'E' label
  | raw =>
    (raw.selections.length ≤ 64 ∧ ∀ row ∈ raw.selections, row.Fits) ∧
      (raw.gaps.length ≤ 16 ∧ ∀ row ∈ raw.gaps, row.Fits) ∧
      (raw.bridges.length ≤ 16 ∧ ∀ row ∈ raw.bridges, row.Fits)

instance (raw : SelectorOutput) : Decidable raw.SchemaValid :=
  match raw with
  | .id _ => inferInstanceAs (Decidable (_ ∧ _))
  | .typed _ _ => inferInstanceAs (Decidable ((_ ∧ _) ∧ (_ ∧ _) ∧ (_ ∧ _)))
  | .bridge _ _ _ => inferInstanceAs (Decidable ((_ ∧ _) ∧ (_ ∧ _) ∧ (_ ∧ _)))

/-! ## Candidates -/

/-- Labels and what they stand for, evidence and query attempts apart. -/
structure CandidateSet where
  evidence : Dict String String
  queries : Dict String String

inductive CandidateKind
  | evidence
  | queryAttempt
deriving DecidableEq, Repr

def CandidateSet.table (candidates : CandidateSet) : CandidateKind → Dict String String
  | .evidence => candidates.evidence
  | .queryAttempt => candidates.queries

/-- `E1..En` or `Q1..Qm`, in the order given. -/
def labelled (letter : String) (ids : List String) : Dict String String :=
  Dict.ofPairs ((ids.zipIdx 1).map fun p => (letter ++ toString p.2, p.1))

def CandidateSet.build (spanIds queryAttemptIds : List String) : CandidateSet where
  evidence := labelled "E" spanIds
  queries := labelled "Q" queryAttemptIds

/-! ## The tally -/

structure NormalizationRecord where
  rawCount : ℕ
  uniqueCount : ℕ
  duplicateCount : ℕ
  semanticConflictCount : ℕ
  rejectedReason : Option String
deriving DecidableEq, Repr

def NormalizationRecord.wasRepaired (record : NormalizationRecord) : Bool :=
  0 < record.duplicateCount ∨ 0 < record.semanticConflictCount

structure Tally where
  raw : ℕ
  duplicates : ℕ
  conflicts : ℕ
deriving DecidableEq, Repr

def Tally.record (tally : Tally) (unique : ℕ) : NormalizationRecord :=
  ⟨tally.raw, unique, tally.duplicates, tally.conflicts, none⟩

def Tally.rejected (tally : Tally) (reason : String) : NormalizationRecord :=
  ⟨tally.raw, 0, tally.duplicates, tally.conflicts, some reason⟩

def Tally.duplicated (tally : Tally) (n : ℕ) : Tally := { tally with duplicates := tally.duplicates + n }

def Tally.conflicted (tally : Tally) : Tally := { tally with conflicts := tally.conflicts + 1 }

/-- Each value where it first stands. -/
def firstSeen {α : Type} [DecidableEq α] (values : List α) : List α :=
  values.foldl (fun seen v => if v ∈ seen then seen else seen ++ [v]) []

/-- `_Tally.dedup` -/
def Tally.dedup (tally : Tally) (values : List String) : List String × Tally :=
  (firstSeen values, tally.duplicated (values.length - (firstSeen values).length))

inductive SelectionContractError
  /-- The caller's own contract is none; the one `ValueError`. -/
  | unknownExpected (expected : String)
  | otherContract (actual expected : String)
  | schema
  | outOfSet (label : String) (kind : CandidateKind)
  | conflictingRoles (spanId facet prior role : String)
  | bridgeWithoutEvidence
  | bridgeWithoutText
  | answeredAndDeclared (facets : List String)
deriving DecidableEq, Repr

/-- What a rejection carries. -/
structure Rejected where
  why : SelectionContractError
  normalization : Option NormalizationRecord
deriving DecidableEq, Repr

abbrev Parsing (α : Type) : Type := Except Rejected α

def Tally.reject {α : Type} (tally : Tally) (why : SelectionContractError) (reason : String) : Parsing α :=
  .error ⟨why, some (tally.rejected reason)⟩

/-! ## Rows -/

/-- `_resolve` -/
def resolve (candidates : CandidateSet) (kind : CandidateKind) (tally : Tally) (label : String) : Parsing String :=
  match (candidates.table kind).get? label with
  | some id => .ok id
  | none => tally.reject (.outOfSet label kind) "out_of_set_label"

/-- A span, a facet and the role claimed. -/
abbrev Claim : Type := String × String × String

/-- The facets of a row, the overall facet where it names none. -/
def facetsOf (facetIds : Option (List String)) : List String :=
  let facets := firstSeen (facetIds.getD [])
  if facets = [] then [overallFacet] else facets

/-- The loop over the selection rows. -/
def claimsOf (candidates : CandidateSet) : Tally → List SelectionRow → Parsing (List Claim × Tally)
  | tally, [] => .ok ([], tally)
  | tally, row :: rows => do
    let spanId ← resolve candidates .evidence tally row.spanId
    let counted := (tally.dedup (row.facetIds.getD [])).2
    let (claims, counted) ← claimsOf candidates counted rows
    pure ((facetsOf row.facetIds).map (fun facet => (spanId, facet, row.role)) ++ claims, counted)

/-- The relations of the spans seen so far. -/
abbrev BySpan : Type := Dict String (Dict String String)

/-- One claim folded into the relations. -/
def foldClaim (s : BySpan × Tally) (claim : Claim) : Parsing (BySpan × Tally) :=
  let (spanId, facet, role) := claim
  let bySpan := s.1.setDefault spanId Dict.empty
  let relations := (bySpan.get? spanId).getD Dict.empty
  match relations.get? facet with
  | none => .ok (bySpan.set spanId (relations.set facet role), s.2)
  | some prior =>
    if prior ≠ role then
      (s.2.duplicated 1).conflicted.reject (.conflictingRoles spanId facet prior role) "semantic_conflict"
    else .ok (bySpan, s.2.duplicated 1)

/-- `_normalize_relations` -/
def normalizeRelations (claims : List Claim) (tally : Tally) : Parsing (List ParsedItem × Tally) := do
  let (bySpan, tally) ← claims.foldlM foldClaim (Dict.empty, tally)
  pure (bySpan.entries.map fun e => ⟨e.1, e.2.entries.map fun r => (r.1, some r.2)⟩, tally)

/-- The gap rows resolved, each without repeats. -/
def resolveGaps (candidates : CandidateSet) : Tally → List GapRow → Parsing (List ParsedGap × Tally)
  | tally, [] => .ok ([], tally)
  | tally, row :: rows => do
    let attempts ← row.queryAttemptIds.mapM (resolve candidates .queryAttempt tally)
    let (attempts, tally) := tally.dedup attempts
    let (gaps, tally) ← resolveGaps candidates tally rows
    pure (⟨row.facetId, attempts⟩ :: gaps, tally)

/-- `xs` with what is new in `ys` appended. -/
def union {α : Type} [DecidableEq α] (xs ys : List α) : List α :=
  ys.foldl (fun seen v => if v ∈ seen then seen else seen ++ [v]) xs

def foldGap (s : Dict String (List String) × Tally) (gap : ParsedGap) : Dict String (List String) × Tally :=
  (s.1.update gap.facetId [] (union · gap.queryAttemptIds),
    if gap.facetId ∈ s.1.keys then s.2.duplicated 1 else s.2)

/-- `_normalize_gaps` -/
def normalizeGaps (gaps : List ParsedGap) (tally : Tally) : List ParsedGap × Tally :=
  let s := gaps.foldl foldGap (Dict.empty, tally)
  (s.1.entries.map fun e => ⟨e.1, e.2⟩, s.2)

/-- The loop over the bridge rows, with the bridges parsed so far. -/
def parseBridges (candidates : CandidateSet) : Tally → List ParsedBridge → List BridgeRow →
    Parsing (List ParsedBridge × Tally)
  | tally, parsed, [] => .ok (parsed, tally)
  | tally, parsed, row :: rows => do
    let evidence ← row.evidenceIds.mapM (resolve candidates .evidence tally)
    let (evidence, tally) := tally.dedup evidence
    if evidence = [] then tally.reject .bridgeWithoutEvidence "semantic_invalid"
    else if Unicode.strip row.text.toList = [] then tally.reject .bridgeWithoutText "semantic_invalid"
    else if ⟨row.text, evidence⟩ ∈ parsed then parseBridges candidates (tally.duplicated 1) parsed rows
    else parseBridges candidates tally (parsed ++ [⟨row.text, evidence⟩]) rows

/-- The facets of `_check_facet_closure`: answered and declared a gap. -/
def overlap (items : List ParsedItem) (gaps : List ParsedGap) : List String :=
  ((gaps.map (·.facetId)).filter fun facet => facet ∈ items.flatMap fun item => facetIdsOf item.relations).dedup

/-! ## The whole output -/

def parseId (candidates : CandidateSet) (selectedIds : List String) :
    Parsing (ParsedSelection × NormalizationRecord) := do
  let tally : Tally := ⟨selectedIds.length, 0, 0⟩
  let resolved ← selectedIds.mapM (resolve candidates .evidence tally)
  let (ids, tally) := tally.dedup resolved
  pure (⟨"P1_ID", ids.map fun id => ⟨id, []⟩, [], []⟩, tally.record ids.length)

def parseRows (candidates : CandidateSet) (raw : SelectorOutput) : Parsing (ParsedSelection × NormalizationRecord) := do
  let tally : Tally := ⟨raw.selections.length + raw.gaps.length + raw.bridges.length, 0, 0⟩
  let (claims, tally) ← claimsOf candidates tally raw.selections
  let (items, tally) ← normalizeRelations claims tally
  let (gaps, tally) ← resolveGaps candidates tally raw.gaps
  let (gaps, tally) := normalizeGaps gaps tally
  let (bridges, tally) ← parseBridges candidates tally [] raw.bridges
  if overlap items gaps ≠ [] then
    tally.conflicted.reject (.answeredAndDeclared ((overlap items gaps).insertionSort (· ≤ ·))) "semantic_conflict"
  else
    pure (⟨raw.contract, items, gaps, bridges⟩, tally.record (items.length + gaps.length + bridges.length))

def p1Contracts : List String := ["P1_BRIDGE", "P1_ID", "P1_TYPED"]

def checkContract (expected : Option String) (raw : SelectorOutput) : Parsing Unit :=
  match expected with
  | none => .ok ()
  | some expected =>
    if expected ∉ p1Contracts then .error ⟨.unknownExpected expected, none⟩
    else if raw.contract ≠ expected then
      (⟨raw.elementCount, 0, 0⟩ : Tally).reject (.otherContract raw.contract expected) "contract_mismatch"
    else .ok ()

def parseSelection (candidates : CandidateSet) (expected : Option String) (raw : SelectorOutput) :
    Parsing (ParsedSelection × NormalizationRecord) := do
  checkContract expected raw
  if raw.SchemaValid then
    match raw with
    | .id selectedIds => parseId candidates selectedIds
    | raw => parseRows candidates raw
  else (⟨raw.elementCount, 0, 0⟩ : Tally).reject .schema "schema"

end Shapeflow.P1
