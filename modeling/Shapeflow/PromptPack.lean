import Shapeflow.BudgetPack

set_option autoImplicit false

/-!
# Admitting candidates into a prompt

Every source gets its floor of best-ranked spans first, whatever the budget; the room
that is left is filled in rounds over the sources.
-/
namespace Shapeflow.P1

/-! ## Python's sequences -/

/-- `xs[:m]` -/
def upTo {α : Type} (xs : List α) (m : ℤ) : List α := xs.take (if 0 ≤ m then m else xs.length + m).toNat

/-- `xs[i]`, counted from the end where `i` is negative. -/
def itemAt? {α : Type} (xs : List α) (i : ℤ) : Option α :=
  if 0 ≤ i then xs[i.toNat]? else if 0 ≤ xs.length + i then xs[(xs.length + i).toNat]? else none

/-- `range(lo, hi)` -/
def rangeFrom (lo hi : ℤ) : List ℤ := (List.range (hi - lo).toNat).map (lo + ·)

/-- `tuple(sorted(Counter(keys).items()))` -/
def counts (keys : List String) : List (String × ℕ) :=
  (keys.dedup.insertionSort (· ≤ ·)).map fun key => (key, keys.count key)

/-! ## Relevance -/

/-- What `str.lower` makes of a character, as far as `[a-z0-9]` can tell. -/
def lowered (c : Char) : List Char :=
  if c = Char.ofNat 0x130 then ['i', Char.ofNat 0x307]
  else if c = Char.ofNat 0x212A then ['k']
  else [c.toLower]

def isTermChar (c : Char) : Bool := ('a' ≤ c ∧ c ≤ 'z') ∨ ('0' ≤ c ∧ c ≤ '9')

/-- `_TOKEN.findall(text.lower())` -/
def termsOf (text : String) : List (List Char) :=
  ((text.toList.flatMap lowered).splitOnP fun c => ¬ isTermChar c).filter (· ≠ [])

/-- `_relevance`: the query terms, each as often as query and text repeat it. -/
def relevance (text : String) (queryTerms : List (List Char)) : ℕ :=
  (queryTerms.dedup.map fun term => queryTerms.count term * (termsOf text).count term).sum

/-! ## Packing -/

inductive PackError
  | noRoom (budget : ℤ)
  | floorOverruns (spent budget : ℤ) (pages : ℕ)
  | notParallel
  | indexError
deriving DecidableEq, Repr

/-- `PromptPackUnsatisfiable` -/
def PackError.unsatisfiable : PackError → Bool
  | .noRoom _ | .floorOverruns _ _ _ => true
  | .notParallel | .indexError => false

def PackError.text : PackError → String
  | .noRoom budget => "no room for candidates: budget is " ++ toString budget
  | .floorOverruns spent budget pages =>
    "one span per page costs " ++ toString spent ++ " tokens against a " ++ toString budget ++
      "-token budget over " ++ toString pages ++ " pages; no prompt covering this batch fits the window"
  | .notParallel => "spans, texts and token_counts must be parallel"
  | .indexError => "list index out of range"

structure PackAccounting where
  budget : ℤ
  admittedTokens : ℤ
  offeredTokens : ℤ
  admittedSpans : ℕ
  droppedSpans : ℕ
  sourcesOffered : ℕ
  sourcesCovered : ℕ
  pruned : Bool
deriving DecidableEq, Repr

structure PromptPackResult where
  spanIds : List String
  droppedSpanIds : List String
  perSourceAdmitted : List (String × ℕ)
  perSourceOffered : List (String × ℕ)
  admittedTokens : ℤ
  offeredTokens : ℤ
  budget : ℤ
deriving DecidableEq, Repr

def PromptPackResult.accounting (result : PromptPackResult) : PackAccounting where
  budget := result.budget
  admittedTokens := result.admittedTokens
  offeredTokens := result.offeredTokens
  admittedSpans := result.spanIds.length
  droppedSpans := result.droppedSpanIds.length
  sourcesOffered := result.perSourceOffered.length
  sourcesCovered := (result.perSourceAdmitted.filter fun e => e.2 ≠ 0).length
  pruned := result.droppedSpanIds ≠ []

/-- The indices of the spans of each source, in offered order. -/
def bySource (spans : List Span) : Dict String (List ℕ) :=
  Dict.collect ((spans.map sourceKey).zipIdx)

/-- Higher scores first, ties by offered order. -/
def rankLe (score : ℕ → ℕ) (i j : ℕ) : Prop := score j < score i ∨ (score i = score j ∧ i ≤ j)

instance (score : ℕ → ℕ) : DecidableRel (rankLe score) := fun _ _ => inferInstanceAs (Decidable (_ ∨ _))

/-- A source's indices, best first. -/
def rankedAt (spans : List Span) (score : ℕ → ℕ) (key : String) : List ℕ :=
  (((bySource spans).get? key).getD []).insertionSort (rankLe score)

/-- The sources in the order of their first span. -/
def sourcesInOrder (spans : List Span) : List String :=
  (bySource spans).keys.insertionSort fun a b =>
    ((((bySource spans).get? a).getD []).min?).getD 0 ≤ ((((bySource spans).get? b).getD []).min?).getD 0

structure Admission where
  admitted : List ℕ
  spent : ℤ

/-- `spent += token_counts[index]; admitted.add(index)` -/
def Admission.add (tokens : ℕ → ℤ) (a : Admission) (index : ℕ) : Admission where
  admitted := if index ∈ a.admitted then a.admitted else a.admitted ++ [index]
  spent := a.spent + tokens index

/-- The spans of the floor, source by source. -/
def floorIndices (spans : List Span) (score : ℕ → ℕ) (minPerSource : ℤ) : List ℕ :=
  (sourcesInOrder spans).flatMap fun key => upTo (rankedAt spans score key) minPerSource

/-- One source in one round of the fill. -/
def fillStep (spans : List Span) (score : ℕ → ℕ) (tokens : ℕ → ℤ) (budget : ℤ) (a : Admission)
    (slot : ℤ × String) : Except PackError Admission :=
  let indices := rankedAt spans score slot.2
  if (indices.length : ℤ) ≤ slot.1 then .ok a
  else match itemAt? indices slot.1 with
    | none => .error .indexError
    | some index => if index ∈ a.admitted ∨ budget < a.spent + tokens index then .ok a else .ok (a.add tokens index)

/-- The rounds of the fill: every source at one depth, then at the next. -/
def fillSlots (spans : List Span) (score : ℕ → ℕ) (minPerSource : ℤ) : List (ℤ × String) :=
  let rounds := ((bySource spans).keys.map fun key => (rankedAt spans score key).length).foldr max 0
  (rangeFrom minPerSource rounds).flatMap fun depth => (sourcesInOrder spans).map fun key => (depth, key)

def scoreOf (texts : List String) (topic : String) (i : ℕ) : ℕ := relevance (texts[i]?.getD "") (termsOf topic)

def tokensOf (tokenCounts : List ℤ) (i : ℕ) : ℤ := tokenCounts[i]?.getD 0

def spanIdAt (spans : List Span) (i : ℕ) : String := ((spans[i]?.bind (·.spanId))).getD ""

def sourceAt (spans : List Span) (i : ℕ) : String := ((spans[i]?).map sourceKey).getD ""

def packResult (spans : List Span) (tokenCounts : List ℤ) (budget : ℤ) (a : Admission) : PromptPackResult :=
  let kept := a.admitted.insertionSort (· ≤ ·)
  let dropped := (List.range spans.length).filter (· ∉ a.admitted)
  { spanIds := kept.map (spanIdAt spans)
    droppedSpanIds := dropped.map (spanIdAt spans)
    perSourceAdmitted := counts (kept.map (sourceAt spans))
    perSourceOffered := counts (spans.map sourceKey)
    admittedTokens := a.spent
    offeredTokens := tokenCounts.sum
    budget := budget }

def promptPackV1 (spans : List Span) (texts : List String) (tokenCounts : List ℤ) (budget : ℤ) (topic : String)
    (minPerSource : ℤ) : Except PackError PromptPackResult :=
  if budget ≤ 0 then .error (.noRoom budget)
  else if ¬ (spans.length = texts.length ∧ texts.length = tokenCounts.length) then .error .notParallel
  else
    let score := scoreOf texts topic
    let tokens := tokensOf tokenCounts
    let floor := (floorIndices spans score minPerSource).foldl (Admission.add tokens) ⟨[], 0⟩
    if budget < floor.spent then .error (.floorOverruns floor.spent budget (bySource spans).keys.length)
    else do
      let full ← (fillSlots spans score minPerSource).foldlM (fillStep spans score tokens budget) floor
      pure (packResult spans tokenCounts budget full)

end Shapeflow.P1
