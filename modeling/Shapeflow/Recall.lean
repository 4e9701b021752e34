import Mathlib.Algebra.Order.Field.Basic
import Mathlib.Algebra.Order.Field.Rat
import Mathlib.Data.Finset.Sort
import Shapeflow.Qrels
import Shapeflow.SelectorOutputRows

set_option autoImplicit false

/-!
# Evidence recall

The docids a trajectory saw, in the order it first saw them, against an answer key.
-/
namespace Shapeflow.AnswerKey
open P1 (firstSeen mem_firstSeen nodup_firstSeen)
open Py (FloatText)
open Canonical (CanonicalFailure)
open Fallible

inductive RecallError where
  | window (k : ℤ)
  | malformedDocid (queryId : String) (index : ℕ)
  | unjudged (queryId : String)
  | noValue (queryId : String)
  | duplicateQueries
  | noRecord (queries : List String)
  | canonical (e : CanonicalFailure)
  | otherWindow (baseline treatment : Option ℤ)
  | otherKey (baseline treatment : String)
  | otherTasks (baselineOnly treatmentOnly : List String)
  | keyError (queryId : String)
  deriving DecidableEq

inductive RecallStatus where
  | scored
  | noRelevant
  | notJudged
  deriving DecidableEq, Repr

structure QueryRecall where
  queryId : String
  status : RecallStatus
  «recall» : Option ℚ
  nRelevant : ℕ
  nFound : ℕ
  nConsidered : ℕ
  k : Option ℤ
  found : List String
  missed : List String
  deriving DecidableEq

def QueryRecall.value (r : QueryRecall) : Except RecallError ℚ := r.«recall».elim (.error (.noValue r.queryId)) .ok

/-- `seen` and `ordered` hold the same docids. -/
def distinctFrom (queryId : String) (ordered : List String) (e : String × ℕ) : Except RecallError (List String) :=
  if e.1 = "" then .error (.malformedDocid queryId e.2)
  else .ok (if e.1 ∈ ordered then ordered else ordered ++ [e.1])

/-- `_distinct_in_order` -/
def distinctInOrder (docids : List String) (queryId : String) : Except RecallError (List String) :=
  docids.zipIdx.foldlM (distinctFrom queryId) []

/-- `k is not None and k < 1` -/
def badWindow (k : Option ℤ) : Bool := k.any fun n => n < 1

/-- `ordered if k is None else ordered[:k]` for a `k` that is not bad. -/
def windowOf (k : Option ℤ) (ordered : List String) : List String := k.elim ordered fun n => ordered.take n.toNat

def recallAtK (queryId : String) (retrieved : List String) (qrels : Qrels) (k : Option ℤ) :
    Except RecallError QueryRecall :=
  if badWindow k then .error (.window (k.getD 0))
  else do
    let ordered ← distinctInOrder retrieved queryId
    let window := windowOf k ordered
    if qrels.isJudged queryId = false then
      return ⟨queryId, .notJudged, none, 0, 0, window.length, k, [], []⟩
    match qrels.relevant? queryId with
    | none => .error (.unjudged queryId)
    | some relevant =>
      let found := window.toFinset ∩ relevant
      if relevant = ∅ then return ⟨queryId, .noRelevant, none, 0, 0, window.length, k, [], []⟩
      return {
        queryId := queryId
        status := .scored
        «recall» := some ((found.card : ℚ) / relevant.card)
        nRelevant := relevant.card
        nFound := found.card
        nConsidered := window.length
        k := k
        found := found.sort (· ≤ ·)
        missed := (relevant \ found).sort (· ≤ ·) }

/-! ## The distinct docids -/

theorem distinctFrom_ok (queryId : String) (docids ordered result : List String) (n : ℕ) :
    (docids.zipIdx n).foldlM (distinctFrom queryId) ordered = .ok result ↔
      "" ∉ docids ∧ result = docids.foldl (fun seen d => if d ∈ seen then seen else seen ++ [d]) ordered := by
  induction docids generalizing ordered n with
  | nil => simp [pure, Except.pure, eq_comm]
  | cons d docids ih =>
    rw [List.zipIdx_cons, List.foldlM_cons, List.foldl_cons, List.mem_cons, not_or]
    unfold distinctFrom
    by_cases hd : d = ""
    · rw [if_pos hd]
      constructor
      · intro h
        cases h
      · intro h
        exact absurd hd.symm h.1.1
    · rw [if_neg hd, ok_bind]
      have hstep := ih (if d ∈ ordered then ordered else ordered ++ [d]) (n + 1)
      unfold distinctFrom at hstep
      rw [hstep]
      simp [Ne.symm hd]

/-- Docids are kept where they first stand; none may be empty. -/
theorem distinctInOrder_ok {docids ordered : List String} {queryId : String} :
    distinctInOrder docids queryId = .ok ordered ↔ "" ∉ docids ∧ ordered = firstSeen docids :=
  distinctFrom_ok queryId docids [] ordered 0

theorem firstSeen_repeat {xs ys : List String} {d : String} (h : d ∈ xs) :
    firstSeen (xs ++ d :: ys) = firstSeen (xs ++ ys) := by
  have hd : d ∈ firstSeen xs := mem_firstSeen.mpr h
  unfold firstSeen at hd ⊢
  rw [List.foldl_append, List.foldl_append, List.foldl_cons, if_pos hd]

/-! ## What is said of a query -/

/-- The status a key gives a query, whatever was retrieved. -/
def statusOf (qrels : Qrels) (queryId : String) : RecallStatus :=
  if qrels.isJudged queryId = false then .notJudged
  else if qrels.relevant? queryId = some ∅ then .noRelevant
  else .scored

/-- The docids a key has relevant to a query it judges. -/
def relevantTo (qrels : Qrels) (queryId : String) : Finset String :=
  if qrels.isJudged queryId = false then ∅ else (qrels.relevant? queryId).getD ∅

/-- A recall as it is made from the window. -/
structure Scores (qrels : Qrels) (queryId : String) (k : Option ℤ) (window : List String) (r : QueryRecall) : Prop where
  queryId_eq : r.queryId = queryId
  k_eq : r.k = k
  considered : r.nConsidered = window.length
  status : r.status = statusOf qrels queryId
  found : r.found.toFinset = window.toFinset ∩ relevantTo qrels queryId
  missed : r.missed.toFinset = relevantTo qrels queryId \ window.toFinset
  nodup : r.found.Nodup ∧ r.missed.Nodup
  counts : r.nFound = r.found.length ∧ r.nRelevant = (relevantTo qrels queryId).card
  «recall» : r.«recall» = if statusOf qrels queryId = .scored then
    some (((window.toFinset ∩ relevantTo qrels queryId).card : ℚ) / (relevantTo qrels queryId).card) else none

theorem recallAtK_window {queryId : String} {retrieved : List String} {qrels : Qrels} {k : Option ℤ} {r : QueryRecall}
    (h : recallAtK queryId retrieved qrels k = .ok r) : badWindow k = false ∧ "" ∉ retrieved := by
  unfold recallAtK at h
  split at h
  · cases h
  · rename_i hk
    obtain ⟨ordered, hordered, -⟩ := bind_ok.mp h
    exact ⟨Bool.eq_false_iff.mpr hk, (distinctInOrder_ok.mp hordered).1⟩

theorem recallAtK_scores {queryId : String} {retrieved : List String} {qrels : Qrels} {k : Option ℤ} {r : QueryRecall}
    (h : recallAtK queryId retrieved qrels k = .ok r) :
    Scores qrels queryId k (windowOf k (firstSeen retrieved)) r := by
  unfold recallAtK at h
  split at h
  · cases h
  · obtain ⟨ordered, hordered, h⟩ := bind_ok.mp h
    obtain ⟨-, rfl⟩ := distinctInOrder_ok.mp hordered
    split at h
    · rename_i hjudged
      cases h
      constructor <;> simp [statusOf, relevantTo, hjudged]
    · rename_i hjudged
      split at h
      · cases h
      · rename_i relevant hrelevant
        split at h
        · rename_i hempty
          subst hempty
          cases h
          constructor <;> simp [statusOf, relevantTo, hjudged, hrelevant]
        · rename_i hne
          cases h
          constructor <;> simp [statusOf, relevantTo, hjudged, hrelevant, hne]

/-- A recall is made from the distinct docids alone. -/
theorem recallAtK_congr {queryId : String} {retrieved retrieved' : List String} (qrels : Qrels) (k : Option ℤ)
    (hsame : firstSeen retrieved = firstSeen retrieved') (hempty : "" ∈ retrieved ↔ "" ∈ retrieved') (r : QueryRecall) :
    recallAtK queryId retrieved qrels k = .ok r ↔ recallAtK queryId retrieved' qrels k = .ok r := by
  unfold recallAtK
  split
  · rfl
  · have hdistinct : ∀ ordered, distinctInOrder retrieved queryId = .ok ordered ↔
        distinctInOrder retrieved' queryId = .ok ordered := by
      intro ordered
      rw [distinctInOrder_ok, distinctInOrder_ok, hsame, hempty]
    rw [bind_ok, bind_ok]
    simp only [hdistinct]

/-! ## Windows -/

/-- `none` is the widest window. -/
def Wider : Option ℤ → Option ℤ → Prop
  | _, none => True
  | some i, some j => i ≤ j
  | none, some _ => False

theorem window_subset {k k' : Option ℤ} (h : Wider k k') (ordered : List String) :
    windowOf k ordered ⊆ windowOf k' ordered := by
  cases k' with
  | none =>
    cases k with
    | none => exact List.Subset.refl _
    | some i => exact List.take_subset _ _
  | some j =>
    cases k with
    | none => exact h.elim
    | some i =>
      intro d hd
      have hij : i.toNat ≤ j.toNat := Int.toNat_le_toNat h
      exact (List.take_prefix_take_left hij).subset hd

/-- What holds of the recall of one query. -/
structure RecallLaws (qrels : Qrels) : Prop where
  monotone : ∀ queryId retrieved k k' r r', recallAtK queryId retrieved qrels k = .ok r →
    recallAtK queryId retrieved qrels k' = .ok r' → Wider k k' →
    ∀ x, r.«recall» = some x → ∃ x', r'.«recall» = some x' ∧ x ≤ x'
  repeated : ∀ queryId xs d ys k, d ∈ xs → ∀ r, recallAtK queryId (xs ++ d :: ys) qrels k = .ok r ↔
    recallAtK queryId (xs ++ ys) qrels k = .ok r
  partitioned : ∀ queryId retrieved k r, recallAtK queryId retrieved qrels k = .ok r →
    r.found.toFinset ∪ r.missed.toFinset = relevantTo qrels queryId ∧ Disjoint r.found.toFinset r.missed.toFinset
  built : ∀ rows, BuiltFrom rows qrels → ∀ queryId, relevantTo qrels queryId = relevantDocids rows queryId

theorem relevantTo_built {rows : List Judgement} {qrels : Qrels} (h : BuiltFrom rows qrels) (queryId : String) :
    relevantTo qrels queryId = relevantDocids rows queryId := by
  have hjudged : qrels.isJudged queryId = true ↔ ∃ r ∈ rows, r.qid = queryId := by
    rw [Qrels.isJudged, decide_eq_true_eq, Dict.mem_keys_iff]
    simp [h.judged]
  unfold relevantTo Qrels.relevant?
  rw [h.relevant]
  by_cases hq : ∃ r ∈ rows, r.qid = queryId
  · rw [if_neg (by simp [hjudged.mpr hq]), if_pos hq]
    rfl
  · rw [if_pos (Bool.eq_false_iff.mpr (mt hjudged.mp hq))]
    refine (relevantDocids_of_none fun hrel => ?_).symm
    obtain ⟨r, hr, hrq, -⟩ := hrel
    exact hq ⟨r, hr, hrq⟩

theorem recallLaws (qrels : Qrels) : RecallLaws qrels where
  monotone queryId retrieved k k' r r' h h' hwider x hx := by
    have hr := (recallAtK_scores h).«recall»
    have hr' := (recallAtK_scores h').«recall»
    rw [hx] at hr
    split at hr
    · rename_i hscored
      rw [if_pos hscored] at hr'
      refine ⟨_, hr', ?_⟩
      rw [Option.some.inj hr]
      have hwindow : (windowOf k (firstSeen retrieved)).toFinset ⊆ (windowOf k' (firstSeen retrieved)).toFinset :=
        fun d hd => List.mem_toFinset.mpr (window_subset hwider _ (List.mem_toFinset.mp hd))
      have hsubset := Finset.inter_subset_inter_right (u := relevantTo qrels queryId) hwindow
      exact div_le_div_of_nonneg_right (Nat.cast_le.mpr (Finset.card_le_card hsubset)) (Nat.cast_nonneg _)
    · cases hr
  repeated queryId xs d ys k hd r := by
    refine recallAtK_congr qrels k (firstSeen_repeat hd) ?_ r
    simp only [List.mem_append, List.mem_cons]
    constructor
    · rintro (h | rfl | h)
      · exact .inl h
      · exact .inl hd
      · exact .inr h
    · exact Or.imp_right .inr
  partitioned queryId retrieved k r h := by
    have hscores := recallAtK_scores h
    rw [hscores.found, hscores.missed]
    refine ⟨?_, ?_⟩
    · rw [Finset.inter_comm, Finset.union_comm, Finset.sdiff_union_inter]
    · exact Finset.disjoint_of_subset_left Finset.inter_subset_left Finset.disjoint_sdiff
  built _ h := relevantTo_built h

end Shapeflow.AnswerKey
