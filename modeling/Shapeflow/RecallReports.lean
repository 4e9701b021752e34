import Mathlib.Data.List.Zip
import Shapeflow.Recall

set_option autoImplicit false

/-!
# Recall over a split, and two arms of it

A report averages the queries scored in it; two reports are paired over the queries
scored in both. One answer key scores the same queries whatever was retrieved, so the
two averages are one.
-/
namespace Shapeflow.AnswerKey
open P1 (firstSeen mem_firstSeen nodup_firstSeen)
open Py (FloatText)
open Canonical (CanonicalFailure)
open Fallible

/-! ## Reports -/

structure RecallReport where
  qrelsKind : String
  qrelsSource : String
  qrelsSha256 : String
  qrelsDigest : String
  k : Option ℤ
  perQuery : List QueryRecall
  nQueries : ℕ
  nScored : ℕ
  nNoRelevant : ℕ
  nNotJudged : ℕ
  macroRecall : Option ℚ
  microRecall : Option ℚ
  deriving DecidableEq

/-- `sum(values)` -/
def sumOf (values : List ℚ) : ℚ := values.foldl (· + ·) 0

def sumCounts (counts : List ℕ) : ℕ := counts.foldl (· + ·) 0

def QueryRecall.isScored (r : QueryRecall) : Bool := r.status = .scored

/-- The queries of the split that have no retrieval record. -/
def withoutRecord (queryIds : List String) (retrievedByQuery : Dict String (List String)) : List String :=
  queryIds.filter fun q => q ∉ retrievedByQuery.keys

/-- `recall_at_k` for a query of the split. -/
def recallFor (retrievedByQuery : Dict String (List String)) (qrels : Qrels) (k : Option ℤ) (q : String) :
    Except RecallError QueryRecall :=
  (retrievedByQuery.get? q).elim (.error (.keyError q)) fun retrieved => recallAtK q retrieved qrels k

def recallOverSplit (sha256Hex : ByteArray → String) (floats : FloatText) (queryIds : List String)
    (retrievedByQuery : Dict String (List String)) (qrels : Qrels) (k : Option ℤ) : Except RecallError RecallReport :=
  if ¬ queryIds.Nodup then .error .duplicateQueries
  else if withoutRecord queryIds retrievedByQuery ≠ [] then
    .error (.noRecord (withoutRecord queryIds retrievedByQuery))
  else do
    let perQuery ← (queryIds.insertionSort (· ≤ ·)).mapM (recallFor retrievedByQuery qrels k)
    let scored := perQuery.filter QueryRecall.isScored
    let values ← scored.mapM QueryRecall.value
    let denominator := sumCounts (scored.map QueryRecall.nRelevant)
    let digest ← (qrels.digest sha256Hex floats).mapError .canonical
    return {
      qrelsKind := qrels.kind.value
      qrelsSource := qrels.sourceName
      qrelsSha256 := qrels.sourceSha256
      qrelsDigest := digest
      k := k
      perQuery := perQuery
      nQueries := perQuery.length
      nScored := scored.length
      nNoRelevant := perQuery.countP fun r => r.status = .noRelevant
      nNotJudged := perQuery.countP fun r => r.status = .notJudged
      macroRecall := if scored = [] then none else some (sumOf values / scored.length)
      microRecall := if denominator = 0 then none
        else some ((sumCounts (scored.map QueryRecall.nFound) : ℚ) / denominator) }

/-- `{q.query_id: q for q in self.per_query}` -/
def RecallReport.byQuery (r : RecallReport) : Dict String QueryRecall :=
  Dict.ofPairs (r.perQuery.map fun q => (q.queryId, q))

/-! ## Pairs -/

structure PairedRecall where
  nPairs : ℕ
  nComparable : ℕ
  nExcluded : ℕ
  baselineMacro : Option ℚ
  treatmentMacro : Option ℚ
  meanDifference : Option ℚ
  nIncidents : ℕ
  incidentRate : Option ℚ
  nImprovements : ℕ
  improvementRate : Option ℚ
  incidentQueryIds : List String
  excludedQueryIds : List String
  deriving DecidableEq

def scoredIn (reports : Dict String QueryRecall) (q : String) : Bool := (reports.get? q).any QueryRecall.isScored

/-- `reports[q].value()` -/
def valueIn (reports : Dict String QueryRecall) (q : String) : Except RecallError ℚ :=
  (reports.get? q).elim (.error (.keyError q)) QueryRecall.value

/-- What is reported when no query is comparable. -/
def nothingPaired (ids excluded : List String) : PairedRecall :=
  ⟨ids.length, 0, excluded.length, none, none, none, 0, none, 0, none, [], excluded⟩

/-- The comparable queries, each with its two values. -/
def paired (ids excluded comparable : List String) (base treat : List ℚ) : PairedRecall :=
  let values := comparable.zip (base.zip treat)
  let incidents := (values.filter fun e => e.2.2 < e.2.1).map Prod.fst
  let improvements := values.countP fun e => e.2.1 < e.2.2
  let n : ℚ := comparable.length
  { nPairs := ids.length
    nComparable := comparable.length
    nExcluded := excluded.length
    baselineMacro := some (sumOf base / n)
    treatmentMacro := some (sumOf treat / n)
    meanDifference := some (sumOf treat / n - sumOf base / n)
    nIncidents := incidents.length
    incidentRate := some (incidents.length / n)
    nImprovements := improvements
    improvementRate := some (improvements / n)
    incidentQueryIds := incidents
    excludedQueryIds := excluded }

/-- The tasks of an arm, in order. -/
def taskIds (reports : Dict String QueryRecall) : List String := reports.keys.insertionSort (· ≤ ·)

def comparableIds (left right : Dict String QueryRecall) : List String :=
  (taskIds left).filter fun q => scoredIn left q ∧ scoredIn right q

def excludedIds (left right : Dict String QueryRecall) : List String :=
  (taskIds left).filter fun q => q ∉ comparableIds left right

/-- The arms' tasks are the same and each is looked up in both. -/
def pairTasks (left right : Dict String QueryRecall) : Except RecallError PairedRecall :=
  if comparableIds left right = [] then .ok (nothingPaired (taskIds left) (excludedIds left right))
  else do
    let base ← (comparableIds left right).mapM (valueIn left)
    let treat ← (comparableIds left right).mapM (valueIn right)
    return paired (taskIds left) (excludedIds left right) (comparableIds left right) base treat

def onlyIn (left right : Dict String QueryRecall) : List String := left.keys.filter fun q => q ∉ right.keys

def pairedRecall (baseline treatment : RecallReport) : Except RecallError PairedRecall :=
  if baseline.k ≠ treatment.k then .error (.otherWindow baseline.k treatment.k)
  else if baseline.qrelsDigest ≠ treatment.qrelsDigest then
    .error (.otherKey baseline.qrelsDigest treatment.qrelsDigest)
  else if baseline.byQuery.keys.toFinset ≠ treatment.byQuery.keys.toFinset then
    .error (.otherTasks (onlyIn baseline.byQuery treatment.byQuery) (onlyIn treatment.byQuery baseline.byQuery))
  else pairTasks baseline.byQuery treatment.byQuery

/-! ## What a report holds -/

theorem isScored_iff {e : QueryRecall} : e.isScored = true ↔ e.status = .scored := decide_eq_true_iff

/-- The queries without a value. -/
def RecallReport.unscored (r : RecallReport) : List String :=
  (r.perQuery.filter fun e => e.isScored = false).map QueryRecall.queryId

/-- A report over the queries `qs`, in order, each with the status the key gives it. -/
structure ReportOf (qrels : Qrels) (qs : List String) (r : RecallReport) : Prop where
  ids : r.perQuery.map QueryRecall.queryId = qs
  nodup : qs.Nodup
  sorted : qs.Pairwise (· ≤ ·)
  status : ∀ e ∈ r.perQuery, e.status = statusOf qrels e.queryId
  average : ∃ values, (r.perQuery.filter QueryRecall.isScored).map QueryRecall.value = values.map .ok ∧
    r.macroRecall = if r.perQuery.filter QueryRecall.isScored = [] then none
      else some (sumOf values / (r.perQuery.filter QueryRecall.isScored).length)

theorem pairwise_sortedQueries (queryIds : List String) : (queryIds.insertionSort (· ≤ ·)).Pairwise (· ≤ ·) :=
  List.pairwise_insertionSort (· ≤ ·) queryIds

theorem recallFor_scores {retrievedByQuery : Dict String (List String)} {qrels : Qrels} {k : Option ℤ} {q : String}
    {e : QueryRecall} (h : recallFor retrievedByQuery qrels k q = .ok e) :
    e.queryId = q ∧ e.status = statusOf qrels q := by
  unfold recallFor at h
  cases hget : retrievedByQuery.get? q with
  | none =>
    rw [hget] at h
    cases h
  | some retrieved =>
    rw [hget] at h
    have hscores := recallAtK_scores h
    exact ⟨hscores.queryId_eq, hscores.status⟩

theorem recallOverSplit_ok {sha256Hex : ByteArray → String} {floats : FloatText} {queryIds : List String}
    {retrievedByQuery : Dict String (List String)} {qrels : Qrels} {k : Option ℤ} {r : RecallReport}
    (h : recallOverSplit sha256Hex floats queryIds retrievedByQuery qrels k = .ok r) :
    ReportOf qrels (queryIds.insertionSort (· ≤ ·)) r ∧ qrels.digest sha256Hex floats = .ok r.qrelsDigest := by
  unfold recallOverSplit at h
  split at h
  · cases h
  · rename_i hnodup
    rw [not_not] at hnodup
    split at h
    · cases h
    · obtain ⟨perQuery, hper, h⟩ := bind_ok.mp h
      obtain ⟨values, hvalues, h⟩ := bind_ok.mp h
      obtain ⟨digest, hdigest, h⟩ := bind_ok.mp h
      cases h
      have hids : List.Forall₂ (fun e q => e.queryId = q) perQuery (queryIds.insertionSort (· ≤ ·)) :=
        (mapM_forall₂.mp hper).flip.imp fun _ _ he => (recallFor_scores he).1
      refine ⟨⟨?_, (List.perm_insertionSort _ _).nodup_iff.mpr hnodup, pairwise_sortedQueries queryIds, ?_,
        values, mapM_ok.mp hvalues, rfl⟩, mapError_ok.mp hdigest⟩
      · rw [← List.forall₂_eq_eq_eq, List.forall₂_map_left_iff]
        exact hids
      · intro e he
        obtain ⟨q, -, hq⟩ := mem_mapM hper he
        rw [(recallFor_scores hq).1]
        exact (recallFor_scores hq).2

/-- The queries a key scores. -/
def scoredIds (qrels : Qrels) (qs : List String) : List String := qs.filter fun q => statusOf qrels q = .scored

def unscoredIds (qrels : Qrels) (qs : List String) : List String := qs.filter fun q => statusOf qrels q ≠ .scored

section
variable {qrels : Qrels} {qs : List String} {r : RecallReport} (h : ReportOf qrels qs r)
include h

theorem ReportOf.distinct : ((r.perQuery.map fun e => (e.queryId, e)).map Prod.fst).Nodup := by
  have hids : (r.perQuery.map fun e => (e.queryId, e)).map Prod.fst = qs := by
    rw [List.map_map]
    exact h.ids
  rw [hids]
  exact h.nodup

theorem ReportOf.get? {e : QueryRecall} (he : e ∈ r.perQuery) : r.byQuery.get? e.queryId = some e :=
  (Dict.get?_ofPairs_of_nodup h.distinct).mpr (List.mem_map.mpr ⟨e, he, rfl⟩)

theorem ReportOf.keys_eq : r.byQuery.keys = qs := by
  unfold RecallReport.byQuery Dict.keys
  rw [Dict.entries_ofPairs_of_nodup h.distinct, List.map_map]
  exact h.ids

theorem ReportOf.taskIds_eq : taskIds r.byQuery = qs := by
  rw [taskIds, h.keys_eq]
  exact h.sorted.insertionSort_eq

/-- Which queries are scored is known from the key. -/
theorem ReportOf.scoredIn_eq {q : String} (hq : q ∈ qs) :
    scoredIn r.byQuery q = decide (statusOf qrels q = .scored) := by
  obtain ⟨e, he, rfl⟩ := List.mem_map.mp (h.ids ▸ hq)
  rw [scoredIn, h.get? he, Option.any_some, QueryRecall.isScored, h.status e he]

theorem ReportOf.filter_ids (scored : Bool) :
    (r.perQuery.filter fun e => e.isScored = scored).map QueryRecall.queryId =
      qs.filter fun q => decide (statusOf qrels q = .scored) = scored := by
  rw [← h.ids, List.filter_map]
  refine congrArg (List.map QueryRecall.queryId) (List.filter_congr fun e he => ?_)
  rw [Function.comp_apply, QueryRecall.isScored, h.status e he]

theorem ReportOf.scoredIds_eq :
    (r.perQuery.filter QueryRecall.isScored).map QueryRecall.queryId = scoredIds qrels qs := by
  simpa [scoredIds] using h.filter_ids true

theorem ReportOf.unscored_eq : r.unscored = unscoredIds qrels qs := by
  simpa [RecallReport.unscored, unscoredIds] using h.filter_ids false

theorem ReportOf.values_ok {values : List ℚ}
    (hvalues : (r.perQuery.filter QueryRecall.isScored).map QueryRecall.value = values.map .ok) :
    (scoredIds qrels qs).mapM (valueIn r.byQuery) = .ok values := by
  rw [mapM_ok, ← hvalues, ← h.scoredIds_eq, List.map_map]
  refine List.map_congr_left fun e he => ?_
  rw [Function.comp_apply, valueIn, h.get? (List.mem_filter.mp he).1]
  rfl

end

def pairedOver (qrels : Qrels) (qs : List String) (base treat : List ℚ) : PairedRecall :=
  if scoredIds qrels qs = [] then nothingPaired qs (unscoredIds qrels qs)
  else paired qs (unscoredIds qrels qs) (scoredIds qrels qs) base treat

/-- Reports over the same queries whose keys give them the same statuses are paired over the scored ones. -/
theorem pairTasks_eq {qrels qrels' : Qrels} {qs : List String} {b t : RecallReport} (hb : ReportOf qrels qs b)
    (ht : ReportOf qrels' qs t) (hstatus : ∀ q, statusOf qrels q = statusOf qrels' q) {base treat : List ℚ}
    (hbase : (b.perQuery.filter QueryRecall.isScored).map QueryRecall.value = base.map .ok)
    (htreat : (t.perQuery.filter QueryRecall.isScored).map QueryRecall.value = treat.map .ok) :
    pairTasks b.byQuery t.byQuery = .ok (pairedOver qrels qs base treat) := by
  have hcomparable : comparableIds b.byQuery t.byQuery = scoredIds qrels qs := by
    rw [comparableIds, hb.taskIds_eq]
    refine List.filter_congr fun q hq => ?_
    rw [hb.scoredIn_eq hq, ht.scoredIn_eq hq, hstatus q]
    simp
  have hexcluded : excludedIds b.byQuery t.byQuery = unscoredIds qrels qs := by
    rw [excludedIds, hb.taskIds_eq, hcomparable]
    refine List.filter_congr fun q hq => ?_
    simp [scoredIds, hq]
  have hsame : scoredIds qrels' qs = scoredIds qrels qs := List.filter_congr fun q _ => by rw [hstatus q]
  have hbaseIn := hb.values_ok hbase
  have htreatIn := ht.values_ok htreat
  rw [hsame] at htreatIn
  unfold pairTasks pairedOver
  rw [hcomparable, hexcluded, hb.taskIds_eq, hbaseIn, htreatIn]
  by_cases hnone : scoredIds qrels qs = []
  · rw [if_pos hnone, if_pos hnone]
  · rw [if_neg hnone, if_neg hnone]
    rfl

/-! ## The two arms -/

/-- The same pairs read the other way round. -/
structure Exchanged (p p' : PairedRecall) : Prop where
  macros : p'.baselineMacro = p.treatmentMacro ∧ p'.treatmentMacro = p.baselineMacro
  difference : p'.meanDifference = p.meanDifference.map fun x => -x
  incidents : p'.nIncidents = p.nImprovements ∧ p'.incidentRate = p.improvementRate
  improvements : p'.nImprovements = p.nIncidents ∧ p'.improvementRate = p.incidentRate
  tasks : p'.nPairs = p.nPairs ∧ p'.nComparable = p.nComparable ∧ p'.excludedQueryIds = p.excludedQueryIds

theorem paired_exchanged (ids excluded comparable : List String) (base treat : List ℚ) :
    Exchanged (paired ids excluded comparable base treat) (paired ids excluded comparable treat base) := by
  have hzip : comparable.zip (treat.zip base) = (comparable.zip (base.zip treat)).map (Prod.map id Prod.swap) := by
    rw [← List.zip_swap base treat, List.zip_map_right]
  have hincidents : ∀ xs ys : List ℚ,
      ((comparable.zip (xs.zip ys)).filter fun e => e.2.2 < e.2.1).length =
        (comparable.zip (xs.zip ys)).countP fun e => e.2.2 < e.2.1 := fun _ _ => List.countP_eq_length_filter.symm
  have hswap : ((comparable.zip (treat.zip base)).countP fun e => e.2.2 < e.2.1) =
      (comparable.zip (base.zip treat)).countP fun e => e.2.1 < e.2.2 := by
    rw [hzip, List.countP_map]
    rfl
  have hswap' : ((comparable.zip (treat.zip base)).countP fun e => e.2.1 < e.2.2) =
      (comparable.zip (base.zip treat)).countP fun e => e.2.2 < e.2.1 := by
    rw [hzip, List.countP_map]
    rfl
  constructor <;> simp [paired, hincidents, hswap, hswap']

theorem nothingPaired_exchanged (ids excluded : List String) :
    Exchanged (nothingPaired ids excluded) (nothingPaired ids excluded) := by
  constructor <;> simp [nothingPaired]

theorem pairedOver_exchanged (qrels : Qrels) (qs : List String) (base treat : List ℚ) :
    Exchanged (pairedOver qrels qs base treat) (pairedOver qrels qs treat base) := by
  unfold pairedOver
  split
  · exact nothingPaired_exchanged _ _
  · exact paired_exchanged _ _ _ _ _

/-- The averages of a report are those over the scored queries. -/
theorem ReportOf.average_eq {qrels : Qrels} {qs : List String} {r : RecallReport} (h : ReportOf qrels qs r) :
    ∃ values, (r.perQuery.filter QueryRecall.isScored).map QueryRecall.value = values.map .ok ∧
      r.macroRecall = if scoredIds qrels qs = [] then none else some (sumOf values / (scoredIds qrels qs).length) := by
  obtain ⟨values, hvalues, haverage⟩ := h.average
  refine ⟨values, hvalues, ?_⟩
  rw [haverage, ← h.scoredIds_eq, List.length_map]
  simp only [List.map_eq_nil_iff]

/-- What holds of two reports and what was made of pairing them. -/
structure PairLaws (b t : RecallReport) (p : PairedRecall) : Prop where
  baselineMacro : p.baselineMacro = b.macroRecall
  treatmentMacro : p.treatmentMacro = t.macroRecall
  excluded : p.excludedQueryIds = b.unscored ∧ p.excludedQueryIds = t.unscored
  swapped : ∃ p', pairedRecall t b = .ok p' ∧ Exchanged p p'

theorem statusOf_congr {qrels qrels' : Qrels} (h : Qrels.SameJudgements qrels qrels') (q : String) :
    statusOf qrels q = statusOf qrels' q := by
  have hjudged : qrels.isJudged q = qrels'.isJudged q := by
    refine decide_eq_decide.mpr ?_
    rw [Dict.mem_keys_iff, Dict.mem_keys_iff, h.judged]
  unfold statusOf Qrels.relevant?
  rw [hjudged, h.relevant]

theorem SameJudgements.symm {qrels qrels' : Qrels} (h : Qrels.SameJudgements qrels qrels') :
    Qrels.SameJudgements qrels' qrels :=
  ⟨h.kind.symm, fun q => (h.relevant q).symm, fun q => (h.judged q).symm⟩

/-- What is accepted is paired over the queries the key scores, in either order of the arms. -/
theorem pairedRecall_over {qrels qrels' : Qrels} {qs qs' : List String} {b t : RecallReport} {p : PairedRecall}
    (hb : ReportOf qrels qs b) (ht : ReportOf qrels' qs' t)
    (hsame : b.qrelsDigest = t.qrelsDigest → Qrels.SameJudgements qrels qrels') (hp : pairedRecall b t = .ok p) :
    qs = qs' ∧ Qrels.SameJudgements qrels qrels' ∧ pairTasks b.byQuery t.byQuery = .ok p ∧
      pairedRecall t b = pairTasks t.byQuery b.byQuery := by
  unfold pairedRecall at hp ⊢
  split at hp
  · cases hp
  · rename_i hk
    split at hp
    · cases hp
    · rename_i hdigest
      split at hp
      · cases hp
      · rename_i hkeys
        rw [not_not] at hk hdigest hkeys
        rw [if_neg (by simp [hk]), if_neg (by simp [hdigest]), if_neg (by simp [hkeys])]
        refine ⟨?_, hsame hdigest, hp, rfl⟩
        rw [hb.keys_eq, ht.keys_eq] at hkeys
        have hperm := List.perm_of_nodup_nodup_toFinset_eq hb.nodup ht.nodup hkeys
        exact hperm.eq_of_pairwise (fun _ _ _ _ => le_antisymm) hb.sorted ht.sorted

theorem pairLaws {qrels qrels' : Qrels} {qs qs' : List String} {b t : RecallReport} {p : PairedRecall}
    (hb : ReportOf qrels qs b) (ht : ReportOf qrels' qs' t)
    (hsame : b.qrelsDigest = t.qrelsDigest → Qrels.SameJudgements qrels qrels') (hp : pairedRecall b t = .ok p) :
    PairLaws b t p := by
  obtain ⟨rfl, hjudgements, hpair, hswap⟩ := pairedRecall_over hb ht hsame hp
  obtain ⟨base, hbase, hbaverage⟩ := hb.average_eq
  obtain ⟨treat, htreat, htaverage⟩ := ht.average_eq
  have hstatus := statusOf_congr hjudgements
  have hscored : scoredIds qrels' qs = scoredIds qrels qs := List.filter_congr fun q _ => by rw [hstatus q]
  have hunscored : unscoredIds qrels' qs = unscoredIds qrels qs := List.filter_congr fun q _ => by rw [hstatus q]
  rw [pairTasks_eq hb ht hstatus hbase htreat] at hpair
  have hp' := pairTasks_eq ht hb (fun q => (hstatus q).symm) htreat hbase
  have hover : pairedOver qrels' qs treat base = pairedOver qrels qs treat base := by
    rw [pairedOver, pairedOver, hscored, hunscored]
  rw [hover] at hp'
  rw [hscored] at htaverage
  rw [← Except.ok.inj hpair]
  refine ⟨?_, ?_, ?_, _, hswap.trans hp', pairedOver_exchanged qrels qs base treat⟩
  · rw [hbaverage, pairedOver]
    split <;> rfl
  · rw [htaverage, pairedOver]
    split <;> rfl
  · rw [hb.unscored_eq, ht.unscored_eq, hunscored, pairedOver]
    split <;> exact ⟨rfl, rfl⟩

/-- The recall of a query grows with the window, does not see a docid again and splits the relevant set; and where
    the hash keeps two keys apart, two reports that are paired average what they averaged alone, leave out the queries
    neither scored, and read the other way round with the arms exchanged. -/
theorem recall_composes (sha256Hex : ByteArray → String) (floats : FloatText) :
    (∀ qrels, RecallLaws qrels) ∧
      ∀ queryIds queryIds' retrieved retrieved' qrels qrels' k k' b t p,
        recallOverSplit sha256Hex floats queryIds retrieved qrels k = .ok b →
        recallOverSplit sha256Hex floats queryIds' retrieved' qrels' k' = .ok t →
        Qrels.HashApart sha256Hex floats qrels qrels' → pairedRecall b t = .ok p → PairLaws b t p := by
  refine ⟨recallLaws, ?_⟩
  intro queryIds queryIds' retrieved retrieved' qrels qrels' k k' b t p hb ht hapart hp
  obtain ⟨hreport, hdigest⟩ := recallOverSplit_ok hb
  obtain ⟨hreport', hdigest'⟩ := recallOverSplit_ok ht
  refine pairLaws hreport hreport' (fun hsame => (Qrels.digest_eq_iff hapart).mp ?_) hp
  rw [hdigest, hdigest', hsame]

/-! ## Two arms on two queries -/

def sampleKey : Qrels where
  kind := .gold
  sourceName := "qrels"
  sourceSha256 := ""
  nRows := 2
  relevantByQuery := Dict.ofPairs [("q1", {"d1"}), ("q2", ∅)]
  judgedByQuery := Dict.ofPairs [("q1", {"d1"}), ("q2", {"d2"})]

/-- The digest of the sample key's content. -/
def sampleKeySha : ByteArray → String := fun _ => "a03d425a9f09e70c2dd3f4d3379bcf1a0389dd1e88246cc1452d8610616eb636"

def irrelevantPart : QueryRecall := ⟨"q2", .noRelevant, none, 0, 0, 0, some 5, [], []⟩

def foundReport : RecallReport where
  qrelsKind := "gold"
  qrelsSource := "qrels"
  qrelsSha256 := ""
  qrelsDigest := sampleKeySha ByteArray.empty
  k := some 5
  perQuery := [⟨"q1", .scored, some 1, 1, 1, 1, some 5, ["d1"], []⟩, irrelevantPart]
  nQueries := 2
  nScored := 1
  nNoRelevant := 1
  nNotJudged := 0
  macroRecall := some 1
  microRecall := some 1

def missedReport : RecallReport where
  qrelsKind := "gold"
  qrelsSource := "qrels"
  qrelsSha256 := ""
  qrelsDigest := sampleKeySha ByteArray.empty
  k := some 5
  perQuery := [⟨"q1", .scored, some 0, 1, 0, 1, some 5, [], ["d1"]⟩, irrelevantPart]
  nQueries := 2
  nScored := 1
  nNoRelevant := 1
  nNotJudged := 0
  macroRecall := some 0
  microRecall := some 0

theorem recall_composes_regression :
    PairLaws foundReport missedReport
      ⟨2, 1, 1, some 1, some 0, some (-1), 1, some 1, 0, some 0, ["q1"], ["q2"]⟩ := by
  have hfound : recallOverSplit sampleKeySha .empty ["q2", "q1"] (Dict.ofPairs [("q1", ["d1", "d1"]), ("q2", [])])
      sampleKey (some 5) = .ok foundReport := by decide +kernel
  have hmissed : recallOverSplit sampleKeySha .empty ["q1", "q2"] (Dict.ofPairs [("q1", ["d3"]), ("q2", [])])
      sampleKey (some 5) = .ok missedReport := by decide +kernel
  have hapart : Qrels.HashApart sampleKeySha .empty sampleKey sampleKey := fun _ _ h h' _ =>
    Except.ok.inj (h.symm.trans h')
  exact (recall_composes sampleKeySha .empty).2 _ _ _ _ _ _ _ _ _ _ _ hfound hmissed hapart (by decide +kernel)

end Shapeflow.AnswerKey
