import Mathlib.Data.Finset.Sort
import Shapeflow.Fallible
import Shapeflow.JsonDocument
import Shapeflow.SortedLists

set_option autoImplicit false

/-!
# The answer key

Judgements are grouped by query, every graded docid as judged and those of a
positive grade as relevant. The digest is over the judgements alone: it tells
keys apart exactly as their judgements differ.
-/
namespace Shapeflow.AnswerKey
open Py Canonical Utf8

inductive QrelKind where
  | gold
  | evidence
  deriving DecidableEq, Repr

def QrelKind.value : QrelKind → String
  | gold => "gold"
  | evidence => "evidence"

structure Qrels where
  kind : QrelKind
  sourceName : String
  sourceSha256 : String
  nRows : ℕ
  relevantByQuery : Dict String (Finset String)
  judgedByQuery : Dict String (Finset String)
  deriving DecidableEq

inductive QrelsError where
  | judgedTwice (qid docid : String) (grade other : ℤ)
  | noJudgements
  | fieldCount (lineno found : ℕ)
  | iterationMarker (lineno : ℕ) (marker : List Char)
  | notAnInteger (lineno : ℕ) (text : List Char)
  | emptyId (lineno : ℕ) (line : List Char)
  | notPrintable (lineno : ℕ) (name : String) (token : List Char)
  deriving DecidableEq, Repr

/-- `(qid, docid, relevance)` -/
structure Judgement where
  qid : String
  docid : String
  rel : ℤ
  deriving DecidableEq

/-- The pair a row judges. -/
def Judgement.pair (r : Judgement) : String × String := (r.qid, r.docid)

/-! ## Grouping -/

/-- The maps `from_rows` builds. -/
structure Grouping where
  relevant : Dict String (Finset String)
  judged : Dict String (Finset String)
  seen : Dict (String × String) ℤ
  nRows : ℕ

def Grouping.start : Grouping := ⟨.empty, .empty, .empty, 0⟩

/-- `groups.setdefault(qid, set()).add(docid)` -/
def file (groups : Dict String (Finset String)) (qid docid : String) : Dict String (Finset String) :=
  groups.update qid ∅ fun docids => insert docid docids

def Grouping.add (g : Grouping) (row : Judgement) : Except QrelsError Grouping :=
  match g.seen.get? (row.qid, row.docid) with
  | some grade => .error (.judgedTwice row.qid row.docid grade row.rel)
  | none => .ok {
      relevant := if 0 < row.rel then file g.relevant row.qid row.docid else g.relevant
      judged := file g.judged row.qid row.docid
      seen := g.seen.set (row.qid, row.docid) row.rel
      nRows := g.nRows + 1 }

/-- `sorted(groups.items())`; the queries differ. -/
def byQuery (groups : Dict String (Finset String)) : List (String × Finset String) :=
  groups.entries.insertionSort fun a b => a.1 ≤ b.1

/-- `{q: frozenset(d) for q, d in sorted(groups.items())}` -/
def sortedGroups (groups : Dict String (Finset String)) : Dict String (Finset String) := Dict.ofPairs (byQuery groups)

/-- Every judged query is present, also one without a positive grade. -/
def withJudged (relevant judged : Dict String (Finset String)) : Dict String (Finset String) :=
  judged.keys.foldl (fun d qid => d.setDefault qid ∅) relevant

def Qrels.fromRows (rows : List Judgement) (kind : QrelKind) (sourceName sourceSha256 : String) :
    Except QrelsError Qrels := do
  let g ← rows.foldlM Grouping.add Grouping.start
  if g.nRows = 0 then .error .noJudgements
  else .ok {
    kind := kind
    sourceName := sourceName
    sourceSha256 := sourceSha256
    nRows := g.nRows
    relevantByQuery := sortedGroups (withJudged g.relevant g.judged)
    judgedByQuery := sortedGroups g.judged }

namespace Qrels
variable (k : Qrels)

def isJudged (queryId : String) : Bool := queryId ∈ k.judgedByQuery.keys

/-- The relevant docids; `none` is the `UnjudgedQuery` raised. -/
def relevant? (queryId : String) : Option (Finset String) := k.relevantByQuery.get? queryId

/-! ## The digest -/

/-- `sorted(docids)` -/
def docidList (docids : Finset String) : Json := .arr ((docids.sort (· ≤ ·)).map fun d => .str (pyStr d))

def groupsContent (groups : Dict String (Finset String)) : Json :=
  document ((byQuery groups).map fun e => (e.1, docidList e.2))

def content : Json :=
  document [("kind", .str (pyStr k.kind.value)), ("relevant", groupsContent k.relevantByQuery),
    ("judged", groupsContent k.judgedByQuery)]

/-- What is hashed for the digest. -/
def canonicalContent (floats : FloatText) : Except CanonicalFailure ByteArray := canonicalJson floats (ofJson k.content)

def digest (sha256Hex : ByteArray → String) (floats : FloatText) : Except CanonicalFailure String :=
  (k.canonicalContent floats).map sha256Hex

end Qrels

/-! ## What the groups hold -/

def judgedDocids (rows : List Judgement) (qid : String) : Finset String :=
  ((rows.filter fun r => r.qid = qid).map (·.docid)).toFinset

def relevantDocids (rows : List Judgement) (qid : String) : Finset String :=
  ((rows.filter fun r => r.qid = qid ∧ 0 < r.rel).map (·.docid)).toFinset

theorem mem_judgedDocids {rows : List Judgement} {q d : String} :
    d ∈ judgedDocids rows q ↔ ∃ r ∈ rows, r.qid = q ∧ r.docid = d := by
  simp [judgedDocids, and_assoc]

theorem mem_relevantDocids {rows : List Judgement} {q d : String} :
    d ∈ relevantDocids rows q ↔ ∃ r ∈ rows, (r.qid = q ∧ 0 < r.rel) ∧ r.docid = d := by
  simp [relevantDocids, and_assoc]

theorem get?_file (groups : Dict String (Finset String)) (qid docid q : String) :
    (file groups qid docid).get? q =
      if q = qid then some (insert docid ((groups.get? qid).getD ∅)) else groups.get? q :=
  Dict.get?_update groups qid q ∅ _

/-- What the rows read so far have left in the maps. -/
structure Grouped (rows : List Judgement) (g : Grouping) : Prop where
  count : g.nRows = rows.length
  seen : ∀ p, p ∈ g.seen.keys ↔ p ∈ rows.map fun r => (r.qid, r.docid)
  judged : ∀ q, g.judged.get? q = if ∃ r ∈ rows, r.qid = q then some (judgedDocids rows q) else none
  relevant : ∀ q, g.relevant.get? q = if ∃ r ∈ rows, r.qid = q ∧ 0 < r.rel then some (relevantDocids rows q) else none

theorem grouped_start : Grouped [] Grouping.start :=
  ⟨rfl, fun _ => Iff.rfl, fun _ => by simp [Grouping.start], fun _ => by simp [Grouping.start]⟩

theorem judgedDocids_append (rows : List Judgement) (r : Judgement) (q : String) :
    judgedDocids (rows ++ [r]) q = if q = r.qid then insert r.docid (judgedDocids rows q) else judgedDocids rows q := by
  unfold judgedDocids
  split
  · rename_i hq
    subst hq
    ext d
    simp
  · rename_i hq
    simp [Ne.symm hq]

theorem relevantDocids_append (rows : List Judgement) (r : Judgement) (q : String) :
    relevantDocids (rows ++ [r]) q =
      if q = r.qid ∧ 0 < r.rel then insert r.docid (relevantDocids rows q) else relevantDocids rows q := by
  unfold relevantDocids
  split
  · rename_i hq
    obtain ⟨rfl, hrel⟩ := hq
    ext d
    simp [hrel]
  · rename_i hq
    have hno : ¬ (r.qid = q ∧ 0 < r.rel) := fun h => hq ⟨h.1.symm, h.2⟩
    simp [hno]

theorem judgedDocids_of_none {rows : List Judgement} {q : String} (h : ¬ ∃ r ∈ rows, r.qid = q) :
    judgedDocids rows q = ∅ := by
  unfold judgedDocids
  rw [List.filter_eq_nil_iff.mpr fun r hr => by simpa using fun hq => h ⟨r, hr, hq⟩]
  rfl

theorem relevantDocids_of_none {rows : List Judgement} {q : String} (h : ¬ ∃ r ∈ rows, r.qid = q ∧ 0 < r.rel) :
    relevantDocids rows q = ∅ := by
  unfold relevantDocids
  rw [List.filter_eq_nil_iff.mpr fun r hr => by simpa using fun hq hrel => h ⟨r, hr, hq, hrel⟩]
  rfl

theorem add_error {rows : List Judgement} {g : Grouping} {r : Judgement} (hg : Grouped rows g)
    (hr : r.pair ∈ rows.map Judgement.pair) : ∃ e, g.add r = .error e := by
  obtain ⟨grade, hgrade⟩ := Dict.mem_keys_iff.mp ((hg.seen r.pair).mpr hr)
  refine ⟨.judgedTwice r.qid r.docid grade r.rel, ?_⟩
  unfold Grouping.add
  rw [show g.seen.get? (r.qid, r.docid) = some grade from hgrade]

/-- A row that repeats no pair is filed. -/
theorem grouped_add {rows : List Judgement} {g : Grouping} {r : Judgement} (hg : Grouped rows g)
    (hr : r.pair ∉ rows.map Judgement.pair) : ∃ g', g.add r = .ok g' ∧ Grouped (rows ++ [r]) g' := by
  have hnew : g.seen.get? (r.qid, r.docid) = none := Dict.get?_eq_none_iff.mpr fun h => hr ((hg.seen _).mp h)
  unfold Grouping.add
  rw [hnew]
  refine ⟨_, rfl, ?_, ?_, ?_, ?_⟩
  · simp [hg.count]
  · intro p
    change p ∈ (g.seen.set (r.qid, r.docid) r.rel).keys ↔ _
    rw [Dict.mem_keys_set, hg.seen p, List.map_append, List.mem_append, List.map_singleton, List.mem_singleton]
  · intro q
    change (file g.judged r.qid r.docid).get? q = _
    rw [get?_file, judgedDocids_append, hg.judged, hg.judged]
    by_cases hq : q = r.qid
    · subst hq
      by_cases hearlier : ∃ r' ∈ rows, r'.qid = r.qid
      · simp [hearlier]
      · simp [hearlier, judgedDocids_of_none hearlier]
    · have hsame : (∃ r' ∈ rows ++ [r], r'.qid = q) ↔ ∃ r' ∈ rows, r'.qid = q := by simp [Ne.symm hq]
      simp only [if_neg hq, hsame]
  · intro q
    change (if 0 < r.rel then file g.relevant r.qid r.docid else g.relevant).get? q = _
    rw [relevantDocids_append]
    by_cases hq : q = r.qid ∧ 0 < r.rel
    · obtain ⟨rfl, hrel⟩ := hq
      rw [if_pos hrel, get?_file, hg.relevant]
      by_cases hearlier : ∃ r' ∈ rows, r'.qid = r.qid ∧ 0 < r'.rel
      · simp [hearlier, hrel]
      · simp [hearlier, hrel, relevantDocids_of_none hearlier]
    · have hsame : (∃ r' ∈ rows ++ [r], r'.qid = q ∧ 0 < r'.rel) ↔ ∃ r' ∈ rows, r'.qid = q ∧ 0 < r'.rel := by
        have hno : ¬ (r.qid = q ∧ 0 < r.rel) := fun h => hq ⟨h.1.symm, h.2⟩
        simp [or_and_right, exists_or, hno]
      rw [if_neg hq]
      simp only [hsame]
      rw [← hg.relevant q]
      split
      · rename_i hrel
        rw [get?_file, if_neg fun h => hq ⟨h, hrel⟩]
      · rfl

/-- The rows are filed one after the other, up to the first pair judged before. -/
theorem grouped_foldlM (rows : List Judgement) :
    (∃ g, rows.foldlM Grouping.add Grouping.start = .ok g ∧ Grouped rows g ∧ (rows.map Judgement.pair).Nodup) ∨
      ((∃ e, rows.foldlM Grouping.add Grouping.start = .error e) ∧ ¬ (rows.map Judgement.pair).Nodup) := by
  induction rows using List.reverseRecOn with
  | nil => exact .inl ⟨Grouping.start, rfl, grouped_start, List.nodup_nil⟩
  | append_singleton rows r ih =>
    rw [List.foldlM_append, List.map_append, List.map_singleton]
    obtain ⟨g, hg, hgrouped, hnodup⟩ | ⟨⟨e, he⟩, hdup⟩ := ih
    · rw [hg]
      by_cases hr : r.pair ∈ rows.map Judgement.pair
      · obtain ⟨e, he⟩ := add_error hgrouped hr
        refine .inr ⟨⟨e, ?_⟩, fun h => (List.nodup_append.mp h).2.2 _ hr _ (List.mem_singleton_self _) rfl⟩
        change (g.add r >>= fun g' => pure g') = _
        rw [he]
        rfl
      · obtain ⟨g', hg', hgrouped'⟩ := grouped_add hgrouped hr
        refine .inl ⟨g', ?_, hgrouped', List.nodup_append.mpr ⟨hnodup, List.nodup_singleton _, ?_⟩⟩
        · change (g.add r >>= fun g' => pure g') = _
          rw [hg']
          rfl
        · rintro p hp q hq rfl
          exact hr (List.mem_singleton.mp hq ▸ hp)
    · rw [he]
      exact .inr ⟨⟨e, rfl⟩, fun h => hdup (List.nodup_append.mp h).1⟩

/-! ## The finished maps -/

theorem byQuery_perm (groups : Dict String (Finset String)) : (byQuery groups).Perm groups.entries :=
  List.perm_insertionSort _ _

theorem byQuery_nodup (groups : Dict String (Finset String)) : ((byQuery groups).map Prod.fst).Nodup :=
  ((byQuery_perm groups).map Prod.fst).nodup_iff.mpr groups.distinct

theorem mem_byQuery {groups : Dict String (Finset String)} {q : String} {docids : Finset String} :
    (q, docids) ∈ byQuery groups ↔ groups.get? q = some docids :=
  (byQuery_perm groups).mem_iff.trans Dict.get?_eq_some_iff.symm

theorem get?_sortedGroups (groups : Dict String (Finset String)) (q : String) :
    (sortedGroups groups).get? q = groups.get? q := by
  refine Option.ext fun docids => ?_
  exact (Dict.get?_ofPairs_of_nodup (byQuery_nodup groups)).trans mem_byQuery

theorem get?_withJudged (relevant judged : Dict String (Finset String)) (q : String) :
    (withJudged relevant judged).get? q = (relevant.get? q).or (if q ∈ judged.keys then some ∅ else none) := by
  unfold withJudged
  generalize judged.keys = qids
  induction qids generalizing relevant with
  | nil => simp
  | cons qid qids ih =>
    rw [List.foldl_cons, ih, Dict.get?_setDefault]
    cases relevant.get? q with
    | some docids => rfl
    | none =>
      by_cases hq : q = qid
      · simp [hq]
      · simp [hq]

/-- A key built from rows: every pair judged once, the sets those of the rows. -/
structure BuiltFrom (rows : List Judgement) (k : Qrels) : Prop where
  nonempty : rows ≠ []
  once : (rows.map Judgement.pair).Nodup
  count : k.nRows = rows.length
  judged : ∀ q, k.judgedByQuery.get? q = if ∃ r ∈ rows, r.qid = q then some (judgedDocids rows q) else none
  relevant : ∀ q, k.relevantByQuery.get? q = if ∃ r ∈ rows, r.qid = q then some (relevantDocids rows q) else none

theorem fromRows_ok (rows : List Judgement) (kind : QrelKind) (sourceName sourceSha256 : String) (hne : rows ≠ [])
    (honce : (rows.map Judgement.pair).Nodup) :
    ∃ k, Qrels.fromRows rows kind sourceName sourceSha256 = .ok k ∧ BuiltFrom rows k ∧ k.kind = kind := by
  obtain ⟨g, hg, hgrouped, -⟩ | ⟨-, hdup⟩ := grouped_foldlM rows
  · have hcount : g.nRows ≠ 0 := by
      rw [hgrouped.count]
      simpa using hne
    unfold Qrels.fromRows
    rw [hg, Fallible.ok_bind, if_neg hcount]
    refine ⟨_, rfl, ⟨hne, honce, hgrouped.count, ?_, ?_⟩, rfl⟩
    · intro q
      exact (get?_sortedGroups g.judged q).trans (hgrouped.judged q)
    · intro q
      change (sortedGroups (withJudged g.relevant g.judged)).get? q = _
      have hkeys : q ∈ g.judged.keys ↔ ∃ r ∈ rows, r.qid = q := by
        rw [Dict.mem_keys_iff]
        simp [hgrouped.judged]
      rw [get?_sortedGroups, get?_withJudged, hgrouped.relevant]
      by_cases hpositive : ∃ r ∈ rows, r.qid = q ∧ 0 < r.rel
      · have hjudged : ∃ r ∈ rows, r.qid = q := hpositive.imp fun r h => ⟨h.1, h.2.1⟩
        rw [if_pos hpositive, if_pos hjudged]
        rfl
      · rw [if_neg hpositive, relevantDocids_of_none hpositive, Option.none_or]
        simp only [hkeys]
  · exact absurd honce hdup

/-- Rows are accepted when there is one and no pair is judged twice. -/
theorem fromRows_accepts (rows : List Judgement) (kind : QrelKind) (sourceName sourceSha256 : String) :
    (∃ k, Qrels.fromRows rows kind sourceName sourceSha256 = .ok k) ↔
      rows ≠ [] ∧ (rows.map Judgement.pair).Nodup := by
  constructor
  · rintro ⟨k, hk⟩
    obtain ⟨g, hg, hcount⟩ := Fallible.bind_ok.mp hk
    obtain ⟨g', -, hgrouped, honce⟩ | ⟨⟨e, he⟩, -⟩ := grouped_foldlM rows
    · refine ⟨fun hempty => ?_, honce⟩
      subst hempty
      cases hg
      cases hcount
    · rw [he] at hg
      cases hg
  · rintro ⟨hne, honce⟩
    obtain ⟨k, hk, -, -⟩ := fromRows_ok rows kind sourceName sourceSha256 hne honce
    exact ⟨k, hk⟩

theorem fromRows_spec {rows : List Judgement} {kind : QrelKind} {sourceName sourceSha256 : String} {k : Qrels}
    (h : Qrels.fromRows rows kind sourceName sourceSha256 = .ok k) : BuiltFrom rows k ∧ k.kind = kind := by
  obtain ⟨hne, honce⟩ := (fromRows_accepts rows kind sourceName sourceSha256).mp ⟨k, h⟩
  obtain ⟨k', hk', hbuilt, hkind⟩ := fromRows_ok rows kind sourceName sourceSha256 hne honce
  rw [h] at hk'
  cases hk'
  exact ⟨hbuilt, hkind⟩

/-! ## Keys told apart by their digest -/

theorem pairwise_byQuery (groups : Dict String (Finset String)) :
    (byQuery groups).Pairwise fun a b => a.1 ≤ b.1 :=
  SortedLists.pairwise_insertionSort_key Prod.fst groups.entries

/-- Equal groups are equal as items, whatever the order they were made in. -/
theorem byQuery_congr {groups groups' : Dict String (Finset String)} (h : ∀ q, groups.get? q = groups'.get? q) :
    byQuery groups = byQuery groups' := by
  have hperm : (byQuery groups).Perm (byQuery groups') := by
    refine (List.perm_ext_iff_of_nodup (byQuery_nodup groups).of_map (byQuery_nodup groups').of_map).mpr ?_
    rintro ⟨q, docids⟩
    rw [mem_byQuery, mem_byQuery, h]
  refine List.Perm.eq_of_pairwise ?_ (pairwise_byQuery groups) (pairwise_byQuery groups') hperm
  intro a b ha hb hab hba
  exact List.inj_on_of_nodup_map (byQuery_nodup groups) ha (hperm.mem_iff.mpr hb) (le_antisymm hab hba)

namespace Qrels

theorem docidList_injective : Function.Injective docidList := by
  intro s t h
  have hmap : ∀ docids : Finset String, docidList docids =
      .arr ((docids.sort (· ≤ ·)).map fun d => .str (pyStr d)) := fun _ => rfl
  rw [hmap, hmap] at h
  have hitem : Function.Injective fun d : String => Json.str (pyStr d) := fun _ _ hd => pyStr_injective (Json.str.inj hd)
  have hsort := List.map_injective_iff.mpr hitem (Json.arr.inj h)
  calc
    s = (s.sort (· ≤ ·)).toFinset := (Finset.sort_toFinset s (· ≤ ·)).symm
    _ = (t.sort (· ≤ ·)).toFinset := congrArg List.toFinset hsort
    _ = t := Finset.sort_toFinset t (· ≤ ·)

theorem sortKeys_docidList (docids : Finset String) : sortKeys (docidList docids) = docidList docids := by
  unfold docidList
  rw [sortKeys_arr, List.map_map]
  rfl

theorem distinct_groups (groups : Dict String (Finset String)) :
    DistinctFields ((byQuery groups).map fun e => (e.1, docidList e.2)) := by
  unfold DistinctFields
  rw [List.map_map]
  exact byQuery_nodup groups

theorem field?_groups (groups : Dict String (Finset String)) (q : String) :
    field? ((byQuery groups).map fun e => (e.1, docidList e.2)) q = (groups.get? q).map docidList := by
  unfold field?
  rw [List.find?_map, Option.map_map]
  change ((byQuery groups).find? fun e => e.1 = q).map (docidList ∘ Prod.snd) = _
  cases hfind : (byQuery groups).find? fun e => e.1 = q with
  | none =>
    have hnone : groups.get? q = none := by
      refine Option.eq_none_iff_forall_ne_some.mpr fun docids hdocids => ?_
      simpa using List.find?_eq_none.mp hfind (q, docids) (mem_byQuery.mpr hdocids)
    rw [hnone]
    rfl
  | some e =>
    have hq : e.1 = q := by simpa using List.find?_some hfind
    have hget : groups.get? q = some e.2 := mem_byQuery.mp (hq ▸ List.mem_of_find?_eq_some hfind)
    rw [hget]
    rfl

/-- The groups are read off their content. -/
theorem groupsContent_same {groups groups' : Dict String (Finset String)} :
    SameValue (groupsContent groups) (groupsContent groups') ↔ ∀ q, groups.get? q = groups'.get? q := by
  constructor
  · intro h q
    have hmember : ∀ g : Dict String (Finset String),
        (sortKeys (groupsContent g)).item q = ((g.get? q).map docidList).elim (.error .keyError) .ok := by
      intro g
      rw [groupsContent, item_sortKeys (distinct_groups g), field?_groups]
      cases g.get? q with
      | none => rfl
      | some docids =>
        change Except.ok (sortKeys (docidList docids)) = _
        rw [sortKeys_docidList]
        rfl
    have hitem := congrArg (Json.item · q) (show sortKeys (groupsContent groups) = sortKeys (groupsContent groups') from h)
    simp only [hmember] at hitem
    cases hleft : groups.get? q with
    | none =>
      cases hright : groups'.get? q with
      | none => rfl
      | some docids =>
        rw [hleft, hright] at hitem
        cases hitem
    | some docids =>
      cases hright : groups'.get? q with
      | none =>
        rw [hleft, hright] at hitem
        cases hitem
      | some docids' =>
        rw [hleft, hright] at hitem
        rw [docidList_injective (Except.ok.inj hitem)]
  · intro h
    unfold groupsContent
    rw [byQuery_congr h]
    rfl

theorem admitted_groups (floats : FloatText) (groups : Dict String (Finset String)) :
    Admitted floats (groupsContent groups) := by
  refine admitted_document (distinct_groups groups) fun e he => ?_
  obtain ⟨e, -, rfl⟩ := List.mem_map.mp he
  refine admittedItems_iff.mpr fun v hv => ?_
  obtain ⟨d, -, rfl⟩ := List.mem_map.mp hv
  exact admitted_text floats d

theorem distinct_content (k : Qrels) : DistinctFields [("kind", .str (pyStr k.kind.value)),
    ("relevant", groupsContent k.relevantByQuery), ("judged", groupsContent k.judgedByQuery)] := by
  simp [DistinctFields]

theorem admitted_content (floats : FloatText) (k : Qrels) : Admitted floats k.content := by
  refine admitted_document k.distinct_content ?_
  simp only [List.forall_mem_cons, List.not_mem_nil, false_implies, implies_true, and_true]
  exact ⟨admitted_text floats _, admitted_groups floats _, admitted_groups floats _⟩

/-- Every answer key has a digest. -/
theorem digest_ok (sha256Hex : ByteArray → String) (floats : FloatText) (k : Qrels) :
    k.digest sha256Hex floats = .ok (sha256Hex (utf8 (canonicalText floats k.content))) := by
  unfold digest canonicalContent
  rw [canonicalJson_admitted (admitted_content floats k)]
  rfl

theorem kind_value_injective : Function.Injective QrelKind.value := by
  intro a b h
  cases a <;> cases b <;> first | rfl | simp [QrelKind.value] at h

/-- Two keys hold the same judgements: of the same kind, the same docids judged and relevant. -/
structure SameJudgements (k k' : Qrels) : Prop where
  kind : k.kind = k'.kind
  relevant : ∀ q, k.relevantByQuery.get? q = k'.relevantByQuery.get? q
  judged : ∀ q, k.judgedByQuery.get? q = k'.judgedByQuery.get? q

theorem content_same {k k' : Qrels} : SameValue k.content k'.content ↔ SameJudgements k k' := by
  constructor
  · intro h
    have hitem : ∀ key, (sortKeys k.content).item key = (sortKeys k'.content).item key := fun key =>
      congrArg (Json.item · key) (show sortKeys k.content = sortKeys k'.content from h)
    simp only [content, item_sortKeys (distinct_content _)] at hitem
    refine ⟨?_, groupsContent_same.mp ?_, groupsContent_same.mp ?_⟩
    · have hkind := Except.ok.inj (hitem "kind")
      exact kind_value_injective (pyStr_injective (Json.str.inj hkind))
    · exact Except.ok.inj (hitem "relevant")
    · exact Except.ok.inj (hitem "judged")
  · intro h
    unfold content groupsContent
    rw [h.kind, byQuery_congr h.relevant, byQuery_congr h.judged]
    rfl

/-- The hash keeps the contents of the two keys apart. -/
def HashApart (sha256Hex : ByteArray → String) (floats : FloatText) (k k' : Qrels) : Prop :=
  ∀ raw raw', k.canonicalContent floats = .ok raw → k'.canonicalContent floats = .ok raw' →
    sha256Hex raw = sha256Hex raw' → raw = raw'

/-- The same judgements have one text. -/
theorem canonicalContent_congr {k k' : Qrels} (floats : FloatText) (h : SameJudgements k k') :
    k.canonicalContent floats = k'.canonicalContent floats :=
  (canonicalJson_sameValue (admitted_content floats k) (content_same.mpr h)).2.symm

theorem digest_eq_iff {sha256Hex : ByteArray → String} {floats : FloatText} {k k' : Qrels}
    (h : HashApart sha256Hex floats k k') :
    k.digest sha256Hex floats = k'.digest sha256Hex floats ↔ SameJudgements k k' := by
  have hk := admitted_content floats k
  have hk' := admitted_content floats k'
  constructor
  · intro heq
    rw [digest_ok, digest_ok] at heq
    have hraw := h _ _ (canonicalJson_admitted hk) (canonicalJson_admitted hk') (Except.ok.inj heq)
    exact content_same.mp (sameValue_of_text hk hk' (utf8_injective hraw))
  · intro hsame
    unfold digest
    rw [canonicalContent_congr floats hsame]

end Qrels

end Shapeflow.AnswerKey
