import Mathlib.Algebra.Order.Ring.Unbundled.Rat
import Mathlib.Data.List.GetD
import Mathlib.Data.List.Sort
import Mathlib.Data.Prod.Lex
import Mathlib.Data.String.Basic
import Mathlib.Logic.Equiv.Basic
import Shapeflow.Fallible
import Shapeflow.SortedLists

set_option autoImplicit false

/-!
# Exact search of the dense index

`DenseIndex.search` sorts the rows by docid when the index is built and stably
by score for a query. The docids are sorted as an array of texts, which keeps no
trailing NUL of any of them.
-/
namespace Shapeflow.DenseSearch

/-! ## Texts of an array -/

def stripNuls : List Char → List Char
  | [] => []
  | c :: cs => if stripNuls cs = [] ∧ c = '\x00' then [] else c :: stripNuls cs

/-- An element of `np.asarray(texts)`: trailing NULs are padding there. -/
def arrayText (s : String) : String := String.ofList (stripNuls s.toList)

/-- `np.argsort` of an array of texts: indices that sort it. -/
structure ArgSort where
  argsort : List String → List ℕ
  perm : ∀ xs, (argsort xs).Perm (List.range xs.length)
  sorted : ∀ xs, ((argsort xs).map fun i => xs.getD i "").Pairwise (· ≤ ·)

/-- `np.argsort(keys, kind="stable")` -/
def stableArgsort (keys : List ℚ) : List ℕ :=
  (List.range keys.length).insertionSort fun i j => toLex (keys.getD i 0, i) ≤ toLex (keys.getD j 0, j)

/-! ## The index -/

/-- A 2-D array. -/
structure Matrix where
  dim : ℕ
  rows : List (List ℚ)
  rectangular : ∀ r ∈ rows, r.length = dim

structure Shard where
  vectors : Matrix
  docids : List String

inductive IndexError where
  | noShards
  | dimensionsDisagree
  | misaligned
  | duplicateDocids
  | queryDimension
  | notNormalised
  | topKNotPositive
  deriving DecidableEq, Repr

structure DenseIndex where
  vectors : Matrix
  docids : List String
  order : List ℕ

structure SearchHit where
  docid : String
  score : ℚ
  rank : ℕ
  deriving DecidableEq, Repr

variable (np : ArgSort)

/-- `DenseIndex.__init__` -/
def DenseIndex.new (vectors : Matrix) (docids : List String) : Except IndexError DenseIndex :=
  if docids.length ≠ vectors.rows.length then .error .misaligned
  else if ¬ docids.Nodup then .error .duplicateDocids
  else .ok ⟨vectors, docids, np.argsort (docids.map arrayText)⟩

/-- `load_index` on the shards in filename order. -/
def loadIndex (shards : List Shard) : Except IndexError DenseIndex :=
  match shards with
  | [] => .error .noShards
  | first :: rest =>
    if h : ∀ s ∈ first :: rest, s.vectors.dim = first.vectors.dim then
      let stacked : Matrix := {
        dim := first.vectors.dim
        rows := (first :: rest).flatMap fun s => s.vectors.rows
        rectangular := fun r hr => by
          obtain ⟨s, hs, hr⟩ := List.mem_flatMap.mp hr
          exact (s.vectors.rectangular r hr).trans (h s hs) }
      DenseIndex.new np stacked ((first :: rest).flatMap (·.docids))
    else .error .dimensionsDisagree

def dot (v q : List ℚ) : ℚ := (List.zipWith (· * ·) v q).foldr (· + ·) 0

/-- `np.isclose(norm, 1.0, atol=1e-3)`, on the square of the norm. -/
def Normalised (q : List ℚ) : Prop :=
  (1 - 101 / 100000) * (1 - 101 / 100000) ≤ dot q q ∧ dot q q ≤ (1 + 101 / 100000) * (1 + 101 / 100000)

instance (q : List ℚ) : Decidable (Normalised q) := inferInstanceAs (Decidable (_ ∧ _))

/-- The rows in the order of the hits: by docid, then stably by falling score. -/
def DenseIndex.candidates (index : DenseIndex) (q : List ℚ) : List ℕ :=
  let scores := index.vectors.rows.map fun v => dot v q
  (stableArgsort (index.order.map fun i => -scores.getD i 0)).map fun p => index.order.getD p 0

def DenseIndex.search (index : DenseIndex) (q : List ℚ) (topK : ℤ) : Except IndexError (List SearchHit) :=
  if q.length ≠ index.vectors.dim then .error .queryDimension
  else if ¬ Normalised q then .error .notNormalised
  else if topK ≤ 0 then .error .topKNotPositive
  else
    let k := min topK.toNat index.vectors.rows.length
    .ok ((((index.candidates q).take k).zipIdx 1).map fun e =>
      ⟨index.docids.getD e.1 "", dot (index.vectors.rows.getD e.1 []) q, e.2⟩)

/-! ## The order of texts -/

theorem lt_of_stripNuls {a b : List Char} (h : stripNuls a < stripNuls b) : a < b := by
  induction a generalizing b with
  | nil =>
    cases b with
    | nil => exact absurd h (List.lt_irrefl _)
    | cons y b => exact List.nil_lt_cons y b
  | cons x a ih =>
    cases b with
    | nil => exact absurd h (List.not_lt_nil _)
    | cons y b =>
      rw [stripNuls, stripNuls] at h
      rw [List.cons_lt_cons_iff]
      split at h
      · rename_i hx
        split at h
        · exact absurd h (List.lt_irrefl _)
        · rename_i hy
          rcases lt_or_eq_of_le (show x ≤ y by rw [hx.2]; exact Nat.zero_le _) with hlt | rfl
          · exact .inl hlt
          · have hb : stripNuls b ≠ [] := fun hb => hy ⟨hb, hx.2⟩
            obtain ⟨c, cs, hcs⟩ := List.exists_cons_of_ne_nil hb
            exact .inr ⟨rfl, ih (by rw [hx.1, hcs]; exact List.nil_lt_cons _ _)⟩
      · split at h
        · exact absurd h (List.not_lt_nil _)
        · exact (List.cons_lt_cons_iff.mp h).imp_right fun h => ⟨h.1, ih h.2⟩

theorem arrayText_mono {s t : String} (h : s ≤ t) : arrayText s ≤ arrayText t := by
  by_contra hlt
  refine absurd h (not_le.mpr (String.lt_iff_toList_lt.mpr (lt_of_stripNuls ?_)))
  have htoList := String.lt_iff_toList_lt.mp (not_le.mp hlt)
  rwa [arrayText, arrayText, String.toList_ofList, String.toList_ofList] at htoList

/-! ## Rows -/

structure Row where
  docid : String
  vector : List ℚ
  deriving DecidableEq

def Shard.rows (s : Shard) : List Row := List.zipWith Row.mk s.docids s.vectors.rows

def hits (q : List ℚ) (rows : List Row) : List SearchHit :=
  (rows.zipIdx 1).map fun e => ⟨e.1.docid, dot e.1.vector q, e.2⟩

/-- Descending score, ascending docid. -/
def rowKey (q : List ℚ) (r : Row) : ℚ ×ₗ String := toLex (-dot r.vector q, r.docid)

def trueOrder (q : List ℚ) (rows : List Row) : List Row := rows.insertionSort fun a b => rowKey q a ≤ rowKey q b

/-- The order the index sorts by: of a docid it sees the text in the array. -/
def arrayKey (q : List ℚ) (r : Row) : ℚ ×ₗ String := toLex (-dot r.vector q, arrayText r.docid)

theorem arrayKey_mono {q : List ℚ} {a b : Row} (h : rowKey q a ≤ rowKey q b) : arrayKey q a ≤ arrayKey q b := by
  rcases Prod.Lex.toLex_le_toLex.mp h with hlt | ⟨heq, hle⟩
  · exact Prod.Lex.toLex_le_toLex.mpr (.inl hlt)
  · exact Prod.Lex.toLex_le_toLex.mpr (.inr ⟨heq, arrayText_mono hle⟩)

theorem arrayKey_eq_iff {q : List ℚ} {a b : Row} :
    arrayKey q a = arrayKey q b ↔ dot a.vector q = dot b.vector q ∧ arrayText a.docid = arrayText b.docid := by
  rw [arrayKey, arrayKey, toLex_inj, Prod.mk.injEq, neg_inj]

theorem trueOrder_perm (q : List ℚ) (rows : List Row) : (trueOrder q rows).Perm rows := List.perm_insertionSort _ _

theorem pairwise_trueOrder (q : List ℚ) (rows : List Row) :
    (trueOrder q rows).Pairwise fun a b => arrayKey q a ≤ arrayKey q b :=
  (SortedLists.pairwise_insertionSort_key (rowKey q) rows).imp arrayKey_mono

/-! ## What a storage returns -/

theorem map_getD_range {α : Type} (xs : List α) (d : α) : (List.range xs.length).map (fun i => xs.getD i d) = xs := by
  refine List.ext_getElem (by simp) fun i hi _ => ?_
  rw [List.getElem_map, List.getElem_range, List.getD_eq_getElem]

theorem stableArgsort_perm (keys : List ℚ) : (stableArgsort keys).Perm (List.range keys.length) :=
  List.perm_insertionSort _ _

/-- An order sorted stably by a key is arranged by the key, equal ones as they stood. -/
theorem stable_pairwise {order : List ℕ} (key : ℕ → ℚ) {R : ℕ → ℕ → Prop} (hR : order.Pairwise R) :
    ((stableArgsort (order.map key)).map fun p => order.getD p 0).Pairwise
      fun i j => key i < key j ∨ key i = key j ∧ R i j := by
  have hperm := stableArgsort_perm (order.map key)
  have hnodup : (stableArgsort (order.map key)).Nodup := hperm.nodup_iff.mpr List.nodup_range
  have hsorted := SortedLists.pairwise_insertionSort_key (fun i => toLex ((order.map key).getD i 0, i))
    (List.range (order.map key).length)
  have hkey : ∀ p (hp : p < order.length), (order.map key).getD p 0 = key order[p] := fun p hp => by
    rw [List.getD_eq_getElem _ _ (by simpa using hp), List.getElem_map]
  refine List.pairwise_map.mpr ((hnodup.and hsorted).imp_of_mem fun {p p'} hp hp' h => ?_)
  have hlt : ∀ {p}, p ∈ stableArgsort (order.map key) → p < order.length := fun {p} hp => by
    simpa using hperm.subset hp
  have hle := h.2
  rw [hkey p (hlt hp), hkey p' (hlt hp')] at hle
  rw [List.getD_eq_getElem _ _ (hlt hp), List.getD_eq_getElem _ _ (hlt hp')]
  rcases Prod.Lex.toLex_le_toLex.mp hle with hless | ⟨heq, hpp⟩
  · exact .inl hless
  · exact .inr ⟨heq, List.pairwise_iff_getElem.mp hR p p' (hlt hp) (hlt hp') (lt_of_le_of_ne hpp h.1)⟩

section Storage
variable (q : List ℚ) (storage : List Row) {dim : ℕ} (hdim : ∀ r ∈ storage, r.vector.length = dim)

/-- The index of stored rows. -/
def indexOf : DenseIndex where
  vectors := {
    dim := dim
    rows := storage.map (·.vector)
    rectangular := fun v hv => by
      obtain ⟨r, hr, rfl⟩ := List.mem_map.mp hv
      exact hdim r hr }
  docids := storage.map (·.docid)
  order := np.argsort (storage.map fun r => arrayText r.docid)

def rowAt (i : ℕ) : Row := storage.getD i ⟨"", []⟩

/-- The rows as the index ranks them. -/
def rankedRows : List Row := ((indexOf np storage hdim).candidates q).map (rowAt storage)

theorem candidates_eq : (indexOf np storage hdim).candidates q =
    (stableArgsort ((np.argsort (storage.map fun r => arrayText r.docid)).map fun i =>
      -dot (rowAt storage i).vector q)).map fun p => (np.argsort (storage.map fun r => arrayText r.docid)).getD p 0 := by
  have hscore : ∀ i, ((storage.map (·.vector)).map fun v => dot v q).getD i 0 = dot (rowAt storage i).vector q := by
    intro i
    rw [List.map_map]
    exact List.getD_map storage ⟨"", []⟩ fun r => dot r.vector q
  simp only [DenseIndex.candidates, indexOf, hscore]

theorem candidates_perm : ((indexOf np storage hdim).candidates q).Perm (List.range storage.length) := by
  have horder := np.perm (storage.map fun r => arrayText r.docid)
  rw [List.length_map] at horder
  rw [candidates_eq]
  refine List.Perm.trans (((stableArgsort_perm _).map _).trans ?_) horder
  rw [List.length_map, map_getD_range]

theorem rankedRows_perm : (rankedRows np q storage hdim).Perm storage := by
  have h := (candidates_perm np q storage hdim).map (rowAt storage)
  rwa [show rowAt storage = fun i => storage.getD i ⟨"", []⟩ from rfl, map_getD_range] at h

theorem pairwise_rankedRows : (rankedRows np q storage hdim).Pairwise fun a b => arrayKey q a ≤ arrayKey q b := by
  have htext : ∀ i, (storage.map fun r => arrayText r.docid).getD i "" = arrayText (rowAt storage i).docid := fun i =>
    List.getD_map storage ⟨"", []⟩ fun r => arrayText r.docid
  have hsorted := np.sorted (storage.map fun r => arrayText r.docid)
  simp only [htext] at hsorted
  have hstable := stable_pairwise (fun i => -dot (rowAt storage i).vector q) (List.pairwise_map.mp hsorted)
  rw [← candidates_eq np q storage hdim] at hstable
  refine List.pairwise_map.mpr (hstable.imp fun h => Prod.Lex.toLex_le_toLex.mpr h)

theorem search_indexOf (hq : q.length = dim) (hnorm : Normalised q) {topK : ℤ} (hk : 0 < topK) :
    (indexOf np storage hdim).search q topK = .ok (hits q ((rankedRows np q storage hdim).take topK.toNat)) := by
  have hlen : (rankedRows np q storage hdim).length = storage.length := (rankedRows_perm np q storage hdim).length_eq
  have hmin : (rankedRows np q storage hdim).take (min topK.toNat storage.length) =
      (rankedRows np q storage hdim).take topK.toNat := by
    rw [← hlen]
    exact List.take_eq_take_min.symm
  have hdimension : ¬ q.length ≠ (indexOf np storage hdim).vectors.dim := not_not.mpr hq
  rw [DenseIndex.search, if_neg hdimension, if_neg (not_not.mpr hnorm), if_neg (not_le.mpr hk)]
  have hrows : (indexOf np storage hdim).vectors.rows.length = storage.length := List.length_map ..
  rw [hrows, ← hmin, rankedRows, ← List.map_take, hits, List.zipIdx_map, List.map_map]
  refine congrArg Except.ok (List.map_congr_left fun e _ => ?_)
  have hdocid : (storage.map (·.docid)).getD e.1 "" = (rowAt storage e.1).docid :=
    List.getD_map storage ⟨"", []⟩ fun r => r.docid
  have hvector : (storage.map (·.vector)).getD e.1 [] = (rowAt storage e.1).vector :=
    List.getD_map storage ⟨"", []⟩ fun r => r.vector
  simp only [indexOf, hdocid, hvector, Function.comp_apply, Prod.map]
  rfl

end Storage

/-! ## Shards -/

theorem Shard.map_docid_rows {s : Shard} (h : s.docids.length = s.vectors.rows.length) :
    s.rows.map (·.docid) = s.docids := by
  refine List.ext_getElem (by simp [Shard.rows, h]) fun i _ _ => ?_
  simp [Shard.rows]

theorem Shard.map_vector_rows {s : Shard} (h : s.docids.length = s.vectors.rows.length) :
    s.rows.map (·.vector) = s.vectors.rows := by
  refine List.ext_getElem (by simp [Shard.rows, h]) fun i _ _ => ?_
  simp [Shard.rows]

theorem flatMap_docids {shards : List Shard} (h : ∀ s ∈ shards, s.docids.length = s.vectors.rows.length) :
    shards.flatMap (·.docids) = (shards.flatMap Shard.rows).map (·.docid) := by
  rw [List.map_flatMap]
  exact List.flatMap_congr fun s hs => (Shard.map_docid_rows (h s hs)).symm

theorem flatMap_vectors {shards : List Shard} (h : ∀ s ∈ shards, s.docids.length = s.vectors.rows.length) :
    (shards.flatMap fun s => s.vectors.rows) = (shards.flatMap Shard.rows).map (·.vector) := by
  rw [List.map_flatMap]
  exact List.flatMap_congr fun s hs => (Shard.map_vector_rows (h s hs)).symm

/-- Loading shards of one dimension with distinct docids stores their rows. -/
theorem loadIndex_rows {dim : ℕ} {shards : List Shard} (hne : shards ≠ [])
    (hshards : ∀ s ∈ shards, s.vectors.dim = dim ∧ s.docids.length = s.vectors.rows.length)
    (hnodup : ((shards.flatMap Shard.rows).map (·.docid)).Nodup) :
    ∃ hdim : ∀ r ∈ shards.flatMap Shard.rows, r.vector.length = dim,
      loadIndex np shards = .ok (indexOf np (shards.flatMap Shard.rows) hdim) := by
  have hdocids := flatMap_docids fun s hs => (hshards s hs).2
  have hvectors := flatMap_vectors fun s hs => (hshards s hs).2
  have hdim : ∀ r ∈ shards.flatMap Shard.rows, r.vector.length = dim := by
    intro r hr
    have hv : r.vector ∈ shards.flatMap fun s => s.vectors.rows := hvectors ▸ List.mem_map_of_mem hr
    obtain ⟨s, hs, hvs⟩ := List.mem_flatMap.mp hv
    exact (s.vectors.rectangular _ hvs).trans (hshards s hs).1
  refine ⟨hdim, ?_⟩
  obtain ⟨first, rest, rfl⟩ := List.exists_cons_of_ne_nil hne
  have hfirst : first.vectors.dim = dim := (hshards first List.mem_cons_self).1
  subst hfirst
  rw [loadIndex, dif_pos fun s hs => (hshards s hs).1]
  simp only [DenseIndex.new, hdocids, hvectors]
  rw [if_neg (by simp), if_neg (not_not.mpr hnodup), List.map_map]
  rfl

/-! ## The true top k -/

/-- Every storage of the rows loads, answers the first `k` of them by score and docid, and begins the answer for
`k + 1` with them. -/
def TrueTopK (dim : ℕ) (rows : List Row) (q : List ℚ) (k : ℤ) : Prop :=
  ∀ shards : List Shard, shards ≠ [] →
    (∀ s ∈ shards, s.vectors.dim = dim ∧ s.docids.length = s.vectors.rows.length) →
    (shards.flatMap Shard.rows).Perm rows →
    ∃ index, loadIndex np shards = .ok index ∧
      index.search q k = .ok (hits q ((trueOrder q rows).take k.toNat)) ∧
      ∃ more, index.search q (k + 1) = .ok (hits q ((trueOrder q rows).take k.toNat) ++ more)

theorem eq_of_map_eq {α β : Type} {f : α → β} {xs ys : List α} (hinj : ∀ x ∈ xs, ∀ y ∈ ys, f x = f y → x = y)
    (h : xs.map f = ys.map f) : xs = ys := by
  have hlen : xs.length = ys.length := by simpa using congrArg List.length h
  refine List.ext_getElem hlen fun i hx hy => hinj _ (List.getElem_mem hx) _ (List.getElem_mem hy) ?_
  have hi := List.getElem_of_eq h (by simpa using hx)
  rwa [List.getElem_map, List.getElem_map] at hi

theorem take_eq_of_unambiguous {α κ : Type} {key : α → κ} {xs ys : List α} (h : xs.map key = ys.map key) {k : ℕ}
    (hclear : ∀ a ∈ ys.take k, ∀ b ∈ xs, key a = key b → a = b) : xs.take k = ys.take k := by
  refine eq_of_map_eq (f := key) (fun x hx y hy hxy => ?_) (by rw [List.map_take, List.map_take, h])
  exact (hclear y hy x (List.mem_of_mem_take hx) hxy.symm).symm

theorem hits_take_succ (q : List ℚ) (rows : List Row) (k : ℕ) :
    ∃ more, hits q (rows.take (k + 1)) = hits q (rows.take k) ++ more := by
  refine ⟨((rows.drop k).take 1).zipIdx (1 + (rows.take k).length) |>.map fun e => ⟨e.1.docid, dot e.1.vector q, e.2⟩, ?_⟩
  rw [List.take_add, hits, List.zipIdx_append, List.map_append]
  rfl

theorem map_docid_hits (q : List ℚ) (rows : List Row) : (hits q rows).map (·.docid) = rows.map (·.docid) := by
  rw [hits, List.map_map, ← List.zipIdx_map_fst 1 rows, List.map_map, List.zipIdx_map_fst]
  rfl

theorem trueTopK_of_unambiguous {dim : ℕ} {rows : List Row} (hnodup : (rows.map (·.docid)).Nodup) {q : List ℚ} {k : ℤ}
    (hq : q.length = dim) (hnorm : Normalised q) (hk : 0 < k)
    (hclear : ∀ a ∈ (trueOrder q rows).take k.toNat, ∀ b ∈ rows, a ≠ b → dot a.vector q = dot b.vector q →
      arrayText a.docid ≠ arrayText b.docid) : TrueTopK np dim rows q k := by
  intro shards hne hshards hperm
  obtain ⟨hdim, hload⟩ := loadIndex_rows np hne hshards ((hperm.map _).nodup_iff.mpr hnodup)
  have hranked := (rankedRows_perm np q _ hdim).trans hperm
  have hkeys : (rankedRows np q _ hdim).map (arrayKey q) = (trueOrder q rows).map (arrayKey q) :=
    List.Perm.eq_of_pairwise (fun _ _ _ _ => le_antisymm)
      (List.pairwise_map.mpr (pairwise_rankedRows np q _ hdim)) (List.pairwise_map.mpr (pairwise_trueOrder q rows))
      ((hranked.trans (trueOrder_perm q rows).symm).map _)
  have htake : (rankedRows np q _ hdim).take k.toNat = (trueOrder q rows).take k.toNat := by
    refine take_eq_of_unambiguous hkeys fun a ha b hb hab => ?_
    by_contra hdiff
    obtain ⟨hscore, htext⟩ := arrayKey_eq_iff.mp hab
    exact hclear a ha b (hranked.subset hb) hdiff hscore htext
  obtain ⟨more, hmore⟩ := hits_take_succ q (rankedRows np q _ hdim) k.toNat
  refine ⟨_, hload, ?_, more, ?_⟩
  · rw [search_indexOf np q _ hdim hq hnorm hk, htake]
  · rw [search_indexOf np q _ hdim hq hnorm (by omega), ← htake, show (k + 1).toNat = k.toNat + 1 by omega, hmore]

section Swap
variable {dim : ℕ} {q : List ℚ}

/-- Rows stored as one shard. -/
def oneShard (storage : List Row) (hdim : ∀ r ∈ storage, r.vector.length = dim) : Shard :=
  ⟨(indexOf np storage hdim).vectors, storage.map (·.docid)⟩

theorem rows_oneShard {storage : List Row} (hdim : ∀ r ∈ storage, r.vector.length = dim) :
    [oneShard np storage hdim].flatMap Shard.rows = storage := by
  rw [List.flatMap_singleton]
  refine List.ext_getElem (by simp [Shard.rows, oneShard, indexOf]) fun i _ _ => ?_
  simp [Shard.rows, oneShard, indexOf]

/-- What a true top `k` says about one storage. -/
theorem TrueTopK.ranked {rows : List Row} {k : ℤ} (h : TrueTopK np dim rows q k) (hnodup : (rows.map (·.docid)).Nodup)
    {storage : List Row} (hdim : ∀ r ∈ storage, r.vector.length = dim) (hperm : storage.Perm rows) :
    (q.length = dim ∧ Normalised q ∧ 0 < k) ∧
      (rankedRows np q storage hdim).take k.toNat = (trueOrder q rows).take k.toNat := by
  have hrows := rows_oneShard np hdim
  have hshards : ∀ s ∈ [oneShard np storage hdim], s.vectors.dim = dim ∧ s.docids.length = s.vectors.rows.length := by
    intro s hs
    obtain rfl := List.mem_singleton.mp hs
    exact ⟨rfl, by simp [oneShard, indexOf]⟩
  obtain ⟨index, hload, hsearch, -⟩ := h _ (List.cons_ne_nil _ _) hshards (by rw [hrows]; exact hperm)
  obtain ⟨hdim', hload'⟩ := loadIndex_rows np (List.cons_ne_nil _ _) hshards
    (by rw [hrows]; exact (hperm.map _).nodup_iff.mpr hnodup)
  have hindex : index = indexOf np storage hdim := by
    obtain rfl := Except.ok.inj (hload.symm.trans hload')
    congr
  rw [hindex] at hsearch
  have hguards : q.length = dim ∧ Normalised q ∧ 0 < k := by
    rw [DenseIndex.search] at hsearch
    by_cases hq : q.length ≠ (indexOf np storage hdim).vectors.dim
    · rw [if_pos hq] at hsearch; cases hsearch
    · by_cases hnorm : ¬ Normalised q
      · rw [if_neg hq, if_pos hnorm] at hsearch; cases hsearch
      · by_cases hk : k ≤ 0
        · rw [if_neg hq, if_neg hnorm, if_pos hk] at hsearch; cases hsearch
        · exact ⟨not_not.mp hq, not_not.mp hnorm, not_le.mp hk⟩
  refine ⟨hguards, ?_⟩
  rw [search_indexOf np q storage hdim hguards.1 hguards.2.1 hguards.2.2, Except.ok.injEq] at hsearch
  have hdocids := congrArg (List.map SearchHit.docid) hsearch
  rw [map_docid_hits, map_docid_hits] at hdocids
  refine eq_of_map_eq (fun x hx y hy hxy => ?_) hdocids
  exact List.inj_on_of_nodup_map hnodup
    (((rankedRows_perm np q storage hdim).trans hperm).subset (List.mem_of_mem_take hx))
    ((trueOrder_perm q rows).subset (List.mem_of_mem_take hy)) hxy

theorem candidates_congr {storage storage' : List Row} (hdim : ∀ r ∈ storage, r.vector.length = dim)
    (hdim' : ∀ r ∈ storage', r.vector.length = dim)
    (htext : (storage'.map fun r => arrayText r.docid) = storage.map fun r => arrayText r.docid)
    (hscore : (storage'.map fun r => dot r.vector q) = storage.map fun r => dot r.vector q) :
    (indexOf np storage' hdim').candidates q = (indexOf np storage hdim).candidates q := by
  have hrow : ∀ i, dot (rowAt storage' i).vector q = dot (rowAt storage i).vector q := by
    intro i
    rw [rowAt, rowAt, ← List.getD_map storage' ⟨"", []⟩ fun r => dot r.vector q,
      ← List.getD_map storage ⟨"", []⟩ fun r => dot r.vector q, hscore]
  simp only [candidates_eq, htext, hrow]

/-- Two rows of one score and one array text cannot be told apart: exchanged in storage they are exchanged in the
ranking. -/
theorem unambiguous_of_trueTopK {rows : List Row} {k : ℤ} (h : TrueTopK np dim rows q k)
    (hdim : ∀ r ∈ rows, r.vector.length = dim) (hnodup : (rows.map (·.docid)).Nodup) :
    ∀ a ∈ (trueOrder q rows).take k.toNat, ∀ b ∈ rows, a ≠ b → dot a.vector q = dot b.vector q →
      arrayText a.docid ≠ arrayText b.docid := by
  intro a ha b hb hab hscore htext
  have harows : a ∈ rows := (trueOrder_perm q rows).subset (List.mem_of_mem_take ha)
  have hswap : ∀ r, (Equiv.swap a b r = r ∨ r = a ∧ Equiv.swap a b r = b ∨ r = b ∧ Equiv.swap a b r = a) := by
    intro r
    rw [Equiv.swap_apply_def]
    split
    · exact .inr (.inl ⟨‹_›, rfl⟩)
    · split
      · exact .inr (.inr ⟨‹_›, rfl⟩)
      · exact .inl rfl
  have hmem : ∀ r ∈ rows, Equiv.swap a b r ∈ rows := by
    intro r hr
    rcases hswap r with heq | ⟨-, heq⟩ | ⟨-, heq⟩
    exacts [by rw [heq]; exact hr, by rw [heq]; exact hb, by rw [heq]; exact harows]
  have hsame : ∀ r, arrayText (Equiv.swap a b r).docid = arrayText r.docid ∧
      dot (Equiv.swap a b r).vector q = dot r.vector q := by
    intro r
    rcases hswap r with heq | ⟨rfl, heq⟩ | ⟨rfl, heq⟩
    exacts [by rw [heq]; exact ⟨rfl, rfl⟩, by rw [heq]; exact ⟨htext.symm, hscore.symm⟩, by rw [heq]; exact ⟨htext, hscore⟩]
  have hperm : (rows.map (Equiv.swap a b)).Perm rows := by
    refine (List.perm_ext_iff_of_nodup (hnodup.of_map.map (Equiv.injective _)) hnodup.of_map).mpr fun r => ?_
    refine ⟨fun hr => ?_, fun hr => List.mem_map.mpr ⟨Equiv.swap a b r, hmem r hr, Equiv.swap_apply_self a b r⟩⟩
    obtain ⟨x, hx, rfl⟩ := List.mem_map.mp hr
    exact hmem x hx
  have hdim' : ∀ r ∈ rows.map (Equiv.swap a b), r.vector.length = dim := fun r hr => hdim r (hperm.subset hr)
  have hcandidates := candidates_congr np hdim hdim' (q := q)
    (by rw [List.map_map]; exact List.map_congr_left fun r _ => (hsame r).1)
    (by rw [List.map_map]; exact List.map_congr_left fun r _ => (hsame r).2)
  have hranked : rankedRows np q _ hdim' = (rankedRows np q rows hdim).map (Equiv.swap a b) := by
    rw [rankedRows, hcandidates, rankedRows, List.map_map]
    refine List.map_congr_left fun i hi => ?_
    have hlt : i < rows.length := List.mem_range.mp ((candidates_perm np q rows hdim).subset hi)
    rw [Function.comp_apply, rowAt, rowAt, List.getD_eq_getElem _ _ (by simpa using hlt), List.getD_eq_getElem _ _ hlt,
      List.getElem_map]
  have hfixed : ((trueOrder q rows).take k.toNat).map (Equiv.swap a b) = (trueOrder q rows).take k.toNat := by
    have hswapped := (h.ranked np hnodup hdim' hperm).2
    rwa [hranked, ← List.map_take, (h.ranked np hnodup hdim (.refl _)).2] at hswapped
  have hself : Equiv.swap a b a = a := by
    have := List.map_inj_left.mp (hfixed.trans (List.map_id _).symm) a ha
    exact this
  exact hab (hself.symm.trans (Equiv.swap_apply_left a b))

end Swap

/-- Every storage answers the true top `k` if and only if the query fits, `k` is positive and no row of one of the first
`k` has the score of another whose docid differs from its own in trailing NULs only. -/
theorem search_trueTopK_iff (np : ArgSort) (dim : ℕ) (rows : List Row) (q : List ℚ) (k : ℤ)
    (hdim : ∀ r ∈ rows, r.vector.length = dim) (hnodup : (rows.map (·.docid)).Nodup) :
    TrueTopK np dim rows q k ↔ q.length = dim ∧ Normalised q ∧ 0 < k ∧
      ∀ a ∈ (trueOrder q rows).take k.toNat, ∀ b ∈ rows, a ≠ b → dot a.vector q = dot b.vector q →
        arrayText a.docid ≠ arrayText b.docid := by
  constructor
  · intro h
    obtain ⟨⟨hq, hnorm, hk⟩, -⟩ := h.ranked np hnodup hdim (.refl _)
    exact ⟨hq, hnorm, hk, unambiguous_of_trueTopK np h hdim hnodup⟩
  · rintro ⟨hq, hnorm, hk, hclear⟩
    exact trueTopK_of_unambiguous np hnodup hq hnorm hk hclear

/-- An `argsort` that keeps equal texts in order. -/
def stableTexts : ArgSort where
  argsort xs := (List.range xs.length).insertionSort fun i j => toLex (xs.getD i "", i) ≤ toLex (xs.getD j "", j)
  perm _ := List.perm_insertionSort _ _
  sorted xs := by
    refine List.pairwise_map.mpr ((SortedLists.pairwise_insertionSort_key (fun i => toLex (xs.getD i "", i)) _).imp fun h => ?_)
    exact (Prod.Lex.toLex_le_toLex.mp h).elim le_of_lt fun h => h.1.le

theorem search_trueTopK_two : TrueTopK stableTexts 1 [⟨"d2", [1]⟩, ⟨"d1", [1]⟩] [1] 1 :=
  (search_trueTopK_iff stableTexts 1 [⟨"d2", [1]⟩, ⟨"d1", [1]⟩] [1] 1 (by decide) (by decide)).mpr
    ⟨rfl, by decide +kernel, by decide, by decide +kernel⟩

/-- The docids `d` and `d` followed by a NUL, with one score: the array cannot order them. -/
theorem not_search_trueTopK : ¬ ∀ (np : ArgSort) (dim : ℕ) (rows : List Row) (q : List ℚ) (k : ℤ),
    (∀ r ∈ rows, r.vector.length = dim) → (rows.map (·.docid)).Nodup → q.length = dim → Normalised q → 0 < k →
    TrueTopK np dim rows q k := by
  intro h
  have htrue := h stableTexts 1 [⟨"d\x00", [1]⟩, ⟨"d", [1]⟩] [1] 1 (by decide) (by decide) rfl (by decide +kernel) (by decide)
  exact unambiguous_of_trueTopK stableTexts htrue (by decide) (by decide) ⟨"d", [1]⟩ (by decide +kernel) ⟨"d\x00", [1]⟩
    (by decide) (by decide) rfl (by decide +kernel)

end Shapeflow.DenseSearch
