import Shapeflow.RetrievalClient

set_option autoImplicit false

/-!
# Service and client agree

What the service sends is read back as the fields it sent. The client accepts every
answer of the service it verified, except for one thing it alone looks at: an
empty docid.
-/
namespace Shapeflow.Retrieval
open Py Canonical Utf8 Fallible

/-! ## The wire -/

/-- The members the client reads where the service sent these fields. -/
def wire (fields : List (String × Json)) : Members := sorted (fields.map fun e => (pyStr e.1, sortKeys e.2))

theorem sortKeys_eq_wire (fields : List (String × Json)) : sortKeys (document fields) = .obj (wire fields) :=
  sortKeys_document fields

theorem receive_send {svc : RetrievalService} {fields : List (String × Json)}
    (h : Admitted svc.floats (document fields)) :
    receive svc.floats (svc.send (document fields)) = .ok (wire fields) := by
  have hloads := loads_dumps (loaded_of_admitted _ h)
  unfold receive RetrievalService.send loadBytes
  rw [decode_utf8, Option.bind_some, hloads, sortKeys_eq_wire]

theorem get_wire {fields : List (String × Json)} (h : DistinctFields fields) (key : String) :
    Members.get (wire fields) key = ((field? fields key).map sortKeys).getD .null := by
  unfold Members.get memberD wire
  rw [member_sortKeys h]

theorem mem_keys_wire {fields : List (String × Json)} {key : PyStr} :
    key ∈ (wire fields).map Prod.fst ↔ ∃ name ∈ fields.map Prod.fst, pyStr name = key := by
  rw [wire, (keys_sorted _).mem_iff, List.map_map]
  simp only [List.mem_map, Function.comp_apply, exists_exists_and_eq_and]

theorem unenumeratedIn_wire (fields : List (String × Json)) :
    unenumeratedIn (wire fields) (fields.map Prod.fst) = [] := by
  unfold unenumeratedIn
  rw [List.filter_eq_nil_iff]
  intro key hkey
  obtain ⟨name, hname, rfl⟩ := mem_keys_wire.mp hkey
  have hmem : pyStr name ∈ (fields.map Prod.fst).map pyStr := List.mem_map_of_mem hname
  simpa only [decide_eq_true_eq, not_not] using hmem

theorem missingFrom_wire (fields : List (String × Json)) :
    missingFrom (wire fields) (fields.map Prod.fst) = [] := by
  unfold missingFrom
  rw [List.filter_eq_nil_iff]
  intro name hname
  simpa only [decide_eq_true_eq, not_not] using mem_keys_wire.mpr ⟨name, hname, rfl⟩

/-- A wire member is one of the fields. -/
theorem mem_wire {fields : List (String × Json)} {e : PyStr × Json} (h : e ∈ wire fields) :
    ∃ f ∈ fields, e = (pyStr f.1, sortKeys f.2) := by
  obtain ⟨f, hf, rfl⟩ := List.mem_map.mp (mem_sorted.mp h)
  exact ⟨f, hf, rfl⟩

/-! ## Rows -/

/-- A row the client reads as one that was served: a finite score and a derived id. -/
structure Served (row : Row) : Prop where
  finite : ∃ q, row.score = .finite q
  derived : isHex64 (pyStr row.occurrenceId)

theorem distinct_rowFields (row : Row) : DistinctFields row.fields := by simp [DistinctFields, Row.fields]

/-- The members of a row as the client reads them. -/
def Row.members (row : Row) : Members := wire row.fields

theorem sortKeys_content (row : Row) : sortKeys row.content = .obj row.members := sortKeys_eq_wire row.fields

theorem get_row (row : Row) (key : String) :
    Members.get row.members key = ((field? row.fields key).map sortKeys).getD .null :=
  get_wire (distinct_rowFields row) key

theorem text_fields (row : Row) : textFields.find? (fun field => ¬ isText (Members.get row.members field)) = none := by
  rw [List.find?_eq_none]
  intro field hfield
  simp only [get_row]
  simp only [textFields, List.mem_cons, List.not_mem_nil, or_false] at hfield
  obtain rfl | rfl | rfl | rfl | rfl | rfl := hfield <;>
    simp [Row.fields, field?, isText, Retrieval.text, sortKeys]

/-- Writing the score over a row that has it changes nothing. -/
theorem withScore_members {row : Row} {q : ℚ} (hscore : row.score = .finite q) :
    withScore row.members q = .obj row.members := by
  unfold withScore
  apply congrArg Json.obj
  rw [List.map_congr_left (g := id), List.map_id]
  intro e he
  split
  · rename_i hkey
    obtain ⟨f, hf, rfl⟩ := mem_wire he
    have hname : f.1 = "score" := pyStr_injective hkey
    simp only [Row.fields, List.mem_cons, List.not_mem_nil, or_false] at hf
    obtain rfl | rfl | rfl | rfl | rfl | rfl | rfl | rfl := hf <;> simp at hname
    rw [hscore]
    rfl
  · rfl

theorem pyStr_eq_nil {s : String} : pyStr s = [] ↔ s = "" := by
  constructor
  · intro h
    exact pyStr_injective h
  · rintro rfl
    rfl

theorem validateRow_members {row : Row} (h : Served row) :
    validateRow row.rank (sortKeys row.content) =
      if row.docid = "" then .error .emptyDocid else .ok (pyStr row.docid, sortKeys row.content) := by
  obtain ⟨q, hq⟩ := h.finite
  have hdocid : textOf (Members.get row.members "docid") = pyStr row.docid := by
    rw [get_row]
    rfl
  have hoccurrence : textOf (Members.get row.members "occurrence_id") = pyStr row.occurrenceId := by
    rw [get_row]
    rfl
  have hrank : equalsInt row.rank (Members.get row.members "rank") = true := by
    rw [get_row]
    simp [Row.fields, field?, sortKeys, equalsInt]
  have hscore : Members.get row.members "score" = .float (.finite q) := by
    rw [get_row, ← hq]
    rfl
  have hhex : matchesHex64 (pyStr row.occurrenceId) = true := by
    unfold matchesHex64
    rw [h.derived, Bool.true_or]
  have hextra : unenumeratedIn row.members resultFields = [] := unenumeratedIn_wire row.fields
  have habsent : missingFrom row.members resultFields = [] := missingFrom_wire row.fields
  rw [sortKeys_content, validateRow, if_neg (not_not.mpr hextra), if_neg (not_not.mpr habsent), text_fields]
  simp only [hdocid, hoccurrence, hhex, hrank, hscore, not_true_eq_false, if_false, pyStr_eq_nil]
  rw [show finiteScore (.float (.finite q)) = .ok q from rfl, ok_bind, withScore_members hq]
  rfl

/-- The ranks count up from a position. -/
def RanksFrom : ℕ → List Row → Prop
  | _, [] => True
  | position, row :: rows => row.rank = position ∧ RanksFrom (position + 1) rows

theorem validateRows_accepts : ∀ (rows : List Row) (seen : List PyStr) (position : ℕ), (∀ row ∈ rows, Served row) →
    RanksFrom position rows → (rows.map Row.docid).Nodup → (∀ row ∈ rows, pyStr row.docid ∉ seen) →
    (∀ row ∈ rows, row.docid ≠ "") →
    validateRows seen position (rows.map fun row => sortKeys row.content) =
      .ok (rows.map fun row => sortKeys row.content)
  | [], _, _, _, _, _, _, _ => rfl
  | row :: rows, seen, position, hserved, hranks, hdistinct, hseen, hnamed => by
    obtain ⟨hhere, hserved⟩ := List.forall_mem_cons.mp hserved
    obtain ⟨rfl, hranks⟩ := hranks
    obtain ⟨hnew, hdistinct⟩ := List.nodup_cons.mp hdistinct
    obtain ⟨hunseen, hseen⟩ := List.forall_mem_cons.mp hseen
    obtain ⟨hname, hnamed⟩ := List.forall_mem_cons.mp hnamed
    have hlater : ∀ r ∈ rows, pyStr r.docid ∉ pyStr row.docid :: seen := by
      intro r hr hin
      obtain heq | hin := List.mem_cons.mp hin
      · exact hnew (pyStr_injective heq ▸ List.mem_map_of_mem hr)
      · exact hseen r hr hin
    have hrest := validateRows_accepts rows (pyStr row.docid :: seen) (row.rank + 1) hserved hranks hdistinct
      hlater hnamed
    rw [List.map_cons, validateRows, validateRow_members hhere, if_neg hname]
    simp only [if_neg hunseen, hrest]
    rfl

theorem validateRows_refuses : ∀ (rows : List Row) (seen : List PyStr) (position : ℕ), (∀ row ∈ rows, Served row) →
    RanksFrom position rows → (∃ row ∈ rows, row.docid = "") →
    ¬ Returns (validateRows seen position (rows.map fun row => sortKeys row.content))
  | [], _, _, _, _, hempty => by
    obtain ⟨row, hrow, -⟩ := hempty
    cases hrow
  | row :: rows, seen, position, hserved, hranks, hempty => by
    obtain ⟨hhere, hserved⟩ := List.forall_mem_cons.mp hserved
    obtain ⟨rfl, hranks⟩ := hranks
    rw [List.map_cons, validateRows, validateRow_members hhere]
    by_cases hname : row.docid = ""
    · simp [hname]
    · have hlater : ∃ r ∈ rows, r.docid = "" := by
        obtain ⟨r, hr, hrempty⟩ := hempty
        obtain rfl | hr := List.mem_cons.mp hr
        · exact absurd hrempty hname
        · exact ⟨r, hr, hrempty⟩
      have hrest := validateRows_refuses rows (pyStr row.docid :: seen) (row.rank + 1) hserved hranks hlater
      simp only [if_neg hname]
      split
      · exact not_returns_error _
      · rw [returns_bind]
        rintro ⟨ms, hms, -⟩
        exact hrest ⟨ms, hms⟩

/-! ## What the service answers -/

/-- What a digest is: 64 hexadecimal digits. -/
def HexDigest (sha256Hex : ByteArray → String) : Prop := ∀ raw, isHex64 (pyStr (sha256Hex raw)) = true

section
variable {svc : RetrievalService}

theorem encodable_of_occurrenceId {query : PyStr} {topK : ℤ} {rank : ℕ} {url id : String}
    (h : svc.occurrenceId query topK rank url = .ok id) : Encodable query := by
  obtain ⟨snapshot, hsnapshot, -⟩ := bind_ok.mp h
  obtain ⟨payload, -, hpayload, -, -⟩ := deriveId_ok hsnapshot
  by_contra hquery
  simp [canonicalJson, document, ofJson, ofMembers, validate, validateMembers, hquery, reject] at hpayload

theorem occurrenceId_derived {query : PyStr} {topK : ℤ} {rank : ℕ} {url id : String}
    (h : svc.occurrenceId query topK rank url = .ok id) : ∃ raw, id = svc.sha256Hex raw := by
  obtain ⟨snapshot, -, hid⟩ := bind_ok.mp h
  obtain ⟨-, raw, -, -, rfl⟩ := deriveId_ok hid
  exact ⟨raw, rfl⟩

/-- The record of a hit is the hit's, with an id derived for it. -/
theorem record_ok {query : PyStr} {topK : ℤ} {hit : SearchHit} {row : Row}
    (h : svc.record query topK hit = .ok row) :
    row.docid = hit.docid ∧ row.rank = hit.rank ∧ row.score = hit.score ∧
      svc.occurrenceId query topK hit.rank row.url = .ok row.occurrenceId := by
  unfold RetrievalService.record at h
  split at h
  · cases h
  · split at h
    · cases h
    · rename_i hid
      cases h
      exact ⟨rfl, rfl, rfl, hid⟩

theorem checkFinite_ok {row row' : Row} (h : RetrievalService.checkFinite row = .ok row') : row' = row ∧ ∃ q, row.score = .finite q := by
  unfold RetrievalService.checkFinite at h
  split at h
  · rename_i q hq
    cases h
    exact ⟨rfl, q, hq⟩
  · cases h

/-- The hits of a search: at most as many as asked for, of different documents, ranked from one. -/
theorem docids_search (index : DenseIndex) (scores : String → PyFloat) (topK : ℕ) :
    (index.search scores topK).map SearchHit.docid =
      ((index.docids.insertionSort (· ≤ ·)).insertionSort fun a b => scoreLe (scores a) (scores b)).take topK := by
  simp only [DenseIndex.search, List.map_map]
  exact List.zipIdx_map_fst 1 _

theorem nodup_search (index : DenseIndex) (scores : String → PyFloat) (topK : ℕ) :
    ((index.search scores topK).map SearchHit.docid).Nodup := by
  rw [docids_search]
  apply List.Nodup.sublist (List.take_sublist topK _)
  rw [(List.perm_insertionSort _ _).nodup_iff, (List.perm_insertionSort _ _).nodup_iff]
  exact index.distinct

theorem length_search (index : DenseIndex) (scores : String → PyFloat) (topK : ℕ) :
    (index.search scores topK).length = min topK index.docids.length := by
  have hlength := congrArg List.length (docids_search index scores topK)
  simpa only [List.length_map, List.length_take, List.length_insertionSort] using hlength

theorem rank_search {index : DenseIndex} {scores : String → PyFloat} {topK : ℕ} {i : ℕ} {hit : SearchHit}
    (h : (index.search scores topK)[i]? = some hit) : hit.rank = i + 1 ∧ hit.score = scores hit.docid := by
  simp only [DenseIndex.search, List.getElem?_map, List.getElem?_zipIdx, Option.map_eq_some_iff,
    exists_exists_and_eq_and] at h
  obtain ⟨docid, -, rfl⟩ := h
  exact ⟨Nat.add_comm 1 i, rfl⟩

theorem ranksFrom_of_getElem : ∀ (rows : List Row) (position : ℕ),
    (∀ i row, rows[i]? = some row → row.rank = position + i) → RanksFrom position rows
  | [], _, _ => trivial
  | row :: rows, position, h => by
    refine ⟨h 0 row rfl, ranksFrom_of_getElem rows (position + 1) fun i r hr => ?_⟩
    rw [h (i + 1) r hr]
    omega

/-- An answer of the service, as everything the client looks at. -/
structure Ranked (svc : RetrievalService) (answer : Answer) : Prop where
  asked : answer.query.all (fun c => Unicode.isSpaceCode c.val) = false
  positive : 1 ≤ answer.topK
  encodable : Encodable answer.query
  served : ∀ row ∈ answer.results, Served row ∧ ∃ q, row.score = .finite q ∧ svc.floats.IsDouble q
  ranks : RanksFrom 1 answer.results
  distinct : (answer.results.map Row.docid).Nodup
  bounded : (answer.results.length : ℤ) ≤ answer.topK

theorem mapM_checkFinite {rows rows' : List Row} (h : rows.mapM RetrievalService.checkFinite = .ok rows') :
    rows' = rows ∧ ∀ row ∈ rows, ∃ q, row.score = .finite q := by
  rw [mapM_ok] at h
  induction rows generalizing rows' with
  | nil => simpa using h
  | cons row rows ih =>
    cases rows' with
    | nil => cases h
    | cons row' rows' =>
      rw [List.map_cons, List.map_cons, List.cons.injEq] at h
      obtain ⟨rfl, hfinite⟩ := checkFinite_ok h.1
      obtain ⟨rfl, hrest⟩ := ih h.2
      exact ⟨rfl, List.forall_mem_cons.mpr ⟨hfinite, hrest⟩⟩

theorem ranked_ok {query : PyStr} {topK : ℤ} {answer : Answer} (h : svc.ranked query topK = .ok answer) :
    answer.query = query ∧ answer.topK = topK ∧ ∃ scores, svc.scores query = some scores ∧
      (svc.index.search scores topK.toNat).mapM (svc.record query topK) = .ok answer.results ∧
      ∀ row ∈ answer.results, ∃ q, row.score = .finite q := by
  unfold RetrievalService.ranked at h
  split at h
  · cases h
  · rename_i scores hscores
    obtain ⟨records, hrecords, h⟩ := bind_ok.mp h
    obtain ⟨results, hresults, h⟩ := bind_ok.mp h
    cases h
    obtain ⟨rfl, hfinite⟩ := mapM_checkFinite hresults
    exact ⟨rfl, rfl, scores, hscores, hrecords, hfinite⟩

theorem docids_of_records {query : PyStr} {topK : ℤ} {hits : List SearchHit} {rows : List Row}
    (h : List.Forall₂ (fun hit row => svc.record query topK hit = .ok row) hits rows) :
    hits.map SearchHit.docid = rows.map Row.docid := by
  rw [← List.forall₂_eq_eq_eq, List.forall₂_map_left_iff, List.forall₂_map_right_iff]
  exact h.imp fun _ _ hrow => (record_ok hrow).1.symm

theorem ranked_of_search (hhex : HexDigest svc.sha256Hex) {query topK : Json} {answer : Answer}
    (h : svc.search query topK = .ok answer) :
    query = .str answer.query ∧ topK = .int answer.topK ∧ Ranked svc answer := by
  have hranked : query = .str answer.query ∧ topK = .int answer.topK ∧
      answer.query.all (fun c => Unicode.isSpaceCode c.val) = false ∧ 1 ≤ answer.topK ∧
      svc.ranked answer.query answer.topK = .ok answer := by
    unfold RetrievalService.search at h
    split at h
    · rename_i q k
      split_ifs at h with hblank _ hpositive
      obtain ⟨rfl, rfl, -⟩ := ranked_ok h
      exact ⟨rfl, rfl, by simpa using hblank, by omega, h⟩
    · split_ifs at h
    · cases h
  obtain ⟨hquery, htopK, hasked, hpositive, hanswer⟩ := hranked
  obtain ⟨-, -, scores, hscores, hrecords, hfinite⟩ := ranked_ok hanswer
  have hrecord := mapM_forall₂.mp hrecords
  have hdocids := docids_of_records hrecord
  have hhit : ∀ (i : ℕ) row, answer.results[i]? = some row → ∃ hit,
      (svc.index.search scores answer.topK.toNat)[i]? = some hit ∧
      svc.record answer.query answer.topK hit = .ok row := by
    intro i row hrow
    have hmap := congrArg (fun l => l[i]?) (mapM_ok.mp hrecords)
    simp only [List.getElem?_map, hrow, Option.map_some, Option.map_eq_some_iff] at hmap
    exact hmap
  have hlength : answer.results.length = min answer.topK.toNat svc.index.docids.length := by
    rw [← hrecord.length_eq, length_search]
  have hsome : answer.results ≠ [] := by
    intro hnil
    have hdocs : svc.index.docids.length ≠ 0 := fun hzero => svc.nonempty (List.length_eq_zero_iff.mp hzero)
    rw [hnil, List.length_nil] at hlength
    omega
  refine ⟨hquery, htopK, hasked, hpositive, ?_, ?_, ?_, ?_, by omega⟩
  · obtain ⟨row, hrow⟩ := List.exists_mem_of_ne_nil _ hsome
    obtain ⟨i, hi⟩ := List.mem_iff_getElem?.mp hrow
    obtain ⟨hit, -, hrow⟩ := hhit i row hi
    exact encodable_of_occurrenceId (record_ok hrow).2.2.2
  · intro row hmem
    obtain ⟨i, hi⟩ := List.mem_iff_getElem?.mp hmem
    obtain ⟨hit, hit_at, hrow⟩ := hhit i row hi
    obtain ⟨-, -, hscore, hid⟩ := record_ok hrow
    obtain ⟨raw, hraw⟩ := occurrenceId_derived hid
    obtain ⟨q, hq⟩ := hfinite row hmem
    refine ⟨⟨⟨q, hq⟩, hraw ▸ hhex raw⟩, q, hq, ?_⟩
    exact svc.doubles answer.query scores hit.docid q hscores ((rank_search hit_at).2 ▸ hscore ▸ hq)
  · apply ranksFrom_of_getElem
    intro i row hrow
    obtain ⟨hit, hit_at, hrecorded⟩ := hhit i row hrow
    rw [(record_ok hrecorded).2.1, (rank_search hit_at).1]
    omega
  · rw [← hdocids]
    exact nodup_search ..

/-! ## Responses -/

theorem distinct_payloadFields (answer : Answer) : DistinctFields (svc.payloadFields answer) := by
  simp [DistinctFields, RetrievalService.payloadFields]

theorem admitted_row {row : Row} (h : ∃ q, row.score = .finite q ∧ svc.floats.IsDouble q) :
    Admitted svc.floats row.content := by
  apply admitted_document (distinct_rowFields row)
  simp only [Row.fields, List.forall_mem_cons, List.not_mem_nil, false_implies, implies_true, and_true]
  exact ⟨pyStr_encodable _, trivial, h, pyStr_encodable _, pyStr_encodable _, pyStr_encodable _, pyStr_encodable _,
    pyStr_encodable _⟩

theorem admitted_payload {answer : Answer} (h : Ranked svc answer) : Admitted svc.floats (svc.payload answer) := by
  have hrows : Admitted svc.floats (.arr (answer.results.map Row.content)) := by
    refine admittedItems_iff.mpr fun v hv => ?_
    obtain ⟨row, hrow, rfl⟩ := List.mem_map.mp hv
    exact admitted_row (h.served row hrow).2
  apply admitted_document (distinct_payloadFields answer)
  simp only [RetrievalService.payloadFields, List.forall_mem_cons, List.not_mem_nil, false_implies, implies_true,
    and_true]
  exact ⟨h.encodable, trivial, trivial, pyStr_encodable _, hrows⟩

/-- A client that verified this retriever gets, for an answer sent to it, the rows of that answer. -/
def Yields (svc : RetrievalService) (retrieverId : PyStr) (answer : Answer) : Prop :=
  ∃ rows, searchRows svc.floats retrieverId answer.query answer.topK (svc.send (svc.payload answer)) = .ok rows ∧
    List.Forall₂ SameValue rows (answer.results.map Row.content)

theorem searchRows_sent {answer : Answer} (h : Ranked svc answer) :
    searchRows svc.floats (pyStr svc.retrieverId) answer.query answer.topK (svc.send (svc.payload answer)) =
      validateRows [] 1 (answer.results.map fun row => sortKeys row.content) := by
  have hget : ∀ key, Members.get (wire (svc.payloadFields answer)) key =
      ((field? (svc.payloadFields answer) key).map sortKeys).getD .null := get_wire (distinct_payloadFields answer)
  have hquery : equalsText answer.query (Members.get (wire (svc.payloadFields answer)) "query") = true := by
    rw [hget]
    simp [RetrievalService.payloadFields, field?, sortKeys, equalsText]
  have htopK : equalsInt answer.topK (Members.get (wire (svc.payloadFields answer)) "top_k") = true := by
    rw [hget]
    simp [RetrievalService.payloadFields, field?, sortKeys, equalsInt]
  have hretriever : equalsText (pyStr svc.retrieverId)
      (Members.get (wire (svc.payloadFields answer)) "retriever_id") = true := by
    rw [hget]
    simp [RetrievalService.payloadFields, field?, sortKeys, equalsText, Retrieval.text]
  have hcount : equalsInt answer.results.length (Members.get (wire (svc.payloadFields answer)) "count") = true := by
    rw [hget]
    simp [RetrievalService.payloadFields, field?, sortKeys, equalsInt]
  have hresults : Members.get (wire (svc.payloadFields answer)) "results" =
      .arr (answer.results.map fun row => sortKeys row.content) := by
    rw [hget]
    change sortKeys (.arr _) = _
    rw [sortKeys_arr, List.map_map]
    rfl
  have hextra : unenumeratedIn (wire (svc.payloadFields answer)) responseFields = [] := unenumeratedIn_wire _
  have habsent : missingFrom (wire (svc.payloadFields answer)) responseFields = [] := missingFrom_wire _
  have hpositive := h.positive
  have hbounded := h.bounded
  unfold searchRows RetrievalService.payload
  rw [if_neg (by simpa using h.asked), if_neg (by omega), receive_send (admitted_payload h), ok_bind]
  unfold validateResponse
  rw [if_neg (not_not.mpr hextra), if_neg (not_not.mpr habsent), if_neg (not_not.mpr hquery),
    if_neg (not_not.mpr htopK), if_neg (not_not.mpr hretriever), hresults]
  simp only [List.length_map]
  rw [if_neg (not_not.mpr hcount), if_neg (by omega)]

/-- The client looks at one thing more than the service. -/
theorem yields_iff {answer : Answer} (h : Ranked svc answer) :
    Yields svc (pyStr svc.retrieverId) answer ↔ ∀ row ∈ answer.results, row.docid ≠ "" := by
  unfold Yields
  rw [searchRows_sent h]
  have hserved : ∀ row ∈ answer.results, Served row := fun row hrow => (h.served row hrow).1
  constructor
  · rintro ⟨rows, hrows, -⟩ row hrow hempty
    exact validateRows_refuses answer.results [] 1 hserved h.ranks ⟨row, hrow, hempty⟩ ⟨rows, hrows⟩
  · intro hnamed
    refine ⟨_, validateRows_accepts answer.results [] 1 hserved h.ranks h.distinct (by simp) hnamed, ?_⟩
    rw [List.forall₂_map_left_iff, List.forall₂_map_right_iff, List.forall₂_same]
    exact fun row _ => sameValue_sortKeys row.content

/-! ## Identity -/

theorem admitted_texts (floats : FloatText) (ss : List String) : Admitted floats (texts ss) := by
  refine admittedItems_iff.mpr fun v hv => ?_
  obtain ⟨s, -, rfl⟩ := List.mem_map.mp hv
  exact pyStr_encodable s

theorem admitted_freeze (d : Deployment) : Admitted d.floats d.freezeContent := by
  unfold Deployment.freezeContent
  split
  · trivial
  · apply admitted_document (by simp [DistinctFields])
    simp only [List.forall_mem_cons, List.not_mem_nil, false_implies, implies_true, and_true]
    exact ⟨pyStr_encodable _, trivial, trivial, trivial⟩

theorem admitted_identity (d : Deployment) : Admitted d.floats d.identity := by
  have hindex : Admitted d.floats (document [("num_docs", .int d.index.docids.length), ("dim", .int d.index.dim),
      ("shard_sha256", texts d.index.shardSha256)]) := by
    apply admitted_document (by simp [DistinctFields])
    simp only [List.forall_mem_cons, List.not_mem_nil, false_implies, implies_true, and_true]
    exact ⟨trivial, trivial, admitted_texts _ _⟩
  have hcorpus : Admitted d.floats (document [("num_docs", .int d.corpus.docs.keys.length),
      ("shard_sha256", texts d.corpus.shardSha256)]) := by
    apply admitted_document (by simp [DistinctFields])
    simp only [List.forall_mem_cons, List.not_mem_nil, false_implies, implies_true, and_true]
    exact ⟨trivial, admitted_texts _ _⟩
  have hencoder : Admitted d.floats d.encoderContent := by
    apply admitted_document (by simp [DistinctFields])
    simp only [List.forall_mem_cons, List.not_mem_nil, false_implies, implies_true, and_true]
    exact ⟨pyStr_encodable _, pyStr_encodable _, trivial, trivial, pyStr_encodable _, trivial, pyStr_encodable _,
      pyStr_encodable _, pyStr_encodable _, pyStr_encodable _⟩
  have hconformance : Admitted d.floats d.conformanceContent := by
    apply admitted_document (by simp [DistinctFields])
    simp only [List.forall_mem_cons, List.not_mem_nil, false_implies, implies_true, and_true]
    exact ⟨pyStr_encodable _, trivial, pyStr_encodable _, trivial, d.conformance.finite.1, d.conformance.finite.2,
      trivial⟩
  apply admitted_document (by simp [DistinctFields])
  simp only [List.forall_mem_cons, List.not_mem_nil, false_implies, implies_true, and_true]
  exact ⟨pyStr_encodable _, hindex, hcorpus, hencoder, hconformance, admitted_freeze d⟩

theorem distinct_healthFields (live : RetrievalService.Live svc.floats) : DistinctFields (svc.healthFields live) := by
  simp [DistinctFields, RetrievalService.healthFields]

theorem admitted_health (live : RetrievalService.Live svc.floats) : Admitted svc.floats (svc.health live) := by
  have hcache : Admitted svc.floats live.cache := by
    apply admitted_document (by simp [DistinctFields])
    simp only [List.forall_mem_cons, List.not_mem_nil, false_implies, implies_true, and_true]
    exact ⟨trivial, trivial, trivial, trivial, ⟨_, rfl, live.rounded⟩, trivial, trivial⟩
  have hservice : Admitted svc.floats (svc.serviceBlock live) := by
    apply admitted_document (by simp [DistinctFields])
    simp only [List.forall_mem_cons, List.not_mem_nil, false_implies, implies_true, and_true]
    exact ⟨pyStr_encodable _, trivial, pyStr_encodable _, trivial, trivial⟩
  apply admitted_document (distinct_healthFields live)
  simp only [RetrievalService.healthFields, List.forall_mem_cons, List.not_mem_nil, false_implies, implies_true,
    and_true]
  exact ⟨pyStr_encodable _, trivial, pyStr_encodable _, admitted_identity _, hcache, hservice⟩

theorem receive_health (live : RetrievalService.Live svc.floats) :
    receive svc.floats (svc.send (svc.health live)) = .ok (wire (svc.healthFields live)) :=
  receive_send (admitted_health live)

/-- The identity block as it is read back. -/
theorem retriever_health (live : RetrievalService.Live svc.floats) :
    ∃ identity, Members.get (wire (svc.healthFields live)) "retriever" = .obj identity ∧
      sortKeys svc.identity = .obj identity := by
  obtain ⟨identity, hidentity⟩ : ∃ identity, sortKeys svc.identity = .obj identity := ⟨_, sortKeys_document _⟩
  refine ⟨identity, ?_, hidentity⟩
  rw [get_wire (distinct_healthFields live), ← hidentity]
  rfl

theorem retrieverId_health (live : RetrievalService.Live svc.floats) :
    Members.get (wire (svc.healthFields live)) "retriever_id" = text svc.retrieverId := by
  rw [get_wire (distinct_healthFields live)]
  rfl

/-- The digest does not see the order in which the block's keys came back. -/
theorem identity_reverifies {identity : Members} (h : sortKeys svc.identity = .obj identity) :
    requireIdSummarisesIdentity svc.sha256Hex svc.floats (pyStr svc.retrieverId) identity = .ok () := by
  have hsame : SameValue svc.identity (.obj identity) := by
    rw [← h]
    exact (sortKeys_idem svc.identity).symm
  have hraw := (canonicalJson_sameValue (admitted_identity svc.toDeployment) hsame).2
  have hidentified := svc.identified
  rw [canonicalJson_admitted (admitted_identity svc.toDeployment)] at hraw hidentified
  have hid : svc.sha256Hex (utf8 (canonicalText svc.floats svc.identity)) = svc.retrieverId :=
    Except.ok.inj hidentified
  unfold requireIdSummarisesIdentity
  rw [hraw]
  exact if_pos (congrArg pyStr hid)

/-- A client that verified against this service holds its retriever id. -/
theorem verified_retrieverId {live : RetrievalService.Live svc.floats} {pins : Pins} {retrieverId : PyStr}
    (h : verify svc.sha256Hex svc.floats pins (wire (svc.healthFields live)) = .ok retrieverId) :
    retrieverId = pyStr svc.retrieverId := by
  obtain ⟨identity, hidentity, -⟩ := retriever_health live
  unfold verify at h
  rw [hidentity, retrieverId_health] at h
  simp only [Retrieval.text] at h
  split_ifs at h with hdigest hpin
  · obtain ⟨-, -, h⟩ := bind_ok.mp h
    cases h
  · obtain ⟨-, -, h⟩ := bind_ok.mp h
    obtain ⟨-, -, h⟩ := bind_ok.mp h
    cases h
    rfl

/-! ## Answers -/

theorem occurrenceId_returns {query : PyStr} (hquery : Encodable query) (topK : ℤ) (rank : ℕ) (url : String) :
    Returns (svc.occurrenceId query topK rank url) := by
  have hparams : Admitted svc.floats (document [("top_k", .int topK)]) :=
    admitted_document (by simp [DistinctFields]) (by simp [Admitted])
  have hsnapshot : Admitted svc.floats (document [("query", .str query), ("params", document [("top_k", .int topK)]),
      ("api_version", text "bcplus-dense-v1"), ("schema_version", text "v1")]) := by
    apply admitted_document (by simp [DistinctFields])
    simp only [List.forall_mem_cons, List.not_mem_nil, false_implies, implies_true, and_true]
    exact ⟨hquery, hparams, pyStr_encodable _, pyStr_encodable _⟩
  obtain ⟨raw, hraw⟩ := @deriveId_admitted _ svc.sha256Hex _ (pyStr "query_snapshot") _ hsnapshot
    (by decide) (pyStr_encodable _)
  have hoccurrence : Admitted svc.floats (document [("query_snapshot_id", text (svc.sha256Hex raw)),
      ("rank", .int rank), ("url", text url)]) := by
    apply admitted_document (by simp [DistinctFields])
    simp only [List.forall_mem_cons, List.not_mem_nil, false_implies, implies_true, and_true]
    exact ⟨pyStr_encodable _, trivial, pyStr_encodable _⟩
  obtain ⟨raw', hraw'⟩ := @deriveId_admitted _ svc.sha256Hex _ (pyStr "occurrence") _ hoccurrence
    (by decide) (pyStr_encodable _)
  exact ⟨_, bind_ok.mpr ⟨_, hraw, hraw'⟩⟩

/-- A query that was encoded is answered, when the scores are finite and its text has no surrogate. -/
theorem ranked_returns {query : PyStr} {scores : String → PyFloat} (hquery : Encodable query)
    (hscores : svc.scores query = some scores) (hfinite : ∀ docid, ∃ q, scores docid = .finite q) (topK : ℤ) :
    Returns (svc.ranked query topK) := by
  have hrecords : Returns ((svc.index.search scores topK.toNat).mapM (svc.record query topK)) := by
    rw [returns_mapM]
    intro hit hhit
    have hdocid : hit.docid ∈ (svc.index.search scores topK.toNat).map SearchHit.docid := List.mem_map_of_mem hhit
    rw [docids_search] at hdocid
    have hindexed := List.mem_of_mem_take hdocid
    rw [List.mem_insertionSort, List.mem_insertionSort] at hindexed
    obtain ⟨document, hdocument⟩ := Dict.mem_keys_iff.mp (svc.covered hit.docid hindexed)
    obtain ⟨id, hid⟩ := @occurrenceId_returns svc _ hquery topK hit.rank document.url
    unfold RetrievalService.record
    rw [hdocument]
    simp only [hid, returns_ok]
  obtain ⟨records, hrecords⟩ := hrecords
  have hchecked : Returns (records.mapM RetrievalService.checkFinite) := by
    rw [returns_mapM]
    intro row hrow
    obtain ⟨i, hi⟩ := List.mem_iff_getElem?.mp hrow
    have hmap := congrArg (fun l => l[i]?) (mapM_ok.mp hrecords)
    simp only [List.getElem?_map, hi, Option.map_some, Option.map_eq_some_iff] at hmap
    obtain ⟨hit, hhit, hrecord⟩ := hmap
    obtain ⟨q, hq⟩ := hfinite hit.docid
    have hscore : row.score = .finite q := by
      rw [(record_ok hrecord).2.2.1, (rank_search hhit).2, hq]
    unfold RetrievalService.checkFinite
    rw [hscore]
    exact returns_ok row
  obtain ⟨results, hresults⟩ := hchecked
  unfold RetrievalService.ranked
  rw [hscores]
  exact ⟨_, bind_ok.mpr ⟨records, hrecords, bind_ok.mpr ⟨results, hresults, rfl⟩⟩⟩

/-- The identity of a health answer, read back, has the digest beside it; and a client verified
against the service yields an answer's rows exactly where no ranked document has the empty docid. -/
theorem service_client_agree (hhex : HexDigest svc.sha256Hex) :
    (∀ live, ∃ health identity, receive svc.floats (svc.send (svc.health live)) = .ok health ∧
      Members.get health "retriever" = .obj identity ∧
      Members.get health "retriever_id" = text svc.retrieverId ∧
      requireIdSummarisesIdentity svc.sha256Hex svc.floats (pyStr svc.retrieverId) identity = .ok ()) ∧
    ∀ live pins health retrieverId, receive svc.floats (svc.send (svc.health live)) = .ok health →
      verify svc.sha256Hex svc.floats pins health = .ok retrieverId →
      ∀ query topK answer, svc.search query topK = .ok answer →
        query = .str answer.query ∧ topK = .int answer.topK ∧
        (Yields svc retrieverId answer ↔ ∀ row ∈ answer.results, row.docid ≠ "") := by
  constructor
  · intro live
    obtain ⟨identity, hget, hidentity⟩ := retriever_health live
    exact ⟨_, identity, receive_health live, hget, retrieverId_health live, identity_reverifies hidentity⟩
  · intro live pins health retrieverId hreceive hverify query topK answer hanswer
    rw [receive_health, Except.ok.injEq] at hreceive
    subst hreceive
    obtain ⟨hquery, htopK, hranked⟩ := ranked_of_search hhex hanswer
    refine ⟨hquery, htopK, ?_⟩
    rw [verified_retrieverId hverify]
    exact yields_iff hranked

end

/-! ## One service -/

theorem zeroText_literal : ∀ q : ℚ, q = 0 → FloatLiteral "0.0".toList := by
  rintro - -
  refine ⟨false, ['0'], ['.', '0'], [], .inl rfl, .inr ⟨['0'], ⟨by simp, by simp⟩, rfl⟩, .inl rfl, by simp, rfl⟩

/-- Zero is the only double. -/
def zeroFloats : FloatText where
  IsDouble := fun q => q = 0
  text := fun _ => "0.0".toList
  value := fun _ => .finite 0
  literal := zeroText_literal
  value_text := fun _ hq => by rw [hq]
  value_double := fun _ _ hq => (PyFloat.finite.inj hq).symm

def zeroDigest (_ : ByteArray) : String := String.ofList (List.replicate 64 '0')

theorem isHex64_zeros : isHex64 (pyStr (String.ofList (List.replicate 64 '0'))) = true := by decide

theorem hexDigest_zeroDigest : HexDigest zeroDigest := fun _ => isHex64_zeros

/-- One document under one docid. -/
def onePage (docid : String) : Deployment where
  floats := zeroFloats
  sha256Hex := zeroDigest
  index := ⟨[docid], List.nodup_singleton docid, 8, []⟩
  corpus := ⟨Dict.empty.set docid ⟨"body", "u"⟩, []⟩
  spec := ⟨"encoder", "r1", 512, 512, "last", true, "bfloat16", "left"⟩
  conformance := ⟨"c1", true, "bfloat16", 1, .int 0, .int 1, 1, trivial, trivial⟩
  freeze := some ⟨"f1", true, 10, true⟩
  maxTopK := 10
  maxQueryChars := 100
  nonempty := List.cons_ne_nil docid []
  covered := fun _ h => Dict.mem_keys_set.mpr (.inr (List.mem_singleton.mp h))

theorem zero_isDouble : ∀ (_ : PyStr) (f : String → PyFloat) (docid : String) (q : ℚ),
    some (fun _ : String => PyFloat.finite 0) = some f → f docid = .finite q → zeroFloats.IsDouble q := by
  rintro - f docid q hf hq
  cases hf
  exact (PyFloat.finite.inj hq).symm

def onePageService (docid : String) : RetrievalService where
  toDeployment := onePage docid
  retrieverId := zeroDigest ByteArray.empty
  identified := by
    rw [canonicalJson_admitted (admitted_identity (onePage docid))]
    rfl
  scores := fun _ => some fun _ => .finite 0
  doubles := zero_isDouble

theorem onePage_answers (docid : String) :
    ∃ answer, (onePageService docid).search (.str (pyStr "q")) (.int 1) = .ok answer ∧
      answer.results.map Row.docid = [docid] := by
  obtain ⟨answer, hanswer⟩ := @ranked_returns (onePageService docid) (pyStr "q") _
    (pyStr_encodable _) rfl (fun _ => ⟨0, rfl⟩) 1
  refine ⟨answer, hanswer, ?_⟩
  obtain ⟨-, -, scores, -, hrecords, -⟩ := ranked_ok hanswer
  rw [← docids_of_records (mapM_forall₂.mp hrecords), docids_search]
  rfl

def freshStart (docid : String) : RetrievalService.Live (onePageService docid).floats :=
  ⟨true, 0, 0, 0, 0, rfl, 0, 10, "cpu", 8, ""⟩

/-- A client that pins nothing but a freeze in force. -/
def freezeInForce : Pins := ⟨[], [], true⟩

theorem onePage_verifies (docid : String) :
    ∃ health, receive (onePageService docid).floats
        ((onePageService docid).send ((onePageService docid).health (freshStart docid))) = .ok health ∧
      verify (onePageService docid).sha256Hex (onePageService docid).floats freezeInForce health =
        .ok (pyStr (onePageService docid).retrieverId) := by
  refine ⟨_, receive_health (freshStart docid), ?_⟩
  obtain ⟨identity, hget, hidentity⟩ := retriever_health (freshStart docid)
  have hfreeze : Members.get identity "freeze" = sortKeys (onePage docid).freezeContent := by
    have hwire := Json.obj.inj ((sortKeys_document _).symm.trans hidentity)
    rw [← hwire]
    exact get_wire (by simp [DistinctFields]) "freeze"
  have hforce : checkFreeze freezeInForce (sortKeys (onePage docid).freezeContent) = .ok () := by
    have heffective : Members.get (wire [("digest", text "f1"), ("effective", .bool true), ("top_k", .int 10),
        ("full_document", .bool true)]) "effective" = .bool true := get_wire (by simp [DistinctFields]) "effective"
    have hcontent : (onePage docid).freezeContent = document [("digest", text "f1"), ("effective", .bool true),
      ("top_k", .int 10), ("full_document", .bool true)] := rfl
    rw [hcontent, sortKeys_eq_wire]
    simp only [checkFreeze, freezeInForce, heffective]
    rfl
  have hhex : matchesHex64 (pyStr (onePageService docid).retrieverId) = true := by
    unfold matchesHex64
    rw [show isHex64 (pyStr (onePageService docid).retrieverId) = true from isHex64_zeros, Bool.true_or]
  unfold verify
  rw [hget, retrieverId_health]
  simp only [Retrieval.text, hhex, if_true, hfreeze]
  rw [identity_reverifies hidentity, ok_bind, hforce]
  rfl

/-- An indexed document with the empty docid: the service answers, the client it verified refuses. -/
theorem emptyDocid_refused :
    ∃ health answer, receive (onePageService "").floats
        ((onePageService "").send ((onePageService "").health (freshStart ""))) = .ok health ∧
      verify (onePageService "").sha256Hex (onePageService "").floats freezeInForce health =
        .ok (pyStr (onePageService "").retrieverId) ∧
      (onePageService "").search (.str (pyStr "q")) (.int 1) = .ok answer ∧
      ¬ Yields (onePageService "") (pyStr (onePageService "").retrieverId) answer := by
  obtain ⟨health, hreceive, hverify⟩ := onePage_verifies ""
  obtain ⟨answer, hanswer, hdocids⟩ := onePage_answers ""
  refine ⟨health, answer, hreceive, hverify, hanswer, ?_⟩
  have hhex : HexDigest (onePageService "").sha256Hex := hexDigest_zeroDigest
  obtain ⟨-, -, hranked⟩ := ranked_of_search hhex hanswer
  rw [yields_iff hranked]
  intro hnamed
  have hmem : "" ∈ answer.results.map Row.docid := hdocids ▸ List.mem_singleton_self ""
  obtain ⟨row, hrow, hempty⟩ := List.mem_map.mp hmem
  exact hnamed row hrow hempty

theorem service_client_agree_onePage :
    ∃ answer, (onePageService "d1").search (.str (pyStr "q")) (.int 1) = .ok answer ∧
      Yields (onePageService "d1") (pyStr (onePageService "d1").retrieverId) answer := by
  obtain ⟨health, hreceive, hverify⟩ := onePage_verifies "d1"
  obtain ⟨answer, hanswer, hdocids⟩ := onePage_answers "d1"
  have hhex : HexDigest (onePageService "d1").sha256Hex := hexDigest_zeroDigest
  obtain ⟨-, -, hagree⟩ := (service_client_agree hhex).2 (freshStart "d1") freezeInForce health _ hreceive hverify
    (.str (pyStr "q")) (.int 1) answer hanswer
  refine ⟨answer, hanswer, hagree.mpr fun row hrow hempty => ?_⟩
  have hmem : row.docid ∈ answer.results.map Row.docid := List.mem_map_of_mem hrow
  rw [hdocids, hempty] at hmem
  simp at hmem

end Shapeflow.Retrieval
