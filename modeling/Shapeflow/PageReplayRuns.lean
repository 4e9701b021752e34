import Shapeflow.PageReplayFaithful
import Shapeflow.RetrievalAgreement

set_option autoImplicit false

/-!
# Replaying a run

A cell's searches go through the retrieval client, which notes each answer in its
trace; the cell's output keeps what was noted while it ran. From the traces the
replay finds the documents again, and a strategy decides over the pages it rebuilt
as it did over those the cell had.
-/
namespace Shapeflow.Replay
open Evidence Py Utf8 Canonical Seam Retrieval
open PageH (VendorVisibleResult HCheckpoint)
open PageStrategy (PageSelectionStrategy Selectors sourceGroup groupsFor transformOneToolCall transformToolBatch)
open Script Fallible

/-! ## An occurrence names one document -/

def snapshotFields (query : PyStr) (topK : ℤ) : List (String × Json) :=
  [("query", .str query), ("params", document [("top_k", .int topK)]),
    ("api_version", Retrieval.text "bcplus-dense-v1"), ("schema_version", Retrieval.text "v1")]

def occurrenceFields (snapshot : String) (rank : ℕ) (url : String) : List (String × Json) :=
  [("query_snapshot_id", Retrieval.text snapshot), ("rank", .int rank), ("url", Retrieval.text url)]

section
variable {svc : RetrievalService}

/-- What is hashed for the fields of an identifier. -/
def Preimage (svc : RetrievalService) (domain : String) (fields : List (String × Json)) (raw : ByteArray) : Prop :=
  ∃ payload, canonicalJson svc.floats (ofJson (document fields)) = .ok payload ∧
    preimage (pyStr domain) payload = .ok raw

/-- What is hashed for the results of an answer. -/
inductive Hashed (svc : RetrievalService) (answer : Answer) : ByteArray → Prop
  | snapshot {raw : ByteArray} :
    Preimage svc "query_snapshot" (snapshotFields answer.query answer.topK) raw → Hashed svc answer raw
  | occurrence {row : Row} {snapshot raw : ByteArray} : row ∈ answer.results →
    Preimage svc "query_snapshot" (snapshotFields answer.query answer.topK) snapshot →
    Preimage svc "occurrence" (occurrenceFields (svc.sha256Hex snapshot) row.rank row.url) raw → Hashed svc answer raw

theorem distinct_snapshotFields (query : PyStr) (topK : ℤ) : DistinctFields (snapshotFields query topK) := by
  simp [DistinctFields, snapshotFields]

theorem distinct_occurrenceFields (snapshot : String) (rank : ℕ) (url : String) :
    DistinctFields (occurrenceFields snapshot rank url) := by
  simp [DistinctFields, occurrenceFields]

theorem isPython_snapshotFields (floats : FloatText) (query : PyStr) (topK : ℤ) :
    IsPython floats (ofJson (document (snapshotFields query topK))) := by
  refine isPython_document (distinct_snapshotFields query topK) ?_
  simp only [snapshotFields, List.forall_mem_cons, List.not_mem_nil, false_implies, implies_true, and_true]
  refine ⟨trivial, isPython_document (by simp [DistinctFields]) ?_, trivial, trivial⟩
  simp only [List.forall_mem_cons, List.not_mem_nil, false_implies, implies_true, and_true]
  trivial

theorem isPython_occurrenceFields (floats : FloatText) (snapshot : String) (rank : ℕ) (url : String) :
    IsPython floats (ofJson (document (occurrenceFields snapshot rank url))) := by
  refine isPython_document (distinct_occurrenceFields snapshot rank url) ?_
  simp only [occurrenceFields, List.forall_mem_cons, List.not_mem_nil, false_implies, implies_true, and_true]
  exact ⟨trivial, trivial, trivial⟩

/-- The id of a hit is a digest of a digest. -/
theorem preimages_of_occurrenceId {query : PyStr} {topK : ℤ} {rank : ℕ} {url id : String}
    (h : svc.occurrenceId query topK rank url = .ok id) :
    ∃ snapshot raw, Preimage svc "query_snapshot" (snapshotFields query topK) snapshot ∧
      Preimage svc "occurrence" (occurrenceFields (svc.sha256Hex snapshot) rank url) raw ∧ id = svc.sha256Hex raw := by
  obtain ⟨snapshot, hsnapshot, hid⟩ := bind_ok.mp h
  obtain ⟨payload, raw, hpayload, hraw, rfl⟩ := deriveId_ok hsnapshot
  obtain ⟨payload', raw', hpayload', hraw', rfl⟩ := deriveId_ok hid
  exact ⟨raw, raw', ⟨payload, hpayload, hraw⟩, ⟨payload', hpayload', hraw'⟩, rfl⟩

theorem sameValue_of_preimages {domain : String} {fields fields' : List (String × Json)} {raw : ByteArray}
    (hv : IsPython svc.floats (ofJson (document fields))) (hw : IsPython svc.floats (ofJson (document fields')))
    (h : Preimage svc domain fields raw) (h' : Preimage svc domain fields' raw) :
    SameValue (document fields) (document fields') := by
  obtain ⟨payload, hpayload, hraw⟩ := h
  obtain ⟨payload', hpayload', hraw'⟩ := h'
  exact sameValue_of_preimage hv hw hpayload hpayload' hraw hraw'

theorem snapshot_injective {query query' : PyStr} {topK topK' : ℤ} {raw : ByteArray}
    (h : Preimage svc "query_snapshot" (snapshotFields query topK) raw)
    (h' : Preimage svc "query_snapshot" (snapshotFields query' topK') raw) : query = query' ∧ topK = topK' := by
  have hsame := sameValue_of_preimages (isPython_snapshotFields _ query topK)
    (isPython_snapshotFields _ query' topK') h h'
  have hfield := field?_sameValue (distinct_snapshotFields query topK) (distinct_snapshotFields query' topK') hsame
  have hquery := hfield "query"
  have hparams := hfield "params"
  constructor
  · simpa [snapshotFields, field?, sortKeys] using hquery
  · have hsorted : SameValue (document [("top_k", .int topK)]) (document [("top_k", .int topK')]) := by
      simpa [snapshotFields, field?, SameValue] using hparams
    have htopK := field?_sameValue (by simp [DistinctFields]) (by simp [DistinctFields]) hsorted "top_k"
    simpa [field?, sortKeys] using htopK

theorem occurrence_injective {snapshot snapshot' url url' : String} {rank rank' : ℕ} {raw : ByteArray}
    (h : Preimage svc "occurrence" (occurrenceFields snapshot rank url) raw)
    (h' : Preimage svc "occurrence" (occurrenceFields snapshot' rank' url') raw) : snapshot = snapshot' ∧ rank = rank' := by
  have hsame := sameValue_of_preimages (isPython_occurrenceFields _ snapshot rank url)
    (isPython_occurrenceFields _ snapshot' rank' url') h h'
  have hfield := field?_sameValue (distinct_occurrenceFields snapshot rank url)
    (distinct_occurrenceFields snapshot' rank' url') hsame
  have hsnapshot := hfield "query_snapshot_id"
  have hrank := hfield "rank"
  constructor
  · exact pyStr_injective (by simpa [occurrenceFields, field?, sortKeys, Retrieval.text] using hsnapshot)
  · simpa [occurrenceFields, field?, sortKeys] using hrank

/-- A result of an answer is the record of a hit of its search. -/
theorem recorded {query topK : Json} {answer : Answer} (h : svc.search query topK = .ok answer) {row : Row}
    (hrow : row ∈ answer.results) :
    svc.occurrenceId answer.query answer.topK row.rank row.url = .ok row.occurrenceId ∧
      ∃ document, svc.corpus.docs.get? row.docid = some document ∧ row.text = document.text := by
  have hranked : svc.ranked answer.query answer.topK = .ok answer := by
    unfold RetrievalService.search at h
    split at h
    · split_ifs at h
      obtain ⟨rfl, rfl, -⟩ := ranked_ok h
      exact h
    · split_ifs at h
    · cases h
  obtain ⟨-, -, scores, -, hrecords, -⟩ := ranked_ok hranked
  obtain ⟨hit, -, hrecord⟩ := mem_mapM hrecords hrow
  obtain ⟨-, hrank, -, hid⟩ := record_ok hrecord
  rw [← hrank] at hid
  refine ⟨hid, ?_⟩
  unfold RetrievalService.record at hrecord
  split at hrecord
  · cases hrecord
  · rename_i document hdocument
    split at hrecord
    · cases hrecord
    · cases hrecord
      exact ⟨document, hdocument, rfl⟩

/-- Rows of one rank, in an answer ranked from a position, are one row. -/
theorem eq_of_rank : ∀ {rows : List Row} {position : ℕ}, RanksFrom position rows → ∀ {row row' : Row}, row ∈ rows →
    row' ∈ rows → row.rank = row'.rank → row = row'
  | first :: rows, position, hranks, row, row', hrow, hrow', hrank => by
    have hlater : ∀ {rows : List Row} {position : ℕ}, RanksFrom position rows → ∀ r ∈ rows, position ≤ r.rank := by
      intro rows
      induction rows with
      | nil => exact fun _ => nofun
      | cons r rows ih =>
        rintro position ⟨rfl, hrest⟩ r' hr'
        rcases List.mem_cons.mp hr' with rfl | hr'
        · exact le_rfl
        · exact (Nat.le_succ _).trans (ih hrest r' hr')
    obtain ⟨rfl, hrest⟩ := hranks
    rcases List.mem_cons.mp hrow with rfl | hin <;> rcases List.mem_cons.mp hrow' with rfl | hin'
    · rfl
    · exact absurd (hlater hrest row' hin') (by omega)
    · exact absurd (hlater hrest row hin) (by omega)
    · exact eq_of_rank hrest hin hin' hrank

/-- Over answers whose hashes are apart, an occurrence id is of one document. -/
theorem docid_of_occurrence (hhex : HexDigest svc.sha256Hex) (answers : Set Answer)
    (hanswered : ∀ answer ∈ answers, ∃ query topK, svc.search query topK = .ok answer)
    (happart : Set.InjOn svc.sha256Hex {raw | ∃ answer ∈ answers, Hashed svc answer raw}) {answer answer' : Answer}
    (hanswer : answer ∈ answers) (hanswer' : answer' ∈ answers) {row row' : Row} (hrow : row ∈ answer.results)
    (hrow' : row' ∈ answer'.results) (hid : row.occurrenceId = row'.occurrenceId) : row.docid = row'.docid := by
  obtain ⟨query, topK, hsearch⟩ := hanswered answer hanswer
  obtain ⟨query', topK', hsearch'⟩ := hanswered answer' hanswer'
  obtain ⟨snapshot, raw, hsnapshot, hraw, hrowId⟩ := preimages_of_occurrenceId (recorded hsearch hrow).1
  obtain ⟨snapshot', raw', hsnapshot', hraw', hrowId'⟩ := preimages_of_occurrenceId (recorded hsearch' hrow').1
  have hsameRaw : raw = raw' := by
    refine happart ⟨answer, hanswer, .occurrence hrow hsnapshot hraw⟩
      ⟨answer', hanswer', .occurrence hrow' hsnapshot' hraw'⟩ ?_
    rw [← hrowId, ← hrowId', hid]
  subst hsameRaw
  obtain ⟨hdigest, hrank⟩ := occurrence_injective hraw hraw'
  have hsameSnapshot : snapshot = snapshot' :=
    happart ⟨answer, hanswer, .snapshot hsnapshot⟩ ⟨answer', hanswer', .snapshot hsnapshot'⟩ hdigest
  subst hsameSnapshot
  obtain ⟨hquery, htopK⟩ := snapshot_injective hsnapshot hsnapshot'
  obtain ⟨rfl, rfl, hranked⟩ := ranked_of_search hhex hsearch
  obtain ⟨rfl, rfl, -⟩ := ranked_of_search hhex hsearch'
  rw [hquery, htopK, hsearch'] at hsearch
  cases hsearch
  rw [eq_of_rank hranked.ranks hrow hrow' hrank]

/-! ## Searching through the client -/

inductive ClientRaised
  | refused (e : ServiceError)
  | emptyDocid

def recordOf (row : Row) : SearchRecord where
  url := row.url
  title := row.title
  content := row.snippet
  rawContent := some row.text
  score := row.score
  occurrenceId := row.occurrenceId

/-- What the client appends to its trace for an answer. -/
def rowOf (query : String) (topK : ℤ) (answer : Answer) : TraceRow where
  query := query
  topK := topK
  docids := answer.results.map Row.docid
  scores := answer.results.map Row.score
  occurrenceIds := answer.results.map Row.occurrenceId

/-- `RetrievalClient.search` of a client that has verified the service: the one thing it refuses of an answer is an
    empty docid. -/
def clientSearch (svc : RetrievalService) (query : String) (maxResults : ℤ) :
    Script (List TraceRow) ClientRaised (List SearchRecord) := fun trace =>
  match svc.search (.str (pyStr query)) (.int maxResults) with
  | .error e => (.error (.refused e), trace)
  | .ok answer =>
    if answer.results.any fun row => row.docid = "" then (.error .emptyDocid, trace)
    else (.ok (answer.results.map recordOf), trace ++ [rowOf query maxResults answer])

/-- The client hands over an answer exactly when the bytes the service sent pass its checks. -/
theorem clientSearch_returns (hhex : HexDigest svc.sha256Hex) (query : String) (maxResults : ℤ)
    (trace : List TraceRow) :
    Returns (clientSearch svc query maxResults trace).1 ↔
      ∃ answer, svc.search (.str (pyStr query)) (.int maxResults) = .ok answer ∧
        Yields svc (pyStr svc.retrieverId) answer := by
  unfold clientSearch
  cases hsearch : svc.search (.str (pyStr query)) (.int maxResults) with
  | error e => simp
  | ok answer =>
    obtain ⟨-, -, hranked⟩ := ranked_of_search hhex hsearch
    simp only [Except.ok.injEq, exists_eq_left', yields_iff hranked]
    split
    · rename_i hempty
      simpa using hempty
    · rename_i hnamed
      simpa using hnamed

/-- A row of a trace that a client of the service wrote. -/
def Answered (svc : RetrievalService) (row : TraceRow) : Prop :=
  ∃ answer, svc.search (.str (pyStr row.query)) (.int row.topK) = .ok answer ∧ row = rowOf row.query row.topK answer

/-- What one search does to a trace: nothing, or it notes the answer whose records it hands over. -/
theorem clientSearch_cases (svc : RetrievalService) (query : String) (maxResults : ℤ) (trace : List TraceRow) :
    (∃ e, clientSearch svc query maxResults trace = (.error e, trace)) ∨
      ∃ answer, svc.search (.str (pyStr query)) (.int maxResults) = .ok answer ∧
        clientSearch svc query maxResults trace =
          (.ok (answer.results.map recordOf), trace ++ [rowOf query maxResults answer]) := by
  unfold clientSearch
  cases svc.search (.str (pyStr query)) (.int maxResults) with
  | error e => exact .inl ⟨_, rfl⟩
  | ok answer =>
    simp only []
    split
    · exact .inl ⟨_, rfl⟩
    · exact .inr ⟨answer, rfl, rfl⟩

/-! ## Cells -/

/-- The seam over the client. -/
def clientSeam (svc : RetrievalService) (budget : SharedContentBudget) (tokenizer : Option Tokenizer) (topK : ℤ) :
    BudgetedBackend (List TraceRow) ClientRaised := ⟨clientSearch svc, some budget, tokenizer, topK⟩

variable {budget : SharedContentBudget} {tokenizer : Option Tokenizer} {topK : ℤ}

/-- A trace only grows, by rows of answers. -/
theorem trace_grows {trace now : List TraceRow} (h : Reaches (clientSeam svc budget tokenizer topK) trace now) :
    ∃ rows, now = trace ++ rows ∧ ∀ row ∈ rows, Answered svc row := by
  induction h with
  | refl => exact ⟨[], (List.append_nil trace).symm, nofun⟩
  | @tail mid _ _ hstep ih =>
    obtain ⟨rows, rfl, hrows⟩ := ih
    obtain ⟨query, maxResults, rfl⟩ := hstep
    rcases clientSearch_cases svc query maxResults (trace ++ rows) with ⟨e, hrun⟩ | ⟨answer, hsearch, hrun⟩
    · exact ⟨rows, after_of_error hrun, hrows⟩
    · refine ⟨rows ++ [rowOf query maxResults answer], ?_, fun row hrow => ?_⟩
      · rw [← List.append_assoc]
        exact after_of_ok hrun
      · rcases List.mem_append.mp hrow with hrow | hrow
        · exact hrows row hrow
        · rw [List.mem_singleton.mp hrow]
          exact ⟨answer, hsearch, rfl⟩

/-- What was offered since a moment is noted in the trace since then. -/
theorem offered_noted {start now : List TraceRow} {record : SearchRecord}
    (h : Offered (clientSeam svc budget tokenizer topK) start record now) :
    ∃ row ∈ now.drop start.length, ∃ answer, svc.search (.str (pyStr row.query)) (.int row.topK) = .ok answer ∧
      row = rowOf row.query row.topK answer ∧ ∃ result ∈ answer.results, record = recordOf result := by
  obtain ⟨query, maxResults, a, records, b, hbefore, hrun, hrecord, hafter⟩ := h
  obtain ⟨rows, rfl, -⟩ := trace_grows hbefore
  obtain ⟨later, rfl, -⟩ := trace_grows hafter
  have hclient : clientSearch svc query maxResults (start ++ rows) = (.ok records, b) := hrun
  rcases clientSearch_cases svc query maxResults (start ++ rows) with ⟨e, hcase⟩ | ⟨answer, hsearch, hcase⟩
  · rw [hcase] at hclient
    cases hclient
  · rw [hcase] at hclient
    cases hclient
    obtain ⟨result, hresult, rfl⟩ := List.mem_map.mp hrecord
    refine ⟨rowOf query maxResults answer, ?_, answer, hsearch, rfl, result, hresult, rfl⟩
    rw [List.append_assoc, List.append_assoc, List.drop_left]
    exact List.mem_append_right _ (List.mem_append_left _ (List.mem_singleton_self _))

/-- A cell that ran: the client's trace before it, its searches up to a moment and those after it. -/
structure RanCell where
  trace : List TraceRow
  calls : List SearchCall
  later : List SearchCall

section
variable (svc budget tokenizer topK) (cell : RanCell)

/-- The results up to the moment and what there is then; a cell starts with no pages. -/
def RanCell.served : List SearchRecord × SeamStore (List TraceRow) :=
  serve svc.sha256Hex (clientSeam svc budget tokenizer topK) cell.calls
    ⟨cell.trace, PageRegistry.empty, Dict.empty, []⟩

/-- What there is when the cell ends. -/
def RanCell.ended : SeamStore (List TraceRow) :=
  (serve svc.sha256Hex (clientSeam svc budget tokenizer topK) cell.later (cell.served svc budget tokenizer topK).2).2

/-- The slice of the client's trace that the cell's output keeps. -/
def RanCell.retrievalTrace : List TraceRow := (cell.ended svc budget tokenizer topK).backend.drop cell.trace.length

/-- A checkpoint captured at the moment: its pages are results handed to the graph, as vendor reads them. -/
def RanCell.Captured (maxContentLength : ℕ) (checkpoint : HCheckpoint) : Prop :=
  ∀ page ∈ pagesOf checkpoint, ∃ result ∈ (cell.served svc budget tokenizer topK).1, ∃ order,
    page = visibleResult svc.sha256Hex maxContentLength order result

/-- The reconstructor of a replay of the run: the run's corpus, budget and tokenizer. -/
def reconstructor (index : OccurrenceIndex) : PageReconstructor := ⟨svc.sha256Hex, svc.corpus, budget, tokenizer, index⟩

/-- What is left of the run: rows its clients wrote, with no two of the texts hashed for them, and no two of the
    corpus's pages, under one digest. -/
structure Archive (rows : List TraceRow) : Prop where
  answered : ∀ row ∈ rows, Answered svc row
  apart : Set.InjOn svc.sha256Hex {raw | ∃ row ∈ rows, ∃ answer,
    svc.search (.str (pyStr row.query)) (.int row.topK) = .ok answer ∧ Hashed svc answer raw}
  pages : Apart svc.sha256Hex (bodies (reconstructor svc budget tokenizer .empty))

end

theorem parallel_rowOf (query : String) (topK : ℤ) (answer : Answer) : Parallel (rowOf query topK answer) := by
  simp [Parallel, rowOf]

theorem mem_pairsOf_rowOf {query o x : String} {topK : ℤ} {answer : Answer} :
    (o, x) ∈ pairsOf (rowOf query topK answer) ↔
      ∃ result ∈ answer.results, result.occurrenceId = o ∧ result.docid = x := by
  rw [pairsOf, rowOf, List.zip_map', List.mem_map]
  simp only [Prod.mk.injEq]

variable {rows : List TraceRow}

theorem Archive.functional (harchive : Archive svc budget tokenizer rows) (hhex : HexDigest svc.sha256Hex) :
    Functional (rows.flatMap pairsOf) := by
  intro o x y hx hy
  obtain ⟨row, hrow, hx⟩ := List.mem_flatMap.mp hx
  obtain ⟨row', hrow', hy⟩ := List.mem_flatMap.mp hy
  obtain ⟨answer, hsearch, heq⟩ := harchive.answered row hrow
  obtain ⟨answer', hsearch', heq'⟩ := harchive.answered row' hrow'
  rw [heq] at hx
  rw [heq'] at hy
  obtain ⟨result, hresult, hid, rfl⟩ := mem_pairsOf_rowOf.mp hx
  obtain ⟨result', hresult', hid', rfl⟩ := mem_pairsOf_rowOf.mp hy
  refine docid_of_occurrence hhex {answer | ∃ row ∈ rows,
    svc.search (.str (pyStr row.query)) (.int row.topK) = .ok answer} ?_ (harchive.apart.mono ?_)
    ⟨row, hrow, hsearch⟩ ⟨row', hrow', hsearch'⟩ hresult hresult' (hid.trans hid'.symm)
  · rintro answer ⟨row, -, hsearch⟩
    exact ⟨_, _, hsearch⟩
  · rintro raw ⟨answer, ⟨row, hrow, hsearch⟩, hhashed⟩
    exact ⟨row, hrow, answer, hsearch, hhashed⟩

/-! ## Pages of a cell -/

/-- What the budget leaves of a served page is what is left of its document. -/
theorem truncatedText_of_bounds {query topK' : Json} {answer : Answer} (h : svc.search query topK' = .ok answer)
    {row : Row} (hrow : row ∈ answer.results) {raw : String}
    (hbounds : Bounds (clientSeam svc budget tokenizer topK) budget (recordOf row) raw) (index : OccurrenceIndex) :
    truncatedText (reconstructor svc budget tokenizer index) row.docid = .ok (some raw) := by
  obtain ⟨-, document, hdocument, htext⟩ := recorded h hrow
  obtain ⟨shared, hshared, rfl⟩ := hbounds
  change applySharedBudget row.text.toList budget tokenizer = .ok shared at hshared
  rw [htext] at hshared
  unfold truncatedText reconstructor
  simp only [hdocument, hshared]

theorem serves_bodies : Serves (clientSeam svc budget tokenizer topK) budget
    (bodies (reconstructor svc budget tokenizer .empty)) := by
  intro query maxResults a records b hrun record hrecord raw hbounds _
  have hclient : clientSearch svc query maxResults a = (.ok records, b) := hrun
  rcases clientSearch_cases svc query maxResults a with ⟨e, hcase⟩ | ⟨answer, hsearch, hcase⟩
  · rw [hcase] at hclient
    cases hclient
  · rw [hcase] at hclient
    cases hclient
    obtain ⟨row, hrow, rfl⟩ := List.mem_map.mp hrecord
    exact ⟨row.docid, truncatedText_of_bounds hsearch hrow hbounds .empty⟩

theorem ne_empty_of_hex (hhex : HexDigest svc.sha256Hex) (raw : ByteArray) : svc.sha256Hex raw ≠ "" := by
  intro hempty
  have h := hhex raw
  rw [hempty] at h
  exact absurd h (by decide)

/-- A page with content that the cell captured: what its strategy reads of it is what the replay recovers. -/
theorem recovered_of_captured (hhex : HexDigest svc.sha256Hex) (harchive : Archive svc budget tokenizer rows)
    {maxContentLength : ℕ} (hlength : budget.maxChars ≤ maxContentLength) {cell : RanCell}
    (hkept : ∀ row ∈ cell.retrievalTrace svc budget tokenizer topK, row ∈ rows) {index : OccurrenceIndex}
    (hindex : Indexes index (rows.flatMap pairsOf)) {result : SearchRecord}
    (hresult : result ∈ (cell.served svc budget tokenizer topK).1) {order : ℕ} {id : String}
    (hid : (visibleResult svc.sha256Hex maxContentLength order result).rawContentId = some id) :
    result.occurrenceId ≠ "" ∧ id ≠ "" ∧
      ∃ docid, Recovered (reconstructor svc budget tokenizer index)
        (visibleResult svc.sha256Hex maxContentLength order result) docid
        ((cell.served svc budget tokenizer topK).2.pages.textFor id) := by
  have hsearching : Searching svc.sha256Hex (clientSeam svc budget tokenizer topK)
      (bodies (reconstructor svc budget tokenizer .empty)) cell.trace
      ⟨cell.trace, PageRegistry.empty, Dict.empty, []⟩ := ⟨files_empty, .refl⟩
  obtain ⟨hmoved, hhanded⟩ := serve_handed harchive.pages serves_bodies rfl cell.calls hsearching
  obtain ⟨hlater, -⟩ :=
    serve_handed harchive.pages serves_bodies rfl cell.later (moved_frame.keeps hsearching hmoved)
  obtain ⟨record, made, hoffered, hmade, hcase⟩ := hhanded result hresult
  obtain ⟨raw, hraw, hne⟩ : ∃ raw, result.rawContent = some raw ∧ raw ≠ "" := by
    unfold visibleResult visibleRaw at hid
    cases hcontent : result.rawContent with
    | none => simp [hcontent] at hid
    | some raw =>
      refine ⟨raw, rfl, fun hempty => ?_⟩
      simp [hcontent, hempty] at hid
  obtain rfl : result = made := by
    rcases hcase with rfl | rfl
    · rfl
    · cases hraw
  have hbounds := hmade.bounds raw hraw hne
  have hdigest : id = contentId svc.sha256Hex raw := by
    unfold visibleResult at hid
    rw [visibleRaw_of_bounds hlength hraw hne hbounds] at hid
    exact (Option.some.inj hid).symm
  subst hdigest
  have htext : (cell.served svc budget tokenizer topK).2.pages.textFor (contentId svc.sha256Hex raw) = raw :=
    textFor_of_get? (hmade.onFile raw hraw hne)
  -- the answer the result is from is in the trace the cell's output kept
  obtain ⟨row, hrow, answer, hsearch, hnoted, served, hserved, rfl⟩ := offered_noted (hoffered.moved hlater)
  have hoccurrence : result.occurrenceId = served.occurrenceId := by
    rw [hmade.same]
    rfl
  have hpair : (served.occurrenceId, served.docid) ∈ rows.flatMap pairsOf := by
    refine List.mem_flatMap.mpr ⟨row, hkept row hrow, ?_⟩
    rw [hnoted]
    exact mem_pairsOf_rowOf.mpr ⟨served, hserved, rfl, rfl⟩
  refine ⟨?_, ne_empty_of_hex hhex _, served.docid, ?_, ?_, ?_⟩
  · obtain ⟨digest, hderived⟩ := occurrenceId_derived (recorded hsearch hserved).1
    rw [hoccurrence, hderived]
    exact ne_empty_of_hex hhex digest
  · change index.docidFor result.occurrenceId = some served.docid
    rw [hoccurrence]
    exact (hindex.docid _ _).mpr hpair
  · rw [htext]
    exact truncatedText_of_bounds hsearch hserved hbounds index
  · rw [htext, hid]
    rfl

/-! ## Strategies -/

/-- A strategy over the pages of a registry. -/
def reading (strategy : PageSelectionStrategy) (pages : PageRegistry) : PageSelectionStrategy :=
  { strategy with rawTextFor := pages.textFor, occurrenceFor := pages.occurrenceFor }

variable {strategy : PageSelectionStrategy} {p q : PageRegistry}

/-- What a strategy makes of a page that was served depends on the text it finds for it only. -/
theorem sourceGroup_reading {page : VendorVisibleResult} (occurrenceId : String)
    (hoccurrence : page.sourceOccurrenceId = some occurrenceId) (hne : page.rawContentId ≠ none → occurrenceId ≠ "")
    (htext : ∀ id, page.rawContentId = some id → p.textFor id = q.textFor id) :
    sourceGroup (reading strategy p) page = sourceGroup (reading strategy q) page := by
  unfold sourceGroup
  cases hid : page.rawContentId with
  | none => rfl
  | some id =>
    have hsource : ∀ found, PageH.textOrElse page.sourceOccurrenceId found = occurrenceId := by
      intro found
      rw [hoccurrence]
      exact if_neg (hne (by rw [hid]; exact Option.some_ne_none id))
    simp only [reading, htext id hid, hsource]
    rfl

/-- A strategy decides alike over registries in which it finds the same groups. -/
theorem transformToolBatch_reading {checkpoint : HCheckpoint}
    (h : ∀ page ∈ pagesOf checkpoint, sourceGroup (reading strategy p) page = sourceGroup (reading strategy q) page)
    (topic : String) (selectors : ℕ → Selectors) :
    transformToolBatch (reading strategy p) topic checkpoint selectors =
      transformToolBatch (reading strategy q) topic checkpoint selectors := by
  have hgroups : ∀ set ∈ checkpoint.searchResultSets,
      groupsFor (reading strategy p) set.2 = groupsFor (reading strategy q) set.2 := by
    intro set hset
    unfold groupsFor
    rw [List.map_congr_left fun page hpage => h page (List.mem_flatMap.mpr ⟨set, hset, hpage⟩)]
    rfl
  have hcalls : ∀ e ∈ checkpoint.searchResultSets.zipIdx,
      transformOneToolCall (reading strategy p) topic checkpoint (selectors e.2) e.2 e.1.1 e.1.2 =
        transformOneToolCall (reading strategy q) topic checkpoint (selectors e.2) e.2 e.1.1 e.1.2 := by
    intro e he
    unfold transformOneToolCall
    rw [hgroups e.1 (List.mem_of_getElem? (List.mem_zipIdx_iff_getElem?.mp he))]
    rfl
  unfold transformToolBatch
  simp only [mapM_congr hcalls]
  rfl

/-! ## The replay of a run -/

/-- A checkpoint of a cell whose trace is kept is rebuilt, and every page it has is there. -/
theorem rebuilt_of_captured (hhex : HexDigest svc.sha256Hex) (harchive : Archive svc budget tokenizer rows)
    {maxContentLength : ℕ} (hlength : budget.maxChars ≤ maxContentLength) {cell : RanCell}
    (hkept : ∀ row ∈ cell.retrievalTrace svc budget tokenizer topK, row ∈ rows) {index : OccurrenceIndex}
    (hindex : Indexes index (rows.flatMap pairsOf)) {stored : StoredCheckpoint}
    (hcaptured : cell.Captured svc budget tokenizer topK maxContentLength stored.checkpoint) :
    ∃ batch, rebuildAfresh (reconstructor svc budget tokenizer index) stored = .ok batch ∧
      batch.complete = true := by
  have hpages : ∀ page ∈ pagesOf stored.checkpoint, page.rawContentId.getD "" ≠ "" →
      ∃ docid text, Recovered (reconstructor svc budget tokenizer index) page docid text := by
    intro page hpage hne
    obtain ⟨result, hresult, order, rfl⟩ := hcaptured page hpage
    cases hid : (visibleResult svc.sha256Hex maxContentLength order result).rawContentId with
    | none =>
      rw [hid] at hne
      exact absurd rfl hne
    | some id =>
      obtain ⟨-, -, docid, hrec⟩ := recovered_of_captured hhex harchive hlength hkept hindex hresult hid
      exact ⟨docid, _, hrec⟩
  have hreturns : Returns ((pagesOf stored.checkpoint).mapM
      (resolveAfresh (reconstructor svc budget tokenizer index))) := by
    refine returns_mapM.mpr fun page hpage => ?_
    by_cases hne : page.rawContentId.getD "" = ""
    · exact ⟨_, resolveAfresh_snippet hne⟩
    · obtain ⟨docid, text, hrec⟩ := hpages page hpage hne
      exact ⟨_, hrec.resolves hne⟩
  obtain ⟨pages, hmapped⟩ := hreturns
  have hbatch : rebuildAfresh (reconstructor svc budget tokenizer index) stored = .ok (batchOf stored pages) := by
    unfold rebuildAfresh
    rw [hmapped]
    rfl
  exact ⟨_, hbatch, (complete_iff hbatch).mpr hpages⟩

end

/-! ## A replayed cell -/

def snapshotText : ByteArray :=
  utf8 idPrefix ++ utf8 ((pyStr "query_snapshot").map rawChar) ++ utf8 [unitSeparator] ++
    utf8 (canonicalText zeroFloats (document (snapshotFields (pyStr "q") 1)))

/-- A digest that keeps the texts hashed for one search apart. -/
def sampleDigest (raw : ByteArray) : String :=
  String.ofList (List.replicate 64 (if raw.data = snapshotText.data then '0' else '1'))

theorem hexDigest_sampleDigest : HexDigest sampleDigest := by
  intro raw
  unfold sampleDigest
  split <;> decide

def sampleDeployment : Deployment := { onePage "d1" with sha256Hex := sampleDigest }

def sampleService : RetrievalService where
  toDeployment := sampleDeployment
  retrieverId := sampleDigest (utf8 (canonicalText zeroFloats sampleDeployment.identity))
  identified := by
    rw [canonicalJson_admitted (admitted_identity sampleDeployment)]
    rfl
  scores := fun _ => some fun _ => .finite 0
  doubles := zero_isDouble

theorem sample_answers : ∃ answer row, sampleService.search (.str (pyStr "q")) (.int 1) = .ok answer ∧
    answer.results = [row] ∧ row.docid = "d1" := by
  obtain ⟨answer, hanswer⟩ := @ranked_returns sampleService (pyStr "q") _ (pyStr_encodable _) rfl (fun _ => ⟨0, rfl⟩) 1
  obtain ⟨-, -, scores, -, hrecords, -⟩ := ranked_ok hanswer
  have hdocids : answer.results.map Row.docid = ["d1"] := by
    rw [← docids_of_records (mapM_forall₂.mp hrecords), docids_search]
    rfl
  obtain ⟨row, hrow, hdocid⟩ := List.map_eq_singleton_iff.mp hdocids
  exact ⟨answer, row, hanswer, hrow, hdocid⟩

def sampleBudget : SharedContentBudget := ⟨100, 100⟩

def sampleCell : RanCell := ⟨[], [⟨["q"], 1, "general", true⟩], []⟩

theorem sample_trace {answer : Answer} (h : sampleService.search (.str (pyStr "q")) (.int 1) = .ok answer)
    {row : Row} (hrow : answer.results = [row]) (hdocid : row.docid = "d1") :
    sampleCell.retrievalTrace sampleService sampleBudget none 1 = [rowOf "q" 1 answer] := by
  have hclient : clientSearch sampleService "q" 1 [] = (.ok [recordOf row], [rowOf "q" 1 answer]) := by
    simp [clientSearch, h, hrow, hdocid]
  obtain ⟨-, document, hdocument, htext⟩ := recorded h (show row ∈ answer.results by simp [hrow])
  rw [hdocid] at hdocument
  cases hdocument
  have hbounded : ∀ s : SeamStore (List TraceRow), ∃ r t, bounded sampleService.sha256Hex
      (clientSeam sampleService sampleBudget none 1) (recordOf row) s = (.ok r, t) ∧ t.backend = s.backend := by
    intro s
    simp only [bounded, recordOf, htext]
    exact ⟨_, _, rfl, rfl⟩
  obtain ⟨r, t, hrun, hbackend⟩ := hbounded ⟨[rowOf "q" 1 answer], PageRegistry.empty, Dict.empty, []⟩
  have hsearch : (clientSeam sampleService sampleBudget none 1).search sampleService.sha256Hex "q" 1
      ⟨[], PageRegistry.empty, Dict.empty, []⟩ = (.ok [r], t) := by
    have hasked : onBackend ((clientSeam sampleService sampleBudget none 1).backend "q" 1)
        ⟨[], PageRegistry.empty, Dict.empty, []⟩ =
          (.ok [recordOf row], ⟨[rowOf "q" 1 answer], PageRegistry.empty, Dict.empty, []⟩) := by
      simp only [onBackend, clientSeam, hclient]
    unfold BudgetedBackend.search
    rw [if_neg (by decide), if_neg (by decide), bind_of_ok hasked]
    simp only [List.length_singleton, forEach]
    rw [if_neg (by decide), bind_of_ok hrun]
    rfl
  have hanswer : ∃ found u, answerQuery sampleService.sha256Hex (clientSeam sampleService sampleBudget none 1)
      ⟨["q"], 1, "general", true⟩ "q" ⟨[], PageRegistry.empty, Dict.empty, []⟩ = (.ok found, u) ∧
        u.backend = t.backend := by
    unfold answerQuery
    rw [bind_of_ok hsearch, getStore_bind, bind_of_ok (setStore_run _ _)]
    exact ⟨_, _, rfl, rfl⟩
  obtain ⟨found, u, hfound, hu⟩ := hanswer
  have hended : sampleCell.ended sampleService sampleBudget none 1 = u := by
    unfold RanCell.ended RanCell.served sampleCell serve
    simp only [serve, frozenSearch, forEach]
    rw [bind_of_ok hfound]
    rfl
  unfold RanCell.retrievalTrace
  rw [hended, hu, hbackend]
  rfl

theorem preimage_unique {svc : RetrievalService} {domain : String} {fields : List (String × Json)}
    {raw raw' : ByteArray} (h : Preimage svc domain fields raw) (h' : Preimage svc domain fields raw') : raw = raw' := by
  obtain ⟨payload, hpayload, hraw⟩ := h
  obtain ⟨payload', hpayload', hraw'⟩ := h'
  rw [hpayload, Except.ok.injEq] at hpayload'
  rw [← hpayload', hraw, Except.ok.injEq] at hraw'
  exact hraw'

theorem snapshotText_preimage :
    Preimage sampleService "query_snapshot" (snapshotFields (pyStr "q") 1) snapshotText := by
  refine ⟨utf8 (canonicalText zeroFloats (document (snapshotFields (pyStr "q") 1))), ?_, ?_⟩
  · refine canonicalJson_admitted (admitted_document (distinct_snapshotFields _ _) ?_)
    simp only [snapshotFields, List.forall_mem_cons, List.not_mem_nil, false_implies, implies_true, and_true]
    refine ⟨pyStr_encodable _, admitted_document (by simp [DistinctFields]) ?_, pyStr_encodable _, pyStr_encodable _⟩
    simp only [List.forall_mem_cons, List.not_mem_nil, false_implies, implies_true, and_true]
    trivial
  · unfold preimage
    rw [if_neg (by decide), if_pos (pyStr_encodable _)]
    rfl

/-- The archive of the cell, under the digest that keeps its texts apart. -/
theorem sample_archive {answer : Answer} (h : sampleService.search (.str (pyStr "q")) (.int 1) = .ok answer)
    {row : Row} (hrow : answer.results = [row]) :
    Archive sampleService sampleBudget none [rowOf "q" 1 answer] := by
  refine ⟨fun found hfound => ?_, ?_, ?_⟩
  · rw [List.mem_singleton.mp hfound]
    exact ⟨answer, h, rfl⟩
  · have hhex : HexDigest sampleService.sha256Hex := hexDigest_sampleDigest
    obtain ⟨hquery, htopK, -⟩ := ranked_of_search hhex h
    have hfields : snapshotFields answer.query answer.topK = snapshotFields (pyStr "q") 1 := by
      rw [← Json.str.inj hquery, ← Json.int.inj htopK]
    have hhashed : ∀ raw, (∃ r ∈ [rowOf "q" 1 answer], ∃ answer',
        sampleService.search (.str (pyStr r.query)) (.int r.topK) = .ok answer' ∧ Hashed sampleService answer' raw) →
        raw = snapshotText ∨
          Preimage sampleService "occurrence" (occurrenceFields (sampleDigest snapshotText) row.rank row.url) raw := by
      rintro raw ⟨r, hr, answer', hanswer', hraw⟩
      rw [List.mem_singleton.mp hr] at hanswer'
      cases h.symm.trans hanswer'
      cases hraw with
      | snapshot hsnapshot =>
        rw [hfields] at hsnapshot
        exact .inl (preimage_unique hsnapshot snapshotText_preimage)
      | @occurrence r snapshot _ hr hsnapshot hoccurrence =>
        rw [hfields] at hsnapshot
        rw [hrow, List.mem_singleton] at hr
        rw [preimage_unique hsnapshot snapshotText_preimage, hr] at hoccurrence
        exact .inr hoccurrence
    have hother : ∀ raw, Preimage sampleService "occurrence"
        (occurrenceFields (sampleDigest snapshotText) row.rank row.url) raw → raw.data ≠ snapshotText.data := by
      rintro raw ⟨payload, hpayload, hraw⟩ hdata
      obtain rfl := ByteArray.ext hdata
      obtain ⟨payload', hpayload', hraw'⟩ := snapshotText_preimage
      obtain ⟨j, -, -, htext, -⟩ := canonicalJson_ok (isPython_occurrenceFields zeroFloats _ _ _) hpayload
      obtain ⟨k, -, -, htext', -⟩ := canonicalJson_ok (isPython_snapshotFields zeroFloats _ _) hpayload'
      rw [htext] at hraw
      rw [htext'] at hraw'
      exact absurd (pyStr_injective (preimage_injective hraw hraw').1) (by decide)
    intro raw hin raw' hin' hsame
    have hdigits : ∀ x y : Char, String.ofList (List.replicate 64 x) = String.ofList (List.replicate 64 y) → x = y := by
      intro x y heq
      have hlists := String.ofList_injective heq
      exact (List.cons.inj hlists).1
    rcases hhashed raw hin with rfl | hraw <;> rcases hhashed raw' hin' with rfl | hraw'
    · rfl
    · exact absurd (hdigits _ _ hsame) (by simp [hother raw' hraw'])
    · exact absurd (hdigits _ _ hsame) (by simp [hother raw hraw])
    · exact preimage_unique hraw hraw'
  · have hbody : ∀ text ∈ bodies (reconstructor sampleService sampleBudget none .empty),
        text = String.ofList ("body".toList.take 100) := by
      rintro text ⟨docid, hleft⟩
      have hdocs : sampleService.corpus.docs.get? docid = if docid = "d1" then some ⟨"body", "u"⟩ else none :=
        Dict.get?_set ..
      unfold truncatedText reconstructor at hleft
      simp only [hdocs] at hleft
      split at hleft
      · cases hleft
      · rename_i document hdocument
        split at hdocument
        · cases hdocument
          exact (Option.some.inj (Except.ok.inj hleft)).symm
        · cases hdocument
    intro text htext text' htext' _
    rw [hbody text htext, hbody text' htext']

/-- What the runner stored: the cell's output, in one blob. -/
def sampleStore : ObjectStore Unit :=
  ⟨Dict.empty.set (String.ofList (List.replicate 64 '0')) (some ())⟩

def sampleHash (_ : Unit) : String := String.ofList (List.replicate 64 '0')

def sampleTrace (_ : Unit) : Option (List TraceRow) := some (sampleCell.retrievalTrace sampleService sampleBudget none 1)

/-- The checkpoint of the cell's one search. -/
def sampleStored : StoredCheckpoint :=
  ⟨"digest", ⟨"task", "researcher", 1,
    [("call", visibleResults sampleService.sha256Hex 100 (sampleCell.served sampleService sampleBudget none 1).1)],
    none, "envelope"⟩⟩

theorem captured_visibleResults (svc : RetrievalService) (budget : SharedContentBudget) (tokenizer : Option Tokenizer)
    (topK : ℤ) (cell : RanCell) (maxContentLength : ℕ) (checkpoint : HCheckpoint) (call : String)
    (h : checkpoint.searchResultSets =
      [(call, visibleResults svc.sha256Hex maxContentLength (cell.served svc budget tokenizer topK).1)]) :
    cell.Captured svc budget tokenizer topK maxContentLength checkpoint := by
  intro page hpage
  rw [pagesOf, h, List.flatMap_singleton, visibleResults] at hpage
  obtain ⟨⟨result, order⟩, hentry, hresult⟩ := List.mem_map.mp hpage
  exact ⟨result, List.mem_of_getElem? (List.mem_zipIdx_iff_getElem?.mp hentry), order, hresult.symm⟩

end Shapeflow.Replay
