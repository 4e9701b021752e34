import Mathlib.Data.Finset.Card
import Shapeflow.JsonDocument
import Shapeflow.TextLines

set_option autoImplicit false

/-!
# The evaluator's records

A file of records, one JSON object a line. The lines are found before the JSON is
read, and JSON may hold, raw, characters a line ends at.
-/
namespace Shapeflow.AnswerKey
open Py (PyStr Json Members FloatText loads pyStr document field? DistinctFields Loaded render Encodable)
open Canonical (compact Admitted admittedItems_iff admitted_document)
open Unicode (isSpaceCode isSpace isLineBreak numberedLines splitLines printed strip Blank Unbroken)
open Utf8 (utf8)
open Fallible

structure EvaluatorQueryView where
  queryId : PyStr
  query : PyStr
  answer : PyStr
  goldDocids : Finset PyStr
  evidenceDocids : Finset PyStr
  negativeDocids : Finset PyStr
  demotedNegativeDocids : Finset PyStr
  deriving DecidableEq

structure EvaluatorQuerySet where
  views : Dict PyStr EvaluatorQueryView
  sourceName : String
  sourceSha256 : String

inductive EvaluatorError where
  | notUtf8
  | notJson (lineno : ℕ)
  | notObject (lineno : ℕ)
  | missingText (lineno : ℕ) (name : String)
  | notList (lineno : ℕ) (field : String)
  | notAnObject (lineno : ℕ) (field : String) (index : ℕ)
  | noDocid (lineno : ℕ) (field : String) (index : ℕ)
  | contradictions (lineno count : ℕ)
  | duplicateQuery (lineno : ℕ) (queryId : PyStr)
  | noRecords
  | otherCount (found expected : ℕ)
  deriving DecidableEq

/-- `_MAX_CONTRADICTIONS_PER_RECORD` -/
def maxContradictionsPerRecord : ℕ := 4

/-! ## One record -/

/-- `bool(value.strip())` -/
def hasPrint (s : PyStr) : Bool := s.any fun c => isSpaceCode c.val = false

def requireText (lineno : ℕ) (name : String) : Json → Except EvaluatorError PyStr
  | .str s => if hasPrint s then .ok s else .error (.missingText lineno name)
  | _ => .error (.missingText lineno name)

def entryDocid (lineno : ℕ) (field : String) (e : Json × ℕ) : Except EvaluatorError PyStr :=
  match e.1 with
  | .obj entry =>
    match Members.get entry "docid" with
    | .str d => if d = [] then .error (.noDocid lineno field e.2) else .ok d
    | _ => .error (.noDocid lineno field e.2)
  | _ => .error (.notAnObject lineno field e.2)

/-- `_docids` -/
def docids (lineno : ℕ) (field : String) : Json → Except EvaluatorError (Finset PyStr)
  | .arr entries => (entries.zipIdx.mapM (entryDocid lineno field)).map List.toFinset
  | _ => .error (.notList lineno field)

/-- A record's view, a docid both relevant and negative taken out of the negatives. -/
def viewOf (lineno : ℕ) (record : Members) : Except EvaluatorError EvaluatorQueryView := do
  let queryId ← requireText lineno "query_id" (record.get "query_id")
  let query ← requireText lineno "query" (record.get "query")
  let answer ← requireText lineno "answer" (record.get "answer")
  let gold ← docids lineno "gold_docs" (record.get "gold_docs")
  let evidence ← docids lineno "evidence_docs" (record.get "evidence_docs")
  let negative ← docids lineno "negative_docs" (record.get "negative_docs")
  let contradiction := (gold ∪ evidence) ∩ negative
  if maxContradictionsPerRecord < contradiction.card then .error (.contradictions lineno contradiction.card)
  else return {
    queryId := queryId
    query := query
    answer := answer
    goldDocids := gold
    evidenceDocids := evidence
    negativeDocids := negative \ contradiction
    demotedNegativeDocids := contradiction }

/-! ## The file -/

section
variable (floats : FloatText)

/-- One line of the file, trimmed and not blank. -/
def addRecord (views : Dict PyStr EvaluatorQueryView) (e : List Char × ℕ) :
    Except EvaluatorError (Dict PyStr EvaluatorQueryView) :=
  match loads floats e.1 with
  | none => .error (.notJson e.2)
  | some (.obj record) => do
    let view ← viewOf e.2 record
    if view.queryId ∈ views.keys then .error (.duplicateQuery e.2 view.queryId)
    else return views.set view.queryId view
  | some _ => .error (.notObject e.2)

/-- The byte-order mark `utf-8-sig` drops. -/
def dropMark : List Char → List Char
  | c :: r => if c.toNat = 0xFEFF then r else c :: r
  | [] => []

/-- `data.decode("utf-8-sig")` -/
def decodeSig (data : ByteArray) : Option (List Char) := (Utf8.decode data).map dropMark

def loadEvaluatorQueries (sha256Hex : ByteArray → String) (name : String) (data : ByteArray)
    (expectQueries : Option ℕ) : Except EvaluatorError EvaluatorQuerySet :=
  match decodeSig data with
  | none => .error .notUtf8
  | some text => do
    let views ← (numberedLines text).foldlM (addRecord floats) Dict.empty
    if views.keys = [] then .error .noRecords
    else if expectQueries.any fun n => n ≠ views.keys.length then
      .error (.otherCount views.keys.length (expectQueries.getD 0))
    else return ⟨views, name, sha256Hex data⟩

end

/-! ## Records as they are written -/

/-- A valid record: texts that are not blank, docids that are not empty, few contradictions. -/
structure EvaluatorRecord where
  queryId : PyStr
  query : PyStr
  answer : PyStr
  gold : List PyStr
  evidence : List PyStr
  negative : List PyStr
  texts : hasPrint queryId = true ∧ hasPrint query = true ∧ hasPrint answer = true
  named : ∀ d ∈ gold ++ evidence ++ negative, d ≠ []
  tolerated : ((gold.toFinset ∪ evidence.toFinset) ∩ negative.toFinset).card ≤ maxContradictionsPerRecord

namespace EvaluatorRecord
variable (r : EvaluatorRecord)

/-- The docids listed as relevant and as negative. -/
def contradiction : Finset PyStr := (r.gold.toFinset ∪ r.evidence.toFinset) ∩ r.negative.toFinset

def view : EvaluatorQueryView where
  queryId := r.queryId
  query := r.query
  answer := r.answer
  goldDocids := r.gold.toFinset
  evidenceDocids := r.evidence.toFinset
  negativeDocids := r.negative.toFinset \ r.contradiction
  demotedNegativeDocids := r.contradiction

end EvaluatorRecord

/-- A list of objects with these docids, whatever else the objects hold. -/
def ListsDocids (v : Json) (ds : List PyStr) : Prop :=
  ∃ entries, v = .arr entries ∧
    List.Forall₂ (fun entry d => ∃ fields, entry = Json.obj fields ∧ Members.get fields "docid" = .str d) entries ds

/-- The record is held by a JSON object, among whatever other members. -/
structure Holds (record : Members) (r : EvaluatorRecord) : Prop where
  queryId : record.get "query_id" = .str r.queryId
  query : record.get "query" = .str r.query
  answer : record.get "answer" = .str r.answer
  gold : ListsDocids (record.get "gold_docs") r.gold
  evidence : ListsDocids (record.get "evidence_docs") r.evidence
  negative : ListsDocids (record.get "negative_docs") r.negative

/-- What an encoder may write for the record: any JSON text of an object that holds it. -/
def Serialised (floats : FloatText) (r : EvaluatorRecord) (text : List Char) : Prop :=
  (∃ record, loads floats text = some (.obj record) ∧ Holds record r) ∧ ∃ body, text = '{' :: (body ++ ['}'])

/-- `"\n".join(texts)` -/
def joinLines (texts : List (List Char)) : List Char := ['\n'].intercalate texts

/-- One view a record, each with its record's query, answer and docids. -/
def ViewsOf (rs : List EvaluatorRecord) (set : EvaluatorQuerySet) : Prop :=
  set.views.keys = rs.map EvaluatorRecord.queryId ∧ ∀ r ∈ rs, set.views.get? r.queryId = some r.view

/-! ## Reading a record -/

theorem entryDocid_ok {fields : Members} {d : PyStr} (hget : Members.get fields "docid" = .str d) (hd : d ≠ [])
    (lineno : ℕ) (field : String) (i : ℕ) : entryDocid lineno field (.obj fields, i) = .ok d := by
  simp only [entryDocid, hget, if_neg hd]

theorem docids_ok {v : Json} {ds : List PyStr} (h : ListsDocids v ds) (hne : ∀ d ∈ ds, d ≠ []) (lineno : ℕ)
    (field : String) : docids lineno field v = .ok ds.toFinset := by
  obtain ⟨entries, rfl, hentries⟩ := h
  have hmap : ∀ n, (entries.zipIdx n).mapM (entryDocid lineno field) = .ok ds := by
    induction hentries with
    | nil => exact fun _ => rfl
    | cons hentry _ ih =>
      intro n
      obtain ⟨fields, rfl, hget⟩ := hentry
      obtain ⟨hd, hds⟩ := List.forall_mem_cons.mp hne
      rw [List.zipIdx_cons, List.mapM_cons, entryDocid_ok hget hd, ok_bind, ih hds (n + 1)]
      rfl
  change (entries.zipIdx.mapM (entryDocid lineno field)).map List.toFinset = _
  rw [hmap 0]
  rfl

theorem viewOf_ok {record : Members} {r : EvaluatorRecord} (h : Holds record r) (lineno : ℕ) :
    viewOf lineno record = .ok r.view := by
  have htext : ∀ (name : String) (s : PyStr), hasPrint s = true → requireText lineno name (.str s) = .ok s :=
    fun name s hs => if_pos hs
  have hnamed := r.named
  simp only [List.mem_append, or_imp, forall_and] at hnamed
  unfold viewOf
  rw [h.queryId, h.query, h.answer, htext _ _ r.texts.1, htext _ _ r.texts.2.1, htext _ _ r.texts.2.2,
    docids_ok h.gold hnamed.1.1, docids_ok h.evidence hnamed.1.2, docids_ok h.negative hnamed.2]
  simp only [ok_bind]
  rw [if_neg (Nat.not_lt.mpr r.tolerated)]
  rfl

theorem addRecord_ok {floats : FloatText} {r : EvaluatorRecord} {text : List Char} (h : Serialised floats r text)
    {views : Dict PyStr EvaluatorQueryView} (hnew : r.queryId ∉ views.keys) (lineno : ℕ) :
    addRecord floats views (text, lineno) = .ok (views.set r.queryId r.view) := by
  obtain ⟨⟨record, hload, hholds⟩, -⟩ := h
  unfold addRecord
  rw [hload]
  simp only [viewOf_ok hholds, ok_bind]
  exact if_neg hnew

/-! ## Reading the file -/

theorem foldlM_addRecord {floats : FloatText} {rs : List EvaluatorRecord} {lines : List (List Char × ℕ)}
    (h : List.Forall₂ (fun r e => Serialised floats r e.1) rs lines) {views : Dict PyStr EvaluatorQueryView}
    (hnew : ∀ r ∈ rs, r.queryId ∉ views.keys) (hdistinct : (rs.map EvaluatorRecord.queryId).Nodup) :
    ∃ result, lines.foldlM (addRecord floats) views = .ok result ∧
      result.keys = views.keys ++ rs.map EvaluatorRecord.queryId ∧
      (∀ q ∈ views.keys, result.get? q = views.get? q) ∧ ∀ r ∈ rs, result.get? r.queryId = some r.view := by
  induction h generalizing views with
  | nil => exact ⟨views, rfl, (List.append_nil _).symm, fun _ _ => rfl, fun _ hr => nomatch hr⟩
  | @cons r e rs lines hre hrest ih =>
    obtain ⟨hr, hrs⟩ := List.forall_mem_cons.mp hnew
    rw [List.map_cons, List.nodup_cons] at hdistinct
    have hkeys : (views.set r.queryId r.view).keys = views.keys ++ [r.queryId] := by
      rw [Dict.keys_set, if_neg hr]
    have hfresh : ∀ r' ∈ rs, r'.queryId ∉ (views.set r.queryId r.view).keys := by
      intro r' hr' hmem
      rw [hkeys, List.mem_append, List.mem_singleton] at hmem
      obtain hmem | heq := hmem
      · exact hrs r' hr' hmem
      · exact hdistinct.1 (heq ▸ List.mem_map_of_mem hr')
    obtain ⟨result, hresult, hresultKeys, hkept, hviews⟩ := ih hfresh hdistinct.2
    refine ⟨result, ?_, ?_, ?_, ?_⟩
    · rw [List.foldlM_cons, addRecord_ok hre hr, ok_bind]
      exact hresult
    · rw [hresultKeys, hkeys, List.map_cons, List.append_assoc]
      rfl
    · intro q hq
      have hqr : q ≠ r.queryId := fun heq => hr (heq ▸ hq)
      rw [hkept q (hkeys ▸ List.mem_append_left _ hq), Dict.get?_set_ne _ _ hqr]
    · refine List.forall_mem_cons.mpr ⟨?_, hviews⟩
      rw [hkept r.queryId (hkeys ▸ List.mem_append_right _ (List.mem_singleton_self _)), Dict.get?_set_self]

/-- Each line that is read adds one view. -/
theorem length_foldlM_addRecord {floats : FloatText} {lines : List (List Char × ℕ)}
    {views result : Dict PyStr EvaluatorQueryView} (h : lines.foldlM (addRecord floats) views = .ok result) :
    result.keys.length = views.keys.length + lines.length := by
  induction lines generalizing views with
  | nil =>
    cases h
    rfl
  | cons e lines ih =>
    rw [List.foldlM_cons] at h
    obtain ⟨next, hnext, hrest⟩ := bind_ok.mp h
    have hlength : next.keys.length = views.keys.length + 1 := by
      unfold addRecord at hnext
      split at hnext
      · cases hnext
      · obtain ⟨view, -, hview⟩ := bind_ok.mp hnext
        split at hview
        · cases hview
        · rename_i hnew
          cases hview
          rw [Dict.keys_set, if_neg hnew, List.length_append]
          rfl
      · cases hnext
    rw [ih hrest, hlength, List.length_cons]
    omega

/-! ## Where the records are cut -/

theorem joinLines_cons (text : List Char) {texts : List (List Char)} (h : texts ≠ []) :
    joinLines (text :: texts) = text ++ '\n' :: joinLines texts := by
  unfold joinLines
  rw [List.intercalate_cons_of_ne_nil h]
  simp

theorem printed_joinLines (texts : List (List Char)) :
    printed (splitLines (joinLines texts)) = texts.flatMap fun text => printed (splitLines text) := by
  induction texts with
  | nil => rfl
  | cons text texts ih =>
    by_cases hnil : texts = []
    · subst hnil
      rw [List.flatMap_singleton]
      exact congrArg (fun cs => printed (splitLines cs)) List.intercalate_singleton
    · rw [joinLines_cons text hnil, Unicode.printed_splitLines_append rfl, ih, List.flatMap_cons]

/-- The text of an object. -/
def Braced (text : List Char) : Prop := ∃ body, text = '{' :: (body ++ ['}'])

theorem not_blank_of_mem {cs : List Char} {c : Char} (hc : c ∈ cs) (hprint : isSpace c = false) : ¬ Blank cs := by
  intro h
  rw [h c hc] at hprint
  cases hprint

theorem printed_ne_nil {cs : List Char} (h : ¬ Blank cs) : printed (splitLines cs) ≠ [] := by
  intro hnil
  exact h (Unicode.blank_of_printed hnil)

theorem Braced.printed_unbroken {text : List Char} (h : Braced text) (hu : Unbroken text) :
    printed (splitLines text) = [text] := by
  obtain ⟨body, rfl⟩ := h
  have hprint : ¬ Blank ('{' :: (body ++ ['}'])) := not_blank_of_mem List.mem_cons_self rfl
  rw [Unicode.printed_splitLines_unbroken hu, Unicode.printed_of_not_blank hprint, Unicode.strip_of_ends rfl rfl]

/-- An object cut at a boundary is two lines or more. -/
theorem Braced.printed_broken {text : List Char} (h : Braced text) (hu : ¬ Unbroken text) :
    2 ≤ (printed (splitLines text)).length := by
  obtain ⟨body, rfl⟩ := h
  obtain ⟨c, hc, hbreak⟩ : ∃ c ∈ '{' :: (body ++ ['}']), isLineBreak c = true := by
    by_contra hno
    exact hu fun c hc => Bool.eq_false_iff.mpr fun hbreak => hno ⟨c, hc, hbreak⟩
  have hbody : c ∈ body := by
    rw [List.mem_cons, List.mem_append, List.mem_singleton] at hc
    obtain rfl | hc | rfl := hc
    · cases hbreak
    · exact hc
    · cases hbreak
  obtain ⟨front, back, rfl⟩ := List.append_of_mem hbody
  have hcut : '{' :: (front ++ c :: back ++ ['}']) = ('{' :: front) ++ c :: (back ++ ['}']) := by simp
  have hopen : '{' ∈ '{' :: front := List.mem_cons_self
  have hclose : '}' ∈ back ++ ['}'] := List.mem_append_right _ (List.mem_singleton_self _)
  have hfront := printed_ne_nil (not_blank_of_mem hopen rfl)
  have hback := printed_ne_nil (not_blank_of_mem hclose rfl)
  rw [hcut, Unicode.printed_splitLines_append hbreak, List.length_append]
  have hfirst := List.length_pos_iff.mpr hfront
  have hsecond := List.length_pos_iff.mpr hback
  omega

theorem Braced.printed_pos {text : List Char} (h : Braced text) : 1 ≤ (printed (splitLines text)).length := by
  by_cases hu : Unbroken text
  · rw [h.printed_unbroken hu]
    exact Nat.le_refl 1
  · exact Nat.le_of_succ_le (h.printed_broken hu)

theorem length_le_printed {texts : List (List Char)} (h : ∀ text ∈ texts, Braced text) :
    texts.length ≤ (texts.flatMap fun text => printed (splitLines text)).length := by
  induction texts with
  | nil => exact Nat.le_refl 0
  | cons text texts ih =>
    obtain ⟨htext, htexts⟩ := List.forall_mem_cons.mp h
    rw [List.flatMap_cons, List.length_append, List.length_cons]
    have hpos := htext.printed_pos
    have hrest := ih htexts
    omega

/-- As many lines as objects: none of them is cut. -/
theorem unbroken_of_length {texts : List (List Char)} (h : ∀ text ∈ texts, Braced text)
    (hlength : (texts.flatMap fun text => printed (splitLines text)).length = texts.length) :
    ∀ text ∈ texts, Unbroken text := by
  induction texts with
  | nil => exact fun _ ht => nomatch ht
  | cons text texts ih =>
    obtain ⟨htext, htexts⟩ := List.forall_mem_cons.mp h
    rw [List.flatMap_cons, List.length_append, List.length_cons] at hlength
    have hpos := htext.printed_pos
    have hrest := length_le_printed htexts
    refine List.forall_mem_cons.mpr ⟨?_, ih htexts (by omega)⟩
    by_contra hbroken
    have htwo := htext.printed_broken hbroken
    omega

theorem printed_texts {texts : List (List Char)} (h : ∀ text ∈ texts, Braced text)
    (hu : ∀ text ∈ texts, Unbroken text) : (texts.flatMap fun text => printed (splitLines text)) = texts := by
  induction texts with
  | nil => rfl
  | cons text texts ih =>
    obtain ⟨htext, htexts⟩ := List.forall_mem_cons.mp h
    obtain ⟨hutext, hutexts⟩ := List.forall_mem_cons.mp hu
    rw [List.flatMap_cons, htext.printed_unbroken hutext, ih htexts hutexts]
    rfl

theorem Serialised.braced {floats : FloatText} {r : EvaluatorRecord} {text : List Char}
    (h : Serialised floats r text) : Braced text := h.2

/-- A file that starts with an object has no byte-order mark to lose. -/
theorem decodeSig_joinLines {texts : List (List Char)} (hne : texts ≠ []) (h : ∀ text ∈ texts, Braced text) :
    decodeSig (utf8 (joinLines texts)) = some (joinLines texts) := by
  have hbrace : ∃ rest, joinLines texts = '{' :: rest := by
    obtain ⟨text, texts, rfl⟩ := List.exists_cons_of_ne_nil hne
    obtain ⟨body, rfl⟩ := h text List.mem_cons_self
    by_cases hnil : texts = []
    · subst hnil
      exact ⟨_, List.intercalate_singleton⟩
    · rw [joinLines_cons _ hnil]
      exact ⟨_, rfl⟩
  obtain ⟨rest, hrest⟩ := hbrace
  rw [hrest, decodeSig, Utf8.decode_utf8]
  rfl

section
variable {floats : FloatText} {rs : List EvaluatorRecord} {texts : List (List Char)} {expectQueries : Option ℕ}
  (sha256Hex : ByteArray → String) (name : String)

theorem braced_texts (hs : List.Forall₂ (Serialised floats) rs texts) : ∀ text ∈ texts, Braced text := by
  have hboth : List.Forall₂ (fun text r => Braced text ∧ Serialised floats r text) texts rs :=
    hs.flip.imp fun _ _ hr => ⟨Serialised.braced hr, hr⟩
  exact ((List.forall₂_and_left _ _).mp hboth).1

theorem decodeSig_texts (hne : rs ≠ []) (hs : List.Forall₂ (Serialised floats) rs texts) :
    decodeSig (utf8 (joinLines texts)) = some (joinLines texts) := by
  refine decodeSig_joinLines ?_ (braced_texts hs)
  rintro rfl
  exact hne (List.eq_nil_of_length_eq_zero hs.length_eq)

/-- With a view for each record, there was a line for each. -/
theorem unbroken_of_views (hne : rs ≠ []) (hs : List.Forall₂ (Serialised floats) rs texts) {set : EvaluatorQuerySet}
    (hset : loadEvaluatorQueries floats sha256Hex name (utf8 (joinLines texts)) expectQueries = .ok set)
    (hkeys : set.views.keys = rs.map EvaluatorRecord.queryId) : ∀ text ∈ texts, Unbroken text := by
  unfold loadEvaluatorQueries at hset
  rw [decodeSig_texts hne hs] at hset
  obtain ⟨views, hviews, hset⟩ := bind_ok.mp hset
  have hcount := length_foldlM_addRecord hviews
  rw [← List.length_map (f := Prod.fst), Unicode.map_numberedLines, printed_joinLines] at hcount
  split at hset
  · cases hset
  · split at hset
    · cases hset
    · cases hset
      refine unbroken_of_length (braced_texts hs) ?_
      rw [← hs.length_eq, ← List.length_map (f := EvaluatorRecord.queryId), ← hkeys, hcount]
      exact (Nat.zero_add _).symm

theorem views_of_unbroken (hne : rs ≠ []) (hdistinct : (rs.map EvaluatorRecord.queryId).Nodup)
    (hs : List.Forall₂ (Serialised floats) rs texts) (hexpect : ∀ n, expectQueries = some n → n = rs.length)
    (hu : ∀ text ∈ texts, Unbroken text) :
    ∃ set, loadEvaluatorQueries floats sha256Hex name (utf8 (joinLines texts)) expectQueries = .ok set ∧
      ViewsOf rs set := by
  have hlines : List.Forall₂ (fun r e => Serialised floats r e.1) rs (numberedLines (joinLines texts)) := by
    rw [← List.forall₂_map_right_iff (f := Prod.fst), Unicode.map_numberedLines, printed_joinLines,
      printed_texts (braced_texts hs) hu]
    exact hs
  have hnew : ∀ r ∈ rs, r.queryId ∉ (Dict.empty : Dict PyStr EvaluatorQueryView).keys := fun _ _ h => nomatch h
  obtain ⟨views, hviews, hkeys, -, hget⟩ := foldlM_addRecord hlines hnew hdistinct
  rw [Dict.keys_empty, List.nil_append] at hkeys
  have hsome : views.keys ≠ [] := by simpa [hkeys] using hne
  have hexpected : (expectQueries.any fun n => n ≠ views.keys.length) = false := by
    cases expectQueries with
    | none => rfl
    | some n => simp [hkeys, hexpect n rfl]
  refine ⟨⟨views, name, sha256Hex (utf8 (joinLines texts))⟩, ?_, hkeys, hget⟩
  unfold loadEvaluatorQueries
  rw [decodeSig_texts hne hs]
  simp only [hviews, ok_bind, if_neg hsome, hexpected]
  rfl

/-- A file of valid records, one a line, is read as its records when no text among them holds, raw, a character at
    which a line ends. -/
theorem loadEvaluatorQueries_iff (hne : rs ≠ []) (hdistinct : (rs.map EvaluatorRecord.queryId).Nodup)
    (hs : List.Forall₂ (Serialised floats) rs texts) (hexpect : ∀ n, expectQueries = some n → n = rs.length) :
    (∃ set, loadEvaluatorQueries floats sha256Hex name (utf8 (joinLines texts)) expectQueries = .ok set ∧
        ViewsOf rs set) ↔ ∀ text ∈ texts, Unbroken text := by
  constructor
  · rintro ⟨set, hset, hkeys, -⟩
    exact unbroken_of_views sha256Hex name hne hs hset hkeys
  · exact views_of_unbroken sha256Hex name hne hdistinct hs hexpect

end

/-! ## Two encoders -/

def docidObjects (ds : List PyStr) : Json := .arr (ds.map fun d => document [("docid", .str d)])

/-- The record as an object of nothing else. -/
def EvaluatorRecord.fields (r : EvaluatorRecord) : List (String × Json) :=
  [("query_id", .str r.queryId), ("query", .str r.query), ("answer", .str r.answer), ("gold_docs", docidObjects r.gold),
    ("evidence_docs", docidObjects r.evidence), ("negative_docs", docidObjects r.negative)]

def EvaluatorRecord.members (r : EvaluatorRecord) : Members := r.fields.map fun e => (pyStr e.1, e.2)

theorem get_fields (fields : List (String × Json)) (key : String) :
    Members.get (fields.map fun e => (pyStr e.1, e.2)) key = (field? fields key).getD .null := by
  rw [Members.get, Py.memberD, Py.member_map]

theorem listsDocids_objects (ds : List PyStr) : ListsDocids (docidObjects ds) ds := by
  refine ⟨_, rfl, ?_⟩
  rw [List.forall₂_map_left_iff, List.forall₂_same]
  exact fun d _ => ⟨_, rfl, get_fields [("docid", .str d)] "docid"⟩

theorem holds_members (r : EvaluatorRecord) : Holds r.members r where
  queryId := get_fields r.fields "query_id"
  query := get_fields r.fields "query"
  answer := get_fields r.fields "answer"
  gold := (get_fields r.fields "gold_docs").symm ▸ listsDocids_objects r.gold
  evidence := (get_fields r.fields "evidence_docs").symm ▸ listsDocids_objects r.evidence
  negative := (get_fields r.fields "negative_docs").symm ▸ listsDocids_objects r.negative

theorem compactMembers_end (floats : FloatText) (ms : Members) :
    ∃ body, Canonical.compactMembers floats ms = body ++ ['}'] := by
  induction ms with
  | nil => exact ⟨[], rfl⟩
  | cons e ms ih =>
    obtain ⟨body, hbody⟩ := ih
    refine ⟨',' :: Canonical.rawStr e.1 ++ ':' :: compact floats e.2 ++ body, ?_⟩
    rw [Canonical.compactMembers, hbody]
    simp

theorem renderMembers_end (floats : FloatText) (ms : Members) :
    ∃ body, Py.renderMembers floats ms = body ++ ['}'] := by
  induction ms with
  | nil => exact ⟨[], rfl⟩
  | cons e ms ih =>
    obtain ⟨body, hbody⟩ := ih
    refine ⟨',' :: ' ' :: Py.renderStr e.1 ++ ':' :: ' ' :: render floats e.2 ++ body, ?_⟩
    rw [Py.renderMembers, hbody]
    simp

/-- An encoder that keeps text outside ASCII. -/
theorem serialised_compact {floats : FloatText} {r : EvaluatorRecord} (h : Admitted floats (document r.fields)) :
    Serialised floats r (compact floats (document r.fields)) := by
  refine ⟨⟨r.members, Canonical.loads_compact h, holds_members r⟩, ?_⟩
  obtain ⟨body, hbody⟩ := compactMembers_end floats (r.members.tail)
  refine ⟨Canonical.rawStr (pyStr "query_id") ++ ':' :: compact floats (.str r.queryId) ++ body, ?_⟩
  change '{' :: Canonical.rawStr (pyStr "query_id") ++ ':' :: compact floats (.str r.queryId) ++
    Canonical.compactMembers floats r.members.tail = _
  rw [hbody]
  simp

/-- An encoder that escapes it. -/
theorem serialised_render {floats : FloatText} {r : EvaluatorRecord} (h : Loaded floats (document r.fields)) :
    Serialised floats r (render floats (document r.fields)) := by
  refine ⟨⟨r.members, Py.loads_render h, holds_members r⟩, ?_⟩
  obtain ⟨body, hbody⟩ := renderMembers_end floats (r.members.tail)
  refine ⟨Py.renderStr (pyStr "query_id") ++ ':' :: ' ' :: render floats (.str r.queryId) ++ body, ?_⟩
  change '{' :: Py.renderStr (pyStr "query_id") ++ ':' :: ' ' :: render floats (.str r.queryId) ++
    Py.renderMembers floats r.members.tail = _
  rw [hbody]
  simp

theorem admitted_record {floats : FloatText} {r : EvaluatorRecord}
    (htexts : Encodable r.queryId ∧ Encodable r.query ∧ Encodable r.answer)
    (hdocids : ∀ d ∈ r.gold ++ r.evidence ++ r.negative, Encodable d) : Admitted floats (document r.fields) := by
  have hobjects : ∀ ds : List PyStr, (∀ d ∈ ds, Encodable d) → Admitted floats (docidObjects ds) := by
    intro ds hds
    refine admittedItems_iff.mpr fun v hv => ?_
    obtain ⟨d, hd, rfl⟩ := List.mem_map.mp hv
    exact admitted_document (by simp [DistinctFields]) (List.forall_mem_singleton.mpr (hds d hd))
  simp only [List.mem_append, or_imp, forall_and] at hdocids
  apply admitted_document (by simp [DistinctFields, EvaluatorRecord.fields])
  simp only [EvaluatorRecord.fields, List.forall_mem_cons, List.not_mem_nil, false_implies, implies_true, and_true]
  exact ⟨htexts.1, htexts.2.1, htexts.2.2, hobjects _ hdocids.1.1, hobjects _ hdocids.1.2, hobjects _ hdocids.2⟩

/-! ## A separator in a query -/

/-- A record with one docid both relevant and negative. -/
def recordOf (query : String) (h : hasPrint (pyStr query) = true) : EvaluatorRecord where
  queryId := pyStr "1"
  query := pyStr query
  answer := pyStr "x"
  gold := [pyStr "a"]
  evidence := [pyStr "b"]
  negative := [pyStr "b", pyStr "c"]
  texts := ⟨by decide, h, by decide⟩
  named := by decide
  tolerated := by decide

theorem serialised_recordOf (query : String) (h : hasPrint (pyStr query) = true) :
    Serialised .empty (recordOf query h) (compact .empty (document (recordOf query h).fields)) := by
  refine serialised_compact (admitted_record ⟨Py.pyStr_encodable _, Py.pyStr_encodable _, Py.pyStr_encodable _⟩ ?_)
  simp only [recordOf, List.cons_append, List.nil_append, List.forall_mem_cons, List.not_mem_nil, false_implies,
    implies_true, and_true]
  exact ⟨Py.pyStr_encodable _, Py.pyStr_encodable _, Py.pyStr_encodable _, Py.pyStr_encodable _⟩

def plainRecord : EvaluatorRecord := recordOf "who wrote it?" (by decide)

def plainText : List Char := compact .empty (document plainRecord.fields)

theorem loadEvaluatorQueries_iff_plain :
    ∃ set, loadEvaluatorQueries .empty (fun _ => "") "queries.jsonl" (utf8 (joinLines [plainText])) none = .ok set ∧
      ViewsOf [plainRecord] set := by
  have hs : List.Forall₂ (Serialised .empty) [plainRecord] [plainText] := .cons (serialised_recordOf _ _) .nil
  have hdistinct : ([plainRecord].map EvaluatorRecord.queryId).Nodup := List.nodup_singleton _
  have hexpect : ∀ n, (none : Option ℕ) = some n → n = [plainRecord].length := by simp
  have hall : (plainText.all fun c => !isLineBreak c) = true := by decide +kernel
  have hu : Unbroken plainText := by simpa [Unbroken] using hall
  exact (loadEvaluatorQueries_iff (fun _ => "") "queries.jsonl" (List.cons_ne_nil _ _) hdistinct hs hexpect).mpr
    (List.forall_mem_singleton.mpr hu)

/-- The query holds U+2028. -/
def separatedRecord : EvaluatorRecord := recordOf "who\u2028wrote it?" (by decide)

def separatedText : List Char := compact .empty (document separatedRecord.fields)

theorem not_loadEvaluatorQueries_accepts :
    ¬ ∀ (rs : List EvaluatorRecord) (texts : List (List Char)), rs ≠ [] → (rs.map EvaluatorRecord.queryId).Nodup →
      List.Forall₂ (Serialised .empty) rs texts →
      ∃ set, loadEvaluatorQueries .empty (fun _ => "") "queries.jsonl" (utf8 (joinLines texts)) none = .ok set ∧
        ViewsOf rs set := by
  intro h
  have hs : List.Forall₂ (Serialised .empty) [separatedRecord] [separatedText] :=
    .cons (serialised_recordOf _ _) .nil
  have hdistinct : ([separatedRecord].map EvaluatorRecord.queryId).Nodup := List.nodup_singleton _
  obtain ⟨set, hset, hkeys, -⟩ := h _ _ (List.cons_ne_nil _ _) hdistinct hs
  have hu := unbroken_of_views (fun _ => "") "queries.jsonl" (List.cons_ne_nil _ _) hs hset hkeys
  have hbroken : separatedText.any isLineBreak = true := by decide +kernel
  obtain ⟨c, hc, hbreak⟩ := List.any_eq_true.mp hbroken
  rw [hu separatedText (List.mem_singleton_self _) c hc] at hbreak
  cases hbreak

end Shapeflow.AnswerKey
