import Shapeflow.Qrels
import Shapeflow.TextLines

set_option autoImplicit false

/-!
# The qrels file

Rows of four fields, one a line. However the lines are spaced and ordered, the key
read off them holds the judgements of the rows and no others.
-/
namespace Shapeflow.AnswerKey
open Unicode
open Py (FloatText)
open Canonical (canonicalText canonicalJson_admitted)
open Utf8 (utf8)

/-- `int(text)` where it does not raise, and `c.isprintable()`. -/
structure TextReader where
  int : List Char → Option ℤ
  isPrintable : Char → Bool

/-- `_ITERATION_MARKERS` -/
def iterationMarkers : List (List Char) := [['q', '0'], ['0']]

/-- `marker.lower() in _ITERATION_MARKERS`; no character outside ASCII has `q` or `0` as its lower case. -/
def isIterationMarker (marker : List Char) : Bool := marker.map Char.toLower ∈ iterationMarkers

section
variable (reader : TextReader)

def checkPrintable (lineno : ℕ) (name : String) (token : List Char) : Except QrelsError Unit :=
  if token.all reader.isPrintable then .ok () else .error (.notPrintable lineno name token)

/-- One line, trimmed and not blank. -/
def parseRow (lineno : ℕ) (line : List Char) : Except QrelsError Judgement :=
  match words line with
  | [qid, marker, docid, relText] =>
    if isIterationMarker marker = false then .error (.iterationMarker lineno marker)
    else
      match reader.int relText with
      | none => .error (.notAnInteger lineno relText)
      | some rel =>
        if qid = [] ∨ docid = [] then .error (.emptyId lineno line)
        else do
          checkPrintable reader lineno "qid" qid
          checkPrintable reader lineno "docid" docid
          pure ⟨String.ofList qid, String.ofList docid, rel⟩
  | fields => .error (.fieldCount lineno fields.length)

/-- `_parse_qrels_text` -/
def parseQrelsText (text : List Char) : Except QrelsError (List Judgement) :=
  (numberedLines text).mapM fun e => parseRow reader e.2 e.1

/-- `Qrels.from_rows(_parse_qrels_text(text))` -/
def readKey (text : List Char) (kind : QrelKind) (sourceName sourceSha256 : String) : Except QrelsError Qrels := do
  let rows ← parseQrelsText reader text
  Qrels.fromRows rows kind sourceName sourceSha256

/-! ## Rows as they are written -/

/-- A valid row: printable identifiers without whitespace, an accepted marker, an integer grade. -/
structure TrecRow where
  qid : List Char
  marker : List Char
  docid : List Char
  relText : List Char
  rel : ℤ
  qid_token : Token qid
  qid_printable : qid.all reader.isPrintable = true
  marker_accepted : isIterationMarker marker = true
  docid_token : Token docid
  docid_printable : docid.all reader.isPrintable = true
  relText_token : Token relText
  relText_int : reader.int relText = some rel

end

variable {reader : TextReader}

def TrecRow.judgement (row : TrecRow reader) : Judgement := ⟨String.ofList row.qid, String.ofList row.docid, row.rel⟩

def TrecRow.fields (row : TrecRow reader) : List (List Char) := [row.qid, row.marker, row.docid, row.relText]

/-- The row on a line, `gap` what may stand between its fields. -/
def TrecRow.WrittenAs (gap : Char → Prop) (row : TrecRow reader) (line : List Char) : Prop :=
  ∃ g₀ g₁ g₂ g₃ g₄, (∀ g ∈ [g₀, g₁, g₂, g₃, g₄], ∀ c ∈ g, gap c) ∧ (∀ g ∈ [g₁, g₂, g₃], g ≠ []) ∧
    line = g₀ ++ (row.qid ++ g₁ ++ (row.marker ++ g₂ ++ (row.docid ++ g₃ ++ (row.relText ++ g₄))))

/-- Rows one a line, in their order, among blank lines; the last line may lack its end. -/
inductive Spelled (gap : Char → Prop) : List (TrecRow reader) → List Char → Prop
  | blankEnd {line : List Char} (hline : ∀ c ∈ line, gap c) : Spelled gap [] line
  | rowEnd {row : TrecRow reader} {line : List Char} (hline : row.WrittenAs gap line) : Spelled gap [row] line
  | blankLine {rows : List (TrecRow reader)} {line text : List Char} {e : Char} (hline : ∀ c ∈ line, gap c)
      (he : isLineBreak e = true) (htext : Spelled gap rows text) : Spelled gap rows (line ++ e :: text)
  | rowLine {row : TrecRow reader} {rows : List (TrecRow reader)} {line text : List Char} {e : Char}
      (hline : row.WrittenAs gap line) (he : isLineBreak e = true) (htext : Spelled gap rows text) :
      Spelled gap (row :: rows) (line ++ e :: text)

/-- What `str.split` separates fields at. -/
def Whitespace (c : Char) : Prop := isSpace c = true

/-- Whitespace that ends no line. -/
def InLine (c : Char) : Prop := isSpace c = true ∧ isLineBreak c = false

instance : DecidablePred Whitespace := fun c => inferInstanceAs (Decidable (isSpace c = true))

instance : DecidablePred InLine := fun c => inferInstanceAs (Decidable (isSpace c = true ∧ isLineBreak c = false))

/-- A line with these fields and gaps, each checked by running over it. -/
theorem TrecRow.writtenAs_of_all {gap : Char → Prop} [DecidablePred gap] (row : TrecRow reader)
    (g₀ g₁ g₂ g₃ g₄ : List Char) (hgaps : ([g₀, g₁, g₂, g₃, g₄].all fun g => g.all fun c => decide (gap c)) = true)
    (hne : ([g₁, g₂, g₃].all fun g => g ≠ []) = true) :
    row.WrittenAs gap (g₀ ++ (row.qid ++ g₁ ++ (row.marker ++ g₂ ++ (row.docid ++ g₃ ++ (row.relText ++ g₄))))) := by
  refine ⟨g₀, g₁, g₂, g₃, g₄, fun g hg c hc => ?_, fun g hg => ?_, rfl⟩
  · exact of_decide_eq_true (List.all_eq_true.mp (List.all_eq_true.mp hgaps g hg) c hc)
  · exact of_decide_eq_true (List.all_eq_true.mp hne g hg)

/-! ## Reading the lines -/

theorem unbroken_of_token {cs : List Char} (h : Token cs) : Unbroken cs := by
  intro c hc
  refine Bool.eq_false_iff.mpr fun hbreak => ?_
  exact Bool.false_ne_true ((h.2 c hc).symm.trans (isSpace_of_break hbreak))

theorem token_of_all {cs : List Char} (hne : cs ≠ []) (h : (cs.all fun c => !isSpace c) = true) : Token cs :=
  ⟨hne, by simpa using h⟩

theorem toLower_of_space {c : Char} (h : isSpace c = true) : c.toLower = c := by
  have hspace := h
  simp only [isSpace, isSpaceCode, decide_eq_true_eq, List.mem_cons, List.not_mem_nil, or_false] at hspace
  have hnat : c.toNat = c.val.toNat := rfl
  unfold Char.toLower
  rw [dif_neg]
  rintro ⟨hlow, hhigh⟩
  have hlow' := UInt32.le_iff_toNat_le.mp hlow
  have hhigh' := UInt32.le_iff_toNat_le.mp hhigh
  simp at hlow' hhigh'
  omega

/-- The marker is one field. -/
theorem token_of_marker {marker : List Char} (h : isIterationMarker marker = true) : Token marker := by
  simp only [isIterationMarker, iterationMarkers, decide_eq_true_eq, List.mem_cons, List.not_mem_nil, or_false] at h
  have hmem : ∀ c ∈ marker, c.toLower = 'q' ∨ c.toLower = '0' := by
    intro c hc
    have hlower := List.mem_map_of_mem (f := Char.toLower) hc
    obtain h | h := h
    · rw [h] at hlower
      simpa using hlower
    · rw [h] at hlower
      exact .inr (List.mem_singleton.mp hlower)
  refine ⟨?_, fun c hc => ?_⟩
  · rintro rfl
    simp at h
  · refine Bool.eq_false_iff.mpr fun hspace => ?_
    have hlower := toLower_of_space hspace
    obtain hq | h0 := hmem c hc
    · rw [← hlower, hq] at hspace
      cases hspace
    · rw [← hlower, h0] at hspace
      cases hspace

theorem TrecRow.line_spec {row : TrecRow reader} {line : List Char} (h : row.WrittenAs InLine line) :
    Unbroken line ∧ ¬ Blank line ∧ words line = row.fields := by
  obtain ⟨g₀, g₁, g₂, g₃, g₄, hgaps, hne, rfl⟩ := h
  have hmarker := token_of_marker row.marker_accepted
  simp only [List.forall_mem_cons, List.not_mem_nil, false_implies, implies_true, and_true] at hgaps hne
  obtain ⟨h₀, h₁, h₂, h₃, h₄⟩ := hgaps
  obtain ⟨hne₁, hne₂, hne₃⟩ := hne
  have hblank : ∀ {g : List Char}, (∀ c ∈ g, InLine c) → Blank g := fun hg c hc => (hg c hc).1
  have hwords : words (g₀ ++ (row.qid ++ g₁ ++ (row.marker ++ g₂ ++ (row.docid ++ g₃ ++ (row.relText ++ g₄))))) =
      row.fields := by
    rw [words_blank (hblank h₀), words_token row.qid_token (hblank h₁) hne₁, words_token hmarker (hblank h₂) hne₂,
      words_token row.docid_token (hblank h₃) hne₃, words_last row.relText_token (hblank h₄)]
    rfl
  refine ⟨?_, ?_, hwords⟩
  · intro c hc
    simp only [List.mem_append] at hc
    obtain hc | (hc | hc) | (hc | hc) | (hc | hc) | hc | hc := hc
    · exact (h₀ c hc).2
    · exact unbroken_of_token row.qid_token c hc
    · exact (h₁ c hc).2
    · exact unbroken_of_token hmarker c hc
    · exact (h₂ c hc).2
    · exact unbroken_of_token row.docid_token c hc
    · exact (h₃ c hc).2
    · exact unbroken_of_token row.relText_token c hc
    · exact (h₄ c hc).2
  · intro hblankLine
    have hnone := words_blank hblankLine []
    rw [List.append_nil, hwords] at hnone
    cases hnone

/-- The lines that are not blank are those of the rows. -/
theorem printed_spelled {rows : List (TrecRow reader)} {text : List Char} (h : Spelled InLine rows text) :
    List.Forall₂ (fun line row => words line = row.fields) (printed (splitLines text)) rows := by
  have hrow : ∀ {row : TrecRow reader} {line : List Char}, row.WrittenAs InLine line →
      printed [line] = [strip line] ∧ words (strip line) = row.fields := by
    intro row line hline
    obtain ⟨-, hnot, hwords⟩ := TrecRow.line_spec hline
    exact ⟨printed_of_not_blank hnot, (words_strip line).trans hwords⟩
  induction h with
  | blankEnd hline =>
    rw [printed_splitLines_unbroken fun c hc => (hline c hc).2, printed_of_blank fun c hc => (hline c hc).1]
    exact .nil
  | rowEnd hline =>
    rw [printed_splitLines_unbroken (TrecRow.line_spec hline).1, (hrow hline).1]
    exact .cons (hrow hline).2 .nil
  | blankLine hline he _ ih =>
    rw [printed_splitLines_append he, printed_splitLines_unbroken fun c hc => (hline c hc).2,
      printed_of_blank fun c hc => (hline c hc).1]
    exact ih
  | rowLine hline he _ ih =>
    rw [printed_splitLines_append he, printed_splitLines_unbroken (TrecRow.line_spec hline).1, (hrow hline).1]
    exact .cons (hrow hline).2 ih

theorem parseRow_fields {row : TrecRow reader} {line : List Char} (h : words line = row.fields) (lineno : ℕ) :
    parseRow reader lineno line = .ok row.judgement := by
  have hids : ¬ (row.qid = [] ∨ row.docid = []) := fun hempty => hempty.elim row.qid_token.1 row.docid_token.1
  unfold parseRow checkPrintable
  rw [h]
  simp only [TrecRow.fields, row.marker_accepted, row.relText_int, row.qid_printable, row.docid_printable, if_neg hids,
    Bool.true_eq_false, if_false, if_true]
  rfl

theorem parseQrelsText_spelled {rows : List (TrecRow reader)} {text : List Char} (h : Spelled InLine rows text) :
    parseQrelsText reader text = .ok (rows.map TrecRow.judgement) := by
  have hlines := printed_spelled h
  rw [← map_numberedLines, List.forall₂_map_left_iff] at hlines
  refine Fallible.mapM_forall₂.mpr (List.forall₂_map_right_iff.mpr (hlines.imp fun e row hrow => ?_))
  exact parseRow_fields hrow e.2

/-! ## The judgements of a key -/

def judgedPairs (rows : List Judgement) : Finset (String × String) := (rows.map Judgement.pair).toFinset

def positivePairs (rows : List Judgement) : Finset (String × String) :=
  ((rows.filter fun r => 0 < r.rel).map Judgement.pair).toFinset

theorem mem_judgedPairs {rows : List Judgement} {q d : String} :
    (q, d) ∈ judgedPairs rows ↔ d ∈ judgedDocids rows q := by
  rw [mem_judgedDocids]
  simp [judgedPairs, Judgement.pair]

theorem mem_positivePairs {rows : List Judgement} {q d : String} :
    (q, d) ∈ positivePairs rows ↔ d ∈ relevantDocids rows q := by
  have hsame : ∀ r : Judgement, (r ∈ rows ∧ 0 < r.rel) ∧ r.pair = (q, d) ↔
      r ∈ rows ∧ (r.qid = q ∧ 0 < r.rel) ∧ r.docid = d := by
    intro r
    rw [Judgement.pair, Prod.mk.injEq]
    tauto
  rw [mem_relevantDocids, positivePairs, List.mem_toFinset, List.mem_map]
  simp only [List.mem_filter, decide_eq_true_eq, hsame]

theorem judged_iff {rows : List Judgement} {q : String} :
    (∃ r ∈ rows, r.qid = q) ↔ (judgedDocids rows q).Nonempty := by
  constructor
  · rintro ⟨r, hr, hq⟩
    exact ⟨r.docid, mem_judgedDocids.mpr ⟨r, hr, hq, rfl⟩⟩
  · rintro ⟨d, hd⟩
    obtain ⟨r, hr, hq, -⟩ := mem_judgedDocids.mp hd
    exact ⟨r, hr, hq⟩

/-- Keys built from rows hold the same judgements when the rows judge the same pairs, the same ones positively. -/
theorem sameJudgements_iff {rows rows' : List Judgement} {k k' : Qrels} (hk : BuiltFrom rows k)
    (hk' : BuiltFrom rows' k') :
    Qrels.SameJudgements k k' ↔
      k.kind = k'.kind ∧ judgedPairs rows = judgedPairs rows' ∧ positivePairs rows = positivePairs rows' := by
  constructor
  · intro h
    have hjudged := h.judged
    have hrelevant := h.relevant
    simp only [hk.judged, hk'.judged, hk.relevant, hk'.relevant] at hjudged hrelevant
    refine ⟨h.kind, ?_, ?_⟩
    · refine Finset.ext fun p => ?_
      obtain ⟨q, d⟩ := p
      have hq := hjudged q
      simp only [judged_iff] at hq
      rw [mem_judgedPairs, mem_judgedPairs]
      split_ifs at hq with hleft hright hright
      · rw [Option.some.inj hq]
      · rw [Finset.not_nonempty_iff_eq_empty.mp hleft, Finset.not_nonempty_iff_eq_empty.mp hright]
    · refine Finset.ext fun p => ?_
      obtain ⟨q, d⟩ := p
      have hq := hrelevant q
      rw [mem_positivePairs, mem_positivePairs]
      split_ifs at hq with hleft hright hright
      · rw [Option.some.inj hq]
      · have hnone : ∀ {rs : List Judgement}, (¬ ∃ r ∈ rs, r.qid = q) → relevantDocids rs q = ∅ := by
          intro rs hrs
          refine relevantDocids_of_none fun hrel => ?_
          obtain ⟨r, hr, hrq, -⟩ := hrel
          exact hrs ⟨r, hr, hrq⟩
        rw [hnone hleft, hnone hright]
  · rintro ⟨hkind, hjudged, hpositive⟩
    have hdocids : ∀ q, judgedDocids rows q = judgedDocids rows' q := fun q => Finset.ext fun d => by
      rw [← mem_judgedPairs, ← mem_judgedPairs, hjudged]
    have hrel : ∀ q, relevantDocids rows q = relevantDocids rows' q := fun q => Finset.ext fun d => by
      rw [← mem_positivePairs, ← mem_positivePairs, hpositive]
    refine ⟨hkind, fun q => ?_, fun q => ?_⟩
    · rw [hk.relevant, hk'.relevant]
      simp only [judged_iff, hdocids, hrel]
    · rw [hk.judged, hk'.judged]
      simp only [judged_iff, hdocids]

theorem readKey_spelled {rows : List (TrecRow reader)} {text : List Char} (h : Spelled InLine rows text)
    (kind : QrelKind) (sourceName sourceSha256 : String) :
    readKey reader text kind sourceName sourceSha256 =
      Qrels.fromRows (rows.map TrecRow.judgement) kind sourceName sourceSha256 := by
  unfold readKey
  rw [parseQrelsText_spelled h]
  rfl

/-- A file of valid rows is accepted when it has one and judges no pair twice. The key then holds the judgements of
    the rows, and where the hash keeps two keys apart their digests differ exactly as the judged or the positive
    pairs do, whatever the order of rows. -/
theorem readKey_lossless {rows : List (TrecRow reader)} {text : List Char} (h : Spelled InLine rows text)
    (kind : QrelKind) (sourceName sourceSha256 : String) (sha256Hex : ByteArray → String) (floats : FloatText) :
    ((∃ k, readKey reader text kind sourceName sourceSha256 = .ok k) ↔
        rows ≠ [] ∧ (rows.map fun r => r.judgement.pair).Nodup) ∧
      ∀ k, readKey reader text kind sourceName sourceSha256 = .ok k →
        BuiltFrom (rows.map TrecRow.judgement) k ∧ k.kind = kind ∧
          ∀ (rows' : List (TrecRow reader)) (text' : List Char) (kind' : QrelKind) (sourceName' sourceSha256' : String)
            (k' : Qrels), Spelled InLine rows' text' →
            readKey reader text' kind' sourceName' sourceSha256' = .ok k' → Qrels.HashApart sha256Hex floats k k' →
            (k.digest sha256Hex floats = k'.digest sha256Hex floats ↔
              kind = kind' ∧ judgedPairs (rows.map TrecRow.judgement) = judgedPairs (rows'.map TrecRow.judgement) ∧
                positivePairs (rows.map TrecRow.judgement) = positivePairs (rows'.map TrecRow.judgement)) := by
  rw [readKey_spelled h]
  refine ⟨?_, fun k hk => ?_⟩
  · rw [fromRows_accepts, List.map_map, ne_eq, List.map_eq_nil_iff]
    rfl
  · obtain ⟨hbuilt, hkind⟩ := fromRows_spec hk
    refine ⟨hbuilt, hkind, ?_⟩
    intro rows' text' kind' sourceName' sourceSha256' k' h' hk' hapart
    rw [readKey_spelled h'] at hk'
    obtain ⟨hbuilt', hkind'⟩ := fromRows_spec hk'
    rw [Qrels.digest_eq_iff hapart, sameJudgements_iff hbuilt hbuilt', hkind, hkind']

/-! ## Two rows -/

/-- Decimal grades and printable ASCII. -/
def asciiReader : TextReader where
  int := fun cs => if cs ≠ [] ∧ cs.all Char.isDigit then some (Nat.ofDigitChars 10 cs 0) else none
  isPrintable := fun c => 32 ≤ c.toNat ∧ c.toNat ≤ 126

def positiveRow : TrecRow asciiReader where
  qid := ['q', '1']
  marker := ['Q', '0']
  docid := ['d', '1']
  relText := ['1']
  rel := 1
  qid_token := token_of_all (by decide) (by decide)
  qid_printable := by decide
  marker_accepted := by decide
  docid_token := token_of_all (by decide) (by decide)
  docid_printable := by decide
  relText_token := token_of_all (by decide) (by decide)
  relText_int := by decide

def zeroRow : TrecRow asciiReader where
  qid := ['q', '2']
  marker := ['0']
  docid := ['d', '2']
  relText := ['0']
  rel := 0
  qid_token := token_of_all (by decide) (by decide)
  qid_printable := by decide
  marker_accepted := by decide
  docid_token := token_of_all (by decide) (by decide)
  docid_printable := by decide
  relText_token := token_of_all (by decide) (by decide)
  relText_int := by decide

def forwardText : List Char := "q1 Q0 d1 1\n\nq2\t0 d2  0\n".toList

def backwardText : List Char := "  q2 0 d2 0\r\nq1 Q0 d1 1".toList

theorem spelled_forward : Spelled InLine [positiveRow, zeroRow] forwardText := by
  have hpositive : positiveRow.WrittenAs InLine "q1 Q0 d1 1".toList :=
    positiveRow.writtenAs_of_all [] [' '] [' '] [' '] [] (by decide) (by decide)
  have hzero : zeroRow.WrittenAs InLine "q2\t0 d2  0".toList :=
    zeroRow.writtenAs_of_all [] ['\t'] [' '] [' ', ' '] [] (by decide) (by decide)
  have hend : Spelled InLine ([] : List (TrecRow asciiReader)) [] := .blankEnd (List.forall_mem_nil _)
  have hlast : Spelled InLine [zeroRow] ("q2\t0 d2  0".toList ++ '\n' :: []) := .rowLine hzero rfl hend
  have hblank : Spelled InLine [zeroRow] ([] ++ '\n' :: ("q2\t0 d2  0".toList ++ '\n' :: [])) :=
    .blankLine (List.forall_mem_nil _) rfl hlast
  exact .rowLine hpositive (e := '\n') rfl hblank

theorem spelled_backward : Spelled InLine [zeroRow, positiveRow] backwardText := by
  have hzero : zeroRow.WrittenAs InLine "  q2 0 d2 0".toList :=
    zeroRow.writtenAs_of_all [' ', ' '] [' '] [' '] [' '] [] (by decide) (by decide)
  have hpositive : positiveRow.WrittenAs InLine "q1 Q0 d1 1".toList :=
    positiveRow.writtenAs_of_all [] [' '] [' '] [' '] [] (by decide) (by decide)
  have hlast : Spelled InLine [positiveRow] ([] ++ '\n' :: "q1 Q0 d1 1".toList) :=
    .blankLine (List.forall_mem_nil _) rfl (.rowEnd hpositive)
  exact .rowLine hzero (e := '\r') rfl hlast

/-- The digest of the two rows' content. -/
def contentSha : ByteArray → String := fun _ => "a03d425a9f09e70c2dd3f4d3379bcf1a0389dd1e88246cc1452d8610616eb636"

theorem readKey_lossless_reordered :
    ∃ k k', readKey asciiReader forwardText .gold "forward" "" = .ok k ∧
      readKey asciiReader backwardText .gold "backward" "" = .ok k' ∧
      k.digest contentSha .empty = k'.digest contentSha .empty := by
  have hforward := readKey_lossless spelled_forward .gold "forward" "" contentSha .empty
  have hbackward := readKey_lossless spelled_backward .gold "backward" "" contentSha .empty
  obtain ⟨k, hk⟩ := hforward.1.mpr ⟨by simp, by decide⟩
  obtain ⟨k', hk'⟩ := hbackward.1.mpr ⟨by simp, by decide⟩
  obtain ⟨hbuilt, hkind, hdigest⟩ := hforward.2 k hk
  obtain ⟨hbuilt', hkind', -⟩ := hbackward.2 k' hk'
  have hjudged : judgedPairs ([positiveRow, zeroRow].map TrecRow.judgement) =
      judgedPairs ([zeroRow, positiveRow].map TrecRow.judgement) := by decide
  have hpositive : positivePairs ([positiveRow, zeroRow].map TrecRow.judgement) =
      positivePairs ([zeroRow, positiveRow].map TrecRow.judgement) := by decide
  have hapart : Qrels.HashApart contentSha .empty k k' := by
    intro raw raw' hraw hraw' _
    rw [Qrels.canonicalContent_congr _
      ((sameJudgements_iff hbuilt hbuilt').mpr ⟨hkind.trans hkind'.symm, hjudged, hpositive⟩), hraw'] at hraw
    exact (Except.ok.inj hraw).symm
  exact ⟨k, k', hk, hk', (hdigest _ _ _ _ _ k' spelled_backward hk' hapart).mpr ⟨rfl, hjudged, hpositive⟩⟩

/-- A form feed separates fields and ends the line. -/
theorem not_readKey_lossless :
    ¬ ∀ (rows : List (TrecRow asciiReader)) (text : List Char), Spelled Whitespace rows text →
      ((∃ k, readKey asciiReader text .gold "" "" = .ok k) ↔
        rows ≠ [] ∧ (rows.map fun r => r.judgement.pair).Nodup) := by
  intro h
  have hrow : positiveRow.WrittenAs Whitespace "q1\x0cQ0 d1 1".toList :=
    positiveRow.writtenAs_of_all [] ['\x0c'] [' '] [' '] [] (by decide) (by decide)
  obtain ⟨k, hk⟩ := (h [positiveRow] _ (.rowEnd hrow)).mpr ⟨by simp, by decide⟩
  have hcut : readKey asciiReader "q1\x0cQ0 d1 1".toList .gold "" "" = .error (.fieldCount 1 1) := by decide
  rw [hcut] at hk
  cases hk

end Shapeflow.AnswerKey
