import Shapeflow.Prose
import Mathlib.Data.List.Infix
import Mathlib.Tactic.Common

set_option autoImplicit false

/-!
# The bound of the prose control

A page's document and a close handoff are cut to the budget whatever the
selector returns. A whole batch is published as it was returned: it is within
the budget when the reply is, where it stands, within the cap it was asked
under.
-/
namespace Shapeflow.Prose
open Fallible Evidence TextScan
open P1 (TextClasses firstSeen mem_firstSeen)
open PageH (VendorVisibleResult)

section
variable {classes : TextClasses} {tokenizer : Tokenizer} {budget : ℤ}

/-! ## The prefix that is published -/

theorem fits_iff {document : List Char} : fits tokenizer budget document ↔ (tokenizer.count document : ℤ) ≤ budget := by
  simp only [fits, decide_eq_true_eq]

theorem keptPrefix_prefix (text : List Char) (offsets : List (ℕ × ℕ)) (kept : ℕ) :
    keptPrefix text offsets kept <+: text := by
  cases kept with
  | zero => exact List.nil_prefix
  | succ kept => exact List.take_prefix _ _

/-- The prefix is admitted, and every longer one that was tried is not. -/
structure Longest (tokenizer : Tokenizer) (budget : ℤ) (admits : List Char → Bool) (text body : List Char) : Prop where
  admitted : admits body
  isPrefix : body <+: text
  longest : ∃ kept ≤ min (tokenizer.encodeOffsets text).length budget.toNat,
    body = keptPrefix text (tokenizer.encodeOffsets text) kept ∧
    ∀ more, kept < more → more ≤ min (tokenizer.encodeOffsets text).length budget.toNat →
      ¬ admits (keptPrefix text (tokenizer.encodeOffsets text) more)

theorem longestPrefix_some {admits : List Char → Bool} {text body : List Char}
    (h : longestPrefix tokenizer budget admits text = some body) : Longest tokenizer budget admits text body := by
  simp only [longestPrefix] at h
  split_ifs at h with hnegative
  obtain ⟨hadmits, kept, hkept, hbody, hlonger⟩ := longest_some h
  refine ⟨hadmits, ?_, kept, hkept, hbody, hlonger⟩
  rw [hbody]
  exact keptPrefix_prefix _ _ _

/-! ## The pages -/

theorem renderPageProse_ok {text title url : List Char} {sourceNumber : ℕ} {page : PageProse}
    (h : renderPageProse classes tokenizer budget text title url sourceNumber = .ok page) :
    (tokenizer.count page.rendered : ℤ) ≤ budget := by
  simp only [renderPageProse] at h
  split_ifs at h with hwrapper
  split at h
  · cases h
  · next body hbody =>
    split_ifs at h with hvalid
    cases h
    exact fits_iff.mp (longestPrefix_some hbody).admitted

theorem summarizeOne_bounded {selector : Selector} {title url : List Char} {sourceNumber : ℕ} {document : List Char}
    (h : summarizeOne classes tokenizer budget selector title url sourceNumber = .ok document) :
    (tokenizer.count document : ℤ) ≤ budget := by
  obtain ⟨cap, -, h⟩ := bind_ok.mp h
  obtain ⟨text, -, h⟩ := bind_ok.mp h
  obtain ⟨page, hpage, h⟩ := bind_ok.mp h
  cases h
  exact renderPageProse_ok hpage

/-! ## The close -/

/-- What a close publishes of a text. -/
structure Published (classes : TextClasses) (tokenizer : Tokenizer) (budget : ℤ) (text : List Char)
    (entries : List VisibleSourceEntry) (close : CloseProse) : Prop where
  used : close.used = usedEntries entries close.body
  rendered : close.rendered = renderCloseDocument close.body close.used
  chosen : Longest tokenizer budget (fun body => ¬ dangling classes body ∧
    fits tokenizer budget (renderCloseDocument body (usedEntries entries body))) text close.body
  valid : (validationOf classes close.body (entries.map (·.label)) (entries ≠ [])).valid

theorem renderCloseProse_ok {text : List Char} {entries : List VisibleSourceEntry} {close : CloseProse}
    (h : renderCloseProse classes tokenizer budget text entries = .ok close) :
    Published classes tokenizer budget text entries close := by
  simp only [renderCloseProse] at h
  split at h
  · cases h
  · next body hbody =>
    split_ifs at h with hvalid
    cases h
    simp only [normalizationOf, Bool.and_eq_true] at hvalid
    exact ⟨rfl, rfl, longestPrefix_some hbody, hvalid.1⟩

theorem Published.bounded {text : List Char} {entries : List VisibleSourceEntry} {close : CloseProse}
    (h : Published classes tokenizer budget text entries close) : (tokenizer.count close.rendered : ℤ) ≤ budget := by
  have hadmitted := h.chosen.admitted
  simp only [decide_eq_true_eq] at hadmitted
  rw [h.rendered, h.used]
  exact fits_iff.mp hadmitted.2

theorem closeResearcher_bounded {selector : Selector} {entries : List VisibleSourceEntry} {document : List Char}
    (h : closeResearcher classes tokenizer budget selector entries = .ok document) :
    (tokenizer.count document : ℤ) ≤ budget := by
  obtain ⟨cap, -, h⟩ := bind_ok.mp h
  obtain ⟨text, -, h⟩ := bind_ok.mp h
  obtain ⟨close, hclose, h⟩ := bind_ok.mp h
  cases h
  exact (renderCloseProse_ok hclose).bounded

/-! ## The whole batch -/

theorem completionCap_ok {wrapper : List Char} {cap : ℤ} (h : completionCap tokenizer budget wrapper = .ok cap) :
    cap = budget - tokenizer.count wrapper ∧ 0 < cap := by
  simp only [completionCap] at h
  split_ifs at h with hremaining
  cases h
  exact ⟨rfl, not_le.mp hremaining⟩

/-- What a reply adds to the wrapper it stands in is within the cap it was asked under. -/
def WithinCap (tokenizer : Tokenizer) (budget : ℤ) (selector : Selector) : ProsePath → Prop
  | .wholeBatch sources =>
    let wrapper := batchProseWrapper sources
    ∀ cap body, completionCap tokenizer budget (wrapper.1 ++ wrapper.2) = .ok cap → selector cap = .ok body →
      (tokenizer.count (wrapper.1 ++ body ++ wrapper.2) : ℤ) - tokenizer.count (wrapper.1 ++ wrapper.2) ≤ cap
  | _ => True

theorem summarizeBatch_ok {selector : Selector} {sources : List Source} {document : List Char} :
    summarizeBatch tokenizer budget selector sources = .ok document ↔
      ∃ cap body, completionCap tokenizer budget ((batchProseWrapper sources).1 ++ (batchProseWrapper sources).2) =
        .ok cap ∧ selector cap = .ok body ∧
        document = (batchProseWrapper sources).1 ++ body ++ (batchProseWrapper sources).2 := by
  constructor
  · intro h
    obtain ⟨cap, hcap, h⟩ := bind_ok.mp h
    obtain ⟨body, hbody, h⟩ := bind_ok.mp h
    exact ⟨cap, body, hcap, mapError_ok.mp hbody, (Except.ok.inj h).symm⟩
  · rintro ⟨cap, body, hcap, hbody, rfl⟩
    exact bind_ok.mpr ⟨cap, hcap, bind_ok.mpr ⟨body, mapError_ok.mpr hbody, rfl⟩⟩

theorem slotOf_document {s : ProsePageStrategy} {selector : Selector} {result : VendorVisibleResult}
    {slot : Slot} (h : slotOf s selector result = .ok (some slot)) (hdocument : slot.isDocument) :
    publish s.classes s.tokenizer s.tokenBudget selector
      (.page result.title.toList result.url.toList (result.vendorVisibleOrder + 1)) = .ok slot.text := by
  unfold slotOf at h
  split at h
  · rw [← Option.some.inj (Except.ok.inj h)] at hdocument
    cases hdocument
  · cases Except.ok.inj h
  · obtain ⟨document, hpublished, h⟩ := bind_ok.mp h
    rw [← Option.some.inj (Except.ok.inj h)]
    exact hpublished

/-- Every document in a message was published by the path of its scope. -/
theorem transformOneToolCall_documents {s : ProsePageStrategy} {selectors : ℕ → Selector}
    {results : List VendorVisibleResult} {message : ProseMessage}
    (h : transformOneToolCall s selectors results = .ok message) :
    ∀ document ∈ message.documents, ∃ call path,
      publish s.classes s.tokenizer s.tokenBudget (selectors call) path = .ok document ∧
        ((∃ sources, path = .wholeBatch sources) ↔ s.scope = .wholeBatch) := by
  intro document hdocument
  unfold transformOneToolCall at h
  split_ifs at h with hscope
  · simp only [transformWholeBatch] at h
    split_ifs at h with hsources
    · cases h
      cases hdocument
    · obtain ⟨published, hpublished, h⟩ := bind_ok.mp h
      cases h
      rw [List.mem_singleton.mp hdocument]
      exact ⟨0, .wholeBatch _, hpublished, iff_of_true ⟨_, rfl⟩ hscope⟩
  · obtain ⟨slots, hslots, h⟩ := bind_ok.mp h
    cases h
    obtain ⟨slot, hslot, rfl⟩ := List.mem_map.mp hdocument
    obtain ⟨hslot, hisDocument⟩ := List.mem_filter.mp hslot
    obtain ⟨found, hfound, rfl⟩ := List.mem_filterMap.mp hslot
    obtain ⟨⟨result, call⟩, -, hslot⟩ := mem_mapM hslots hfound
    refine ⟨call, .page _ _ _, slotOf_document hslot hisDocument, iff_of_false ?_ hscope⟩
    rintro ⟨sources, hsources⟩
    cases hsources

/-! ## What a close publishes -/

/-- A scheme, a separator and a character of a host, somewhere in a text. -/
def HasUrl (text : List Char) : Prop :=
  ∃ front scheme c rest, text = front ++ (scheme ++ ("://".toList ++ c :: rest)) ∧ isUrlChar c ∧
    (List.Forall₂ (fun letter d => sameLetter letter d) "http".toList scheme ∨
      List.Forall₂ (fun letter d => sameLetter letter d) "https".toList scheme)

theorem afterLetters_append {letters cs : List Char} (h : List.Forall₂ (fun letter c => sameLetter letter c) letters cs)
    (rest : List Char) : afterLetters letters (cs ++ rest) = some rest := by
  induction h with
  | nil => rfl
  | cons hletter _ ih =>
    rw [List.cons_append, afterLetters, if_pos hletter]
    exact ih

theorem afterUrl_isSome {scheme : List Char} {c : Char} (rest : List Char) (hc : isUrlChar c)
    (hscheme : List.Forall₂ (fun letter d => sameLetter letter d) "http".toList scheme ∨
      List.Forall₂ (fun letter d => sameLetter letter d) "https".toList scheme) :
    (afterUrl (scheme ++ ("://".toList ++ c :: rest))).isSome := by
  have hhost : ((c :: rest).dropWhile isUrlChar).length ≠ (c :: rest).length := by
    rw [List.dropWhile_cons_of_pos hc]
    exact Nat.ne_of_lt (Nat.lt_succ_of_le (List.dropWhile_sublist _).length_le)
  have hseparator : afterLetters "://".toList ("://".toList ++ c :: rest) = some (c :: rest) := rfl
  rcases hscheme with hscheme | hscheme
  · have hplain : afterOptionalS ("://".toList ++ c :: rest) = "://".toList ++ c :: rest := rfl
    simp only [afterUrl, afterLetters_append hscheme, Option.bind_eq_bind, Option.bind_some, hplain, hseparator,
      if_neg hhost, Option.isSome_some]
  · obtain ⟨http, last, hhttp, hlast, rfl⟩ : ∃ http last,
        List.Forall₂ (fun letter d => sameLetter letter d) "http".toList http ∧ sameLetter 's' last ∧
          scheme = http ++ [last] := by
      obtain - | ⟨h, - | ⟨t, - | ⟨t', - | ⟨p, - | ⟨hlast, - | -⟩⟩⟩⟩⟩ := hscheme
      exact ⟨_, _, .cons h (.cons t (.cons t' (.cons p .nil))), hlast, rfl⟩
    have hsecure : afterOptionalS (last :: ("://".toList ++ c :: rest)) = "://".toList ++ c :: rest := by
      simp only [afterOptionalS, afterLetters, if_pos hlast, Option.getD_some]
    rw [List.append_assoc, List.singleton_append]
    simp only [afterUrl, afterLetters_append hhttp, Option.bind_eq_bind, Option.bind_some, hsecure, hseparator,
      if_neg hhost, Option.isSome_some]

theorem not_hasUrl {text : List Char} (h : findAll anyUrl text = []) : ¬ HasUrl text := by
  rintro ⟨front, scheme, c, rest, rfl, hc, hscheme⟩
  have hsome := afterUrl_isSome rest hc hscheme
  cases hurl : scheme ++ ("://".toList ++ c :: rest) with
  | nil =>
    rw [hurl] at hsome
    cases hsome
  | cons d tail =>
    have hnone := findAll_eq_nil.mp h front d tail (by rw [hurl])
    rw [hurl] at hsome
    simp only [anyUrl, leaving, Option.map_eq_none_iff] at hnone
    rw [hnone] at hsome
    cases hsome

theorem validationOf_valid {text : List Char} {known : List (List Char)} {sourcesRequired : Bool}
    (h : (validationOf classes text known sourcesRequired).valid) :
    (∀ label ∈ citationLabels text, label ∈ known) ∧ ¬ HasUrl text := by
  simp only [validationOf, decide_eq_true_eq, not_or, ne_eq, not_not] at h
  obtain ⟨hunknown, hurls, -⟩ := h
  refine ⟨fun label hlabel => ?_, not_hasUrl (List.eq_nil_of_length_eq_zero hurls)⟩
  by_contra hnew
  have hmem : label ∈ (citationLabels text).filter (· ∉ known) :=
    List.mem_filter.mpr ⟨hlabel, decide_eq_true hnew⟩
  rw [hunknown] at hmem
  cases hmem

/-- The whole text is the longest of the prefixes that are tried, and does not end in an incomplete citation. -/
def Whole (classes : TextClasses) (tokenizer : Tokenizer) (budget : ℤ) (text : List Char) : Prop :=
  keptPrefix text (tokenizer.encodeOffsets text) (min (tokenizer.encodeOffsets text).length budget.toNat) = text ∧
    ¬ dangling classes text

/-- A whole text that fits is published unchanged, or it is not valid. -/
theorem renderCloseProse_whole {text : List Char} {entries : List VisibleSourceEntry}
    (hfits : (tokenizer.count (renderCloseDocument text (usedEntries entries text)) : ℤ) ≤ budget)
    (hwhole : Whole classes tokenizer budget text) :
    (∃ close, renderCloseProse classes tokenizer budget text entries = .ok close ∧ close.body = text) ∨
      ∃ message normalization,
        renderCloseProse classes tokenizer budget text entries = .error (.validation message normalization) := by
  have hbudget : ¬ budget < 0 := by omega
  have hlongest : longestPrefix tokenizer budget (fun body => ¬ dangling classes body ∧
      fits tokenizer budget (renderCloseDocument body (usedEntries entries body))) text = some text := by
    simp only [longestPrefix, if_neg hbudget]
    rw [longest_of_admits ?_, hwhole.1]
    rw [hwhole.1]
    exact decide_eq_true ⟨hwhole.2, fits_iff.mpr hfits⟩
  simp only [renderCloseProse]
  rw [hlongest]
  simp only
  split_ifs with hvalid
  · exact .inl ⟨_, rfl, rfl⟩
  · exact .inr ⟨_, _, rfl⟩

/-- What is published of any text, and when it is the text itself. -/
theorem renderCloseProse_published (classes : TextClasses) (tokenizer : Tokenizer) (budget : ℤ) (text : List Char)
    (entries : List VisibleSourceEntry) :
    (∀ close, renderCloseProse classes tokenizer budget text entries = .ok close →
      Longest tokenizer budget (fun body => ¬ dangling classes body ∧
        fits tokenizer budget (renderCloseDocument body (usedEntries entries body))) text close.body ∧
      (∀ label ∈ citationLabels close.body, label ∈ entries.map (·.label)) ∧ ¬ HasUrl close.body ∧
      close.rendered = renderCloseDocument close.body close.used ∧
      ∀ entry, entry ∈ close.used ↔ entry ∈ entries ∧ entry.label ∈ inlineCitationLabels close.body) ∧
    ((tokenizer.count (renderCloseDocument text (usedEntries entries text)) : ℤ) ≤ budget →
      Whole classes tokenizer budget text →
      (∃ close, renderCloseProse classes tokenizer budget text entries = .ok close ∧ close.body = text) ∨
        ∃ message normalization,
          renderCloseProse classes tokenizer budget text entries = .error (.validation message normalization)) := by
  refine ⟨fun close hclose => ?_, renderCloseProse_whole⟩
  have hpublished := renderCloseProse_ok hclose
  obtain ⟨hknown, hurl⟩ := validationOf_valid hpublished.valid
  refine ⟨hpublished.chosen, hknown, hurl, hpublished.rendered, fun entry => ?_⟩
  rw [hpublished.used, usedEntries, List.mem_filter, decide_eq_true_eq]

/-- A text that fits, and ends in an incomplete citation, is published without it. -/
theorem not_shortened_only_by_budget :
    ¬ ∀ (classes : TextClasses) (tokenizer : Tokenizer) (budget : ℤ) (text : List Char)
      (entries : List VisibleSourceEntry),
      (tokenizer.count (renderCloseDocument text (usedEntries entries text)) : ℤ) ≤ budget →
      (∃ close, renderCloseProse classes tokenizer budget text entries = .ok close ∧ close.body = text) ∨
        ∃ message normalization,
          renderCloseProse classes tokenizer budget text entries = .error (.validation message normalization) := by
  intro h
  rcases h ⟨Char.isDigit, Char.isAlphanum⟩ whitespaceTokenizer 16 "fact [1] [2".toList
    [⟨['1'], "title".toList, "url".toList, []⟩] (by decide) with ⟨close, hclose, hbody⟩ | ⟨message, normalization, h⟩
  · have hshort : (renderCloseProse ⟨Char.isDigit, Char.isAlphanum⟩ whitespaceTokenizer 16 "fact [1] [2".toList
        [⟨['1'], "title".toList, "url".toList, []⟩]).map (·.body) = .ok "fact [1]".toList := by decide
    rw [hclose] at hshort
    have hsame := (Except.ok.inj hshort).symm.trans hbody
    exact absurd hsame (by decide)
  · cases h

end
end Shapeflow.Prose
