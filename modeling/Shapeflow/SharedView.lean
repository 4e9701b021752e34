import Shapeflow.ChunkersCeiling

set_option autoImplicit false

/-!
# The shared content budget

A page is clipped to its characters, then cut at the end of the last token that fits and
counted again; a cut that still counts too much is moved back, eight times at most.
-/
namespace Shapeflow.Evidence

structure SharedContentBudget where
  maxChars : ℕ
  maxTokens : ℕ
deriving DecidableEq, Repr

/-- `CHAR_BOUND_REASON` and `OVERFLOW_REASON` -/
inductive TruncationReason
  | none
  | charBound
  | overflow
deriving DecidableEq, Repr

structure SharedContent where
  text : List Char
  truncated : Bool
  reason : TruncationReason
  originalTokens : ℕ
  keptTokens : ℕ
  charTruncated : Bool
deriving DecidableEq, Repr

/-- `ValueError`: the content could not be bounded. -/
inductive BudgetError
  | notBounded (maxTokens : ℕ)
deriving DecidableEq, Repr

/-- What is reported of a text the token bound did not cut. -/
def uncut (clipped : List Char) (charBoundHit : Bool) (tokens : ℕ) : SharedContent :=
  ⟨clipped, charBoundHit, if charBoundHit then .charBound else .none, tokens, tokens, charBoundHit⟩

def tokensIn (tokenizer : Tokenizer) (text : List Char) : ℕ := (tokenizer.encodeOffsets text).length

/-- The text up to the end of token `keep`; `offsets[keep - 1]` is the last one where `keep` is 0. -/
def cutAfter (tokenizer : Tokenizer) (text : List Char) (keep : ℕ) : List Char :=
  let offsets := tokenizer.encodeOffsets text
  let cut := if keep = 0 then offsets.getLast? else offsets[keep - 1]?
  text.take ((cut.map Prod.snd).getD 0)

/-- The passes of the loop: a cut and its recount, then fewer tokens by what was too many. -/
def boundTokens (tokenizer : Tokenizer) (maxTokens : ℕ) (clipped : List Char) (charBoundHit : Bool) :
    ℕ → ℕ → Except BudgetError SharedContent
  | 0, _ => .error (.notBounded maxTokens)
  | passes + 1, keep =>
    let candidate := cutAfter tokenizer clipped keep
    let recount := tokensIn tokenizer candidate
    if recount ≤ maxTokens then
      .ok ⟨candidate, true, .overflow, tokensIn tokenizer clipped, recount, charBoundHit⟩
    else if keep ≤ max 1 (recount - maxTokens) then .error (.notBounded maxTokens)
    else boundTokens tokenizer maxTokens clipped charBoundHit passes (keep - max 1 (recount - maxTokens))

def applySharedBudget (text : List Char) (budget : SharedContentBudget) (tokenizer : Option Tokenizer) :
    Except BudgetError SharedContent :=
  let clipped := text.take budget.maxChars
  let charBoundHit : Bool := clipped.length < text.length
  match tokenizer with
  | none => .ok (uncut clipped charBoundHit 0)
  | some tokenizer =>
    let original := tokensIn tokenizer clipped
    if original ≤ budget.maxTokens then .ok (uncut clipped charBoundHit original)
    else boundTokens tokenizer budget.maxTokens clipped charBoundHit 8 budget.maxTokens

/-- What a bounded page is: a prefix within both bounds, reported as it counts. -/
structure Bounds (tokenizer : Tokenizer) (budget : SharedContentBudget) (text : List Char) (content : SharedContent) :
    Prop where
  isPrefix : content.text <+: text
  chars : content.text.length ≤ budget.maxChars
  tokens : tokensIn tokenizer content.text ≤ budget.maxTokens
  kept : content.keptTokens = tokensIn tokenizer content.text
  truncated : content.truncated = true ↔ content.text ≠ text
  reason : content.reason ≠ .none ↔ content.text ≠ text
  again : ∃ content', applySharedBudget content.text budget (some tokenizer) = .ok content' ∧
    content'.text = content.text

theorem boundTokens_ok {tokenizer : Tokenizer} {maxTokens : ℕ} {clipped : List Char} {charBoundHit : Bool}
    {passes keep : ℕ} {content : SharedContent}
    (h : boundTokens tokenizer maxTokens clipped charBoundHit passes keep = .ok content) :
    content.text <+: clipped ∧ content.truncated = true ∧ content.reason = .overflow ∧
      content.keptTokens = tokensIn tokenizer content.text ∧ tokensIn tokenizer content.text ≤ maxTokens := by
  induction passes generalizing keep with
  | zero => cases h
  | succ passes ih =>
    rw [boundTokens] at h
    split_ifs at h with hfits hnone
    · cases h
      exact ⟨List.take_prefix _ _, rfl, rfl, rfl, hfits⟩
    · exact ih h

theorem take_ne_iff {text : List Char} {n : ℕ} : (text.take n).length < text.length ↔ text.take n ≠ text := by
  constructor
  · intro h heq
    rw [heq] at h
    exact lt_irrefl _ h
  · intro h
    refine lt_of_not_ge fun hle => h (List.take_of_length_le ?_)
    rw [List.length_take] at hle
    omega

/-- A text within both bounds is left as it is. -/
theorem applySharedBudget_again {tokenizer : Tokenizer} {budget : SharedContentBudget} {text : List Char}
    (hchars : text.length ≤ budget.maxChars) (htokens : tokensIn tokenizer text ≤ budget.maxTokens) :
    ∃ content, applySharedBudget text budget (some tokenizer) = .ok content ∧ content.text = text := by
  have hclip := List.take_of_length_le hchars
  refine ⟨uncut (text.take budget.maxChars) (decide ((text.take budget.maxChars).length < text.length))
    (tokensIn tokenizer (text.take budget.maxChars)), ?_, hclip⟩
  simp only [applySharedBudget]
  rw [if_pos]
  rw [hclip]
  exact htokens

/-- A page is bounded and reported, or refused because a cut after the last token that fits counts too much. -/
theorem applySharedBudget_bounds (tokenizer : Tokenizer) (budget : SharedContentBudget) (text : List Char) :
    match applySharedBudget text budget (some tokenizer) with
    | .ok content => Bounds tokenizer budget text content
    | .error _ => budget.maxTokens < tokensIn tokenizer (text.take budget.maxChars) ∧
        budget.maxTokens < tokensIn tokenizer (cutAfter tokenizer (text.take budget.maxChars) budget.maxTokens) := by
  have hlength : (text.take budget.maxChars).length ≤ budget.maxChars := List.length_take_le _ _
  simp only [applySharedBudget]
  by_cases hfits : tokensIn tokenizer (text.take budget.maxChars) ≤ budget.maxTokens
  · rw [if_pos hfits]
    refine ⟨List.take_prefix _ _, hlength, hfits, rfl, ?_, ?_, applySharedBudget_again hlength hfits⟩
    · simp only [uncut, decide_eq_true_eq]
      exact take_ne_iff
    · simp only [uncut, decide_eq_true_eq]
      rw [← take_ne_iff]
      split_ifs <;> simp_all
  · rw [if_neg hfits]
    cases hbound : boundTokens tokenizer budget.maxTokens (text.take budget.maxChars)
        (decide ((text.take budget.maxChars).length < text.length)) 8 budget.maxTokens with
    | error e =>
      refine ⟨not_le.mp hfits, not_le.mp fun hcut => ?_⟩
      rw [boundTokens, if_pos hcut] at hbound
      cases hbound
    | ok content =>
      obtain ⟨hhead, htruncated, hreason, hkept, htokens⟩ := boundTokens_ok hbound
      have hchars : content.text.length ≤ budget.maxChars := hhead.length_le.trans hlength
      have hne : content.text ≠ text := by
        intro heq
        refine hfits ?_
        rw [heq] at hhead htokens
        rw [hhead.eq_of_length_le (List.length_take_le' _ _)] at htokens
        exact htokens
      refine ⟨hhead.trans (List.take_prefix _ _), hchars, htokens, hkept, ?_, ?_,
        applySharedBudget_again hchars htokens⟩
      · exact iff_of_true htruncated hne
      · rw [hreason]
        exact iff_of_true (by simp) hne

/-- Three tokens per character, each with the character's range. -/
def bytes : Tokenizer where
  encodeOffsets text := (List.range text.length).flatMap fun i => List.replicate 3 (i, i + 1)
  count text := 3 * text.length

theorem bytes_regular : bytes.Regular where
  counts text := by simp [bytes, Nat.mul_comm]
  inBounds text o ho := by
    obtain ⟨i, hi, ho⟩ := List.mem_flatMap.mp ho
    obtain rfl := List.eq_of_mem_replicate ho
    exact ⟨Nat.le_succ i, List.mem_range.mp hi⟩
  ordered text := by
    refine List.pairwise_flatMap.mpr ⟨fun i _ => ?_, ?_⟩
    · exact List.pairwise_replicate.mpr (.inr ⟨le_rfl, le_rfl⟩)
    · refine List.pairwise_lt_range.imp fun {i j} hij o ho o' ho' => ?_
      obtain rfl := List.eq_of_mem_replicate ho
      obtain rfl := List.eq_of_mem_replicate ho'
      exact ⟨hij.le, Nat.succ_le_succ hij.le⟩

/-- A character of three tokens fits no bound below three, and the page is refused. -/
theorem bytes_refused : bytes.Regular ∧ applySharedBudget ['x'] ⟨10, 1⟩ (some bytes) = .error (.notBounded 1) :=
  ⟨bytes_regular, rfl⟩

end Shapeflow.Evidence
