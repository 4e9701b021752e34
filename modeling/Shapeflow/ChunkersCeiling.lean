import Shapeflow.ChunkersCoverage

set_option autoImplicit false

/-!
# Whether a chunk fits its ceiling

A window is cut where the tokens of the whole text end and counted on its own text.
It fits for every text when no run of tokens counts more on its own than it has.
-/
namespace Shapeflow.Evidence
open Fallible

/-- A tokenizer that counts the offsets it returns, each in bounds and none before the one ahead of it. -/
structure Tokenizer.Regular (tokenizer : Tokenizer) : Prop where
  counts : ∀ text, tokenizer.count text = (tokenizer.encodeOffsets text).length
  inBounds : ∀ text, ∀ o ∈ tokenizer.encodeOffsets text, o.1 ≤ o.2 ∧ o.2 ≤ text.length
  ordered : ∀ text, (tokenizer.encodeOffsets text).Pairwise fun o later => o.1 ≤ later.1 ∧ o.2 ≤ later.2

/-- No run of a text's tokens counts more on its own text than it has. -/
def Tokenizer.RecountsWithin (tokenizer : Tokenizer) : Prop :=
  ∀ text before first run after, tokenizer.encodeOffsets text = before ++ first :: run ++ after →
    tokenizer.count (slice text (windowSpan first run).1 (windowSpan first run).2) ≤ run.length + 1

inductive Chunker
  | fixedTokenV1 (overlap : ℤ)
  | paragraphSentenceV1
  | markdownStructureV1
deriving DecidableEq, Repr

def Chunker.chunk (isDecimal : Char → Bool) (tokenizer : Tokenizer) (maxTokens : ℤ) (text : List Char) :
    Chunker → Except ChunkError (List Chunk)
  | .fixedTokenV1 overlap => Evidence.fixedTokenV1 tokenizer maxTokens overlap text
  | .paragraphSentenceV1 => Evidence.paragraphSentenceV1 tokenizer maxTokens text
  | .markdownStructureV1 => Evidence.markdownStructureV1 isDecimal tokenizer maxTokens text

/-! ## Windows are runs of tokens -/

theorem windows_mem {window step : ℕ} (hwindow : 0 < window) {offsets : List (ℕ × ℕ)} {span : ℕ × ℕ}
    (h : span ∈ windows window step offsets) : ∃ before first run after,
      offsets = before ++ first :: run ++ after ∧ span = windowSpan first run ∧ run.length + 1 ≤ window := by
  fun_induction windows window step offsets with
  | case1 => cases h
  | case2 first others ih =>
    obtain rfl | hlater := List.mem_cons.mp h
    · refine ⟨[], first, others.take (window - 1), others.drop (window - 1), ?_, rfl, ?_⟩
      · simp
      · rw [List.length_take]
        omega
    · split_ifs at hlater with hend
      · cases hlater
      · obtain ⟨before, first', run, after, hoffsets, hspan, hrun⟩ := ih hend hlater
        refine ⟨first :: others.take (step - 1) ++ before, first', run, after, ?_, hspan, hrun⟩
        calc first :: others = first :: (others.take (step - 1) ++ others.drop (step - 1)) := by
              rw [List.take_append_drop]
          _ = first :: (others.take (step - 1) ++ (before ++ first' :: run ++ after)) := by rw [hoffsets]
          _ = first :: others.take (step - 1) ++ before ++ first' :: run ++ after := by simp

/-- Windows that move by one token show every run of their length. -/
theorem mem_windows_one {before after run : List (ℕ × ℕ)} {first : ℕ × ℕ} :
    windowSpan first run ∈ windows (run.length + 1) 1 (before ++ first :: run ++ after) := by
  induction before with
  | nil =>
    rw [List.nil_append, List.cons_append, windows]
    simp
  | cons o before ih =>
    rw [List.cons_append, List.cons_append, windows, if_neg]
    · exact List.mem_cons_of_mem _ ih
    · simp only [List.length_append, List.length_cons]
      omega

theorem slice_slice {text : List Char} {start stop a b : ℕ} (hb : b ≤ (slice text start stop).length) :
    slice (slice text start stop) a b = slice text (start + a) (start + b) := by
  have hlength : b ≤ stop - start := by
    rw [slice, List.length_drop, List.length_take] at hb
    omega
  rw [slice, slice, slice, List.take_drop, List.drop_drop, List.take_take]
  by_cases hle : start ≤ stop
  · rw [Nat.min_eq_left (by omega)]
  · have hnone : b = 0 := by omega
    subst hnone
    rw [List.drop_eq_nil_of_le (by rw [List.length_take]; omega), List.drop_eq_nil_of_le (by rw [List.length_take]; omega)]

/-! ## Every chunk is counted or a window -/

section
variable {tokenizer : Tokenizer} {maxTokens : ℤ} {text : List Char}

/-- In bounds, and within the ceiling on its own text. -/
def Within (tokenizer : Tokenizer) (maxTokens : ℤ) (text : List Char) (c : Chunk) : Prop :=
  c.charEnd ≤ text.length ∧ (tokenizer.count (c.text text) : ℤ) ≤ maxTokens

theorem fixedTokenV1_within (hT : tokenizer.Regular) (hrecounts : tokenizer.RecountsWithin) {overlap : ℤ}
    {chunks : List Chunk} (h : fixedTokenV1 tokenizer maxTokens overlap text = .ok chunks) :
    ∀ c ∈ chunks, Within tokenizer maxTokens text c := by
  unfold fixedTokenV1 at h
  split_ifs at h with hwindow hoverlap
  cases h
  intro c hc
  obtain ⟨span, hspan, rfl⟩ := List.mem_map.mp hc
  obtain ⟨before, first, run, after, hoffsets, rfl, hrun⟩ := windows_mem (by omega) hspan
  constructor
  · have hlast : (first :: run).getLast (by simp) ∈ tokenizer.encodeOffsets text := by
      rw [hoffsets]
      exact List.mem_append_left _ (List.mem_append_right _ (List.getLast_mem _))
    exact (hT.inBounds text _ hlast).2
  · have hcount := hrecounts text before first run after hoffsets
    change (tokenizer.count (slice text (windowSpan first run).1 (windowSpan first run).2) : ℤ) ≤ maxTokens
    omega

/-- A chunk of a slice, where the slice stands. -/
theorem within_of_slice {start stop : ℕ} {c sub : Chunk} (hstart : start ≤ text.length)
    (h : Within tokenizer maxTokens (slice text start stop) sub) (hfirst : c.charStart = start + sub.charStart)
    (hlast : c.charEnd = start + sub.charEnd) : Within tokenizer maxTokens text c := by
  obtain ⟨hbound, hcount⟩ := h
  constructor
  · rw [slice, List.length_drop, List.length_take] at hbound
    omega
  · rw [Chunk.text, hfirst, hlast, ← slice_slice hbound]
    exact hcount

theorem splitFrom_bounds {separator : ℕ → ℕ} {stop cursor i : ℕ} :
    ∀ span ∈ splitFrom separator stop cursor i, span.1 < span.2 ∧ span.2 ≤ stop := by
  fun_induction splitFrom separator stop cursor i with
  | case1 cursor i hi hnone ih => exact ih
  | case2 cursor i hi hmatch ih =>
    intro span hspan
    obtain hhead | hrest := List.mem_append.mp hspan
    · split_ifs at hhead with hcontent
      · obtain rfl := List.mem_singleton.mp hhead
        exact ⟨hcontent, hi.le⟩
      · cases hhead
    · exact ih span hrest
  | case3 cursor i hi hcontent =>
    intro span hspan
    obtain rfl := List.mem_singleton.mp hspan
    exact ⟨hcontent, le_rfl⟩
  | case4 cursor i hi hcontent => exact fun span hspan => (List.not_mem_nil hspan).elim

theorem sentenceChunks_within (hT : tokenizer.Regular) (hrecounts : tokenizer.RecountsWithin) {span : ℕ × ℕ}
    (hle : span.1 ≤ span.2) (hstop : span.2 ≤ text.length) {chunks : List Chunk}
    (h : sentenceChunks tokenizer maxTokens text span = .ok chunks) : ∀ c ∈ chunks, Within tokenizer maxTokens text c := by
  unfold sentenceChunks at h
  split_ifs at h with hfits
  · cases h
    intro c hc
    obtain rfl := List.mem_singleton.mp hc
    exact ⟨hstop, hfits⟩
  · obtain ⟨subs, hsubs, hresult⟩ := bind_ok.mp h
    cases hresult
    intro c hc
    obtain ⟨sub, hsub, rfl⟩ := List.mem_map.mp hc
    exact within_of_slice (hle.trans hstop) (fixedTokenV1_within hT hrecounts hsubs sub hsub) rfl rfl

theorem paragraphChunks_within (hT : tokenizer.Regular) (hrecounts : tokenizer.RecountsWithin) {span : ℕ × ℕ}
    (hstop : span.2 ≤ text.length) {chunks : List Chunk}
    (h : paragraphChunks tokenizer maxTokens text span = .ok chunks) :
    ∀ c ∈ chunks, Within tokenizer maxTokens text c := by
  unfold paragraphChunks at h
  split_ifs at h with hfits
  · cases h
    intro c hc
    obtain rfl := List.mem_singleton.mp hc
    exact ⟨hstop, hfits⟩
  · obtain ⟨parts, hparts, hresult⟩ := bind_ok.mp h
    cases hresult
    intro c hc
    obtain ⟨part, hpart, hcpart⟩ := List.mem_flatten.mp hc
    obtain ⟨sentence, hsentence, hchunks⟩ := (mem_mapM hparts).1 part hpart
    obtain ⟨hlt, hend⟩ := splitFrom_bounds sentence hsentence
    exact sentenceChunks_within hT hrecounts hlt.le (hend.trans hstop) hchunks c hcpart

theorem paragraphSentenceV1_within (hT : tokenizer.Regular) (hrecounts : tokenizer.RecountsWithin) {chunks : List Chunk}
    (h : paragraphSentenceV1 tokenizer maxTokens text = .ok chunks) :
    ∀ c ∈ chunks, Within tokenizer maxTokens text c := by
  obtain ⟨parts, hparts, hresult⟩ := bind_ok.mp h
  cases hresult
  intro c hc
  obtain ⟨part, hpart, hcpart⟩ := List.mem_flatten.mp hc
  obtain ⟨paragraph, hparagraph, hchunks⟩ := (mem_mapM hparts).1 part hpart
  exact paragraphChunks_within hT hrecounts (splitFrom_bounds paragraph hparagraph).2 hchunks c hcpart

theorem emitBlock_within (hT : tokenizer.Regular) (hrecounts : tokenizer.RecountsWithin) {block : Block}
    (hle : block.start ≤ block.stop) (hstop : block.stop ≤ text.length) {chunks : List Chunk}
    (h : emitBlock tokenizer maxTokens text block = .ok chunks) : ∀ c ∈ chunks, Within tokenizer maxTokens text c := by
  have hpieces : ∀ body subs, bodyPieces tokenizer maxTokens body = .ok subs →
      ∀ sub ∈ subs, Within tokenizer maxTokens body sub := by
    intro body subs hsubs
    obtain ⟨parts, hparts, hresult⟩ := bind_ok.mp hsubs
    split_ifs at hresult with hnone
    · exact fixedTokenV1_within hT hrecounts hresult
    · cases hresult
      exact paragraphSentenceV1_within hT hrecounts hparts
  unfold emitBlock at h
  split_ifs at h with hempty hfits
  · cases h
    exact fun c hc => (List.not_mem_nil hc).elim
  · cases h
    intro c hc
    obtain rfl := List.mem_singleton.mp hc
    exact ⟨hstop, hfits⟩
  · obtain ⟨subs, hsubs, hresult⟩ := bind_ok.mp h
    cases hresult
    intro c hc
    obtain ⟨sub, hsub, rfl⟩ := List.mem_map.mp hc
    exact within_of_slice (hle.trans hstop) (hpieces _ subs hsubs sub hsub) rfl rfl

theorem markdownStructureV1_within (hT : tokenizer.Regular) (hrecounts : tokenizer.RecountsWithin)
    {isDecimal : Char → Bool} {chunks : List Chunk}
    (h : markdownStructureV1 isDecimal tokenizer maxTokens text = .ok chunks) :
    ∀ c ∈ chunks, Within tokenizer maxTokens text c := by
  obtain ⟨parts, hparts, hresult⟩ := bind_ok.mp h
  cases hresult
  obtain ⟨htiles, hlines⟩ := @linesAt_tiles text 0 text (Nat.zero_le _) rfl
  have hblocks := blocksFrom_tiles isDecimal [] hlines htiles
  intro c hc
  obtain ⟨part, hpart, hcpart⟩ := List.mem_flatten.mp hc
  obtain ⟨block, hblock, hchunks⟩ := (mem_mapM hparts).1 part hpart
  obtain ⟨-, hspan, hend⟩ := hblocks.bounds block.range (List.mem_map_of_mem hblock)
  exact emitBlock_within hT hrecounts hspan hend hchunks c hcpart

end

/-- The ceiling holds of every chunk of every text exactly for tokenizers whose runs do not grow when cut out. -/
theorem ceiling_iff (isDecimal : Char → Bool) {tokenizer : Tokenizer} (hT : tokenizer.Regular) :
    (∀ (chunker : Chunker) (maxTokens : ℤ) (text : List Char) (chunks : List Chunk),
      chunker.chunk isDecimal tokenizer maxTokens text = .ok chunks →
        ∀ c ∈ chunks, (tokenizer.count (c.text text) : ℤ) ≤ maxTokens) ↔ tokenizer.RecountsWithin := by
  constructor
  · intro hceiling text before first run after hoffsets
    have hchunk := hceiling (.fixedTokenV1 run.length) (run.length + 1) text _ (by
      rw [Chunker.chunk, fixedTokenV1, if_neg (by omega), if_neg (by omega)])
      (finalize tokenizer text (windowSpan first run).1 (windowSpan first run).2 .fixedWindow)
    refine Int.ofNat_le.mp (hchunk (List.mem_map.mpr ⟨windowSpan first run, ?_, rfl⟩))
    rw [hoffsets, show ((run.length : ℤ) + 1).toNat = run.length + 1 by omega,
      show ((run.length : ℤ) + 1 - run.length).toNat = 1 by omega]
    exact mem_windows_one
  · intro hrecounts chunker maxTokens text chunks h c hc
    cases chunker with
    | fixedTokenV1 overlap => exact (fixedTokenV1_within hT hrecounts h c hc).2
    | paragraphSentenceV1 => exact (paragraphSentenceV1_within hT hrecounts h c hc).2
    | markdownStructureV1 => exact (markdownStructureV1_within hT hrecounts h c hc).2

/-- One token per character. -/
def perCharacter : Tokenizer where
  encodeOffsets text := (List.range text.length).map fun i => (i, i + 1)
  count text := text.length

theorem perCharacter_regular : perCharacter.Regular where
  counts text := by simp [perCharacter]
  inBounds text o ho := by
    obtain ⟨i, hi, rfl⟩ := List.mem_map.mp ho
    exact ⟨Nat.le_succ i, List.mem_range.mp hi⟩
  ordered text := by
    rw [perCharacter, List.pairwise_map]
    exact List.pairwise_lt_range.imp fun h => ⟨h.le, Nat.succ_le_succ h.le⟩

theorem ceiling_iff_perCharacter :
    (∀ (chunker : Chunker) (maxTokens : ℤ) (text : List Char) (chunks : List Chunk),
      chunker.chunk Char.isDigit perCharacter maxTokens text = .ok chunks →
        ∀ c ∈ chunks, (perCharacter.count (c.text text) : ℤ) ≤ maxTokens) ↔ perCharacter.RecountsWithin :=
  ceiling_iff Char.isDigit perCharacter_regular

/-- One token per character, except that `ab` is one token before `c`. -/
def contextual : Tokenizer where
  encodeOffsets text := if text = ['a', 'b', 'c'] then [(0, 2), (2, 3)] else perCharacter.encodeOffsets text
  count text := if text = ['a', 'b', 'c'] then 2 else text.length

theorem contextual_regular : contextual.Regular where
  counts text := by
    simp only [contextual]
    split_ifs
    · rfl
    · exact perCharacter_regular.counts text
  inBounds text o ho := by
    simp only [contextual] at ho
    split_ifs at ho with habc
    · subst habc
      revert o
      decide
    · exact perCharacter_regular.inBounds text o ho
  ordered text := by
    simp only [contextual]
    split_ifs
    · decide
    · exact perCharacter_regular.ordered text

/-- A window of one token that counts two. -/
theorem contextual_overruns : contextual.Regular ∧ ∃ chunks,
    Chunker.chunk Char.isDigit contextual 1 ['a', 'b', 'c'] (.fixedTokenV1 0) = .ok chunks ∧
      ∃ c ∈ chunks, ¬ (contextual.count (c.text ['a', 'b', 'c']) : ℤ) ≤ 1 := by
  refine ⟨contextual_regular, _, rfl, finalize contextual ['a', 'b', 'c'] 0 2 .fixedWindow, ?_, by decide⟩
  have hoffsets : contextual.encodeOffsets ['a', 'b', 'c'] = [(0, 2), (2, 3)] := rfl
  rw [hoffsets]
  refine List.mem_map.mpr ⟨(0, 2), ?_, rfl⟩
  rw [windows]
  exact List.mem_cons_self

end Shapeflow.Evidence
