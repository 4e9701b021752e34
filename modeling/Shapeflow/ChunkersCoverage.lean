import Mathlib.Data.List.TakeWhile
import Shapeflow.Chunkers
import Shapeflow.Fallible
import Shapeflow.Tiling

set_option autoImplicit false

/-!
# Nothing is lost between chunks

With one token per word and no overlap the windows of a text tile it up to blanks, and
so do its paragraphs, its sentences and its blocks. What is cut further is tiled again.
-/
namespace Shapeflow.Evidence
open Fallible Tiling Unicode

def Chunk.range (chunk : Chunk) : ℕ × ℕ := (chunk.charStart, chunk.charEnd)

def Line.range (line : Line) : ℕ × ℕ := (line.start, line.stop)

def Block.range (block : Block) : ℕ × ℕ := (block.start, block.stop)

/-- The text has a blank at a position, or nothing at all. -/
def BlankAt (text : List Char) (i : ℕ) : Prop := ∀ c ∈ text[i]?, isSpace c = true

theorem getElem?_slice {text : List Char} {start stop i : ℕ} (h : start + i < stop) :
    (slice text start stop)[i]? = text[start + i]? := by
  rw [slice, List.getElem?_drop, List.getElem?_take_of_lt h]

theorem length_slice {text : List Char} {start stop : ℕ} (h : stop ≤ text.length) :
    (slice text start stop).length = stop - start := by
  rw [slice, List.length_drop, List.length_take, Nat.min_eq_left h]

/-- A tiling of a slice, where the slice stands. -/
theorem tiles_of_slice {text : List Char} {start stop : ℕ} (hle : start ≤ stop) (hstop : stop ≤ text.length)
    {spans : List (ℕ × ℕ)}
    (h : Tiles (BlankAt (slice text start stop)) 0 (slice text start stop).length spans) :
    Tiles (BlankAt text) start stop (spans.map fun span => (start + span.1, start + span.2)) := by
  rw [length_slice hstop] at h
  have hmoved : Tiles (fun i => BlankAt text (start + i)) 0 (stop - start) spans := by
    refine h.mono fun i _ hi hblank => ?_
    unfold BlankAt
    rw [← @getElem?_slice text start stop _ (by omega)]
    exact hblank
  have hshift := hmoved.shift
  rw [Nat.add_zero, Nat.add_sub_cancel' hle] at hshift
  exact hshift

/-! ## Windows -/

theorem wordOffsets_tiles {blank : ℕ → Prop} (pos : ℕ) (start : Option ℕ) (text : List Char)
    (hblank : ∀ i c, text[i]? = some c → isSpace c = true → blank (pos + i)) (hstart : ∀ s ∈ start, s ≤ pos) :
    Tiles blank (start.getD pos) (pos + text.length) (wordOffsets pos start text) := by
  have htail : ∀ {pos : ℕ} {c : Char} {r : List Char}, (∀ i d, (c :: r)[i]? = some d → isSpace d = true → blank (pos + i)) →
      ∀ i d, r[i]? = some d → isSpace d = true → blank (pos + 1 + i) := by
    intro pos c r h i d hd hspace
    rw [Nat.add_assoc, Nat.add_comm 1 i]
    exact h (i + 1) d hd hspace
  have hlength : ∀ (pos : ℕ) (c : Char) (r : List Char), pos + (c :: r).length = pos + 1 + r.length := by
    intro pos c r
    rw [List.length_cons]
    omega
  have hfirst : ∀ {pos : ℕ} {c : Char} {r : List Char},
      (∀ i d, (c :: r)[i]? = some d → isSpace d = true → blank (pos + i)) → isSpace c = true →
        BlankFrom blank pos (pos + 1) := by
    intro pos c r h hspace i hlo hhi
    obtain rfl : i = pos := by omega
    exact h 0 c rfl hspace
  fun_induction wordOffsets pos start text with
  | case1 pos => exact .done le_rfl fun i hlo hhi => absurd hhi (not_lt.mpr hlo)
  | case2 pos s => exact Tiles.single (hstart s rfl)
  | case3 pos c r hspace ih =>
    rw [hlength]
    exact (ih (htail hblank) (by simp)).lead (Nat.le_succ pos) (hfirst hblank hspace)
  | case4 pos c r hspace ih =>
    rw [hlength]
    exact ih (htail hblank) (by simp)
  | case5 pos s c r hspace ih =>
    rw [hlength]
    refine .next le_rfl (fun i hlo hhi => absurd hhi (not_lt.mpr hlo)) (hstart s rfl) ?_
    exact (ih (htail hblank) (by simp)).lead (Nat.le_succ pos) (hfirst hblank hspace)
  | case6 pos s c r hspace ih =>
    rw [hlength]
    refine ih (htail hblank) fun s' hs' => ?_
    cases hs'
    exact (hstart s rfl).trans (Nat.le_succ pos)

/-- Joining neighbours keeps a tiling. -/
theorem windows_tiles {blank : ℕ → Prop} {lo hi window : ℕ} (hwindow : 0 < window) {offsets : List (ℕ × ℕ)}
    (h : Tiles blank lo hi offsets) : Tiles blank lo hi (windows window window offsets) := by
  fun_induction windows window window offsets generalizing lo with
  | case1 => exact h
  | case2 first others ih =>
    have hsplit : first :: others = first :: others.take (window - 1) ++ others.drop (window - 1) := by simp
    rw [hsplit] at h
    have hlast : (first :: others.take (window - 1)).getLast (by simp) ∈
        (first :: others.take (window - 1)).getLast? := by
      rw [List.getLast?_eq_getLast_of_ne_nil (by simp)]
      rfl
    have hjoined := h.merge hlast
    split_ifs with hend
    · have hdrop : others.drop (window - 1) = [] := by
        rw [List.drop_eq_nil_iff]
        omega
      rw [hdrop] at hjoined
      exact hjoined
    · cases hjoined with
      | next hlo hblank hspan hrest => exact .next hlo hblank hspan (ih hend hrest)

theorem map_range_finalize (tokenizer : Tokenizer) (text : List Char) (kind : ChunkKind) (spans : List (ℕ × ℕ)) :
    (spans.map fun span => finalize tokenizer text span.1 span.2 kind).map Chunk.range = spans := by
  rw [List.map_map]
  exact List.map_id spans

theorem fixedTokenV1_tiles {maxTokens : ℤ} {text : List Char} {chunks : List Chunk}
    (h : fixedTokenV1 whitespaceTokenizer maxTokens 0 text = .ok chunks) :
    Tiles (BlankAt text) 0 text.length (chunks.map Chunk.range) := by
  unfold fixedTokenV1 at h
  split_ifs at h with hwindow hoverlap
  cases h
  rw [map_range_finalize, Int.sub_zero]
  have hoffsets := @wordOffsets_tiles (BlankAt text) 0 none text (fun i c hc hspace => ?_) (by simp)
  · rw [Nat.zero_add] at hoffsets
    exact windows_tiles (by omega) hoffsets
  · rw [Nat.zero_add]
    intro d hd
    rw [hc] at hd
    cases hd
    exact hspace

/-! ## Paragraphs and sentences -/

theorem splitFrom_tiles {blank : ℕ → Prop} {separator : ℕ → ℕ} {stop cursor i : ℕ}
    (hseparator : ∀ i, i < stop → i + separator i ≤ stop ∧ BlankFrom blank i (i + separator i))
    (hcursor : cursor ≤ i) (hstop : i ≤ stop) : Tiles blank cursor stop (splitFrom separator stop cursor i) := by
  fun_induction splitFrom separator stop cursor i with
  | case1 cursor i hi hnone ih => exact ih (hcursor.trans (Nat.le_succ i)) hi
  | case2 cursor i hi hmatch ih =>
    obtain ⟨hend, hblank⟩ := hseparator i hi
    have hrest := (ih le_rfl hend).lead (Nat.le_add_right i _) hblank
    by_cases hcontent : cursor < i
    · rw [if_pos hcontent]
      exact (Tiles.single hcontent.le).append hrest
    · obtain rfl : cursor = i := by omega
      rw [if_neg hcontent]
      exact hrest
  | case3 cursor i hi hcontent => exact Tiles.single hcontent.le
  | case4 cursor i hi hcontent =>
    exact .done (hcursor.trans hstop) fun j hlo hhi => absurd hhi (by omega)

/-- The first `n` characters of a slice are blank. -/
theorem blankFrom_slice {text : List Char} {start stop n : ℕ} (hn : start + n ≤ stop)
    (h : ∀ k, k < n → ∀ c, (slice text start stop)[k]? = some c → isSpace c = true) :
    BlankFrom (BlankAt text) start (start + n) := by
  intro i hlo hhi c hc
  have hback : start + (i - start) = i := by omega
  refine h (i - start) (by omega) c ?_
  rw [getElem?_slice (by omega), hback]
  exact hc

theorem getElem?_takeWhile {p : Char → Bool} {cs : List Char} {k : ℕ} {c : Char}
    (hk : k < (cs.takeWhile p).length) (hc : cs[k]? = some c) : p c = true := by
  obtain ⟨rest, hrest⟩ := List.takeWhile_prefix p (l := cs)
  rw [← hrest, List.getElem?_append_left hk] at hc
  exact List.all_eq_true.mp List.all_takeWhile c (List.mem_of_getElem? hc)

theorem paraSplit_blank {text : List Char} {stop i : ℕ} (hi : i < stop) (hstop : stop ≤ text.length) :
    i + paraSplit text stop i ≤ stop ∧ BlankFrom (BlankAt text) i (i + paraSplit text stop i) := by
  have hlength := @length_slice text i stop hstop
  have hnothing : i + 0 ≤ stop ∧ BlankFrom (BlankAt text) i (i + 0) :=
    ⟨hi.le, fun j hlo hhi => absurd hhi (by omega)⟩
  unfold paraSplit
  cases hbody : slice text i stop with
  | nil => exact hnothing
  | cons first r =>
    rw [hbody, List.length_cons] at hlength
    split
    · rename_i r' heq
      cases heq
      simp only
      split_ifs with hend
      · obtain ⟨hblanks, -⟩ := List.getElem?_eq_some_iff.mp hend
        refine ⟨by omega, @blankFrom_slice text i stop _ (by omega) fun k hk c hc => ?_⟩
        rw [hbody] at hc
        cases k with
        | zero =>
          cases hc
          rfl
        | succ k =>
          rw [List.getElem?_cons_succ] at hc
          by_cases hlast : k = (r.takeWhile fun c => decide (c = ' ' ∨ c = '\t')).length
          · rw [← hlast, hc] at hend
            cases hend
            rfl
          · have hinside : k < (r.takeWhile fun c => decide (c = ' ' ∨ c = '\t')).length := by omega
            have hblank := getElem?_takeWhile hinside hc
            obtain rfl | rfl := of_decide_eq_true hblank
            · rfl
            · rfl
      · exact hnothing
    · exact hnothing

theorem sentenceEnd_blank {text : List Char} {stop i : ℕ} (hi : i < stop) (hstop : stop ≤ text.length) :
    i + sentenceEnd text stop i ≤ stop ∧ BlankFrom (BlankAt text) i (i + sentenceEnd text stop i) := by
  have hlength := @length_slice text i stop hstop
  have hle := (List.takeWhile_prefix isSpace (l := slice text i stop)).length_le
  unfold sentenceEnd
  split_ifs
  · refine ⟨by omega, @blankFrom_slice text i stop _ (by omega) fun k hk c hc => ?_⟩
    exact getElem?_takeWhile hk hc
  · exact ⟨hi.le, fun j hlo hhi => absurd hhi (by omega)⟩

/-! ## `paragraph_sentence_v1` -/

theorem sentenceChunks_tiles {maxTokens : ℤ} {text : List Char} {span : ℕ × ℕ} {chunks : List Chunk}
    (hle : span.1 ≤ span.2) (hstop : span.2 ≤ text.length)
    (h : sentenceChunks whitespaceTokenizer maxTokens text span = .ok chunks) :
    Tiles (BlankAt text) span.1 span.2 (chunks.map Chunk.range) := by
  unfold sentenceChunks at h
  split_ifs at h with hfits
  · cases h
    exact Tiles.single hle
  · obtain ⟨subs, hsubs, hresult⟩ := bind_ok.mp h
    cases hresult
    have htiles := tiles_of_slice hle hstop (fixedTokenV1_tiles hsubs)
    rw [List.map_map] at htiles
    rw [List.map_map]
    exact htiles

/-- The chunks of each part, joined. -/
theorem mapM_tiles {α : Type} {blank : ℕ → Prop} {range : α → ℕ × ℕ} {lo hi : ℕ} {items : List α}
    {f : α → Except ChunkError (List Chunk)} {parts : List (List Chunk)}
    (h : Tiles blank lo hi (items.map range)) (hparts : items.mapM f = .ok parts)
    (hf : ∀ item ∈ items, ∀ chunks, f item = .ok chunks →
      Tiles blank (range item).1 (range item).2 (chunks.map Chunk.range)) :
    Tiles blank lo hi (parts.flatten.map Chunk.range) := by
  rw [List.map_flatten]
  refine h.refine ?_
  rw [List.forall₂_map_left_iff, List.forall₂_map_right_iff]
  rw [mapM_forall₂] at hparts
  clear h
  induction hparts with
  | nil => exact .nil
  | cons hitem _ ih =>
    refine .cons (hf _ List.mem_cons_self _ hitem) (ih fun item hmem => hf item (List.mem_cons_of_mem _ hmem))

theorem paragraphChunks_tiles {maxTokens : ℤ} {text : List Char} {span : ℕ × ℕ} {chunks : List Chunk}
    (hle : span.1 ≤ span.2) (hstop : span.2 ≤ text.length)
    (h : paragraphChunks whitespaceTokenizer maxTokens text span = .ok chunks) :
    Tiles (BlankAt text) span.1 span.2 (chunks.map Chunk.range) := by
  unfold paragraphChunks at h
  split_ifs at h with hfits
  · cases h
    exact Tiles.single hle
  · obtain ⟨parts, hparts, hresult⟩ := bind_ok.mp h
    cases hresult
    have hsentences := @splitFrom_tiles (BlankAt text) (sentenceEnd text span.2) _ _ _
      (fun i hi => sentenceEnd_blank hi hstop) (le_refl span.1) hle
    refine @mapM_tiles _ _ id _ _ _ _ _ (by rw [List.map_id]; exact hsentences) hparts fun sentence hmem part hpart => ?_
    obtain ⟨-, hspan, hend⟩ := hsentences.bounds sentence hmem
    exact sentenceChunks_tiles hspan (hend.trans hstop) hpart

theorem paragraphSentenceV1_tiles {maxTokens : ℤ} {text : List Char} {chunks : List Chunk}
    (h : paragraphSentenceV1 whitespaceTokenizer maxTokens text = .ok chunks) :
    Tiles (BlankAt text) 0 text.length (chunks.map Chunk.range) := by
  obtain ⟨parts, hparts, hresult⟩ := bind_ok.mp h
  cases hresult
  have hparagraphs := @splitFrom_tiles (BlankAt text) (paraSplit text text.length) _ _ _
    (fun i hi => paraSplit_blank hi le_rfl) (le_refl 0) (Nat.zero_le text.length)
  refine @mapM_tiles _ _ id _ _ _ _ _ (by rw [List.map_id]; exact hparagraphs) hparts fun paragraph hmem part hpart => ?_
  obtain ⟨-, hspan, hend⟩ := hparagraphs.bounds paragraph hmem
  exact paragraphChunks_tiles hspan hend hpart

/-! ## Blocks -/

theorem bodyPieces_tiles {maxTokens : ℤ} {body : List Char} {chunks : List Chunk}
    (h : bodyPieces whitespaceTokenizer maxTokens body = .ok chunks) :
    Tiles (BlankAt body) 0 body.length (chunks.map Chunk.range) := by
  obtain ⟨subs, hsubs, hresult⟩ := bind_ok.mp h
  split_ifs at hresult with hnone
  · exact fixedTokenV1_tiles hresult
  · cases hresult
    exact paragraphSentenceV1_tiles hsubs

theorem emitBlock_tiles {maxTokens : ℤ} {text : List Char} {block : Block} {chunks : List Chunk}
    (hle : block.start ≤ block.stop) (hstop : block.stop ≤ text.length)
    (h : emitBlock whitespaceTokenizer maxTokens text block = .ok chunks) :
    Tiles (BlankAt text) block.start block.stop (chunks.map Chunk.range) := by
  unfold emitBlock at h
  split_ifs at h with hempty hfits
  · cases h
    exact .done hle fun i hlo hhi => absurd hhi (by omega)
  · cases h
    exact Tiles.single hle
  · obtain ⟨subs, hsubs, hresult⟩ := bind_ok.mp h
    cases hresult
    have htiles := tiles_of_slice hle hstop (bodyPieces_tiles hsubs)
    rw [List.map_map] at htiles
    rw [List.map_map]
    exact htiles

/-! ## Lines -/

theorem takeWhile_append_drop {α : Type} (p : α → Bool) (xs : List α) :
    xs.takeWhile p ++ xs.drop (xs.takeWhile p).length = xs := by
  have htake : xs.takeWhile p = xs.take (xs.takeWhile p).length :=
    List.prefix_iff_eq_take.mp (List.takeWhile_prefix p)
  conv_lhs => arg 1; rw [htake]
  exact List.take_append_drop _ xs

theorem drop_takeWhile_length {α : Type} (p : α → Bool) (xs : List α) :
    xs.drop (xs.takeWhile p).length = xs.dropWhile p :=
  List.append_cancel_left ((takeWhile_append_drop p xs).trans List.takeWhile_append_dropWhile.symm)

theorem strip_eq_nil {cs : List Char} (h : strip cs = []) : ∀ c ∈ cs, isSpace c = true := by
  rw [strip, List.reverse_eq_nil_iff, List.dropWhile_eq_nil_iff] at h
  intro c hc
  rw [← List.takeWhile_append_dropWhile (p := isSpace) (l := cs), List.mem_append] at hc
  obtain hlead | hrest := hc
  · exact List.all_eq_true.mp List.all_takeWhile c hlead
  · exact h c (List.mem_reverse.mpr hrest)

/-- Each line holds the text between its bounds. -/
def LinesOf (text : List Char) (lines : List Line) : Prop :=
  ∀ line ∈ lines, line.text = slice text line.start line.stop

theorem linesAt_tiles {text : List Char} (pos : ℕ) (rest : List Char) (hpos : pos ≤ text.length)
    (hrest : rest = text.drop pos) :
    Tiles (BlankAt text) pos text.length ((linesAt pos rest).map Line.range) ∧ LinesOf text (linesAt pos rest) := by
  fun_induction linesAt pos rest with
  | case1 pos =>
    have hend := List.drop_eq_nil_iff.mp hrest.symm
    refine ⟨?_, fun line hline => (List.not_mem_nil hline).elim⟩
    exact .done hpos fun i hlo hhi => absurd hhi (by omega)
  | case2 pos rest hne content ih =>
    have hlength : rest.length = text.length - pos := by rw [hrest, List.length_drop]
    have hle : content.length ≤ rest.length := (List.takeWhile_prefix _).length_le
    have hcontent : content = slice text pos (pos + content.length) := by
      rw [slice, List.drop_take, Nat.add_sub_cancel_left, ← hrest]
      exact List.prefix_iff_eq_take.mp (List.takeWhile_prefix _)
    have hline : ∀ more, LinesOf text more → LinesOf text (⟨pos, pos + content.length, content⟩ :: more) := by
      intro more hmore line hmem
      obtain rfl | hmem := List.mem_cons.mp hmem
      · exact hcontent
      · exact hmore line hmem
    by_cases hlast : content.length = rest.length
    · have hnil : linesAt (pos + content.length + 1) (rest.drop (content.length + 1)) = [] := by
        rw [linesAt, if_pos]
        rw [List.drop_eq_nil_iff]
        omega
      have hend : pos + content.length = text.length := by omega
      rw [hnil]
      refine ⟨?_, hline [] fun line hmem => (List.not_mem_nil hmem).elim⟩
      simp only [List.map_cons, List.map_nil, Line.range, hend]
      exact Tiles.single hpos
    · obtain ⟨htiles, hmore⟩ := ih (by omega) (by rw [hrest, List.drop_drop, Nat.add_assoc])
      refine ⟨?_, hline _ hmore⟩
      refine .next le_rfl (fun i hlo hhi => absurd hhi (not_lt.mpr hlo)) (Nat.le_add_right pos _) ?_
      refine htiles.lead (Nat.le_succ _) fun i hlo hhi c hc => ?_
      simp only at hlo
      obtain rfl : i = pos + content.length := by omega
      rw [← List.getElem?_drop, ← hrest] at hc
      have hhead := List.head?_dropWhile_not (fun c => decide (c ≠ '\n')) rest
      rw [← drop_takeWhile_length, List.head?_drop, hc] at hhead
      obtain rfl : c = '\n' := by simpa using hhead
      rfl

/-- A blank line is left out. -/
theorem Line.blank_positions {text : List Char} {line : Line} (hline : line.text = slice text line.start line.stop)
    (hblank : line.blank) : BlankFrom (BlankAt text) line.start line.stop := by
  have hspaces := strip_eq_nil (of_decide_eq_true hblank)
  intro i hlo hhi c hc
  refine hspaces c ?_
  have hback : line.start + (i - line.start) = i := by omega
  rw [hline]
  refine List.mem_of_getElem? (i := i - line.start) ?_
  rw [getElem?_slice (by omega), hback]
  exact hc

/-- Lines that follow each other, as one block. -/
theorem merge_lines {blank : ℕ → Prop} {lo hi : ℕ} {line : Line} {run rest : List Line}
    (h : Tiles blank lo hi ((line :: run ++ rest).map Line.range)) :
    Tiles blank lo hi ((line.start, lastStop line run) :: rest.map Line.range) := by
  rw [List.map_append] at h
  refine @Tiles.merge _ _ _ line.range ((line :: run).getLast (by simp)).range _ _ h ?_
  rw [← List.map_cons, List.getLast?_map, List.getLast?_eq_getLast_of_ne_nil (by simp)]
  rfl

theorem merge_takeWhile {blank : ℕ → Prop} {lo hi : ℕ} {line : Line} {lines : List Line} (p : Line → Bool)
    (h : Tiles blank lo hi ((line :: lines).map Line.range)) :
    Tiles blank lo hi ((line.start, lastStop line (lines.takeWhile p)) ::
      (lines.drop (lines.takeWhile p).length).map Line.range) := by
  refine merge_lines ?_
  rw [List.cons_append, takeWhile_append_drop]
  exact h

theorem listItems_tiles {blank : ℕ → Prop} {lo hi : ℕ} (isDecimal : Char → Bool) (headings : List OpenHeading)
    {lines : List Line} (h : Tiles blank lo hi (lines.map Line.range)) :
    Tiles blank lo hi ((listItems isDecimal headings lines).1.map Block.range ++
      (listItems isDecimal headings lines).2.map Line.range) := by
  fun_induction listItems isDecimal headings lines generalizing lo with
  | case1 => exact h
  | case2 line lines hitem more blocks rest heq =>
    rename_i ih
    rw [heq] at ih
    have hmerged := merge_takeWhile (fun l => decide (¬ l.blank ∧ ¬ l.isListItem isDecimal)) h
    cases hmerged with
    | next hlo hblank hspan hrest => exact .next hlo hblank hspan (ih hrest)
  | case3 line lines hitem => exact h

theorem textStep_tiles {blank : ℕ → Prop} {lo hi : ℕ} (isDecimal : Char → Bool) (headings : List OpenHeading)
    {line : Line} {lines : List Line} (h : Tiles blank lo hi ((line :: lines).map Line.range)) :
    Tiles blank lo hi ((step.textStep isDecimal headings line lines).blocks.map Block.range ++
      (step.textStep isDecimal headings line lines).rest.map Line.range) := by
  unfold step.textStep
  split_ifs with hquote hitem
  · exact merge_takeWhile _ h
  · exact listItems_tiles isDecimal headings h
  · exact merge_takeWhile _ h

/-- What an iteration emits stands where its lines stood. -/
theorem step_tiles {text : List Char} {lo hi : ℕ} (isDecimal : Char → Bool) (headings : List OpenHeading) {line : Line}
    {lines : List Line} (hline : line.text = slice text line.start line.stop)
    (h : Tiles (BlankAt text) lo hi ((line :: lines).map Line.range)) :
    Tiles (BlankAt text) lo hi ((step isDecimal headings line lines).blocks.map Block.range ++
      (step isDecimal headings line lines).rest.map Line.range) := by
  unfold step
  split_ifs with hblank
  · exact h.skip (Line.blank_positions hline hblank)
  · split
    · exact h
    · split
      · rename_i marker hfence
        refine merge_lines ?_
        rw [List.cons_append, List.take_append_drop]
        exact h
      · split
        · rename_i sep more hbar
          split_ifs with hsep
          · have hheader : Tiles (BlankAt text) lo hi ((line.start, sep.stop) :: more.map Line.range) :=
              @merge_lines _ _ _ _ [sep] _ h
            simp only [tableStep, tableRows, List.map_cons, List.map_map, List.cons_append]
            rw [← List.takeWhile_append_dropWhile (p := fun l : Line => decide (l.hasBar ∧ ¬ l.blank)) (l := more),
              List.map_append] at hheader
            exact hheader
          · exact textStep_tiles isDecimal headings h
        · exact textStep_tiles isDecimal headings h

theorem blocksFrom_tiles {text : List Char} {lo hi : ℕ} (isDecimal : Char → Bool) (headings : List OpenHeading)
    {lines : List Line} (hlines : LinesOf text lines) (h : Tiles (BlankAt text) lo hi (lines.map Line.range)) :
    Tiles (BlankAt text) lo hi ((blocksFrom isDecimal headings lines).map Block.range) := by
  fun_induction blocksFrom isDecimal headings lines generalizing lo with
  | case1 => exact h
  | case2 headings line lines s =>
    rename_i ih
    rw [List.map_append]
    refine (step_tiles isDecimal headings (hlines line List.mem_cons_self) h).replace fun mid hmid => ?_
    refine ih (fun l hl => hlines l ?_) hmid
    exact List.mem_cons_of_mem _ ((step_rest_suffix isDecimal headings line lines).mem hl)

theorem markdownStructureV1_tiles {isDecimal : Char → Bool} {maxTokens : ℤ} {text : List Char} {chunks : List Chunk}
    (h : markdownStructureV1 isDecimal whitespaceTokenizer maxTokens text = .ok chunks) :
    Tiles (BlankAt text) 0 text.length (chunks.map Chunk.range) := by
  obtain ⟨parts, hparts, hresult⟩ := bind_ok.mp h
  cases hresult
  obtain ⟨htiles, hlines⟩ := @linesAt_tiles text 0 text (Nat.zero_le _) rfl
  have hblocks := blocksFrom_tiles isDecimal [] hlines htiles
  refine mapM_tiles hblocks hparts fun block hmem part hpart => ?_
  obtain ⟨-, hspan, hend⟩ := hblocks.bounds block.range (List.mem_map_of_mem hmem)
  exact emitBlock_tiles hspan hend hpart

/-! ## Tables -/

/-- A block of kind `tableRow` and the table it is a row of. -/
structure TableRow (lines : List Line) (blocks : List Block) (block : Block) (before : List Line) (header sep : Line)
    (rows : List Line) (row : Line) (after : List Line) : Prop where
  lines : lines = before ++ header :: sep :: (rows ++ row :: after)
  bar : header.hasBar
  separator : sep.isTableSep
  rows : ∀ l ∈ rows ++ [row], l.hasBar ∧ ¬ l.blank
  emitted : ∃ h ∈ blocks, h.kind = .tableHeader ∧ h.range = (header.start, sep.stop)
  range : block.range = row.range
  context : block.contextRanges = [header.range]

theorem listItems_kind {isDecimal : Char → Bool} {headings : List OpenHeading} {lines : List Line} :
    ∀ block ∈ (listItems isDecimal headings lines).1, block.kind = .listItem := by
  fun_induction listItems isDecimal headings lines with
  | case1 => simp
  | case2 line lines hitem more blocks rest heq ih =>
    rw [heq] at ih
    intro block hblock
    obtain rfl | hblock := List.mem_cons.mp hblock
    · rfl
    · exact ih block hblock
  | case3 line lines hitem => simp

theorem textStep_kind {isDecimal : Char → Bool} {headings : List OpenHeading} {line : Line} {lines : List Line} :
    ∀ block ∈ (step.textStep isDecimal headings line lines).blocks, block.kind ≠ .tableRow := by
  unfold step.textStep
  split_ifs with hquote hitem
  · simp
  · intro block hblock
    rw [listItems_kind block hblock]
    simp
  · simp

/-- Only a table leaves table rows. -/
theorem step_table_or (isDecimal : Char → Bool) (headings : List OpenHeading) (line : Line) (lines : List Line) :
    (∃ sep more, lines = sep :: more ∧ line.hasBar ∧ sep.isTableSep ∧
      step isDecimal headings line lines = tableStep headings line sep more) ∨
      ∀ block ∈ (step isDecimal headings line lines).blocks, block.kind ≠ .tableRow := by
  unfold step
  split_ifs with hblank
  · exact .inr fun block hblock => (List.not_mem_nil hblock).elim
  · split
    · refine .inr fun block hblock => ?_
      rw [List.mem_singleton.mp hblock]
      simp
    · split
      · refine .inr fun block hblock => ?_
        rw [List.mem_singleton.mp hblock]
        simp
      · split
        · rename_i sep more hbar
          split_ifs with hsep
          · exact .inl ⟨sep, more, rfl, hbar, hsep, rfl⟩
          · exact .inr textStep_kind
        · exact .inr textStep_kind

/-- The table rows of an iteration. -/
theorem tableStep_row {headings : List OpenHeading} {header sep : Line} {lines : List Line} {block : Block}
    (hbar : header.hasBar) (hsep : sep.isTableSep) (hblock : block ∈ (tableStep headings header sep lines).blocks)
    (hkind : block.kind = .tableRow) : ∃ rows row after,
      TableRow (header :: sep :: lines) (tableStep headings header sep lines).blocks block [] header sep rows row
        after := by
  simp only [tableStep, tableRows] at hblock ⊢
  obtain rfl | hrow := List.mem_cons.mp hblock
  · cases hkind
  · obtain ⟨row, hmem, rfl⟩ := List.mem_map.mp hrow
    obtain ⟨rows, others, hsplit⟩ := List.append_of_mem hmem
    have hlines := List.takeWhile_append_dropWhile (p := fun l : Line => decide (l.hasBar ∧ ¬ l.blank)) (l := lines)
    refine ⟨rows, row, others ++ lines.dropWhile fun l => decide (l.hasBar ∧ ¬ l.blank), ?_, hbar, hsep, fun l hl => ?_,
      ⟨_, List.mem_cons_self, rfl, rfl⟩, rfl, rfl⟩
    · rw [List.nil_append]
      conv_lhs => rw [← hlines, hsplit, List.append_assoc, List.cons_append]
    · have hall := List.all_takeWhile (p := fun l : Line => decide (l.hasBar ∧ ¬ l.blank)) (l := lines)
      refine of_decide_eq_true (List.all_eq_true.mp hall l ?_)
      rw [hsplit]
      obtain hl | hl := List.mem_append.mp hl
      · exact List.mem_append_left _ hl
      · rw [List.mem_singleton.mp hl]
        exact List.mem_append_right _ List.mem_cons_self

theorem TableRow.later {lines lines' used : List Line} {blocks blocks' : List Block} {block : Block}
    {before : List Line} {header sep : Line} {rows : List Line} {row : Line} {after : List Line}
    (h : TableRow lines blocks block before header sep rows row after) (hlines : lines' = used ++ lines)
    (hblocks : ∀ b ∈ blocks, b ∈ blocks') :
    TableRow lines' blocks' block (used ++ before) header sep rows row after := by
  obtain ⟨heq, hbar, hsep, hrows, ⟨b, hb, hemitted⟩, hrange, hcontext⟩ := h
  refine ⟨?_, hbar, hsep, hrows, ⟨b, hblocks b hb, hemitted⟩, hrange, hcontext⟩
  rw [hlines, heq, List.append_assoc]

/-- Every table row stands under a header that was emitted as one. -/
theorem blocksFrom_tableRow {isDecimal : Char → Bool} {headings : List OpenHeading} {lines : List Line} {block : Block}
    (hblock : block ∈ blocksFrom isDecimal headings lines) (hkind : block.kind = .tableRow) :
    ∃ before header sep rows row after,
      TableRow lines (blocksFrom isDecimal headings lines) block before header sep rows row after := by
  fun_induction blocksFrom isDecimal headings lines with
  | case1 => cases hblock
  | case2 headings line lines s =>
    rename_i ih
    obtain hnow | hlater := List.mem_append.mp hblock
    · obtain ⟨sep, more, rfl, hbar, hsep, hstep⟩ | hnone := step_table_or isDecimal headings line lines
      · have hs : s = tableStep headings line sep more := hstep
        rw [hs] at hnow ⊢
        obtain ⟨rows, row, after, hrow⟩ := tableStep_row hbar hsep hnow hkind
        refine ⟨[], line, sep, rows, row, after, ?_⟩
        exact @TableRow.later _ _ [] _ _ _ _ _ _ _ _ _ hrow rfl fun b hb => List.mem_append_left _ hb
      · exact absurd hkind (hnone block hnow)
    · obtain ⟨before, header, sep, rows, row, after, hrow⟩ := ih hlater
      obtain ⟨used, hused⟩ := step_rest_suffix isDecimal headings line lines
      refine ⟨line :: used ++ before, header, sep, rows, row, after, ?_⟩
      refine @TableRow.later _ _ (line :: used) _ _ _ _ _ _ _ _ _ hrow ?_ fun b hb => List.mem_append_right _ hb
      rw [List.cons_append]
      exact congrArg _ hused.symm

/-! ## The chunks of a text -/

theorem fixedTokenV1_returns {tokenizer : Tokenizer} {maxTokens : ℤ} (h : 0 < maxTokens) (text : List Char) :
    Returns (fixedTokenV1 tokenizer maxTokens 0 text) := by
  rw [fixedTokenV1, if_neg (by omega), if_neg (by omega)]
  exact returns_ok _

theorem paragraphSentenceV1_returns {tokenizer : Tokenizer} {maxTokens : ℤ} (h : 0 < maxTokens) (text : List Char) :
    Returns (paragraphSentenceV1 tokenizer maxTokens text) := by
  have hsentence : ∀ span, Returns (sentenceChunks tokenizer maxTokens text span) := by
    intro span
    unfold sentenceChunks
    split_ifs
    · exact returns_ok _
    · obtain ⟨subs, hsubs⟩ := @fixedTokenV1_returns tokenizer _ h (slice text span.1 span.2)
      exact returns_bind.mpr ⟨subs, hsubs, returns_pure _⟩
  have hparagraph : ∀ span, Returns (paragraphChunks tokenizer maxTokens text span) := by
    intro span
    unfold paragraphChunks
    split_ifs
    · exact returns_ok _
    · obtain ⟨chunks, hchunks⟩ := returns_mapM.mpr fun span _ => hsentence span
      exact returns_bind.mpr ⟨chunks, hchunks, returns_pure _⟩
  obtain ⟨chunks, hchunks⟩ := returns_mapM.mpr fun span _ => hparagraph span
  exact returns_bind.mpr ⟨chunks, hchunks, returns_pure _⟩

theorem emitBlock_returns {tokenizer : Tokenizer} {maxTokens : ℤ} (h : 0 < maxTokens) (text : List Char)
    (block : Block) : Returns (emitBlock tokenizer maxTokens text block) := by
  have hpieces : ∀ body, Returns (bodyPieces tokenizer maxTokens body) := by
    intro body
    obtain ⟨subs, hsubs⟩ := @paragraphSentenceV1_returns tokenizer _ h body
    refine returns_bind.mpr ⟨subs, hsubs, ?_⟩
    split_ifs
    · exact fixedTokenV1_returns h body
    · exact returns_pure _
  unfold emitBlock
  split_ifs
  · exact returns_ok _
  · exact returns_ok _
  · obtain ⟨subs, hsubs⟩ := hpieces (slice text block.start block.stop)
    exact returns_bind.mpr ⟨subs, hsubs, returns_pure _⟩

theorem markdownStructureV1_returns {tokenizer : Tokenizer} {maxTokens : ℤ} (h : 0 < maxTokens)
    (isDecimal : Char → Bool) (text : List Char) : Returns (markdownStructureV1 isDecimal tokenizer maxTokens text) := by
  obtain ⟨chunks, hchunks⟩ := returns_mapM.mpr fun block (_ : block ∈ blocksFrom isDecimal [] (iterLines text)) =>
    @emitBlock_returns tokenizer _ h text block
  exact returns_bind.mpr ⟨chunks, hchunks, returns_pure _⟩

/-- Chunks in bounds, in order and disjoint, that hold every character but blanks once. -/
structure Covers (text : List Char) (chunks : List Chunk) : Prop where
  bounds : ∀ c ∈ chunks, c.charStart ≤ c.charEnd ∧ c.charEnd ≤ text.length
  ordered : chunks.Pairwise fun c later => c.charEnd ≤ later.charStart
  once : ∀ i c, text[i]? = some c → isSpace c = false → chunks.countP (holds i ∘ Chunk.range) = 1

theorem covers_of_tiles {text : List Char} {chunks : List Chunk}
    (h : Tiles (BlankAt text) 0 text.length (chunks.map Chunk.range)) : Covers text chunks := by
  refine ⟨fun c hc => (h.bounds c.range (List.mem_map_of_mem hc)).2, ?_, fun i c hi hc => ?_⟩
  · exact List.pairwise_map.mp h.ordered
  · obtain ⟨hlt, -⟩ := List.getElem?_eq_some_iff.mp hi
    rw [← List.countP_map]
    refine h.once (Nat.zero_le i) hlt fun hblank => ?_
    rw [hblank c hi] at hc
    cases hc

/-- A chunk of a table row stands in a row of a table whose header was emitted as one, and carries that header's range. -/
def CarriesHeader (text : List Char) (chunks : List Chunk) (c : Chunk) : Prop :=
  ∃ before header sep rows row after, iterLines text = before ++ header :: sep :: (rows ++ row :: after) ∧
    (header.hasBar ∧ sep.isTableSep ∧ ∀ l ∈ rows ++ [row], l.hasBar ∧ ¬ l.blank) ∧
    (∃ h ∈ chunks, h.kind = .tableHeader ∧ header.start ≤ h.charStart ∧ h.charEnd ≤ sep.stop) ∧
    (row.start ≤ c.charStart ∧ c.charEnd ≤ row.stop) ∧ c.contextRanges = [(header.start, header.stop)]

theorem emitBlock_mem {tokenizer : Tokenizer} {maxTokens : ℤ} {text : List Char} {block : Block} {chunks : List Chunk}
    (h : emitBlock tokenizer maxTokens text block = .ok chunks) :
    ∀ c ∈ chunks, c.kind = block.kind ∧ c.contextRanges = block.contextRanges := by
  unfold emitBlock at h
  split_ifs at h with hempty hfits
  · cases h
    exact fun c hc => (List.not_mem_nil hc).elim
  · cases h
    intro c hc
    obtain rfl := List.mem_singleton.mp hc
    exact ⟨rfl, rfl⟩
  · obtain ⟨subs, -, hresult⟩ := bind_ok.mp h
    cases hresult
    intro c hc
    obtain ⟨sub, -, rfl⟩ := List.mem_map.mp hc
    exact ⟨rfl, rfl⟩

/-- What the blocks of a text are emitted as. -/
theorem mem_mapM {α β : Type} {f : α → Except ChunkError β} {xs : List α} {ys : List β} (h : xs.mapM f = .ok ys) :
    (∀ y ∈ ys, ∃ x ∈ xs, f x = .ok y) ∧ ∀ x ∈ xs, ∃ y ∈ ys, f x = .ok y := by
  rw [mapM_ok] at h
  constructor
  · intro y hy
    have hmem : Except.ok y ∈ xs.map f := h ▸ List.mem_map_of_mem hy
    exact List.mem_map.mp hmem
  · intro x hx
    have hmem : f x ∈ ys.map Except.ok := h ▸ List.mem_map_of_mem hx
    obtain ⟨y, hy, heq⟩ := List.mem_map.mp hmem
    exact ⟨y, hy, heq.symm⟩

/-- A block with a bar in it leaves a chunk. -/
theorem exists_chunk {text : List Char} {block : Block} {header : Line} {part : List Chunk}
    (htiles : Tiles (BlankAt text) block.start block.stop (part.map Chunk.range)) (hbar : header.hasBar)
    (hheader : header.text = slice text header.start header.stop) (hstart : block.start = header.start)
    (hstop : header.stop ≤ block.stop) : ∃ c, c ∈ part := by
  obtain ⟨k, hk⟩ := List.getElem?_of_mem (of_decide_eq_true hbar)
  have hklt : k < header.stop - header.start := by
    obtain ⟨hlt, -⟩ := List.getElem?_eq_some_iff.mp hk
    rw [hheader, slice, List.length_drop, List.length_take] at hlt
    omega
  rw [hheader, getElem?_slice (by omega)] at hk
  have hone := htiles.once (i := header.start + k) (by omega) (by omega) fun hblank => by
    have := hblank '|' hk
    cases this
  cases part with
  | nil => cases hone
  | cons c part => exact ⟨c, List.mem_cons_self⟩

theorem markdownStructureV1_tableRow {isDecimal : Char → Bool} {maxTokens : ℤ} {text : List Char} {chunks : List Chunk}
    (h : markdownStructureV1 isDecimal whitespaceTokenizer maxTokens text = .ok chunks) :
    ∀ c ∈ chunks, c.kind = .tableRow → CarriesHeader text chunks c := by
  obtain ⟨parts, hparts, hresult⟩ := bind_ok.mp h
  cases hresult
  obtain ⟨hback, hforth⟩ := mem_mapM hparts
  obtain ⟨htiles, hlines⟩ := @linesAt_tiles text 0 text (Nat.zero_le _) rfl
  have hblocks := blocksFrom_tiles isDecimal [] hlines htiles
  have hemit : ∀ block ∈ blocksFrom isDecimal [] (iterLines text), ∀ part,
      emitBlock whitespaceTokenizer maxTokens text block = .ok part →
        Tiles (BlankAt text) block.start block.stop (part.map Chunk.range) := by
    intro block hblock part hpart
    obtain ⟨-, hspan, hend⟩ := hblocks.bounds block.range (List.mem_map_of_mem hblock)
    exact emitBlock_tiles hspan hend hpart
  intro c hc hkind
  obtain ⟨part, hpart, hcpart⟩ := List.mem_flatten.mp hc
  obtain ⟨block, hblock, hemitted⟩ := hback part hpart
  obtain ⟨hckind, hccontext⟩ := emitBlock_mem hemitted c hcpart
  obtain ⟨before, header, sep, rows, row, after, hrow⟩ := blocksFrom_tableRow hblock (hckind ▸ hkind)
  obtain ⟨hblock', hhblock, hhkind, hhrange⟩ := hrow.emitted
  obtain ⟨part', hpart', hemitted'⟩ := hforth hblock' hhblock
  obtain ⟨hhstart, hhstop⟩ := Prod.mk.inj hhrange
  have hseparated : header.stop ≤ sep.stop := by
    have hordered := List.pairwise_map.mp htiles.ordered
    change (iterLines text).Pairwise _ at hordered
    rw [hrow.lines] at hordered
    have hnext := (List.pairwise_cons.mp (List.pairwise_append.mp hordered).2.1).1 sep List.mem_cons_self
    have hsep : sep ∈ iterLines text := by
      rw [hrow.lines]
      simp
    exact hnext.trans (htiles.bounds sep.range (List.mem_map_of_mem hsep)).2.1
  have hheader : header ∈ iterLines text := by
    rw [hrow.lines]
    simp
  have htilesHeader := hemit hblock' hhblock part' hemitted'
  obtain ⟨c', hc'⟩ := exists_chunk htilesHeader hrow.bar (hlines header hheader) hhstart (hhstop ▸ hseparated)
  obtain ⟨hc'start, -, hc'stop⟩ := htilesHeader.bounds c'.range (List.mem_map_of_mem hc')
  obtain ⟨hcstart, -, hcstop⟩ := (hemit block hblock part hemitted).bounds c.range (List.mem_map_of_mem hcpart)
  obtain ⟨hrowstart, hrowstop⟩ := Prod.mk.inj hrow.range
  refine ⟨before, header, sep, rows, row, after, hrow.lines, ⟨hrow.bar, hrow.separator, hrow.rows⟩, ⟨c', ?_, ?_, ?_, ?_⟩,
    ⟨?_, ?_⟩, ?_⟩
  · exact List.mem_flatten.mpr ⟨part', hpart', hc'⟩
  · rw [(emitBlock_mem hemitted' c' hc').1, hhkind]
  · rw [← hhstart]
    exact hc'start
  · rw [← hhstop]
    exact hc'stop
  · rw [← hrowstart]
    exact hcstart
  · rw [← hrowstop]
    exact hcstop
  · rw [hccontext, hrow.context]
    rfl

/-- The chunks a chunker returns; where it raises, the window is not positive. -/
def Returned (P : List Chunk → Prop) (maxTokens : ℤ) : Except ChunkError (List Chunk) → Prop
  | .ok chunks => P chunks
  | .error _ => maxTokens ≤ 0

theorem Returned.intro {P : List Chunk → Prop} {maxTokens : ℤ} {result : Except ChunkError (List Chunk)}
    (hok : ∀ chunks, result = .ok chunks → P chunks) (hreturns : 0 < maxTokens → Returns result) :
    Returned P maxTokens result := by
  cases result with
  | ok chunks => exact hok chunks rfl
  | error e => exact Int.not_lt.mp fun hpos => not_returns_error e (hreturns hpos)

/-- The structural chunkers lose nothing and repeat nothing, and a table row carries its header. -/
theorem structural_chunkers_cover (isDecimal : Char → Bool) (maxTokens : ℤ) (text : List Char) :
    Returned (Covers text) maxTokens (paragraphSentenceV1 whitespaceTokenizer maxTokens text) ∧
      Returned (fun chunks => Covers text chunks ∧ ∀ c ∈ chunks, c.kind = .tableRow → CarriesHeader text chunks c)
        maxTokens (markdownStructureV1 isDecimal whitespaceTokenizer maxTokens text) := by
  constructor
  · refine Returned.intro (fun chunks h => covers_of_tiles (paragraphSentenceV1_tiles h)) fun hpos => ?_
    exact paragraphSentenceV1_returns hpos text
  · refine Returned.intro (fun chunks h => ⟨covers_of_tiles (markdownStructureV1_tiles h), ?_⟩) fun hpos => ?_
    · exact markdownStructureV1_tableRow h
    · exact markdownStructureV1_returns hpos isDecimal text

end Shapeflow.Evidence
