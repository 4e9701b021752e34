import Mathlib.Data.List.TakeWhile
import Shapeflow.UnicodeText

set_option autoImplicit false

/-!
# Lines and words

A text read line by line, the blank lines skipped, and a line read word by word:
where a line ends, and what separates words.
-/
namespace Shapeflow.Unicode

/-- Whitespace only. -/
def Blank (cs : List Char) : Prop := ∀ c ∈ cs, isSpace c = true

def Unbroken (cs : List Char) : Prop := ∀ c ∈ cs, isLineBreak c = false

/-- A word: not empty, without whitespace. -/
def Token (cs : List Char) : Prop := cs ≠ [] ∧ ∀ c ∈ cs, isSpace c = false

/-- The lines that are not blank, trimmed. -/
def printed (ls : List (List Char)) : List (List Char) := (ls.map strip).filter fun l => l ≠ []

/-- The loop `for lineno, raw in enumerate(text.splitlines(), start=1)`, each line trimmed and a blank one skipped. -/
def numberedLines (cs : List Char) : List (List Char × ℕ) :=
  ((splitLines cs).zipIdx 1).filterMap fun e => if strip e.1 = [] then none else some (strip e.1, e.2)

theorem map_numbered (ls : List (List Char)) (n : ℕ) :
    ((ls.zipIdx n).filterMap fun e => if strip e.1 = [] then none else some (strip e.1, e.2)).map Prod.fst =
      printed ls := by
  induction ls generalizing n with
  | nil => rfl
  | cons l ls ih =>
    rw [List.zipIdx_cons, List.filterMap_cons, printed, List.map_cons]
    by_cases hl : strip l = []
    · rw [if_pos hl, List.filter_cons_of_neg (by simpa using hl)]
      exact ih (n + 1)
    · rw [if_neg hl, List.filter_cons_of_pos (by simpa using hl), List.map_cons]
      exact congrArg (strip l :: ·) (ih (n + 1))

theorem map_numberedLines (cs : List Char) : (numberedLines cs).map Prod.fst = printed (splitLines cs) :=
  map_numbered _ 1

theorem printed_cons (l : List Char) (ls : List (List Char)) : printed (l :: ls) = printed [l] ++ printed ls :=
  List.filter_append (p := fun l => l ≠ []) [strip l] (ls.map strip)

theorem isSpace_of_break {c : Char} (h : isLineBreak c = true) : isSpace c = true := by
  simp only [isLineBreak, decide_eq_true_eq, List.mem_cons, List.not_mem_nil, or_false] at h
  simp only [isSpace, isSpaceCode, decide_eq_true_eq, List.mem_cons, List.not_mem_nil, or_false]
  omega

/-! ## Trimming -/

/-- What is trimmed is whitespace. -/
theorem strip_parts (cs : List Char) : ∃ before after, Blank before ∧ Blank after ∧ cs = before ++ strip cs ++ after := by
  have hblank : ∀ ds : List Char, Blank (ds.takeWhile isSpace) := fun ds c hc =>
    List.all_eq_true.mp (List.all_takeWhile (p := isSpace) (l := ds)) c hc
  refine ⟨cs.takeWhile isSpace, ((cs.dropWhile isSpace).reverse.takeWhile isSpace).reverse, hblank _, ?_, ?_⟩
  · intro c hc
    exact hblank _ c (List.mem_reverse.mp hc)
  · have hback : cs.dropWhile isSpace =
        strip cs ++ ((cs.dropWhile isSpace).reverse.takeWhile isSpace).reverse := by
      unfold strip
      rw [← List.reverse_append, List.takeWhile_append_dropWhile, List.reverse_reverse]
    rw [List.append_assoc, ← hback, List.takeWhile_append_dropWhile]

theorem strip_eq_nil_iff {cs : List Char} : strip cs = [] ↔ Blank cs := by
  constructor
  · intro h
    obtain ⟨before, after, hbefore, hafter, hcs⟩ := strip_parts cs
    rw [h, List.append_nil] at hcs
    intro c hc
    rw [hcs] at hc
    exact (List.mem_append.mp hc).elim (hbefore c) (hafter c)
  · intro h
    unfold strip
    rw [List.dropWhile_eq_nil_iff.mpr h]
    rfl

/-- Nothing is trimmed from a text that starts and ends in print. -/
theorem strip_of_ends {c d : Char} {cs : List Char} (hc : isSpace c = false) (hd : isSpace d = false) :
    strip (c :: (cs ++ [d])) = c :: (cs ++ [d]) := by
  unfold strip
  rw [List.dropWhile_cons_of_neg (by simp [hc]), List.reverse_cons, List.reverse_append, List.reverse_singleton,
    List.singleton_append, List.cons_append, List.dropWhile_cons_of_neg (by simp [hd])]
  simp

theorem printed_of_blank {l : List Char} (h : Blank l) : printed [l] = [] := by
  simp [printed, strip_eq_nil_iff.mpr h]

theorem printed_of_not_blank {l : List Char} (h : ¬ Blank l) : printed [l] = [strip l] := by
  simp [printed, mt strip_eq_nil_iff.mp h]

/-! ## Where a line ends -/

theorem linesFrom_letter {c : Char} (h : isLineBreak c = false) (line rest : List Char) :
    linesFrom line (c :: rest) = linesFrom (c :: line) rest := by
  rw [linesFrom.eq_def]
  split
  · rename_i heq
    cases heq
  · rename_i heq
    obtain ⟨rfl, -⟩ := List.cons.inj heq
    cases h
  · rename_i heq
    obtain ⟨rfl, rfl⟩ := List.cons.inj heq
    rw [if_neg (by simp [h])]

theorem linesFrom_unbroken {cs : List Char} (h : Unbroken cs) (line : List Char) :
    linesFrom line cs = linesFrom (cs.reverse ++ line) [] := by
  induction cs generalizing line with
  | nil => rfl
  | cons c cs ih =>
    obtain ⟨hc, hcs⟩ := List.forall_mem_cons.mp h
    rw [linesFrom_letter hc, ih hcs, List.reverse_cons, List.append_assoc]
    rfl

theorem printed_nil_line (ls : List (List Char)) : printed ([] :: ls) = printed ls := by
  rw [printed_cons, printed_of_blank (List.forall_mem_nil _)]
  rfl

theorem printed_end (line : List Char) : printed (linesFrom line []) = printed [line.reverse] := by
  rw [linesFrom]
  split
  · rename_i hnil
    rw [hnil, List.reverse_nil, printed_nil_line]
  · rfl

/-- A line boundary ends the line; after a carriage return a line feed only ends a blank one. -/
theorem printed_break {c : Char} (h : isLineBreak c = true) (line rest : List Char) :
    printed (linesFrom line (c :: rest)) = printed [line.reverse] ++ printed (linesFrom [] rest) := by
  have hfeed : ∀ r : List Char, linesFrom [] ('\n' :: r) = [] :: linesFrom [] r := fun r => rfl
  rw [linesFrom.eq_def]
  split
  · rename_i heq
    cases heq
  · rename_i r heq
    obtain ⟨-, rfl⟩ := List.cons.inj heq
    rw [hfeed, printed_nil_line, printed_cons]
  · rename_i heq
    obtain ⟨rfl, rfl⟩ := List.cons.inj heq
    rw [if_pos h, printed_cons]

theorem printed_linesFrom_append {c : Char} (h : isLineBreak c = true) (line cs rest : List Char) :
    printed (linesFrom line (cs ++ c :: rest)) = printed (linesFrom line cs) ++ printed (linesFrom [] rest) := by
  induction cs generalizing line with
  | nil => rw [List.nil_append, printed_break h, printed_end]
  | cons d cs ih =>
    rw [List.cons_append]
    cases hd : isLineBreak d with
    | true => rw [printed_break hd, printed_break hd, ih, List.append_assoc]
    | false => rw [linesFrom_letter hd, linesFrom_letter hd, ih]

/-- The one fact about lines: a text is cut at each of its boundaries. -/
theorem printed_splitLines_append {c : Char} (h : isLineBreak c = true) (cs rest : List Char) :
    printed (splitLines (cs ++ c :: rest)) = printed (splitLines cs) ++ printed (splitLines rest) :=
  printed_linesFrom_append h [] cs rest

theorem printed_splitLines_unbroken {cs : List Char} (h : Unbroken cs) : printed (splitLines cs) = printed [cs] := by
  unfold splitLines
  rw [linesFrom_unbroken h, printed_end, List.append_nil, List.reverse_reverse]

/-- A text with print has a line with print. -/
theorem blank_of_printed {line cs : List Char} (h : printed (linesFrom line cs) = []) : Blank (line.reverse ++ cs) := by
  induction cs generalizing line with
  | nil =>
    rw [printed_end] at h
    rw [List.append_nil]
    by_contra hprint
    rw [printed_of_not_blank hprint] at h
    cases h
  | cons c cs ih =>
    cases hc : isLineBreak c with
    | true =>
      rw [printed_break hc, List.append_eq_nil_iff] at h
      have hline : Blank line.reverse := by
        by_contra hprint
        rw [printed_of_not_blank hprint] at h
        cases h.1
      have hrest : Blank cs := ih h.2
      intro d hd
      obtain hd | hd := List.mem_append.mp hd
      · exact hline d hd
      · obtain rfl | hd := List.mem_cons.mp hd
        · exact isSpace_of_break hc
        · exact hrest d hd
    | false =>
      rw [linesFrom_letter hc] at h
      have hrest := ih h
      rw [List.reverse_cons, List.append_assoc] at hrest
      exact hrest

/-! ## What separates words -/

theorem wordsFrom_token {cs : List Char} (h : ∀ c ∈ cs, isSpace c = false) (word rest : List Char) :
    wordsFrom word (cs ++ rest) = wordsFrom (cs.reverse ++ word) rest := by
  induction cs generalizing word with
  | nil => rfl
  | cons c cs ih =>
    obtain ⟨hc, hcs⟩ := List.forall_mem_cons.mp h
    rw [List.cons_append, wordsFrom, if_neg (by simp [hc]), ih hcs, List.reverse_cons, List.append_assoc]
    rfl

theorem words_blank {gap : List Char} (h : Blank gap) (rest : List Char) : words (gap ++ rest) = words rest := by
  induction gap with
  | nil => rfl
  | cons c gap ih =>
    obtain ⟨hc, hgap⟩ := List.forall_mem_cons.mp h
    rw [← ih hgap, words, List.cons_append, wordsFrom, if_pos hc, if_pos rfl]
    rfl

/-- A word ends at the whitespace after it. -/
theorem words_token {token gap : List Char} (ht : Token token) (hgap : Blank gap) (hne : gap ≠ []) (rest : List Char) :
    words (token ++ gap ++ rest) = token :: words rest := by
  obtain ⟨c, gap, rfl⟩ := List.exists_cons_of_ne_nil hne
  obtain ⟨hc, hblank⟩ := List.forall_mem_cons.mp hgap
  rw [← words_blank hblank rest, words, List.append_assoc, wordsFrom_token ht.2, List.append_nil, List.cons_append,
    wordsFrom, if_pos hc, if_neg (by simpa using ht.1), List.reverse_reverse]
  rfl

/-- The last word of a line, whatever blanks trail it. -/
theorem words_last {token gap : List Char} (ht : Token token) (hgap : Blank gap) : words (token ++ gap) = [token] := by
  by_cases hne : gap = []
  · subst hne
    rw [words, wordsFrom_token ht.2, List.append_nil, wordsFrom, if_neg (by simpa using ht.1), List.reverse_reverse]
  · rw [← List.append_nil (token ++ gap), words_token ht hgap hne]
    rfl

/-- Blanks at the end of a line are in no word. -/
theorem wordsFrom_trailing {gap : List Char} (h : Blank gap) (word cs : List Char) :
    wordsFrom word (cs ++ gap) = wordsFrom word cs := by
  induction cs generalizing word with
  | nil =>
    induction gap generalizing word with
    | nil => rfl
    | cons c gap ih =>
      obtain ⟨hc, hgap⟩ := List.forall_mem_cons.mp h
      have hrest := ih hgap []
      rw [List.nil_append, wordsFrom, if_pos rfl] at hrest
      rw [List.nil_append, wordsFrom.eq_2, if_pos hc, hrest, wordsFrom.eq_1]
  | cons c cs ih =>
    rw [List.cons_append, wordsFrom, wordsFrom, ih, ih]

theorem words_strip (cs : List Char) : words (strip cs) = words cs := by
  obtain ⟨before, after, hbefore, hafter, hcs⟩ := strip_parts cs
  have hwords : words (before ++ strip cs ++ after) = words (strip cs) := by
    rw [List.append_assoc, words_blank hbefore, words, wordsFrom_trailing hafter]
    rfl
  exact hwords.symm.trans (congrArg words hcs.symm)

end Shapeflow.Unicode
