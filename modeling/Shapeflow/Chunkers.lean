import Mathlib.Data.List.Infix
import Mathlib.Order.Basic
import Shapeflow.UnicodeText

set_option autoImplicit false

/-!
# The chunkers

A chunk is a window of the text. Chunkers only cut: what lies between two chunks is
left out, what lies in one is never changed. Token counts decide where to cut.
-/
namespace Shapeflow.Evidence
open Unicode

/-- One `(char_start, char_end)` per token, in order. -/
structure Tokenizer where
  encodeOffsets : List Char → List (ℕ × ℕ)
  count : List Char → ℕ

/-- `\S+`, all matches; the start of a word being read. -/
def wordOffsets : ℕ → Option ℕ → List Char → List (ℕ × ℕ)
  | _, none, [] => []
  | pos, some start, [] => [(start, pos)]
  | pos, none, c :: r => if isSpace c then wordOffsets (pos + 1) none r else wordOffsets (pos + 1) (some pos) r
  | pos, some start, c :: r =>
    if isSpace c then (start, pos) :: wordOffsets (pos + 1) none r else wordOffsets (pos + 1) (some start) r

def whitespaceTokenizer : Tokenizer where
  encodeOffsets := wordOffsets 0 none
  count text := (wordOffsets 0 none text).length

inductive ChunkKind
  | fixedWindow
  | paragraph
  | sentence
  | heading
  | code
  | tableHeader
  | tableRow
  | blockquote
  | listItem
deriving DecidableEq, Repr

structure Chunk where
  charStart : ℕ
  charEnd : ℕ
  kind : ChunkKind
  headingPath : List (List Char)
  tokenLen : ℕ
  contextRanges : List (ℕ × ℕ)
  headingRanges : List (ℕ × ℕ)
deriving DecidableEq, Repr

/-- `source[start:stop]` -/
def slice (source : List Char) (start stop : ℕ) : List Char := (source.take stop).drop start

/-- The chunk's own text. -/
def Chunk.text (source : List Char) (chunk : Chunk) : List Char := slice source chunk.charStart chunk.charEnd

/-- `ValueError` -/
inductive ChunkError
  | windowNotPositive
  | overlapOutOfRange
deriving DecidableEq, Repr

/-- `_finalize` without headings or context. -/
def finalize (tokenizer : Tokenizer) (source : List Char) (start stop : ℕ) (kind : ChunkKind) : Chunk where
  charStart := start
  charEnd := stop
  kind := kind
  headingPath := []
  tokenLen := tokenizer.count (slice source start stop)
  contextRanges := []
  headingRanges := []

/-! ## `fixed_token_v1` -/

/-- From the first token's start to the last one's end. -/
def windowSpan (first : ℕ × ℕ) (others : List (ℕ × ℕ)) : ℕ × ℕ := (first.1, ((first :: others).getLast (by simp)).2)

/-- The windows of `window` tokens, each `step` tokens after the one before. -/
def windows (window step : ℕ) : List (ℕ × ℕ) → List (ℕ × ℕ)
  | [] => []
  | first :: others =>
    windowSpan first (others.take (window - 1)) ::
      if others.length + 1 ≤ window then [] else windows window step (others.drop (step - 1))
termination_by offsets => offsets.length
decreasing_by simp only [List.length_drop, List.length_cons]; omega

def fixedTokenV1 (tokenizer : Tokenizer) (window overlap : ℤ) (text : List Char) : Except ChunkError (List Chunk) :=
  if window ≤ 0 then .error .windowNotPositive
  else if ¬ (0 ≤ overlap ∧ overlap < window) then .error .overlapOutOfRange
  else .ok ((windows window.toNat (window - overlap).toNat (tokenizer.encodeOffsets text)).map fun span =>
    finalize tokenizer text span.1 span.2 .fixedWindow)

/-! ## `paragraph_sentence_v1` -/

/-- How many characters `\n[ \t]*\n` matches from position `i`. -/
def paraSplit (text : List Char) (stop i : ℕ) : ℕ :=
  match slice text i stop with
  | '\n' :: r =>
    let blanks := (r.takeWhile fun c => c = ' ' ∨ c = '\t').length
    if r[blanks]? = some '\n' then blanks + 2 else 0
  | _ => 0

/-- How many characters `(?<=[.!?])\s+` matches from position `i`. -/
def sentenceEnd (text : List Char) (stop i : ℕ) : ℕ :=
  if i ≠ 0 ∧ text[i - 1]? ∈ [some '.', some '!', some '?'] then ((slice text i stop).takeWhile isSpace).length else 0

/-- `_split_offsets` from `i` on, with the content read since `cursor`. -/
def splitFrom (separator : ℕ → ℕ) (stop cursor i : ℕ) : List (ℕ × ℕ) :=
  if i < stop then
    if separator i = 0 then splitFrom separator stop cursor (i + 1)
    else (if cursor < i then [(cursor, i)] else []) ++ splitFrom separator stop (i + separator i) (i + separator i)
  else if cursor < stop then [(cursor, stop)] else []
termination_by stop - i

def splitOffsets (separator : ℕ → ℕ) (start stop : ℕ) : List (ℕ × ℕ) := splitFrom separator stop start start

/-- A sentence, or its windows where it is too long. -/
def sentenceChunks (tokenizer : Tokenizer) (maxTokens : ℤ) (text : List Char) (span : ℕ × ℕ) :
    Except ChunkError (List Chunk) :=
  if tokenizer.count (slice text span.1 span.2) ≤ maxTokens then
    .ok [finalize tokenizer text span.1 span.2 .sentence]
  else do
    let subs ← fixedTokenV1 tokenizer maxTokens 0 (slice text span.1 span.2)
    pure (subs.map fun sub => finalize tokenizer text (span.1 + sub.charStart) (span.1 + sub.charEnd) .sentence)

/-- A paragraph, or its sentences where it is too long. -/
def paragraphChunks (tokenizer : Tokenizer) (maxTokens : ℤ) (text : List Char) (span : ℕ × ℕ) :
    Except ChunkError (List Chunk) :=
  if tokenizer.count (slice text span.1 span.2) ≤ maxTokens then
    .ok [finalize tokenizer text span.1 span.2 .paragraph]
  else do
    let chunks ← (splitOffsets (sentenceEnd text span.2) span.1 span.2).mapM (sentenceChunks tokenizer maxTokens text)
    pure chunks.flatten

def paragraphSentenceV1 (tokenizer : Tokenizer) (maxTokens : ℤ) (text : List Char) : Except ChunkError (List Chunk) := do
  let chunks ← (splitOffsets (paraSplit text text.length) 0 text.length).mapM (paragraphChunks tokenizer maxTokens text)
  pure chunks.flatten

/-! ## Lines -/

/-- A line and where it stands: its content without the newline. -/
structure Line where
  start : ℕ
  stop : ℕ
  text : List Char
deriving DecidableEq, Repr

/-- `_iter_lines` from `pos` on. -/
def linesAt (pos : ℕ) (text : List Char) : List Line :=
  if text = [] then []
  else
    let content := text.takeWhile (· ≠ '\n')
    ⟨pos, pos + content.length, content⟩ :: linesAt (pos + content.length + 1) (text.drop (content.length + 1))
termination_by text.length
decreasing_by
  have : 0 < text.length := List.length_pos_iff.mpr ‹_›
  simp only [List.length_drop]
  omega

def iterLines (text : List Char) : List Line := linesAt 0 text

/-! ## Line patterns -/

def Line.blank (line : Line) : Bool := strip line.text = []

/-- The level and the title of a line `_HEADING` matches. -/
def Line.heading (line : Line) : Option (ℕ × List Char) :=
  let level := (line.text.takeWhile (· = '#')).length
  let rest := line.text.drop level
  if 1 ≤ level ∧ level ≤ 6 ∧ rest.head?.any isSpace then some (level, strip rest) else none

def backquote : Char := Char.ofNat 96

/-- The marker of a line `_FENCE` matches. -/
def Line.fence (line : Line) : Option (List Char) :=
  let rest := line.text.dropWhile isSpace
  if List.replicate 3 backquote <+: rest then some (List.replicate 3 backquote)
  else if ['~', '~', '~'] <+: rest then some ['~', '~', '~']
  else none

/-- `:?-{2,}:?` between blanks. -/
def isRule (cell : List Char) : Bool :=
  let cell := strip cell
  let cell := if cell.head? = some ':' then cell.tail else cell
  let cell := if cell.getLast? = some ':' then cell.dropLast else cell
  2 ≤ cell.length ∧ cell.all (· = '-')

/-- `_TABLE_SEP`: two rules at least between bars; a bar may stand before the first and after the last. -/
def Line.isTableSep (line : Line) : Bool :=
  let cells := line.text.splitOn '|'
  let cells := if cells.head?.map strip = some [] then cells.tail else cells
  let cells := if cells.getLast?.map strip = some [] then cells.dropLast else cells
  2 ≤ cells.length ∧ ∀ cell ∈ cells, isRule cell

/-- `_LIST_ITEM`, with the characters `\d` matches. -/
def Line.isListItem (isDecimal : Char → Bool) (line : Line) : Bool :=
  match line.text.dropWhile isSpace with
  | [] => false
  | c :: r =>
    ((c = '-' ∨ c = '*' ∨ c = '+') ∧ r.head?.any isSpace) ∨
      (isDecimal c ∧
        let rest := r.dropWhile isDecimal
        (rest.head? = some '.' ∨ rest.head? = some ')') ∧ rest.tail.head?.any isSpace)

def Line.hasBar (line : Line) : Bool := '|' ∈ line.text

def Line.isQuote (line : Line) : Bool := (strip line.text).head? = some '>'

/-! ## `markdown_structure_v1` -/

/-- An open heading: its level, its title and its line's range. -/
structure OpenHeading where
  level : ℕ
  title : List Char
  start : ℕ
  stop : ℕ
deriving DecidableEq, Repr

/-- What `emit_block` is called with, the headings open there included; the innermost heading is last. -/
structure Block where
  start : ℕ
  stop : ℕ
  kind : ChunkKind
  contextRanges : List (ℕ × ℕ)
  headings : List OpenHeading
deriving DecidableEq, Repr

/-- The `_finalize` of `emit_block`. -/
def Block.finalize (tokenizer : Tokenizer) (text : List Char) (block : Block) (start stop : ℕ) : Chunk where
  charStart := start
  charEnd := stop
  kind := block.kind
  headingPath := block.headings.map (·.title)
  tokenLen := tokenizer.count (slice text start stop)
  contextRanges := block.contextRanges
  headingRanges := block.headings.map fun h => (h.start, h.stop)

/-- The pieces of a body that is too long: windows where nothing else breaks it. -/
def bodyPieces (tokenizer : Tokenizer) (maxTokens : ℤ) (body : List Char) : Except ChunkError (List Chunk) := do
  let subs ← paragraphSentenceV1 tokenizer maxTokens body
  if subs = [] then fixedTokenV1 tokenizer maxTokens 0 body else pure subs

def emitBlock (tokenizer : Tokenizer) (maxTokens : ℤ) (text : List Char) (block : Block) :
    Except ChunkError (List Chunk) :=
  if block.stop ≤ block.start then .ok []
  else if tokenizer.count (slice text block.start block.stop) ≤ maxTokens then
    .ok [block.finalize tokenizer text block.start block.stop]
  else do
    let subs ← bodyPieces tokenizer maxTokens (slice text block.start block.stop)
    pure (subs.map fun sub => block.finalize tokenizer text (block.start + sub.charStart) (block.start + sub.charEnd))

/-- The headings a heading of a level stands under. -/
def enclosing (headings : List OpenHeading) (level : ℕ) : List OpenHeading :=
  (headings.reverse.dropWhile fun h => level ≤ h.level).reverse

/-- The stop of the last of some lines, the first one given. -/
def lastStop (line : Line) (others : List Line) : ℕ := ((line :: others).getLast (by simp)).stop

/-- Whether a line goes on with the paragraph before it. -/
def Line.continues (isDecimal : Char → Bool) (line : Line) : Bool :=
  ¬ (line.blank ∨ line.heading.isSome ∨ line.fence.isSome ∨ line.isListItem isDecimal ∨ line.isQuote)

/-- The consecutive list items from an item on, each with its continuation lines, and the lines left. -/
def listItems (isDecimal : Char → Bool) (headings : List OpenHeading) : List Line → List Block × List Line
  | [] => ([], [])
  | line :: lines =>
    if line.isListItem isDecimal then
      let more := lines.takeWhile fun l => ¬ l.blank ∧ ¬ l.isListItem isDecimal
      let (blocks, rest) := listItems isDecimal headings (lines.drop more.length)
      (⟨line.start, lastStop line more, .listItem, [], headings⟩ :: blocks, rest)
    else ([], line :: lines)
termination_by lines => lines.length
decreasing_by simp only [List.length_drop, List.length_cons]; omega

/-- The table a header line opens: the rows after its separator, and the lines left. -/
def tableRows (lines : List Line) : List Line × List Line :=
  (lines.takeWhile fun l => l.hasBar ∧ ¬ l.blank, lines.dropWhile fun l => l.hasBar ∧ ¬ l.blank)

structure Step where
  blocks : List Block
  headings : List OpenHeading
  rest : List Line

/-- A table: its header with the separator, then each row under the header's range. -/
def tableStep (headings : List OpenHeading) (header sep : Line) (lines : List Line) : Step :=
  let (rows, rest) := tableRows lines
  ⟨⟨header.start, sep.stop, .tableHeader, [], headings⟩ ::
    rows.map fun row => ⟨row.start, row.stop, .tableRow, [(header.start, header.stop)], headings⟩, headings, rest⟩

/-- One iteration of the loop over the lines. -/
def step (isDecimal : Char → Bool) (headings : List OpenHeading) (line : Line) (lines : List Line) : Step :=
  if line.blank then ⟨[], headings, lines⟩
  else match line.heading with
  | some heading =>
    let headings := enclosing headings heading.1 ++ [⟨heading.1, heading.2, line.start, line.stop⟩]
    ⟨[⟨line.start, line.stop, .heading, [], headings⟩], headings, lines⟩
  | none =>
    match line.fence with
    | some marker =>
      let body := lines.takeWhile fun l => ¬ marker <:+: l.text
      let closed := lines.take (body.length + 1)
      ⟨[⟨line.start, lastStop line closed, .code, [], headings⟩], headings, lines.drop (body.length + 1)⟩
    | none =>
      match line.hasBar, lines with
      | true, sep :: more =>
        if sep.isTableSep then tableStep headings line sep more else textStep isDecimal headings line lines
      | _, _ => textStep isDecimal headings line lines
where
  /-- A block quote, a list or a paragraph. -/
  textStep (isDecimal : Char → Bool) (headings : List OpenHeading) (line : Line) (lines : List Line) : Step :=
    if line.isQuote then
      let more := lines.takeWhile Line.isQuote
      ⟨[⟨line.start, lastStop line more, .blockquote, [], headings⟩], headings, lines.drop more.length⟩
    else if line.isListItem isDecimal then
      let (blocks, rest) := listItems isDecimal headings (line :: lines)
      ⟨blocks, headings, rest⟩
    else
      let more := lines.takeWhile (Line.continues isDecimal)
      ⟨[⟨line.start, lastStop line more, .paragraph, [], headings⟩], headings, lines.drop more.length⟩

theorem listItems_suffix (isDecimal : Char → Bool) (headings : List OpenHeading) (lines : List Line) :
    (listItems isDecimal headings lines).2 <:+ lines := by
  fun_induction listItems isDecimal headings lines with
  | case1 => exact List.suffix_rfl
  | case2 line lines hitem more blocks rest heq ih =>
    rw [heq] at ih
    exact (ih.trans (List.drop_suffix _ _)).trans (List.suffix_cons _ _)
  | case3 line lines hitem => exact List.suffix_rfl

theorem listItems_cons {isDecimal : Char → Bool} {line : Line} (h : line.isListItem isDecimal)
    (headings : List OpenHeading) (lines : List Line) :
    listItems isDecimal headings (line :: lines) =
      let more := lines.takeWhile fun l => ¬ l.blank ∧ ¬ l.isListItem isDecimal
      let rest := listItems isDecimal headings (lines.drop more.length)
      (⟨line.start, lastStop line more, .listItem, [], headings⟩ :: rest.1, rest.2) := by
  rw [listItems, if_pos h]

theorem textStep_rest_suffix (isDecimal : Char → Bool) (headings : List OpenHeading) (line : Line)
    (lines : List Line) : (step.textStep isDecimal headings line lines).rest <:+ lines := by
  unfold step.textStep
  split_ifs with hquote hitem
  · exact List.drop_suffix _ _
  · rw [listItems_cons hitem]
    exact (listItems_suffix isDecimal headings _).trans (List.drop_suffix _ _)
  · exact List.drop_suffix _ _

theorem step_rest_suffix (isDecimal : Char → Bool) (headings : List OpenHeading) (line : Line) (lines : List Line) :
    (step isDecimal headings line lines).rest <:+ lines := by
  unfold step
  split_ifs
  · exact List.suffix_rfl
  · split
    · exact List.suffix_rfl
    · split
      · exact List.drop_suffix _ _
      · split
        · split_ifs
          · exact (List.dropWhile_suffix _).trans (List.suffix_cons _ _)
          · exact textStep_rest_suffix isDecimal headings line _
        · exact textStep_rest_suffix isDecimal headings line _

/-- The blocks of some lines, under the headings open before them. -/
def blocksFrom (isDecimal : Char → Bool) (headings : List OpenHeading) : List Line → List Block
  | [] => []
  | line :: lines =>
    let s := step isDecimal headings line lines
    s.blocks ++ blocksFrom isDecimal s.headings s.rest
termination_by lines => lines.length
decreasing_by
  have := (step_rest_suffix isDecimal headings line lines).length_le
  simp only [List.length_cons]
  omega

def markdownStructureV1 (isDecimal : Char → Bool) (tokenizer : Tokenizer) (maxTokens : ℤ) (text : List Char) :
    Except ChunkError (List Chunk) := do
  let chunks ← (blocksFrom isDecimal [] (iterLines text)).mapM (emitBlock tokenizer maxTokens text)
  pure chunks.flatten

end Shapeflow.Evidence
