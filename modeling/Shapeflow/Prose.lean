import Shapeflow.PageStrategy
import Shapeflow.TextScan

set_option autoImplicit false

/-!
# The prose control

A summary in prose, held to the rendered-token budget of the selection it is
compared with. The page and close paths cut the text to the budget and validate
what is left; the whole-batch path publishes the text as it was returned.
-/
namespace Shapeflow.Prose
open Unicode Evidence TextScan
open P1 (TextClasses firstSeen)
open PageH (VendorVisibleResult textOrElse)

/-! ## Patterns -/

/-- A character under `re.IGNORECASE`, where the long s is an s as well. -/
def sameLetter (letter c : Char) : Bool := c.toLower = letter ∨ letter = 's' ∧ c = 'ſ'

/-- The text after some letters, in either case. -/
def afterLetters : List Char → List Char → Option (List Char)
  | [], text => some text
  | _ :: _, [] => none
  | letter :: letters, c :: text => if sameLetter letter c then afterLetters letters text else none

/-- `S?` -/
def afterOptionalS (text : List Char) : List Char := (afterLetters ['s'] text).getD text

/-- `[^\s<>\]\)]` -/
def isUrlChar (c : Char) : Bool := ¬ isSpace c ∧ c ∉ ['<', '>', ']', ')']

/-- The text after `https?://[^\s<>\]\)]+` -/
def afterUrl (text : List Char) : Option (List Char) := do
  let scheme ← afterLetters "http".toList text
  let host ← afterLetters "://".toList (afterOptionalS scheme)
  let rest := host.dropWhile isUrlChar
  if rest.length = host.length then none else some rest

/-- `\s*:` -/
def afterColon (text : List Char) : Option (List Char) := afterLetters [':'] (text.dropWhile isSpace)

/-- `---\s*SOURCE\b` -/
def afterSourceRule (classes : TextClasses) (text : List Char) : Option (List Char) := do
  let rule ← afterLetters "---".toList text
  let rest ← afterLetters "source".toList (rule.dropWhile isSpace)
  if rest.head?.any classes.isWord then none else some rest

/-- The text after `\s*(?:---\s*SOURCE\b|URL\s*:|SOURCES?\s*:)` -/
def afterDefinition (classes : TextClasses) (text : List Char) : Option (List Char) :=
  let start := text.dropWhile isSpace
  afterSourceRule classes start <|> (afterLetters "url".toList start >>= afterColon) <|>
    (afterLetters "source".toList start >>= fun rest => afterColon (afterOptionalS rest))

/-- The pattern whose match leaves some of the text. -/
def leaving (after : List Char → Option (List Char)) (text : List Char) : Option (ℕ × Unit) :=
  (after text).map fun rest => (text.length - rest.length, ())

/-- `_ANY_URL` -/
def anyUrl : Pattern Char Unit := fun _ text => leaving afterUrl text

/-- `_SOURCE_DEFINITION_INJECTION`: at the start of a line. -/
def sourceDefinition (classes : TextClasses) : Pattern Char Unit := fun before text =>
  if before.head?.all (· = '\n') then leaving (afterDefinition classes) text else none

/-- A citation: its label, and whether text stands before it on its line. -/
structure Citation where
  label : List Char
  isInline : Bool
deriving DecidableEq, Repr

/-- `[^\]\r\n]` -/
def isLabelChar (c : Char) : Bool := c ∉ [']', '\r', '\n']

/-- `_CITATION` -/
def citation : Pattern Char Citation := fun before text =>
  match text with
  | '[' :: rest =>
    let label := rest.takeWhile isLabelChar
    if 1 ≤ label.length ∧ label.length ≤ 32 ∧ (rest.drop label.length).head? = some ']' then
      some (label.length + 2, ⟨strip label, strip (before.takeWhile (· ≠ '\n')).reverse ≠ []⟩)
    else none
  | _ => none

def citations (text : List Char) : List Citation := findAll citation text

/-- `_citation_labels` -/
def citationLabels (text : List Char) : List (List Char) := firstSeen ((citations text).map (·.label))

/-- `_inline_citation_labels` -/
def inlineCitationLabels (text : List Char) : List (List Char) :=
  firstSeen (((citations text).filter (·.isInline)).map (·.label))

/-- `\[\d*` at the end of a text that is read backwards. -/
def endsOpen (classes : TextClasses) (reversed : List Char) : Bool :=
  (reversed.dropWhile classes.isDecimal).head? = some '['

/-- `_DANGLING_NUMERIC_CITATION`: at the end, or before a last line feed. -/
def dangling (classes : TextClasses) (text : List Char) : Bool :=
  endsOpen classes text.reverse ∨ text.reverse.head? = some '\n' ∧ endsOpen classes text.reverse.tail

/-! ## Validation -/

structure VisibleSourceEntry where
  label : List Char
  title : List Char
  url : List Char
  occurrenceIds : List String
deriving DecidableEq, Repr

/-- `map_line` -/
def VisibleSourceEntry.mapLine (entry : VisibleSourceEntry) : List Char :=
  "[".toList ++ entry.label ++ "] ".toList ++ entry.title ++ " -- ".toList ++ entry.url

structure Validation where
  valid : Bool
  unknownCitationLabels : List (List Char)
  inlineCitationLabels : List (List Char)
  bodyUrlCount : ℕ
  sourceDefinitionInjectionCount : ℕ
  danglingNumericCitation : Bool
  missingRequiredInlineCitation : Bool
deriving DecidableEq, Repr

/-- `_validation_of`, under the labels that are known. -/
def validationOf (classes : TextClasses) (text : List Char) (known : List (List Char)) (sourcesRequired : Bool) :
    Validation :=
  let unknown := (citationLabels text).filter (· ∉ known)
  let urls := (findAll anyUrl text).length
  let definitions := (findAll (sourceDefinition classes) text).length
  let missing := sourcesRequired ∧ inlineCitationLabels text = []
  { valid := ¬ (unknown ≠ [] ∨ urls ≠ 0 ∨ definitions ≠ 0 ∨ dangling classes text ∨ missing)
    unknownCitationLabels := unknown
    inlineCitationLabels := inlineCitationLabels text
    bodyUrlCount := urls
    sourceDefinitionInjectionCount := definitions
    danglingNumericCitation := dangling classes text
    missingRequiredInlineCitation := missing }

/-- `_validation_error` -/
def validationError (validation : Validation) : String :=
  if validation.unknownCitationLabels ≠ [] then
    "SHORT_PROSE cited unknown source label(s): " ++
      ", ".intercalate (validation.unknownCitationLabels.map String.ofList)
  else if validation.bodyUrlCount ≠ 0 then
    "SHORT_PROSE body emitted a URL; source definitions are appended by the publisher"
  else if validation.sourceDefinitionInjectionCount ≠ 0 then
    "SHORT_PROSE body attempted to inject publisher-owned source definitions"
  else if validation.danglingNumericCitation then
    "SHORT_PROSE bounded prefix ends in an incomplete numeric citation"
  else if validation.missingRequiredInlineCitation then
    "SHORT_PROSE had citable sources but emitted no valid inline citation"
  else "SHORT_PROSE bounded prefix failed validation"

structure Normalization where
  schemaVersion : String
  rawSemanticallyValid : Bool
  rawFitsRenderedTokenBudget : Bool
  rawContractAdherent : Bool
  publishedSemanticallyValid : Bool
  publishedFitsRenderedTokenBudget : Bool
  publishedPolicyValid : Bool
  rawValidation : Validation
  publishedValidation : Validation
  rawBodyTokens : ℕ
  publishedBodyTokens : ℕ
  rawRenderedTokens : ℕ
  publishedRenderedTokens : ℕ
  budgetTruncated : Bool
  invalidRawSuffixOutsidePolicyOutput : Bool
  semanticRepairApplied : Bool
  normalizationReasons : List String
  rawContractAdherenceSensitivityExcludes : Bool
deriving DecidableEq, Repr

inductive ProseError
  | noCompletionToken
  | summaryWrapper
  | sourceWrapper
  | immutableSourceWrapper
  | call (message : String)
  | validation (message : String) (normalization : Normalization)
deriving DecidableEq, Repr

def ProseError.text : ProseError → String
  | .noCompletionToken => "SHORT_PROSE token budget leaves no completion token after immutable provenance"
  | .summaryWrapper => "SHORT_PROSE could not fit its summary wrapper"
  | .sourceWrapper => "SHORT_PROSE token budget cannot preserve the source title/URL wrapper"
  | .immutableSourceWrapper => "SHORT_PROSE could not fit its immutable source wrapper"
  | .call message => message
  | .validation message _ => message

/-! ## Documents -/

section
variable (classes : TextClasses) (tokenizer : Tokenizer) (budget : ℤ)

def fits (document : List Char) : Bool := (tokenizer.count document : ℤ) ≤ budget

/-- What both renderers say of a text, its rendering, and the part of it they publish. -/
def normalizationOf (schemaVersion : String) (known : List (List Char)) (sourcesRequired : Bool)
    (text rawRendered body rendered : List Char) : Normalization :=
  let raw := validationOf classes text known sourcesRequired
  let published := validationOf classes body known sourcesRequired
  let truncated := body ≠ text
  let invalidSuffix := truncated ∧ ¬ raw.valid ∧ published.valid
  { schemaVersion := schemaVersion
    rawSemanticallyValid := raw.valid
    rawFitsRenderedTokenBudget := fits tokenizer budget rawRendered
    rawContractAdherent := raw.valid && fits tokenizer budget rawRendered
    publishedSemanticallyValid := published.valid
    publishedFitsRenderedTokenBudget := fits tokenizer budget rendered
    publishedPolicyValid := published.valid && fits tokenizer budget rendered
    rawValidation := raw
    publishedValidation := published
    rawBodyTokens := tokenizer.count text
    publishedBodyTokens := tokenizer.count body
    rawRenderedTokens := tokenizer.count rawRendered
    publishedRenderedTokens := tokenizer.count rendered
    budgetTruncated := truncated
    invalidRawSuffixOutsidePolicyOutput := invalidSuffix
    semanticRepairApplied := false
    normalizationReasons := (if truncated then ["TOKEN_BUDGET_PREFIX"] else []) ++
      (if invalidSuffix then ["INVALID_RAW_SUFFIX_OUTSIDE_POLICY_OUTPUT"] else [])
    rawContractAdherenceSensitivityExcludes := truncated ∨ ¬ raw.valid ∨ ¬ fits tokenizer budget rawRendered }

/-- `text[: offsets[kept - 1][1]] if kept else ""` -/
def keptPrefix (text : List Char) (offsets : List (ℕ × ℕ)) : ℕ → List Char
  | 0 => []
  | kept + 1 => text.take (offsets.getD kept (0, 0)).2

/-- The prefixes of at most `budget` tokens, longest first: the first that is admitted. -/
def longestPrefix (admits : List Char → Bool) (text : List Char) : Option (List Char) :=
  let offsets := tokenizer.encodeOffsets text
  if budget < 0 then none else longest admits (keptPrefix text offsets) (min offsets.length budget.toNat)

/-- `_render_close_document` -/
def renderCloseDocument (body : List Char) (sourceEntries : List VisibleSourceEntry) : List Char :=
  "SUMMARY:\n".toList ++ body ++
    if sourceEntries = [] then []
    else "\n\nSOURCES:\n".toList ++ ['\n'].intercalate (sourceEntries.map VisibleSourceEntry.mapLine)

/-- The entries a body cites inline. -/
def usedEntries (sourceEntries : List VisibleSourceEntry) (body : List Char) : List VisibleSourceEntry :=
  sourceEntries.filter fun entry => entry.label ∈ inlineCitationLabels body

structure CloseProse where
  rendered : List Char
  body : List Char
  used : List VisibleSourceEntry
  normalization : Normalization
deriving DecidableEq, Repr

/-- `_render_close_prose` -/
def renderCloseProse (text : List Char) (sourceEntries : List VisibleSourceEntry) : Except ProseError CloseProse :=
  let render := fun body => renderCloseDocument body (usedEntries sourceEntries body)
  match longestPrefix tokenizer budget (fun body => ¬ dangling classes body ∧ fits tokenizer budget (render body)) text
    with
  | none => .error .summaryWrapper
  | some body =>
    let normalization := normalizationOf classes tokenizer budget "short_prose_close_policy_normalization_v2"
      (sourceEntries.map (·.label)) (sourceEntries ≠ []) text (render text) body (render body)
    if normalization.publishedPolicyValid then .ok ⟨render body, body, usedEntries sourceEntries body, normalization⟩
    else .error (.validation (validationError normalization.publishedValidation) normalization)

/-- `_page_prose_wrapper` -/
def pageProseWrapper (title url : List Char) (sourceNumber : ℕ) : List Char × List Char :=
  ("--- SOURCE ".toList ++ (toString sourceNumber).toList ++ ": ".toList ++ title ++ " ---\nURL: ".toList ++ url ++
      "\n\nSUMMARY:\n".toList,
    "\n\n".toList ++ List.replicate 80 '-')

structure PageProse where
  rendered : List Char
  body : List Char
  normalization : Normalization
deriving DecidableEq, Repr

/-- `_render_page_prose` -/
def renderPageProse (text title url : List Char) (sourceNumber : ℕ) : Except ProseError PageProse :=
  let (front, suffix) := pageProseWrapper title url sourceNumber
  if ¬ fits tokenizer budget (front ++ suffix) then .error .sourceWrapper
  else match longestPrefix tokenizer budget (fun body => fits tokenizer budget (front ++ body ++ suffix)) text with
    | none => .error .immutableSourceWrapper
    | some body =>
      let normalization := normalizationOf classes tokenizer budget "short_prose_page_policy_normalization_v2" [] false
        text (front ++ text ++ suffix) body (front ++ body ++ suffix)
      if normalization.publishedPolicyValid then .ok ⟨front ++ body ++ suffix, body, normalization⟩
      else .error (.validation (validationError normalization.publishedValidation) normalization)

/-! ## The selector's call -/

/-- What the selector returns under a completion cap. -/
abbrev Selector : Type := ℤ → Except String (List Char)

/-- `_completion_cap` -/
def completionCap (immutableWrapper : List Char) : Except ProseError ℤ :=
  let remaining := budget - tokenizer.count immutableWrapper
  if remaining ≤ 0 then .error .noCompletionToken else .ok remaining

/-- `_summarize_one` -/
def summarizeOne (selector : Selector) (title url : List Char) (sourceNumber : ℕ) : Except ProseError (List Char) := do
  let (front, suffix) := pageProseWrapper title url sourceNumber
  let cap ← completionCap tokenizer budget (front ++ suffix)
  let text ← (selector cap).mapError .call
  let page ← renderPageProse classes tokenizer budget text title url sourceNumber
  pure page.rendered

/-- The number, title and url of a source. -/
abbrev Source : Type := ℕ × List Char × List Char

/-- `_batch_prose_wrapper` -/
def batchProseWrapper (sources : List Source) : List Char × List Char :=
  ("SUMMARY:\n".toList,
    if sources = [] then []
    else "\n\nSOURCES:\n".toList ++ ['\n'].intercalate (sources.map fun s =>
      "[".toList ++ (toString s.1).toList ++ "] ".toList ++ s.2.1 ++ " — ".toList ++ s.2.2))

/-- `_summarize_batch`: the reply between its wrapper, as it was returned. -/
def summarizeBatch (selector : Selector) (sources : List Source) : Except ProseError (List Char) := do
  let (front, suffix) := batchProseWrapper sources
  let cap ← completionCap tokenizer budget (front ++ suffix)
  let body ← (selector cap).mapError .call
  pure (front ++ body ++ suffix)

/-- `_minimum_close_wrapper`: the first of the cheapest. -/
def minimumCloseWrapper (sourceEntries : List VisibleSourceEntry) : List Char :=
  match (sourceEntries.map fun entry => renderCloseDocument [] [entry]) with
  | [] => renderCloseDocument [] []
  | wrapper :: wrappers => wrappers.foldl (fun least w =>
      if tokenizer.count w < tokenizer.count least then w else least) wrapper

/-- The handoff of `close_researcher`. -/
def closeResearcher (selector : Selector) (sourceEntries : List VisibleSourceEntry) : Except ProseError (List Char) := do
  let cap ← completionCap tokenizer budget (minimumCloseWrapper tokenizer sourceEntries)
  let text ← (selector cap).mapError .call
  let handoff ← renderCloseProse classes tokenizer budget text sourceEntries
  pure handoff.rendered

/-! ## The paths -/

/-- What a reply of the selector is published as. -/
inductive ProsePath
  | page (title url : List Char) (sourceNumber : ℕ)
  | wholeBatch (sources : List Source)
  | close (sourceEntries : List VisibleSourceEntry)
deriving DecidableEq, Repr

/-- The document a path publishes, its sources in it. -/
def publish (selector : Selector) : ProsePath → Except ProseError (List Char)
  | .page title url sourceNumber => summarizeOne classes tokenizer budget selector title url sourceNumber
  | .wholeBatch sources => summarizeBatch tokenizer budget selector sources
  | .close sourceEntries => closeResearcher classes tokenizer budget selector sourceEntries

end

/-! ## The message of a tool call -/

structure ProsePageStrategy where
  classes : TextClasses
  tokenizer : Tokenizer
  tokenBudget : ℤ
  scope : PageH.PageScope
  rawTextFor : String → String
  occurrenceFor : String → String
  chunks : List Char → List Chunk

structure ProseMessage where
  content : String
  sourceOccurrenceIds : List String
  /-- The documents in it that a selector's text was rendered to. -/
  documents : List (List Char)
deriving DecidableEq, Repr

/-- What one result adds to a message. -/
structure Slot where
  text : List Char
  occurrenceId : Option String
  isDocument : Bool
deriving DecidableEq, Repr

section
variable (s : ProsePageStrategy)

/-- The text of a page that has spans to summarize. -/
def selectable (result : VendorVisibleResult) : Option String :=
  result.rawContentId.filter fun contentId => s.chunks (s.rawTextFor contentId).toList ≠ []

def slotOf (selector : Selector) (result : VendorVisibleResult) : Except ProseError (Option Slot) :=
  match result.rawContentId, selectable s result with
  | none, _ =>
    .ok (some ⟨(PageStrategy.vendorSnippet result).toList, (PageStrategy.occurrenceOf result).head?, false⟩)
  | some _, none => .ok none
  | some _, some contentId => do
    let document ← summarizeOne s.classes s.tokenizer s.tokenBudget selector result.title.toList result.url.toList
      (result.vendorVisibleOrder + 1)
    pure (some ⟨document, some (textOrElse result.sourceOccurrenceId (s.occurrenceFor contentId)), true⟩)

/-- The slots of the results in their order. -/
def transformPages (selectors : ℕ → Selector) (results : List VendorVisibleResult) : Except ProseError ProseMessage := do
  let slots ← results.zipIdx.mapM fun r => slotOf s (selectors r.2) r.1
  let rendered := slots.filterMap id
  pure
    { content := PageStrategy.format (rendered.map fun slot => String.ofList slot.text)
      sourceOccurrenceIds := firstSeen ((rendered.filterMap (·.occurrenceId)).filter (· ≠ ""))
      documents := (rendered.filter (·.isDocument)).map (·.text) }

/-- `_transform_whole_batch` -/
def transformWholeBatch (selector : Selector) (results : List VendorVisibleResult) : Except ProseError ProseMessage :=
  let passthrough := (results.filter fun r => r.rawContentId.isNone).map PageStrategy.vendorSnippet
  let sources := (results.filter fun r => (selectable s r).isSome).map fun r =>
    (r.vendorVisibleOrder + 1, r.title.toList, r.url.toList)
  let occurrenceIds := firstSeen (results.flatMap fun r =>
    match r.rawContentId with
    | none => PageStrategy.occurrenceOf r
    | some _ => (selectable s r).toList.map fun contentId =>
      textOrElse r.sourceOccurrenceId (s.occurrenceFor contentId))
  if sources = [] then .ok ⟨PageStrategy.format passthrough, occurrenceIds, []⟩
  else do
    let document ← summarizeBatch s.tokenizer s.tokenBudget selector sources
    pure ⟨PageStrategy.format (String.ofList document :: passthrough), occurrenceIds, [document]⟩

/-- `_transform_one_tool_call` -/
def transformOneToolCall (selectors : ℕ → Selector) (results : List VendorVisibleResult) :
    Except ProseError ProseMessage :=
  if s.scope = .wholeBatch then transformWholeBatch s (selectors 0) results else transformPages s selectors results

end
end Shapeflow.Prose
