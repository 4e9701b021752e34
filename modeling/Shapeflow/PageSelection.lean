import Shapeflow.Dict
import Shapeflow.HandleCodec
import Shapeflow.Run
import Shapeflow.Script

set_option autoImplicit false

/-!
# Page selection by nested researchers

A run binds a researcher, whose supervisor invokes child researchers; each of
them reduces checkpoints of its search results with the one page strategy of the
run. What a selector answers and what prompt admission keeps are choices.
-/
namespace Shapeflow.PageH
open Script HandleCodec

abbrev ResearcherCoordinate : Type := ℤ × ℤ × String

structure RunBinding where
  taskId : String
  researcherId : String
  researcherCoordinate : Option ResearcherCoordinate
deriving DecidableEq, Repr

/-- `(parent.researcher_id, iteration, ordinal)` -/
abbrev Slot : Type := String × ℤ × ℤ

/-- What one `bind_run` binds: the identity and the slots of its own children. -/
structure Context where
  binding : RunBinding
  childCoordinates : Dict Slot String

structure VendorVisibleResult where
  vendorVisibleOrder : ℕ
  url : String
  title : String
  snippet : String
  rawContentId : Option String
  sourceOccurrenceId : Option String
deriving DecidableEq, Repr

structure HCheckpoint where
  taskId : String
  researcherId : String
  assistantTurnIndex : ℤ
  searchResultSets : List (String × List VendorVisibleResult)
  researcherCoordinate : Option ResearcherCoordinate
  /-- The assistant message, its calls, their other outputs, the state hash and the sampling. -/
  envelope : String
deriving DecidableEq, Repr

structure Span where
  spanId : String
  sourceOccurrenceIds : List String
deriving DecidableEq, Repr

inductive PageScope
  | perPage
  | perToolCall
  | wholeBatch
  | hierarchical
deriving DecidableEq, Repr

inductive Stage
  | single
  | local
  | global
deriving DecidableEq, Repr

inductive PageError
  | noParentRun
  | childCoordinate (iteration ordinal : ℤ) (callId : String)
  | slotReused (slot : Slot) (previous callId : String)
  | noSuchSibling (toolsetOrdinal : ℕ)
  | wholeBatchMultiSibling (siblings : ℕ)
  | publicationScopeReuse
  | handleDomain (e : HandleError)
  | selectionFailed
deriving DecidableEq, Repr

/-- Why a view is not built: only the first is no `ViewConstructionError`. -/
inductive ViewError
  | handleDomain (e : HandleError)
  | ordinalsNotPositive
  | ordinalsCollide
  | noOrdinal (spanId : String)
  | handleCost (handle : String) (tokens : ℕ)
deriving DecidableEq, Repr

/-- The optional researcher position, the assistant turn and the tool set. -/
abbrev PublicationScope : Type := Option (ℤ × ℤ) × ℤ × ℤ

structure ScopeKey where
  taskId : String
  researcherId : String
  researcherCoordinate : Option ResearcherCoordinate
  assistantTurnIndex : ℤ
  toolsetOrdinal : ℕ
deriving DecidableEq, Repr

structure PageSelectionStrategy (δ : Type) where
  scope : PageScope
  digest : HCheckpoint → δ
  /-- The sixteen digits of a call id's hash. -/
  callIdDigest : String → String
  rawTextFor : String → String
  occurrenceFor : String → String
  contentHash : String → String
  /-- The chunks of a text, with its hash and occurrence, under the strategy's chunker and tokenizer. -/
  spansFromPage : String → String → String → List Span
  tokenCount : String → ℕ

structure PageState (δ : Type) where
  contexts : List Context
  publicationScopeDigests : Dict ScopeKey δ
  /-- The handle maps of all views so far. -/
  named : List (String × String)

/-- What prompt admission keeps of each group, and what the selector takes of it, if it answers. -/
structure Choices where
  admits : Stage → ℕ → String → Bool
  answers : Stage → ℕ → Option (String → Bool)

def maxPublicationHandleTokens : ℕ := 8

def PageState.start {δ : Type} (taskId researcherId : String) : PageState δ :=
  ⟨[⟨⟨taskId, researcherId, none⟩, Dict.empty⟩], Dict.empty, []⟩

section Strategy
variable {δ : Type} (s : PageSelectionStrategy δ)

/-! ## Child researchers -/

def childBinding (parent : RunBinding) (iteration ordinal : ℤ) (callId : String) : RunBinding where
  taskId := parent.taskId
  researcherId := s!"{parent.researcherId}/child-{iteration}-{ordinal}-{s.callIdDigest callId}"
  researcherCoordinate := some (iteration, ordinal, callId)

/-- The slot is the call's, and the child gets a context of its own. -/
def registerChild (context : ℕ) (parent : Context) (iteration ordinal : ℤ) (callId : String) :
    Script (PageState δ) PageError RunBinding := fun st =>
  let child := childBinding s parent.binding iteration ordinal callId
  let slots := parent.childCoordinates.set (parent.binding.researcherId, iteration, ordinal) callId
  (.ok child, { st with contexts := st.contexts.set context ⟨parent.binding, slots⟩ ++ [⟨child, Dict.empty⟩] })

/-- `invoke_child_researcher`, up to the coroutine: the child's context is bound when it starts. -/
def invokeChildResearcher (context : ℕ) (iteration ordinal : ℤ) (callId : String) :
    Script (PageState δ) PageError RunBinding := do
  let st ← getStore
  match st.contexts[context]? with
  | none => raise .noParentRun
  | some parent =>
    if iteration < 0 ∨ ordinal < 0 ∨ callId = "" then raise (.childCoordinate iteration ordinal callId)
    else
      let slot := (parent.binding.researcherId, iteration, ordinal)
      match parent.childCoordinates.get? slot with
      | none => registerChild s context parent iteration ordinal callId
      | some previous =>
        if previous = callId then registerChild s context parent iteration ordinal callId
        else raise (.slotReused slot previous callId)

/-! ## One sibling of a batch -/

/-- `value or other` of an optional text. -/
def textOrElse (value : Option String) (other : String) : String :=
  match value with
  | none => other
  | some text => if text = "" then other else text

/-- The spans of one search result; a result without raw content has none. -/
def spansOf (result : VendorVisibleResult) : List Span :=
  match result.rawContentId with
  | none => []
  | some contentId =>
    let text := s.rawTextFor contentId
    s.spansFromPage text (s.contentHash text)
      (textOrElse result.sourceOccurrenceId (s.occurrenceFor contentId))

/-- `_groups_for`: the candidates of each selector call. -/
def groupsFor (results : List VendorVisibleResult) : List (List Span) :=
  let perSource := results.map (spansOf s)
  match s.scope with
  | .perToolCall | .wholeBatch => [perSource.flatten]
  | .perPage | .hierarchical => if perSource = [] then [[]] else perSource

/-- `if span_id not in ordinals: ordinals[span_id] = len(ordinals) + 1` -/
def allocate (ordinals : Dict String ℤ) (span : Span) : Dict String ℤ :=
  if span.spanId ∈ ordinals.keys then ordinals
  else ordinals.set span.spanId (ordinals.keys.length + 1)

def ordinalsOf (groups : List (List Span)) : Dict String ℤ := groups.flatten.foldl allocate Dict.empty

def scopeKey (checkpoint : HCheckpoint) (toolsetOrdinal : ℕ) : ScopeKey :=
  ⟨checkpoint.taskId, checkpoint.researcherId, checkpoint.researcherCoordinate,
    checkpoint.assistantTurnIndex, toolsetOrdinal⟩

def publicationScope (checkpoint : HCheckpoint) (toolsetOrdinal : ℕ) : PublicationScope :=
  (checkpoint.researcherCoordinate.map fun c => (c.1, c.2.1), checkpoint.assistantTurnIndex, toolsetOrdinal)

/-- `_bind_publication_scope`: the scope is bound to this checkpoint, and its spans are numbered. -/
def bindPublicationScope [DecidableEq δ] (checkpoint : HCheckpoint) (toolsetOrdinal : ℕ)
    (groups : List (List Span)) : Script (PageState δ) PageError (PublicationScope × Dict String ℤ) := do
  let st ← getStore
  let key := scopeKey checkpoint toolsetOrdinal
  let digest := s.digest checkpoint
  if (st.publicationScopeDigests.get? key).any fun previous => previous ≠ digest then
    raise .publicationScopeReuse
  else do
    setStore { st with publicationScopeDigests := st.publicationScopeDigests.set key digest }
    pure (publicationScope checkpoint toolsetOrdinal, ordinalsOf groups)

/-! ## The handles of a view -/

def structuralOf (scope : PublicationScope) : Except HandleError ℤ :=
  structuralOrdinal frozenRadices (scope.1.map fun c => (Arg.int c.1, Arg.int c.2))

/-- `compact_publication_handle` -/
def compactPublicationHandle (scope : PublicationScope) (evidenceOrdinal : ℤ) : Except HandleError String := do
  let structural ← structuralOf scope
  encode frozenRadices (.int structural) (.int scope.2.1) (.int scope.2.2) (.int evidenceOrdinal)

/-- One candidate of the view: its handle and its span. -/
def candidate (scope : PublicationScope) (ordinals : Dict String ℤ) (span : Span) :
    Except ViewError (String × String) :=
  match ordinals.get? span.spanId with
  | none => .error (.noOrdinal span.spanId)
  | some ordinal =>
    match compactPublicationHandle scope ordinal with
    | .error e => .error (.handleDomain e)
    | .ok handle =>
      let tokens := s.tokenCount s!"[{handle}]"
      if maxPublicationHandleTokens < tokens then .error (.handleCost handle tokens)
      else .ok (handle, span.spanId)

/-- `publication_handle_map` of a view; the scope is checked even when nothing is offered. -/
def publicationHandleMap (scope : PublicationScope) (ordinals : Dict String ℤ) (spans : List Span) :
    Except ViewError (List (String × String)) := do
  (compactPublicationHandle scope 1).mapError .handleDomain >>= fun _ => pure ()
  if ∃ n ∈ ordinals.values, n ≤ 0 then .error .ordinalsNotPositive
  else if ¬ ordinals.values.Nodup then .error .ordinalsCollide
  else spans.mapM (candidate s scope ordinals)

/-- `_select_group`: what is selected of the group, or nothing when the selection failed. -/
def selectGroup (choices : Choices) (stage : Stage) (scope : PublicationScope) (ordinals : Dict String ℤ)
    (group : List Span × ℕ) : Script (PageState δ) PageError (Option (List (String × String))) :=
  if group.1 = [] then pure (some [])
  else do
    let offered := group.1.filter fun span => choices.admits stage group.2 span.spanId
    match publicationHandleMap s scope ordinals offered with
    | .error (.handleDomain e) => raise (.handleDomain e)
    | .error _ => pure none
    | .ok handleMap => do
      let st ← getStore
      setStore { st with named := st.named ++ handleMap }
      pure ((choices.answers stage group.2).map fun selects => handleMap.filter fun e => selects e.2)

/-- The outcomes of all groups, unless one of them failed. -/
def allSelected (outcomes : List (Option (List (String × String)))) :
    Script (PageState δ) PageError (List (String × String)) :=
  match outcomes.mapM id with
  | some published => pure published.flatten
  | none => raise .selectionFailed

/-- `_transform_one_tool_call`: the handles the sibling publishes. -/
def transformOneToolCall [DecidableEq δ] (choices : Choices) (checkpoint : HCheckpoint)
    (toolsetOrdinal : ℕ) (results : List VendorVisibleResult) :
    Script (PageState δ) PageError (List (String × String)) := do
  let groups := groupsFor s results
  let (scope, ordinals) ← bindPublicationScope s checkpoint toolsetOrdinal groups
  match s.scope with
  | .hierarchical => do
    let selectable := groups.filter fun group => group ≠ []
    let shortlist ← allSelected (← forEach (selectGroup s choices .local scope ordinals) selectable.zipIdx)
    let union := selectable.flatten.filter fun span => span.spanId ∈ shortlist.map Prod.snd
    allSelected (← forEach (selectGroup s choices .global scope ordinals) [(union, 0)])
  | _ => allSelected (← forEach (selectGroup s choices .single scope ordinals) groups.zipIdx)

/-- One of the siblings that `transform_tool_batch` starts together. -/
def reduceSibling [DecidableEq δ] (context : ℕ) (turn : ℤ)
    (searchResultSets : List (String × List VendorVisibleResult)) (envelope : String)
    (toolsetOrdinal : ℕ) (choices : Choices) : Script (PageState δ) PageError (List (String × String)) := do
  let st ← getStore
  match st.contexts[context]?, searchResultSets[toolsetOrdinal]? with
  | some bound, some sibling =>
    if s.scope = .wholeBatch ∧ searchResultSets.length ≠ 1 then
      raise (.wholeBatchMultiSibling searchResultSets.length)
    else
      let checkpoint : HCheckpoint :=
        ⟨bound.binding.taskId, bound.binding.researcherId, turn, searchResultSets,
          bound.binding.researcherCoordinate, envelope⟩
      transformOneToolCall s choices checkpoint toolsetOrdinal sibling.2
  | none, _ => raise .noParentRun
  | _, none => raise (.noSuchSibling toolsetOrdinal)

/-! ## Runs -/

/-- What happens next in the run: the siblings of all batches, of all researchers, in any order. -/
inductive Event
  | invoke (context : ℕ) (iteration ordinal : ℤ) (callId : String)
  | reduce (context : ℕ) (turn : ℤ) (searchResultSets : List (String × List VendorVisibleResult))
      (envelope : String) (toolsetOrdinal : ℕ) (choices : Choices)

def step [DecidableEq δ] (st : PageState δ) : Event → PageState δ
  | .invoke context iteration ordinal callId =>
    (invokeChildResearcher s context iteration ordinal callId).after st
  | .reduce context turn searchResultSets envelope toolsetOrdinal choices =>
    (reduceSibling s context turn searchResultSets envelope toolsetOrdinal choices).after st

/-- No handle is the name of two spans. -/
def Unambiguous (named : List (String × String)) : Prop :=
  ∀ a ∈ named, ∀ b ∈ named, a.1 = b.1 → a.2 = b.2

instance (named : List (String × String)) : Decidable (Unambiguous named) :=
  List.decidableBAll _ named

end Strategy
end Shapeflow.PageH
