import Shapeflow.Fallible
import Shapeflow.Preflight

set_option autoImplicit false

/-!
# When preflight returns

Two checks look up what an earlier one may have found missing: the reconstruction
of a registered span subscripts its fields, and the novelty of a bridge is judged
on the bytes of evidence that is published but need not be registered. Whenever
preflight returns, it fails closed.
-/
namespace Shapeflow.P1
open Fallible

/-! ## What the checks read -/

/-- The fields `_raw_source_error` subscripts on the way it takes. -/
def RawReadable (view : CandidateViewRecord) (span : Span) : Prop :=
  ∃ contentHash, span.contentHash = some contentHash ∧
    ∀ text, view.snapshotTexts.get? contentHash = some text →
      ∃ start stop, span.charStart = some start ∧ span.charEnd = some stop ∧
        (0 ≤ start ∧ start ≤ stop ∧ stop ≤ text.length → span.textSha256.isSome)

/-- The fields `_visible_message_error` subscripts on the way it takes. -/
def VisibleReadable (view : CandidateViewRecord) (span : Span) : Prop :=
  ∃ viewHash, span.visibleCompressorViewHash = some viewHash ∧
    ∀ bytes, view.visibleViews.get? viewHash = some bytes →
      ∃ start stop, span.byteStart = some start ∧ span.byteEnd = some stop ∧
        (0 ≤ start ∧ start ≤ stop ∧ stop ≤ bytes.size → span.exactTextSha256.isSome)

def Readable (view : CandidateViewRecord) (span : Span) : Prop :=
  (span.spanNamespace = some "RAW_SOURCE" → RawReadable view span) ∧
    (span.spanNamespace = some "VISIBLE_MESSAGE" → VisibleReadable view span)

/-- Registered, under the id of an offered candidate. -/
def Citable (view : CandidateViewRecord) (spanId : String) : Prop :=
  ∃ span, view.registry.get? spanId = some span ∧ span.id ∈ view.candidates.map (·.spanId)

/-- Every published span that is registered can be read, and every bridge whose evidence is all
published cites only what can be resolved. -/
structure Checkable (view : CandidateViewRecord) (aggregated : AggregatedEvidence) : Prop where
  spans : ∀ item ∈ aggregated.items, ∀ span, view.registry.get? item.spanId = some span → Readable view span
  bridges : ∀ bridge ∈ aggregated.bridges, Supported (aggregated.items.map (·.spanId)) bridge →
    ∀ spanId ∈ bridge.evidenceSpanIds, Citable view spanId

/-! ## Lookups -/

theorem subscript_ok {α : Type} {key : String} {field : Option α} {value : α} :
    subscript key field = .ok value ↔ field = some value := by
  cases field with
  | none => simp [subscript]
  | some v => simp [subscript]

theorem returns_subscript {α : Type} {key : String} {field : Option α} :
    Returns (subscript key field) ↔ field.isSome := by
  cases field with
  | none => simp [subscript]
  | some v => simp [subscript]

theorem returns_rawSourceError {digests : Digests} {view : CandidateViewRecord} {span : Span} :
    Returns (rawSourceError digests view.snapshotTexts span) ↔ RawReadable view span := by
  simp only [rawSourceError, RawReadable, returns_bind, subscript_ok]
  refine exists_congr fun contentHash => and_congr_right fun _ => ?_
  cases view.snapshotTexts.get? contentHash with
  | none => simp
  | some text =>
    simp only [Option.some.injEq, forall_eq', returns_bind, subscript_ok, exists_and_left]
    refine exists_congr fun start => and_congr_right fun _ => exists_congr fun stop => and_congr_right fun _ => ?_
    by_cases hbounds : 0 ≤ start ∧ start ≤ stop ∧ stop ≤ text.length
    · rw [if_pos hbounds, returns_bind]
      simp [subscript_ok, hbounds, Option.isSome_iff_exists]
    · simp [if_neg hbounds, hbounds]

theorem returns_visibleMessageError {digests : Digests} {view : CandidateViewRecord} {span : Span} :
    Returns (visibleMessageError digests view.visibleViews span) ↔ VisibleReadable view span := by
  simp only [visibleMessageError, VisibleReadable, returns_bind, subscript_ok]
  refine exists_congr fun viewHash => and_congr_right fun _ => ?_
  cases view.visibleViews.get? viewHash with
  | none => simp
  | some bytes =>
    simp only [Option.some.injEq, forall_eq', returns_bind, subscript_ok, exists_and_left]
    refine exists_congr fun start => and_congr_right fun _ => exists_congr fun stop => and_congr_right fun _ => ?_
    by_cases hbounds : 0 ≤ start ∧ start ≤ stop ∧ stop ≤ bytes.size
    · rw [if_pos hbounds, returns_bind]
      simp [subscript_ok, hbounds, Option.isSome_iff_exists]
    · simp [if_neg hbounds, hbounds]

theorem returns_reconstructionError {digests : Digests} {view : CandidateViewRecord} {span : Span} :
    Returns (reconstructionError digests view span) ↔ Readable view span := by
  unfold reconstructionError Readable
  by_cases hraw : span.spanNamespace = some "RAW_SOURCE"
  · rw [if_pos hraw, returns_rawSourceError]
    simp [hraw]
  · rw [if_neg hraw]
    by_cases hvisible : span.spanNamespace = some "VISIBLE_MESSAGE"
    · rw [if_pos hvisible, returns_visibleMessageError]
      simp [hvisible]
    · simp [hraw, hvisible]

theorem returns_candidateFor {view : CandidateViewRecord} {spanId : String} :
    Returns (view.candidateFor spanId) ↔ spanId ∈ view.candidates.map (·.spanId) := by
  rw [CandidateViewRecord.candidateFor, returns_subscript, Option.isSome_iff_exists, ← Dict.mem_keys_iff,
    CandidateViewRecord.byId, Dict.mem_keys_ofPairs, List.map_map]
  rfl

theorem returns_citedText {view : CandidateViewRecord} {spanId : String} :
    Returns (citedText view spanId) ↔ Citable view spanId := by
  have hmap : ∀ x : Except Raised OfferedCandidate, Returns (x.map (·.text)) ↔ Returns x := by
    intro x
    cases x with
    | error e => simp [Except.map]
    | ok c => simp [Except.map]
  simp only [citedText, Citable, returns_bind, subscript_ok, CandidateViewRecord.textFor, hmap,
    returns_candidateFor]

theorem returns_bridgeErrors {classes : TextClasses} {view : CandidateViewRecord} {keptIds : List String}
    {bridge : ParsedBridge} :
    Returns (bridgeErrors classes view keptIds bridge) ↔
      (Supported keptIds bridge → ∀ spanId ∈ bridge.evidenceSpanIds, Citable view spanId) := by
  have hdangling : bridge.evidenceSpanIds.filter (· ∉ keptIds) = [] ↔ Supported keptIds bridge := by
    simp [Supported, List.filter_eq_nil_iff]
  unfold bridgeErrors
  by_cases hsupported : Supported keptIds bridge
  · rw [if_neg (not_not.mpr (hdangling.mpr hsupported)), returns_bind]
    simp only [returns_pure, and_true, forall_const, hsupported]
    exact returns_mapM.trans (forall₂_congr fun _ _ => returns_citedText)
  · rw [if_pos (mt hdangling.mp hsupported)]
    simp [hsupported]

/-! ## Preflight -/

section
variable (digests : Digests) (classes : TextClasses) (selection : ParsedSelection) (aggregated : AggregatedEvidence)
  (view : CandidateViewRecord) (knownOccurrenceIds : List String) (config : PreflightConfig)

theorem returns_reconstructionErrors :
    Returns (reconstructionErrors digests view (publishedSpans view aggregated)) ↔
      ∀ item ∈ aggregated.items, ∀ span, view.registry.get? item.spanId = some span → Readable view span := by
  rw [reconstructionErrors, returns_bind]
  simp only [returns_pure, and_true]
  refine returns_mapM.trans ?_
  simp only [returns_reconstructionError, publishedSpans, List.mem_filterMap, forall_exists_index, and_imp]
  exact ⟨fun h item hitem span hspan => h span item hitem hspan, fun h span item hitem hspan => h item hitem span hspan⟩

theorem returns_integrityErrors :
    Returns (integrityErrors digests classes selection aggregated view knownOccurrenceIds config) ↔
      Checkable view aggregated := by
  have hbridges : Returns (aggregated.bridges.mapM
      (bridgeErrors classes view (aggregated.items.map (·.spanId)))) ↔
        ∀ bridge ∈ aggregated.bridges, Supported (aggregated.items.map (·.spanId)) bridge →
          ∀ spanId ∈ bridge.evidenceSpanIds, Citable view spanId :=
    returns_mapM.trans (forall₂_congr fun _ _ => returns_bridgeErrors)
  simp only [integrityErrors, returns_bind, returns_pure, and_true]
  constructor
  · rintro ⟨_, hspans, hrest⟩
    exact ⟨(returns_reconstructionErrors digests aggregated view).mp ⟨_, hspans⟩, hbridges.mp hrest⟩
  · rintro ⟨hspans, hrest⟩
    obtain ⟨errors, herrors⟩ := (returns_reconstructionErrors digests aggregated view).mpr hspans
    exact ⟨errors, herrors, hbridges.mpr hrest⟩

/-- No render beside an error; without one, the view's own render within the budget. -/
structure FailClosed (view : CandidateViewRecord) (aggregated : AggregatedEvidence) (config : PreflightConfig)
    (result : PreflightResult) : Prop where
  rejected : result.errors ≠ [] → result.rendered = none
  accepted : result.errors = [] → ∃ rendered, view.render aggregated = .ok rendered ∧
    result.rendered = some rendered ∧ rendered.tokenCount ≤ config.selectedTokenBudget

/-- A render without errors is the view's, within the budget. -/
theorem guardedRender_clean {errors : List PreflightError}
    (herrors : errors = []) (hclean : (guardedRender view aggregated config errors).1 = []) :
    ∃ rendered, view.render aggregated = .ok rendered ∧
      (guardedRender view aggregated config errors).2 = some rendered ∧
        rendered.tokenCount ≤ config.selectedTokenBudget := by
  subst herrors
  simp only [guardedRender, ne_eq, not_true_eq_false, if_false] at hclean ⊢
  cases hrender : view.render aggregated with
  | error raised => simp [hrender] at hclean
  | ok rendered =>
    simp only [hrender] at hclean ⊢
    refine ⟨rendered, rfl, rfl, ?_⟩
    by_contra hover
    simp [lt_of_not_ge hover] at hclean

theorem preflight_failClosed {result : PreflightResult}
    (h : preflight digests classes selection aggregated view knownOccurrenceIds config = .ok result) :
    FailClosed view aggregated config result := by
  obtain ⟨integrity, _, h⟩ := bind_ok.mp h
  cases h
  constructor
  · intro herrors
    simp only
    rw [if_pos herrors]
  · intro herrors
    simp only at herrors ⊢
    rw [if_neg (not_not.mpr herrors)]
    simp only [List.append_eq_nil_iff] at herrors
    exact guardedRender_clean aggregated view config herrors.1.1 herrors.1.2

end

theorem preflight_failClosed_iff (digests : Digests) (classes : TextClasses) (selection : ParsedSelection)
    (aggregated : AggregatedEvidence) (view : CandidateViewRecord) (knownOccurrenceIds : List String)
    (config : PreflightConfig) :
    (∃ result, preflight digests classes selection aggregated view knownOccurrenceIds config = .ok result ∧
        FailClosed view aggregated config result) ↔
      Checkable view aggregated := by
  rw [← returns_integrityErrors digests classes selection aggregated view knownOccurrenceIds config]
  constructor
  · rintro ⟨result, h, -⟩
    obtain ⟨integrity, hintegrity, -⟩ := bind_ok.mp h
    exact ⟨integrity, hintegrity⟩
  · rintro ⟨integrity, hintegrity⟩
    have hreturns : Returns (preflight digests classes selection aggregated view knownOccurrenceIds config) :=
      returns_bind.mpr ⟨integrity, hintegrity, returns_pure _⟩
    obtain ⟨result, h⟩ := hreturns
    exact ⟨result, h, preflight_failClosed digests classes selection aggregated view knownOccurrenceIds config h⟩

/-- A view as its construction leaves it: each candidate registered, under its own id, with the
fields its namespace requires. -/
structure Built (view : CandidateViewRecord) : Prop where
  own : ∀ e ∈ view.registry.entries, e.2.id = e.1
  offered : ∀ spanId ∈ view.registry.keys, spanId ∈ view.candidates.map (·.spanId)
  raw : ∀ e ∈ view.registry.entries, e.2.spanNamespace = some "RAW_SOURCE" →
    e.2.contentHash.isSome ∧ e.2.charStart.isSome ∧ e.2.charEnd.isSome ∧ e.2.textSha256.isSome
  visible : ∀ e ∈ view.registry.entries, e.2.spanNamespace = some "VISIBLE_MESSAGE" →
    e.2.visibleCompressorViewHash.isSome ∧ e.2.byteStart.isSome ∧ e.2.byteEnd.isSome ∧ e.2.exactTextSha256.isSome

theorem Built.readable {view : CandidateViewRecord} (h : Built view) {spanId : String} {span : Span}
    (hspan : view.registry.get? spanId = some span) : Readable view span := by
  have hmem := Dict.mem_of_get? hspan
  constructor
  · intro hraw
    obtain ⟨hhash, hstart, hstop, hsha⟩ := h.raw _ hmem hraw
    obtain ⟨contentHash, hhash⟩ := Option.isSome_iff_exists.mp hhash
    obtain ⟨start, hstart⟩ := Option.isSome_iff_exists.mp hstart
    obtain ⟨stop, hstop⟩ := Option.isSome_iff_exists.mp hstop
    exact ⟨contentHash, hhash, fun _ _ => ⟨start, stop, hstart, hstop, fun _ => hsha⟩⟩
  · intro hvisible
    obtain ⟨hhash, hstart, hstop, hsha⟩ := h.visible _ hmem hvisible
    obtain ⟨viewHash, hhash⟩ := Option.isSome_iff_exists.mp hhash
    obtain ⟨start, hstart⟩ := Option.isSome_iff_exists.mp hstart
    obtain ⟨stop, hstop⟩ := Option.isSome_iff_exists.mp hstop
    exact ⟨viewHash, hhash, fun _ _ => ⟨start, stop, hstart, hstop, fun _ => hsha⟩⟩

theorem Built.citable_iff {view : CandidateViewRecord} (h : Built view) {spanId : String} :
    Citable view spanId ↔ spanId ∈ view.registry.keys := by
  rw [Dict.mem_keys_iff]
  constructor
  · rintro ⟨span, hspan, -⟩
    exact ⟨span, hspan⟩
  · rintro ⟨span, hspan⟩
    refine ⟨span, hspan, ?_⟩
    have hid : span.id = spanId := h.own _ (Dict.mem_of_get? hspan)
    rw [hid]
    exact h.offered spanId (Dict.mem_keys_iff.mpr ⟨span, hspan⟩)

/-- Over a view as built, only a bridge on published but unregistered evidence is looked up in vain. -/
theorem Built.checkable_iff {view : CandidateViewRecord} (h : Built view) (aggregated : AggregatedEvidence) :
    Checkable view aggregated ↔
      ∀ bridge ∈ aggregated.bridges, Supported (aggregated.items.map (·.spanId)) bridge →
        ∀ spanId ∈ bridge.evidenceSpanIds, spanId ∈ view.registry.keys := by
  simp only [← h.citable_iff]
  exact ⟨fun hc => hc.bridges, fun hb => ⟨fun _ _ _ hspan => h.readable hspan, hb⟩⟩

/-! ## An unregistered span under a bridge -/

def emptyView : CandidateViewRecord where
  spanNamespace := "RAW_SOURCE"
  candidates := []
  registry := Dict.empty
  countTokens _ := 0
  queryStatus := Dict.empty
  sourceMeta := Dict.empty
  sourceMetaSha256 := ""
  visibleViews := Dict.empty
  snapshotTexts := Dict.empty

/-- The published item is recorded as unregistered, then its text is asked for. -/
theorem bridge_unregistered :
    let bridge : ParsedBridge := ⟨"They agree.", ["x"]⟩
    preflight ⟨fun _ => "", fun _ => ""⟩ ⟨fun _ => false, fun _ => false⟩ ⟨"P1_BRIDGE", [⟨"x", []⟩], [], [bridge]⟩
      ⟨[⟨"x", []⟩], [], [bridge], [], []⟩ emptyView [] ⟨512, some 64, some 64, none, none⟩ =
        .error (.keyError "x") := by
  rfl

end Shapeflow.P1
