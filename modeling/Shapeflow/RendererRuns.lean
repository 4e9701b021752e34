import Mathlib.Data.List.Chain
import Shapeflow.Fallible
import Shapeflow.Renderer

set_option autoImplicit false

/-!
# What stands under a header

A run is shown under one header, taken from its first item. Whether that header suits
every item is decided where two neighbours are joined: one source, and no more than
two positions between them.
-/
namespace Shapeflow.P1
open Fallible

variable {inputs : RenderInputs} {evidence : AggregatedEvidence} {result : RenderResult}

/-- An item under a header that suits it: a source header of its own source where it is shown with a citation
label, a context header where it is not. -/
structure Stands (inputs : RenderInputs) (first p : Placed) : Prop where
  cited : isNonCitableContext p.span = false →
    (∃ title, runHeader inputs.sourceMeta first = "SOURCE: " ++ title) ∧
      sourceIdentity inputs.sourceMeta p = sourceIdentity inputs.sourceMeta first
  context : isNonCitableContext p.span = true → ∃ kind ∈ contextKinds, runHeader inputs.sourceMeta first = contextHeader kind

/-- All of a run can be cited, or none of it. -/
def Unmixed (run : List Placed) : Prop :=
  ∀ p ∈ run, ∀ q ∈ run, isNonCitableContext p.span = isNonCitableContext q.span

/-- A rendered text is made of the runs of the items, and in each run every item stands under a header that suits it. -/
def Homogeneous (inputs : RenderInputs) (evidence : AggregatedEvidence) (result : RenderResult) : Prop :=
  ∃ placed lines tail, canonicalOrder inputs.registry evidence.items = .ok placed ∧
    (contiguousRuns inputs.sourceMeta placed).mapM (runLines inputs) = .ok lines ∧
    result.text = "\n".intercalate (lines.flatten ++ tail) ∧
    ∀ run ∈ contiguousRuns inputs.sourceMeta placed, Unmixed run ∧ ∀ first ∈ run.head?, ∀ p ∈ run, Stands inputs first p

/-- No context item abuts a citable item of one source. -/
def NeverAbut (inputs : RenderInputs) (evidence : AggregatedEvidence) : Prop :=
  ∀ placed, canonicalOrder inputs.registry evidence.items = .ok placed → placed.IsChain fun p q =>
    adjacent inputs.sourceMeta p q = true → isNonCitableContext p.span = isNonCitableContext q.span

/-- Neighbours agree on a value exactly when all do. -/
theorem isChain_eq_iff {α β : Type} {f : α → β} {xs : List α} :
    (xs.IsChain fun x y => f x = f y) ↔ ∀ x ∈ xs, ∀ y ∈ xs, f x = f y := by
  induction xs with
  | nil => simp
  | cons x xs ih =>
    cases xs with
    | nil => simp
    | cons y ys =>
      rw [List.isChain_cons_cons, ih]
      constructor
      · rintro ⟨hxy, hrest⟩
        have hy : ∀ z ∈ y :: ys, f x = f z := fun z hz => hxy.trans (hrest y List.mem_cons_self z hz)
        intro a ha b hb
        obtain rfl | ha' := List.mem_cons.mp ha
        · obtain rfl | hb' := List.mem_cons.mp hb
          · rfl
          · exact hy b hb'
        · obtain rfl | hb' := List.mem_cons.mp hb
          · exact (hy a ha').symm
          · exact hrest a ha' b hb'
      · intro h
        refine ⟨h x List.mem_cons_self y (by simp), fun a ha b hb => ?_⟩
        exact h a (List.mem_cons_of_mem _ ha) b (List.mem_cons_of_mem _ hb)

/-- A run holds items of one source. -/
theorem sourceIdentity_of_run {sourceMeta : Dict String SourceMeta} {placed run : List Placed}
    (hrun : run ∈ contiguousRuns sourceMeta placed) {p q : Placed} (hp : p ∈ run) (hq : q ∈ run) :
    sourceIdentity sourceMeta p = sourceIdentity sourceMeta q := by
  have hchain : run.IsChain fun x y => sourceIdentity sourceMeta x = sourceIdentity sourceMeta y := by
    refine (List.isChain_of_mem_splitBy hrun).imp fun x y hadjacent => ?_
    exact (of_decide_eq_true hadjacent).1
  exact isChain_eq_iff.mp hchain p hp q hq

theorem runHeader_context {sourceMeta : Dict String SourceMeta} {first : Placed}
    (h : isNonCitableContext first.span = true) :
    ∃ kind ∈ contextKinds, runHeader sourceMeta first = contextHeader kind := by
  refine ⟨first.span.kind.getD "", (of_decide_eq_true h).2, ?_⟩
  rw [runHeader, if_pos h]

theorem runHeader_source {sourceMeta : Dict String SourceMeta} {first : Placed}
    (h : isNonCitableContext first.span = false) : ∃ title, runHeader sourceMeta first = "SOURCE: " ++ title := by
  refine ⟨titleUrl sourceMeta first.id, ?_⟩
  rw [runHeader, h]
  rfl

/-- Every run is unmixed exactly when no neighbours that differ are joined. -/
theorem runs_unmixed_iff (sourceMeta : Dict String SourceMeta) (placed : List Placed) :
    (∀ run ∈ contiguousRuns sourceMeta placed, Unmixed run) ↔ placed.IsChain fun p q =>
      adjacent sourceMeta p q = true → isNonCitableContext p.span = isNonCitableContext q.span := by
  have hflatten : (contiguousRuns sourceMeta placed).flatten = placed := List.flatten_splitBy _ placed
  have hnil : [] ∉ contiguousRuns sourceMeta placed := List.nil_notMem_splitBy _ placed
  conv_rhs => rw [← hflatten, List.isChain_flatten hnil]
  constructor
  · intro h
    constructor
    · intro run hrun
      exact (isChain_eq_iff.mpr (h run hrun)).imp fun p q heq _ => heq
    · refine (List.isChain_getLast_head_splitBy (adjacent sourceMeta) placed).imp fun run next hboundary => ?_
      obtain ⟨hrun, hnext, hapart⟩ := hboundary
      intro p hp q hq hadjacent
      rw [List.getLast?_eq_getLast_of_ne_nil hrun] at hp
      rw [List.head?_eq_some_head hnext] at hq
      cases hp
      cases hq
      rw [hapart] at hadjacent
      cases hadjacent
  · rintro ⟨hruns, -⟩ run hrun
    have hjoined := List.isChain_of_mem_splitBy hrun
    have hsame := hruns run hrun
    rw [List.isChain_iff_forall_rel_of_append_cons_cons] at hjoined hsame
    refine isChain_eq_iff.mp (List.isChain_iff_forall_rel_of_append_cons_cons.mpr ?_)
    intro p q before after hrunEq
    exact hsame hrunEq (hjoined hrunEq)

theorem runs_stand {placed run : List Placed} (hrun : run ∈ contiguousRuns inputs.sourceMeta placed)
    (hunmixed : Unmixed run) {first p : Placed} (hfirst : first ∈ run.head?) (hp : p ∈ run) :
    Stands inputs first p := by
  have hmem : first ∈ run := List.mem_of_head? hfirst
  have hkind := hunmixed p hp first hmem
  refine ⟨fun hcited => ⟨runHeader_source (hkind ▸ hcited), sourceIdentity_of_run hrun hp hmem⟩, fun hcontext => ?_⟩
  exact runHeader_context (hkind ▸ hcontext)

/-- The preamble of a tool message, and a title-only source block right behind it: neither has metadata. -/
def titleOnlyInputs : RenderInputs where
  registry := Dict.ofPairs [
    ("preamble", { spanNamespace := some "VISIBLE_MESSAGE", visibleSpanId := some "preamble", messageId := some "m0",
                   byteStart := some 7, byteEnd := some 16, kind := some "TOOL_UNATTRIBUTED_CONTEXT" }),
    ("block", { spanNamespace := some "VISIBLE_MESSAGE", visibleSpanId := some "block", messageId := some "m0",
                byteStart := some 16, byteEnd := some 40, kind := some "TOOL_EVIDENCE" })]
  sourceTextFor _ := .ok "text"
  labelFor spanId := .ok spanId
  resolvedContextFor _ := .ok []
  resolvedHeadingsFor _ := .ok []
  countTokens := String.length
  sourceMeta := Dict.empty
  visibleViews := Dict.empty
  queryStatus := Dict.empty

def titleOnlyEvidence : AggregatedEvidence := ⟨[⟨"preamble", []⟩, ⟨"block", []⟩], [], [], [], []⟩

end Shapeflow.P1
