import Shapeflow.Fallible
import Shapeflow.HandleCodecBijection
import Shapeflow.PageSelection

set_option autoImplicit false

/-!
# Publication handles over a run

A handle gives back the position of the researcher, the turn, the tool set and
the number of the span. When only the run's own researcher invokes children, the
position gives back the researcher, and the scope digests give back the
checkpoint whose spans were numbered.
-/
namespace Shapeflow.PageH
open Script HandleCodec

/-! ## The numbers of the spans -/

/-- Numbers from 1 to the count of keys, all different. -/
structure Numbered (ordinals : Dict String ℤ) : Prop where
  range : ∀ k n, ordinals.get? k = some n → n ≤ ordinals.keys.length
  distinct : ∀ k j n, ordinals.get? k = some n → ordinals.get? j = some n → k = j

theorem numbered_empty : Numbered Dict.empty := by
  constructor
  · intro k n h
    cases h
  · intro k j n h
    cases h

theorem Numbered.allocate {ordinals : Dict String ℤ} (h : Numbered ordinals) (span : Span) :
    Numbered (allocate ordinals span) := by
  unfold PageH.allocate
  split
  · exact h
  · rename_i hnew
    have hkeys : (ordinals.set span.spanId (ordinals.keys.length + 1)).keys.length =
        ordinals.keys.length + 1 := by
      rw [Dict.keys_set, if_neg hnew, List.length_append, List.length_singleton]
    have hread : ∀ k n, (ordinals.set span.spanId (ordinals.keys.length + 1)).get? k = some n →
        (k = span.spanId ∧ n = ordinals.keys.length + 1) ∨
          ordinals.get? k = some n ∧ n ≤ ordinals.keys.length := by
      intro k n hk
      rw [Dict.get?_set] at hk
      split at hk
      · rename_i he
        exact .inl ⟨he, (Option.some.inj hk).symm⟩
      · exact .inr ⟨hk, h.range k n hk⟩
    constructor
    · intro k n hk
      rw [hkeys]
      rcases hread k n hk with ⟨-, hn⟩ | ⟨-, hn⟩
      · omega
      · omega
    · intro k j n hk hj
      rcases hread k n hk with ⟨rfl, hn⟩ | ⟨hk', hn⟩
      · rcases hread j n hj with ⟨rfl, -⟩ | ⟨-, hn'⟩
        · rfl
        · omega
      · rcases hread j n hj with ⟨rfl, hn'⟩ | ⟨hj', -⟩
        · omega
        · exact h.distinct k j n hk' hj'

theorem ordinalsOf_numbered (groups : List (List Span)) : Numbered (ordinalsOf groups) := by
  have hfold : ∀ (spans : List Span) (ordinals : Dict String ℤ), Numbered ordinals →
      Numbered (spans.foldl allocate ordinals) := by
    intro spans
    induction spans with
    | nil => exact fun _ h => h
    | cons span spans ih => exact fun ordinals h => ih _ (h.allocate span)
  exact hfold _ _ numbered_empty

/-! ## The scope of a handle -/

theorem compactPublicationHandle_injective {scope scope' : PublicationScope} {n n' : ℤ} {h : String}
    (henc : compactPublicationHandle scope n = .ok h) (henc' : compactPublicationHandle scope' n' = .ok h) :
    scope = scope' ∧ n = n' := by
  obtain ⟨c, hc, henc⟩ := Fallible.bind_ok.mp henc
  obtain ⟨c', hc', henc'⟩ := Fallible.bind_ok.mp henc'
  obtain ⟨x, hx, hs, ha, ht, he⟩ := decode_encode henc
  obtain ⟨x', hx', hs', ha', ht', he'⟩ := decode_encode henc'
  rw [hx] at hx'
  obtain rfl := Except.ok.inj hx'
  obtain rfl : c = c' := (Arg.int.inj hs).trans (Arg.int.inj hs').symm
  have hposition : scope.1 = scope'.1 := by
    have hinj : Function.Injective fun c : ℤ × ℤ => (Arg.int c.1, Arg.int c.2) := by
      intro a b hab
      exact Prod.ext (Arg.int.inj (Prod.mk.inj hab).1) (Arg.int.inj (Prod.mk.inj hab).2)
    exact Option.map_injective hinj (structuralOrdinal_injective hc hc')
  have hturn : scope.2.1 = scope'.2.1 := (Arg.int.inj ha).trans (Arg.int.inj ha').symm
  have htoolset : scope.2.2 = scope'.2.2 := (Arg.int.inj ht).trans (Arg.int.inj ht').symm
  exact ⟨Prod.ext hposition (Prod.ext hturn htoolset), (Arg.int.inj he).trans (Arg.int.inj he').symm⟩

section Runs
variable {δ : Type} {s : PageSelectionStrategy δ}

/-! ## What one sibling names -/

/-- The handle is that of the span's number in the scope. -/
def Numbers (scope : PublicationScope) (ordinals : Dict String ℤ) (e : String × String) : Prop :=
  ∃ n, compactPublicationHandle scope n = .ok e.1 ∧ ordinals.get? e.2 = some n

theorem candidate_ok {scope : PublicationScope} {ordinals : Dict String ℤ} {span : Span} {e : String × String}
    (h : candidate s scope ordinals span = .ok e) : Numbers scope ordinals e := by
  unfold candidate at h
  split at h
  · cases h
  rename_i n hn
  split at h
  · cases h
  rename_i handle hhandle
  dsimp only at h
  split at h
  · cases h
  · cases h
    exact ⟨n, hhandle, hn⟩

theorem publicationHandleMap_ok {scope : PublicationScope} {ordinals : Dict String ℤ} {spans : List Span}
    {handleMap : List (String × String)} (h : publicationHandleMap s scope ordinals spans = .ok handleMap) :
    ∀ e ∈ handleMap, Numbers scope ordinals e := by
  obtain ⟨_, -, h⟩ := Fallible.bind_ok.mp h
  split at h
  · cases h
  split at h
  · cases h
  intro e he
  have hmap := Fallible.mapM_ok.mp h
  have hmem : Except.ok e ∈ spans.map (candidate s scope ordinals) := by
    rw [hmap]
    exact List.mem_map_of_mem he
  obtain ⟨span, -, hspan⟩ := List.mem_map.mp hmem
  exact candidate_ok hspan

/-- Nothing but the handle maps changes, and what they gain meets `P`. -/
structure Grows (P : String × String → Prop) (st t : PageState δ) : Prop where
  contexts : t.contexts = st.contexts
  digests : t.publicationScopeDigests = st.publicationScopeDigests
  named : ∀ e ∈ t.named, e ∈ st.named ∨ P e

theorem Grows.refl {P : String × String → Prop} (st : PageState δ) : Grows P st st :=
  ⟨rfl, rfl, fun _ he => .inl he⟩

theorem Grows.trans {P : String × String → Prop} {st t u : PageState δ} (h : Grows P st t)
    (h' : Grows P t u) : Grows P st u := by
  refine ⟨h'.contexts.trans h.contexts, h'.digests.trans h.digests, ?_⟩
  intro e he
  cases h'.named e he with
  | inl hold => exact h.named e hold
  | inr hnew => exact .inr hnew

variable {choices : Choices} {scope : PublicationScope} {ordinals : Dict String ℤ}

theorem selectGroup_grows (stage : Stage) (group : List Span × ℕ) (st : PageState δ) :
    Grows (Numbers scope ordinals) st ((selectGroup s choices stage scope ordinals group).after st) := by
  unfold selectGroup
  split
  · exact .refl st
  · dsimp only
    split
    · exact .refl st
    · exact .refl st
    · rename_i handleMap hmap
      refine ⟨rfl, rfl, ?_⟩
      intro e he
      cases List.mem_append.mp he with
      | inl hold => exact .inl hold
      | inr hnew => exact .inr (publicationHandleMap_ok hmap e hnew)

theorem allSelected_after (outcomes : List (Option (List (String × String)))) (st : PageState δ) :
    (allSelected outcomes).after st = st := by
  unfold allSelected
  split
  · rfl
  · rfl

/-- The selection of some groups, and then `rest`. -/
theorem forEach_grows {β : Type} (stage : Stage) (groups : List (List Span × ℕ)) (st : PageState δ)
    {rest : List (Option (List (String × String))) → Script (PageState δ) PageError β}
    (hrest : ∀ outcomes t, Grows (Numbers scope ordinals) st t →
      Grows (Numbers scope ordinals) st ((rest outcomes).after t)) :
    Grows (Numbers scope ordinals) st
      ((forEach (selectGroup s choices stage scope ordinals) groups >>= rest).after st) := by
  have hloop : Grows (Numbers scope ordinals) st
      ((forEach (selectGroup s choices stage scope ordinals) groups).after st) := by
    apply after_forEach
    · intro group t ht
      exact ht.trans (selectGroup_grows stage group t)
    · exact .refl st
  apply after_bind
  · intro e t h
    exact after_of_error h ▸ hloop
  · intro outcomes t h
    exact hrest outcomes t (after_of_ok h ▸ hloop)

variable [DecidableEq δ]

/-- A scope once bound stays bound to its digest. -/
theorem bindPublicationScope_ok {checkpoint : HCheckpoint} {toolsetOrdinal : ℕ} {groups : List (List Span)}
    {st t : PageState δ} {bound : PublicationScope × Dict String ℤ}
    (h : bindPublicationScope s checkpoint toolsetOrdinal groups st = (.ok bound, t)) :
    bound = (publicationScope checkpoint toolsetOrdinal, ordinalsOf groups) ∧
      t.contexts = st.contexts ∧ t.named = st.named ∧
      t.publicationScopeDigests.get? (scopeKey checkpoint toolsetOrdinal) = some (s.digest checkpoint) ∧
      ∀ k d, st.publicationScopeDigests.get? k = some d → t.publicationScopeDigests.get? k = some d := by
  unfold bindPublicationScope at h
  rw [getStore_bind] at h
  split at h
  · simp at h
  rename_i hsame
  simp only [bind_run, setStore_run, pure_run, Prod.mk.injEq, Except.ok.injEq] at h
  obtain ⟨rfl, rfl⟩ := h
  refine ⟨rfl, rfl, rfl, Dict.get?_set_self _ _ _, ?_⟩
  intro k d hk
  rw [Dict.get?_set]
  split
  · rename_i he
    subst he
    have hd : d = s.digest checkpoint := by simpa [hk] using hsame
    rw [hd]
  · exact hk

theorem bindPublicationScope_error {checkpoint : HCheckpoint} {toolsetOrdinal : ℕ} {groups : List (List Span)}
    {st t : PageState δ} {e : PageError}
    (h : bindPublicationScope s checkpoint toolsetOrdinal groups st = (.error e, t)) : t = st := by
  unfold bindPublicationScope at h
  rw [getStore_bind] at h
  split at h
  · simp only [raise_run, Prod.mk.injEq] at h
    exact h.2.symm
  · simp [bind_run] at h

/-- What a sibling leaves behind: nothing new, or its scope bound to its checkpoint and handles for the
    numbers of its own spans. -/
theorem transformOneToolCall_after {checkpoint : HCheckpoint} {toolsetOrdinal : ℕ}
    {results : List VendorVisibleResult} {st : PageState δ} {P : PageState δ → Prop} (hsame : P st)
    (hbound : ∀ t u : PageState δ,
      t.contexts = st.contexts → t.named = st.named →
      t.publicationScopeDigests.get? (scopeKey checkpoint toolsetOrdinal) = some (s.digest checkpoint) →
      (∀ k d, st.publicationScopeDigests.get? k = some d → t.publicationScopeDigests.get? k = some d) →
      Grows (Numbers (publicationScope checkpoint toolsetOrdinal) (ordinalsOf (groupsFor s results))) t u →
      P u) :
    P ((transformOneToolCall s choices checkpoint toolsetOrdinal results).after st) := by
  unfold transformOneToolCall
  apply after_bind
  · intro e t h
    exact bindPublicationScope_error h ▸ hsame
  · intro bound t h
    obtain ⟨rfl, hcontexts, hnamed, hdigest, hkept⟩ := bindPublicationScope_ok h
    apply hbound t _ hcontexts hnamed hdigest hkept
    dsimp only
    split
    · -- the local passes, their shortlist, and the global pass over it
      apply forEach_grows
      intro outcomes u hu
      apply after_bind
      · intro e v hv
        rw [← after_of_error hv, allSelected_after]
        exact hu
      · intro shortlist v hv
        have huv : v = u := by rw [← after_of_ok hv, allSelected_after]
        rw [huv]
        apply hu.trans
        apply forEach_grows
        intro outcomes w hw
        rw [allSelected_after]
        exact hw
    · apply forEach_grows
      intro outcomes u hu
      rw [allSelected_after]
      exact hu

/-! ## Runs -/

/-- The slots of the run's own researcher. -/
def rootSlots (st : PageState δ) : Dict Slot String := (st.contexts.head?.map (·.childCoordinates)).getD Dict.empty

/-- The run's own researcher, or the child that holds one of its slots. -/
def Researcher (s : PageSelectionStrategy δ) (root : RunBinding) (st : PageState δ) (b : RunBinding) : Prop :=
  b = root ∨ ∃ i o callId, (rootSlots st).get? (root.researcherId, i, o) = some callId ∧
    b = childBinding s root i o callId

/-- The entry numbers a span of a sibling of a checkpoint that its scope is bound to. -/
def Sourced (s : PageSelectionStrategy δ) (root : RunBinding) (st : PageState δ) (e : String × String) : Prop :=
  ∃ (checkpoint : HCheckpoint) (toolsetOrdinal : ℕ) (sibling : String × List VendorVisibleResult),
    Researcher s root st ⟨checkpoint.taskId, checkpoint.researcherId, checkpoint.researcherCoordinate⟩ ∧
    checkpoint.searchResultSets[toolsetOrdinal]? = some sibling ∧
    st.publicationScopeDigests.get? (scopeKey checkpoint toolsetOrdinal) = some (s.digest checkpoint) ∧
    Numbers (publicationScope checkpoint toolsetOrdinal) (ordinalsOf (groupsFor s sibling.2)) e

structure Traced (s : PageSelectionStrategy δ) (root : RunBinding) (st : PageState δ) : Prop where
  head : ∃ slots rest, st.contexts = ⟨root, slots⟩ :: rest
  researchers : ∀ c ∈ st.contexts, Researcher s root st c.binding
  sourced : ∀ e ∈ st.named, Sourced s root st e

/-- Slots and scopes keep what they hold. -/
structure Keeps (st t : PageState δ) : Prop where
  slots : ∀ k v, (rootSlots st).get? k = some v → (rootSlots t).get? k = some v
  digests : ∀ k d, st.publicationScopeDigests.get? k = some d → t.publicationScopeDigests.get? k = some d

variable {root : RunBinding} {st t : PageState δ}

theorem Keeps.researcher (h : Keeps st t) {b : RunBinding} (hb : Researcher s root st b) :
    Researcher s root t b := by
  cases hb with
  | inl hroot => exact .inl hroot
  | inr hchild =>
    obtain ⟨i, o, callId, hslot, hb⟩ := hchild
    exact .inr ⟨i, o, callId, h.slots _ _ hslot, hb⟩

theorem Keeps.sourced (h : Keeps st t) {e : String × String} (he : Sourced s root st e) :
    Sourced s root t e := by
  obtain ⟨checkpoint, toolsetOrdinal, sibling, hresearcher, hsibling, hdigest, hnumbers⟩ := he
  exact ⟨checkpoint, toolsetOrdinal, sibling, h.researcher hresearcher, hsibling, h.digests _ _ hdigest, hnumbers⟩

theorem traced_start (taskId researcherId : String) :
    Traced s ⟨taskId, researcherId, none⟩ (PageState.start taskId researcherId) := by
  constructor
  · exact ⟨Dict.empty, [], rfl⟩
  · intro c hc
    rw [List.mem_singleton.mp hc]
    exact .inl rfl
  · intro e he
    cases he

/-- A reduction keeps the trace, in whichever context it runs. -/
theorem Traced.reduce (h : Traced s root st) (context : ℕ) (turn : ℤ)
    (searchResultSets : List (String × List VendorVisibleResult)) (envelope : String) (toolsetOrdinal : ℕ)
    (choices : Choices) :
    Traced s root
      ((reduceSibling s context turn searchResultSets envelope toolsetOrdinal choices).after st) := by
  unfold reduceSibling
  apply after_bind
  · intro e t hget
    cases hget
  intro st' t hget
  simp only [getStore_run, Prod.mk.injEq, Except.ok.injEq] at hget
  obtain ⟨rfl, rfl⟩ := hget
  split
  · rename_i bound sibling hbound hsibling
    have hresearcher := h.researchers bound (List.mem_of_getElem? hbound)
    split
    · exact h
    apply transformOneToolCall_after h
    intro t u hcontexts hnamed hdigest hkept hgrows
    have hkeeps : Keeps st u := by
      constructor
      · intro k v hk
        rw [rootSlots, hgrows.contexts, hcontexts]
        exact hk
      · intro k d hk
        rw [hgrows.digests]
        exact hkept k d hk
    constructor
    · rw [hgrows.contexts, hcontexts]
      exact h.head
    · intro c hc
      rw [hgrows.contexts, hcontexts] at hc
      exact hkeeps.researcher (h.researchers c hc)
    · intro e he
      cases hgrows.named e he with
      | inl hold => exact hkeeps.sourced (h.sourced e (hnamed ▸ hold))
      | inr hnew =>
        refine ⟨_, toolsetOrdinal, sibling, hkeeps.researcher hresearcher, hsibling, ?_, hnew⟩
        rw [hgrows.digests]
        exact hdigest
  · exact h
  · exact h

/-- The run's own researcher invokes a child: the slot is new, or the call's already. -/
theorem Traced.register (h : Traced s root st) {slots : Dict Slot String} {rest : List Context}
    (hcontexts : st.contexts = ⟨root, slots⟩ :: rest) {iteration ordinal : ℤ} {callId : String}
    (hfree : ∀ v, slots.get? (root.researcherId, iteration, ordinal) = some v → v = callId) :
    Traced s root ((registerChild s 0 ⟨root, slots⟩ iteration ordinal callId).after st) := by
  have hkeeps : Keeps st ((registerChild s 0 ⟨root, slots⟩ iteration ordinal callId).after st) := by
    constructor
    · intro k v hk
      simp only [rootSlots, hcontexts, List.head?_cons, Option.map_some, Option.getD_some] at hk
      simp only [registerChild, after, rootSlots, hcontexts, List.set_cons_zero, List.cons_append,
        List.head?_cons, Option.map_some, Option.getD_some, Dict.get?_set]
      split
      · rename_i he
        rw [hfree v (he ▸ hk)]
      · exact hk
    · exact fun k d hk => hk
  have hslot : (rootSlots ((registerChild s 0 ⟨root, slots⟩ iteration ordinal callId).after st)).get?
      (root.researcherId, iteration, ordinal) = some callId := by
    simp only [registerChild, after, rootSlots, hcontexts, List.set_cons_zero, List.cons_append,
      List.head?_cons, Option.map_some, Option.getD_some, Dict.get?_set_self]
  constructor
  · simp only [registerChild, after, hcontexts, List.set_cons_zero, List.cons_append]
    exact ⟨_, _, rfl⟩
  · intro c hc
    simp only [registerChild, after, hcontexts, List.set_cons_zero, List.cons_append, List.mem_cons,
      List.mem_append, List.not_mem_nil, or_false] at hc
    rcases hc with rfl | hold | rfl
    · exact .inl rfl
    · apply hkeeps.researcher (h.researchers c _)
      rw [hcontexts]
      exact List.mem_cons_of_mem _ hold
    · exact .inr ⟨iteration, ordinal, callId, hslot, rfl⟩
  · intro e he
    exact hkeeps.sourced (h.sourced e he)

theorem Traced.invoke (h : Traced s root st) (iteration ordinal : ℤ) (callId : String) :
    Traced s root ((invokeChildResearcher s 0 iteration ordinal callId).after st) := by
  obtain ⟨slots, rest, hcontexts⟩ := h.head
  have hparent : st.contexts[0]? = some ⟨root, slots⟩ := by
    rw [hcontexts]
    rfl
  unfold invokeChildResearcher
  apply after_bind
  · intro e t hget
    cases hget
  intro st' t hget
  simp only [getStore_run, Prod.mk.injEq, Except.ok.injEq] at hget
  obtain ⟨rfl, rfl⟩ := hget
  rw [hparent]
  dsimp only
  split
  · exact h
  split
  · rename_i hnone
    apply h.register hcontexts
    intro v hv
    rw [hnone] at hv
    cases hv
  · rename_i previous hprevious
    split
    · rename_i he
      apply h.register hcontexts
      intro v hv
      rw [hprevious] at hv
      exact (Option.some.inj hv) ▸ he
    · exact h

/-- Only the run's own researcher invokes children. -/
def Flat (_ : PageState δ) : Event → Prop
  | .invoke context _ _ _ => context = 0
  | .reduce _ _ _ _ _ _ => True

theorem Traced.step (h : Traced s root st) (event : Event) (hflat : Flat st event) :
    Traced s root (step s st event) := by
  cases event with
  | invoke context iteration ordinal callId =>
    have hroot : context = 0 := hflat
    subst hroot
    exact h.invoke iteration ordinal callId
  | reduce context turn searchResultSets envelope toolsetOrdinal choices =>
    exact h.reduce context turn searchResultSets envelope toolsetOrdinal choices

/-- Two researchers of the run at one position are one researcher. -/
theorem Researcher.eq_of_position {a b : RunBinding} (hroot : root.researcherCoordinate = none)
    (ha : Researcher s root st a) (hb : Researcher s root st b)
    (h : a.researcherCoordinate.map (fun c => (c.1, c.2.1)) =
      b.researcherCoordinate.map fun c => (c.1, c.2.1)) : a = b := by
  rcases ha with rfl | ⟨i, o, callId, hslot, rfl⟩
  · rcases hb with rfl | ⟨i, o, callId, -, rfl⟩
    · rfl
    · rw [hroot] at h
      cases h
  · rcases hb with rfl | ⟨j, p, callId', hslot', rfl⟩
    · rw [hroot] at h
      cases h
    · simp only [childBinding, Option.map_some, Option.some.injEq, Prod.mk.injEq] at h
      obtain ⟨rfl, rfl⟩ := h
      rw [hslot] at hslot'
      rw [Option.some.inj hslot']

theorem Traced.unambiguous (h : Traced s root st) (hroot : root.researcherCoordinate = none)
    (hdigest : ∀ a b, s.digest a = s.digest b → a = b) : Unambiguous st.named := by
  intro a ha b hb hhandle
  obtain ⟨c, i, sibling, hresearcher, hsibling, hbound, n, hn, hspan⟩ := h.sourced a ha
  obtain ⟨c', i', sibling', hresearcher', hsibling', hbound', n', hn', hspan'⟩ := h.sourced b hb
  rw [← hhandle] at hn'
  obtain ⟨hscope, rfl⟩ := compactPublicationHandle_injective hn hn'
  simp only [publicationScope, Prod.mk.injEq] at hscope
  obtain ⟨hposition, hturn, htoolset⟩ := hscope
  obtain rfl : i = i' := by omega
  have hsame := hresearcher.eq_of_position hroot hresearcher' hposition
  -- one scope key, hence one digest and one checkpoint
  have hkey : scopeKey c i = scopeKey c' i := by
    simp only [RunBinding.mk.injEq] at hsame
    simp only [scopeKey, hsame.1, hsame.2.1, hsame.2.2, hturn]
  rw [← hkey, hbound] at hbound'
  obtain rfl := hdigest c c' (Option.some.inj hbound')
  rw [hsibling] at hsibling'
  obtain rfl := Option.some.inj hsibling'
  exact (ordinalsOf_numbered _).distinct _ _ _ hspan hspan'

/-- In a run whose own researcher invokes all the children, no handle ever names two spans. -/
theorem handles_unambiguous (s : PageSelectionStrategy δ) (hdigest : ∀ a b, s.digest a = s.digest b → a = b)
    (taskId researcherId : String) (events : List Event)
    (hflat : Run.Allowed (step s) Flat (.start taskId researcherId) events) :
    Unambiguous (Run.run (step s) (.start taskId researcherId) events).named := by
  have htraced : Traced s ⟨taskId, researcherId, none⟩
      (Run.run (step s) (.start taskId researcherId) events) :=
    Run.invariant (fun _ event h hf => h.step event hf) (traced_start taskId researcherId) hflat
  exact htraced.unambiguous rfl hdigest

end Runs

/-! ## A child that invokes a child -/

/-- Pages of one span each, whole checkpoints for their digests, and a tokenizer that charges nothing. -/
def sampleStrategy : PageSelectionStrategy HCheckpoint where
  scope := .wholeBatch
  digest := id
  callIdDigest := id
  rawTextFor := id
  occurrenceFor := id
  contentHash := id
  spansFromPage := fun text _ occurrenceId => [⟨text, [occurrenceId]⟩]
  tokenCount := fun _ => 0

def everything : Choices := ⟨fun _ _ _ => true, fun _ _ => some fun _ => true⟩

/-- The first turn of a researcher, with one page. -/
def onePage (context : ℕ) (page : String) : Event :=
  .reduce context 0 [("search", [⟨0, "https://example.org", "title", "snippet", some page, none⟩])] ""
    0 everything

/-- Two children of the run's researcher read a page each, and the first is invoked once more. -/
def twoChildren : List Event :=
  [.invoke 0 0 0 "a", .invoke 0 0 1 "b", onePage 1 "p", onePage 2 "q", .invoke 0 0 0 "a", onePage 3 "p",
    onePage 3 "r"]

theorem handles_unambiguous_twoChildren :
    Unambiguous (Run.run (step sampleStrategy) (.start "task" "task:0") twoChildren).named :=
  handles_unambiguous sampleStrategy (fun _ _ h => h) "task" "task:0" twoChildren
    ⟨rfl, rfl, trivial, trivial, rfl, trivial, trivial, trivial⟩

/-- The second child is invoked by the first, and takes the first's position for its own. -/
def grandchild : List Event :=
  [.invoke 0 0 0 "a", .invoke 1 0 0 "b", onePage 1 "p", onePage 2 "q"]

theorem grandchild_reuses_handle :
    ¬ ∀ (s : PageSelectionStrategy HCheckpoint), (∀ a b, s.digest a = s.digest b → a = b) →
        ∀ (taskId researcherId : String) (events : List Event),
          Unambiguous (Run.run (step s) (.start taskId researcherId) events).named := by
  intro h
  have hrun := h sampleStrategy (fun _ _ he => he) "task" "task:0" grandchild
  revert hrun
  decide +kernel

end Shapeflow.PageH
