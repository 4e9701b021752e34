import Mathlib.Algebra.BigOperators.Group.List.Basic
import Mathlib.Algebra.Order.BigOperators.Group.List
import Mathlib.Data.List.MinMax
import Shapeflow.Fallible
import Shapeflow.PromptPack

set_option autoImplicit false

/-!
# What an admitted prompt holds

The running total is the tokens of what was admitted, the floor is admitted before
the first look at the budget, and the fill takes nothing that does not fit. The
floor is refused for what its best-ranked spans cost, not for what a source could
cost at least.
-/
namespace Shapeflow.P1

/-! ## Sources -/

section
variable {spans : List Span} {score : ℕ → ℕ}

/-- The indices offered by a source, in offered order. -/
def offeredBy (spans : List Span) (key : String) : List ℕ := ((bySource spans).get? key).getD []

theorem offeredBy_eq (spans : List Span) (key : String) :
    offeredBy spans key = Dict.under ((spans.map sourceKey).zipIdx) key := by
  rw [offeredBy, bySource, Dict.get?_collect]
  split
  · rfl
  · rename_i hkey
    rw [Option.getD_none, eq_comm, List.eq_nil_iff_forall_not_mem]
    intro i hi
    exact hkey (List.mem_map.mpr ⟨_, Dict.mem_under.mp hi, rfl⟩)

theorem sourceAt_eq {i : ℕ} (h : i < spans.length) : (spans.map sourceKey)[i]? = some (sourceAt spans i) := by
  rw [List.getElem?_map, sourceAt, List.getElem?_eq_getElem h]
  rfl

theorem mem_offeredBy {key : String} {i : ℕ} :
    i ∈ offeredBy spans key ↔ i < spans.length ∧ sourceAt spans i = key := by
  rw [offeredBy_eq, Dict.mem_under, List.mk_mem_zipIdx_iff_getElem?]
  constructor
  · intro h
    have hlt : i < spans.length := by
      have := (List.getElem?_eq_some_iff.mp h).1
      simpa using this
    rw [sourceAt_eq hlt] at h
    exact ⟨hlt, Option.some.inj h⟩
  · rintro ⟨hlt, rfl⟩
    exact sourceAt_eq hlt

theorem nodup_offeredBy (spans : List Span) (key : String) : (offeredBy spans key).Nodup := by
  rw [offeredBy_eq, Dict.under]
  refine List.Nodup.sublist (List.Sublist.map _ List.filter_sublist) ?_
  rw [List.zipIdx_map_snd]
  exact List.nodup_range'

theorem perm_rankedAt (spans : List Span) (score : ℕ → ℕ) (key : String) :
    (rankedAt spans score key).Perm (offeredBy spans key) := List.perm_insertionSort _ _

theorem mem_rankedAt {key : String} {i : ℕ} :
    i ∈ rankedAt spans score key ↔ i < spans.length ∧ sourceAt spans i = key := by
  rw [(perm_rankedAt spans score key).mem_iff, mem_offeredBy]

theorem nodup_rankedAt (spans : List Span) (score : ℕ → ℕ) (key : String) : (rankedAt spans score key).Nodup :=
  (perm_rankedAt spans score key).nodup_iff.mpr (nodup_offeredBy spans key)

theorem perm_sourcesInOrder (spans : List Span) : (sourcesInOrder spans).Perm (spans.map sourceKey).dedup := by
  refine (List.perm_insertionSort _ _).trans ?_
  refine (List.perm_ext_iff_of_nodup (bySource spans).keys_nodup (List.nodup_dedup _)).mpr fun key => ?_
  rw [List.mem_dedup, Dict.mem_keys_iff]
  have hkeys : ((spans.map sourceKey).zipIdx).map Prod.fst = spans.map sourceKey := List.zipIdx_map_fst 0 _
  simp only [bySource, Dict.get?_collect, hkeys]
  constructor
  · rintro ⟨indices, h⟩
    split at h
    · assumption
    · cases h
  · intro h
    exact ⟨_, if_pos h⟩

theorem nodup_sourcesInOrder (spans : List Span) : (sourcesInOrder spans).Nodup :=
  (perm_sourcesInOrder spans).nodup_iff.mpr (List.nodup_dedup _)

theorem mem_sourcesInOrder {key : String} : key ∈ sourcesInOrder spans ↔ key ∈ spans.map sourceKey := by
  rw [(perm_sourcesInOrder spans).mem_iff, List.mem_dedup]

theorem upTo_sublist {α : Type} (xs : List α) (m : ℤ) : (upTo xs m).Sublist xs := List.take_sublist _ _

theorem mem_floorIndices {minPerSource : ℤ} {i : ℕ} (h : i ∈ floorIndices spans score minPerSource) :
    i < spans.length := by
  obtain ⟨key, -, hi⟩ := List.mem_flatMap.mp h
  exact (mem_rankedAt.mp ((upTo_sublist _ _).subset hi)).1

/-- The floors of two sources share no span. -/
theorem nodup_floorIndices (spans : List Span) (score : ℕ → ℕ) (minPerSource : ℤ) :
    (floorIndices spans score minPerSource).Nodup := by
  rw [floorIndices, List.nodup_flatMap]
  constructor
  · intro key _
    exact (nodup_rankedAt spans score key).sublist (upTo_sublist _ _)
  · refine (nodup_sourcesInOrder spans).imp fun hne i hi hj => hne ?_
    rw [← (mem_rankedAt.mp ((upTo_sublist _ _).subset hi)).2, (mem_rankedAt.mp ((upTo_sublist _ _).subset hj)).2]

end

/-! ## The running total -/

/-- What an admission keeps to: spans of the offer, each once, paid for. -/
structure Admission.Sound (count : ℕ) (tokens : ℕ → ℤ) (a : Admission) : Prop where
  once : a.admitted.Nodup
  offered : ∀ i ∈ a.admitted, i < count
  paid : a.spent = (a.admitted.map tokens).sum

section
variable {count : ℕ} {tokens : ℕ → ℤ} {budget : ℤ}

theorem Admission.Sound.add {a : Admission} (h : a.Sound count tokens) {index : ℕ} (hnew : index ∉ a.admitted)
    (hindex : index < count) : (a.add tokens index).Sound count tokens ∧
      (a.add tokens index).admitted = a.admitted ++ [index] := by
  have hadmitted : (a.add tokens index).admitted = a.admitted ++ [index] := if_neg hnew
  refine ⟨⟨?_, ?_, ?_⟩, hadmitted⟩
  · rw [hadmitted]
    refine List.nodup_append.mpr ⟨h.once, List.nodup_singleton index, ?_⟩
    rintro i hi j hj rfl
    exact hnew (List.mem_singleton.mp hj ▸ hi)
  · rw [hadmitted]
    simpa [or_imp, forall_and] using ⟨h.offered, hindex⟩
  · rw [hadmitted, List.map_append, List.sum_append, ← h.paid]
    simp [Admission.add]

/-- Admitting new spans in turn appends them. -/
theorem Admission.Sound.admitAll {a : Admission} (h : a.Sound count tokens) {indices : List ℕ}
    (hnew : (a.admitted ++ indices).Nodup) (hindices : ∀ i ∈ indices, i < count) :
    (indices.foldl (Admission.add tokens) a).Sound count tokens ∧
      (indices.foldl (Admission.add tokens) a).admitted = a.admitted ++ indices := by
  induction indices generalizing a with
  | nil => exact ⟨h, (List.append_nil _).symm⟩
  | cons index indices ih =>
    obtain ⟨hindex, hindices⟩ := List.forall_mem_cons.mp hindices
    have hfresh : index ∉ a.admitted := by
      intro hmem
      exact (List.nodup_append.mp hnew).2.2 index hmem index List.mem_cons_self rfl
    obtain ⟨hstep, hadmitted⟩ := h.add hfresh hindex
    have hrest : ((a.add tokens index).admitted ++ indices).Nodup := by
      rw [hadmitted, List.append_assoc]
      exact hnew
    obtain ⟨hsound, hall⟩ := ih hstep hrest hindices
    refine ⟨hsound, ?_⟩
    rw [List.foldl_cons, hall, hadmitted, List.append_assoc]
    rfl

/-- One slot of the fill keeps the running total within the budget and admits at most one span more. -/
theorem fillStep_sound {spans : List Span} {score : ℕ → ℕ} {slot : ℤ × String} {a b : Admission}
    (h : a.Sound spans.length tokens) (hbudget : a.spent ≤ budget)
    (hstep : fillStep spans score tokens budget a slot = .ok b) :
    b.Sound spans.length tokens ∧ b.spent ≤ budget ∧ ∀ i ∈ a.admitted, i ∈ b.admitted := by
  unfold fillStep at hstep
  simp only at hstep
  split at hstep
  · cases hstep
    exact ⟨h, hbudget, fun _ hi => hi⟩
  · split at hstep
    · cases hstep
    · rename_i index hindex
      split at hstep
      · cases hstep
        exact ⟨h, hbudget, fun _ hi => hi⟩
      · rename_i hfits
        cases hstep
        rw [not_or, not_lt] at hfits
        have hmem : index ∈ rankedAt spans score slot.2 := by
          unfold itemAt? at hindex
          split_ifs at hindex
          · exact List.mem_of_getElem? hindex
          · exact List.mem_of_getElem? hindex
        obtain ⟨hsound, hadmitted⟩ := h.add hfits.1 (mem_rankedAt.mp hmem).1
        refine ⟨hsound, hfits.2, fun i hi => ?_⟩
        rw [hadmitted]
        exact List.mem_append_left _ hi

theorem fill_sound {spans : List Span} {score : ℕ → ℕ} (slots : List (ℤ × String)) {a b : Admission}
    (h : a.Sound spans.length tokens) (hbudget : a.spent ≤ budget)
    (hfill : slots.foldlM (fillStep spans score tokens budget) a = .ok b) :
    b.Sound spans.length tokens ∧ b.spent ≤ budget ∧ ∀ i ∈ a.admitted, i ∈ b.admitted := by
  induction slots generalizing a with
  | nil =>
    cases hfill
    exact ⟨h, hbudget, fun _ hi => hi⟩
  | cons slot slots ih =>
    obtain ⟨c, hstep, hrest⟩ := Fallible.bind_ok.mp hfill
    obtain ⟨hc, hcbudget, hac⟩ := fillStep_sound h hbudget hstep
    obtain ⟨hb, hbbudget, hcb⟩ := ih hc hcbudget hrest
    exact ⟨hb, hbbudget, fun i hi => hcb i (hac i hi)⟩

/-- A fill only fails by an index out of range. -/
theorem fill_error {spans : List Span} {score : ℕ → ℕ} (slots : List (ℤ × String)) {a : Admission} {e : PackError}
    (hfill : slots.foldlM (fillStep spans score tokens budget) a = .error e) : e = .indexError := by
  induction slots generalizing a with
  | nil => cases hfill
  | cons slot slots ih =>
    obtain hstep | ⟨c, -, hrest⟩ := Fallible.bind_error.mp hfill
    · unfold fillStep at hstep
      simp only at hstep
      split at hstep
      · cases hstep
      · split at hstep
        · cases hstep
          rfl
        · split at hstep <;> cases hstep
    · exact ih hrest

end

/-! ## The floor -/

section
variable {spans : List Span} {score : ℕ → ℕ} {tokens : ℕ → ℤ} {minPerSource : ℤ}

theorem floor_sound (spans : List Span) (score : ℕ → ℕ) (tokens : ℕ → ℤ) (minPerSource : ℤ) :
    let floor := (floorIndices spans score minPerSource).foldl (Admission.add tokens) ⟨[], 0⟩
    floor.Sound spans.length tokens ∧ floor.admitted = floorIndices spans score minPerSource := by
  have hnothing : (⟨[], 0⟩ : Admission).Sound spans.length tokens := ⟨List.nodup_nil, by simp, rfl⟩
  exact hnothing.admitAll (nodup_floorIndices spans score minPerSource) fun i hi => mem_floorIndices hi

theorem count_source (key : String) : (spans.map sourceKey).count key = (offeredBy spans key).length := by
  have hkeys : ((spans.map sourceKey).zipIdx).map Prod.fst = spans.map sourceKey := List.zipIdx_map_fst 0 _
  rw [offeredBy_eq, Dict.under, List.length_map, ← List.countP_eq_length_filter]
  conv_lhs => rw [← hkeys]
  rw [List.count, List.countP_map]
  rfl

/-- The floor of a source is as long as it offers spans, up to the minimum. -/
theorem length_upTo_rankedAt (score : ℕ → ℕ) (minPerSource : ℤ) (key : String) :
    min minPerSource ((spans.map sourceKey).count key) ≤ ((upTo (rankedAt spans score key) minPerSource).length : ℤ) := by
  rw [count_source, ← (perm_rankedAt spans score key).length_eq, upTo, List.length_take]
  split <;> omega

/-- Everything admitted of a source that the floor admitted. -/
theorem floor_le_count {kept : List ℕ} (hkept : ∀ i ∈ floorIndices spans score minPerSource, i ∈ kept) {key : String}
    (hkey : key ∈ spans.map sourceKey) :
    min minPerSource ((spans.map sourceKey).count key) ≤ ((kept.map (sourceAt spans)).count key : ℤ) := by
  have hsub : (upTo (rankedAt spans score key) minPerSource).Subperm (kept.filter (sourceAt spans · = key)) := by
    refine List.subperm_of_subset ((nodup_rankedAt spans score key).sublist (upTo_sublist _ _)) fun i hi => ?_
    have hranked := mem_rankedAt.mp ((upTo_sublist _ _).subset hi)
    rw [List.mem_filter, decide_eq_true_eq]
    exact ⟨hkept i (List.mem_flatMap.mpr ⟨key, mem_sourcesInOrder.mpr hkey, hi⟩), hranked.2⟩
  have hcount : (kept.map (sourceAt spans)).count key = (kept.filter (sourceAt spans · = key)).length := by
    rw [List.count, List.countP_map, List.countP_eq_length_filter]
    rfl
  have hlength := @length_upTo_rankedAt spans score minPerSource key
  rw [hcount]
  exact hlength.trans (by exact_mod_cast hsub.length_le)

end

/-! ## The result -/

/-- Kept and dropped indices, and what the result reports of them. -/
structure PromptPackResult.Reports (spans : List Span) (tokenCounts : List ℤ) (budget minPerSource : ℤ)
    (result : PromptPackResult) (kept dropped : List ℕ) : Prop where
  keptInOrder : kept.Sublist (List.range spans.length)
  droppedInOrder : dropped.Sublist (List.range spans.length)
  parted : (kept ++ dropped).Perm (List.range spans.length)
  spanIds : result.spanIds = kept.map (spanIdAt spans)
  droppedSpanIds : result.droppedSpanIds = dropped.map (spanIdAt spans)
  tokens : result.admittedTokens = (kept.map (tokensOf tokenCounts)).sum
  within : result.admittedTokens ≤ budget
  floor : ∀ key ∈ spans.map sourceKey,
    min minPerSource ((spans.map sourceKey).count key) ≤ ((kept.map (sourceAt spans)).count key : ℤ)
  admittedCounts : result.perSourceAdmitted = counts (kept.map (sourceAt spans))
  offeredCounts : result.perSourceOffered = counts (spans.map sourceKey)
  accounting : result.accounting = ⟨budget, (kept.map (tokensOf tokenCounts)).sum, tokenCounts.sum, kept.length,
    dropped.length, (spans.map sourceKey).dedup.length, (kept.map (sourceAt spans)).dedup.length, dropped ≠ []⟩

theorem sorted_eq_filter {count : ℕ} {admitted : List ℕ} (hnodup : admitted.Nodup) (hoffered : ∀ i ∈ admitted, i < count) :
    admitted.insertionSort (· ≤ ·) = (List.range count).filter (· ∈ admitted) := by
  refine List.Perm.eq_of_pairwise (fun _ _ _ _ => le_antisymm) (List.pairwise_insertionSort _ admitted) ?_ ?_
  · exact (List.pairwise_le_range).sublist List.filter_sublist
  · refine (List.perm_insertionSort _ admitted).trans ?_
    refine (List.perm_ext_iff_of_nodup hnodup (List.nodup_range.filter _)).mpr fun i => ?_
    rw [List.mem_filter, List.mem_range, decide_eq_true_eq]
    exact ⟨fun hi => ⟨hoffered i hi, hi⟩, fun hi => hi.2⟩

theorem length_counts (keys : List String) : (counts keys).length = keys.dedup.length := by
  rw [counts, List.length_map, List.length_insertionSort]

/-- No key is counted zero times. -/
theorem filter_counts (keys : List String) : (counts keys).filter (fun e => e.2 ≠ 0) = counts keys := by
  rw [List.filter_eq_self]
  intro e he
  obtain ⟨key, hkey, rfl⟩ := List.mem_map.mp he
  rw [List.mem_insertionSort, List.mem_dedup] at hkey
  simpa using Nat.ne_of_gt (List.count_pos_iff.mpr hkey)

theorem promptPackV1_reports {spans : List Span} {texts : List String} {tokenCounts : List ℤ} {budget : ℤ}
    {topic : String} {minPerSource : ℤ} {result : PromptPackResult}
    (h : promptPackV1 spans texts tokenCounts budget topic minPerSource = .ok result) :
    ∃ kept dropped, result.Reports spans tokenCounts budget minPerSource kept dropped := by
  unfold promptPackV1 at h
  split_ifs at h with hbudget hparallel
  simp only at h
  split_ifs at h with hover
  obtain ⟨full, hfull, h⟩ := Fallible.bind_ok.mp h
  cases h
  obtain ⟨hfloor, hadmitted⟩ := floor_sound spans (scoreOf texts topic) (tokensOf tokenCounts) minPerSource
  obtain ⟨hsound, hwithin, hkept⟩ := fill_sound _ hfloor (not_lt.mp hover) hfull
  rw [hadmitted] at hkept
  have hsorted := sorted_eq_filter hsound.once hsound.offered
  have hspent : full.spent = ((full.admitted.insertionSort (· ≤ ·)).map (tokensOf tokenCounts)).sum := by
    rw [hsound.paid]
    exact ((List.perm_insertionSort _ full.admitted).map _).sum_eq.symm
  refine ⟨full.admitted.insertionSort (· ≤ ·), (List.range spans.length).filter (· ∉ full.admitted), ?_⟩
  refine ⟨?_, List.filter_sublist, ?_, rfl, rfl, hspent, hwithin, ?_, rfl, rfl, ?_⟩
  · rw [hsorted]
    exact List.filter_sublist
  · rw [hsorted]
    simpa only [decide_not] using List.filter_append_perm (fun i => decide (i ∈ full.admitted)) (List.range spans.length)
  · intro key hkey
    refine @floor_le_count spans (scoreOf texts topic) _ _ (fun i hi => ?_) _ hkey
    exact (List.mem_insertionSort _).mpr (hkept i hi)
  · simp only [PromptPackResult.accounting, packResult, filter_counts, length_counts, List.length_map, ← hspent]
    simp

theorem promptPackV1_reports_twoPages :
    ∃ result kept dropped, promptPackV1 [{ spanId := some "s1", contentHash := some "p1" },
        { spanId := some "s2", contentHash := some "p2" }, { spanId := some "s3", contentHash := some "p1" }]
        ["topic", "other", "topic topic"] [4, 2, 3] 6 "topic" 1 = .ok result ∧
      result.Reports [{ spanId := some "s1", contentHash := some "p1" },
        { spanId := some "s2", contentHash := some "p2" }, { spanId := some "s3", contentHash := some "p1" }]
        [4, 2, 3] 6 1 kept dropped := by
  obtain ⟨kept, dropped, hreports⟩ := @promptPackV1_reports [{ spanId := some "s1", contentHash := some "p1" },
    { spanId := some "s2", contentHash := some "p2" }, { spanId := some "s3", contentHash := some "p1" }]
    ["topic", "other", "topic topic"] [4, 2, 3] 6 "topic" 1 _ rfl
  exact ⟨_, kept, dropped, rfl, hreports⟩

/-! ## What is refused -/

/-- A candidate with its text and what it costs. -/
structure Candidate where
  span : Span
  text : String
  tokens : ℤ

section
variable (candidates : List Candidate) (topic : String)

def candidateSpans : List Span := candidates.map (·.span)

def candidateTokens (i : ℕ) : ℤ := tokensOf (candidates.map (·.tokens)) i

/-- One span of every offered source. -/
def Choice (pick : String → ℕ) : Prop :=
  ∀ key ∈ (candidateSpans candidates).map sourceKey, pick key ∈ offeredBy (candidateSpans candidates) key

/-- What a choice costs, source by source. -/
def choiceCost (pick : String → ℕ) : ℤ :=
  ((sourcesInOrder (candidateSpans candidates)).map fun key => candidateTokens candidates (pick key)).sum

/-- The best-ranked span of a source. -/
def bestOf (key : String) : ℕ :=
  (rankedAt (candidateSpans candidates) (scoreOf (candidates.map (·.text)) topic) key).headD 0

/-- A span of a source that costs least. -/
def cheapestOf (key : String) : ℕ :=
  (@List.argmin ℕ ℤ Int.instLinearOrder.toPreorder Int.decLt (candidateTokens candidates)
    (offeredBy (candidateSpans candidates) key)).getD 0

variable {candidates topic}

theorem offeredBy_ne_nil {key : String} (h : key ∈ (candidateSpans candidates).map sourceKey) :
    offeredBy (candidateSpans candidates) key ≠ [] := by
  have hpos := List.count_pos_iff.mpr h
  rw [count_source] at hpos
  exact List.ne_nil_of_length_pos hpos

theorem rankedAt_ne_nil {key : String} (h : key ∈ (candidateSpans candidates).map sourceKey) :
    rankedAt (candidateSpans candidates) (scoreOf (candidates.map (·.text)) topic) key ≠ [] := by
  intro hnil
  have hperm := perm_rankedAt (candidateSpans candidates) (scoreOf (candidates.map (·.text)) topic) key
  rw [hnil] at hperm
  exact offeredBy_ne_nil h hperm.nil_eq.symm

theorem bestOf_choice : Choice candidates (bestOf candidates topic) := by
  intro key hkey
  rw [← (perm_rankedAt (candidateSpans candidates) (scoreOf (candidates.map (·.text)) topic) key).mem_iff, bestOf]
  cases hranked : rankedAt (candidateSpans candidates) (scoreOf (candidates.map (·.text)) topic) key with
  | nil => exact absurd hranked (rankedAt_ne_nil hkey)
  | cons i rest => exact List.mem_cons_self

theorem cheapestOf_choice : Choice candidates (cheapestOf candidates) := by
  intro key hkey
  cases hmin : (offeredBy (candidateSpans candidates) key).argmin (candidateTokens candidates) with
  | none => exact absurd (List.argmin_eq_none.mp hmin) (offeredBy_ne_nil hkey)
  | some i =>
    rw [cheapestOf, hmin]
    exact List.argmin_mem hmin

theorem cheapestOf_le {pick : String → ℕ} (h : Choice candidates pick) :
    choiceCost candidates (cheapestOf candidates) ≤ choiceCost candidates pick := by
  refine List.sum_le_sum fun key hkey => ?_
  have hpick := h key (mem_sourcesInOrder.mp hkey)
  cases hmin : (offeredBy (candidateSpans candidates) key).argmin (candidateTokens candidates) with
  | none => exact absurd (List.argmin_eq_none.mp hmin) (List.ne_nil_of_mem hpick)
  | some i =>
    rw [cheapestOf, hmin]
    exact List.le_of_mem_argmin hpick hmin

theorem floorIndices_one (keys : List String) (h : ∀ key ∈ keys, key ∈ (candidateSpans candidates).map sourceKey) :
    (keys.flatMap fun key => upTo (rankedAt (candidateSpans candidates)
      (scoreOf (candidates.map (·.text)) topic) key) 1) = keys.map (bestOf candidates topic) := by
  induction keys with
  | nil => rfl
  | cons key keys ih =>
    obtain ⟨hkey, hkeys⟩ := List.forall_mem_cons.mp h
    rw [List.flatMap_cons, ih hkeys, List.map_cons, bestOf]
    cases hranked : rankedAt (candidateSpans candidates) (scoreOf (candidates.map (·.text)) topic) key with
    | nil => exact absurd hranked (rankedAt_ne_nil hkey)
    | cons i rest => rfl

/-- The floor of one span a source costs what the best-ranked spans cost. -/
theorem floor_cost (candidates : List Candidate) (topic : String) :
    ((floorIndices (candidateSpans candidates) (scoreOf (candidates.map (·.text)) topic) 1).foldl
      (Admission.add (candidateTokens candidates)) ⟨[], 0⟩).spent =
        choiceCost candidates (bestOf candidates topic) := by
  obtain ⟨hsound, hadmitted⟩ := floor_sound (candidateSpans candidates) (scoreOf (candidates.map (·.text)) topic)
    (candidateTokens candidates) 1
  rw [hsound.paid, hadmitted, floorIndices, floorIndices_one _ fun key hkey => mem_sourcesInOrder.mp hkey,
    List.map_map]
  rfl

theorem unsatisfiable_iff {budget : ℤ} (hbudget : 0 < budget) :
    (∃ e, promptPackV1 (candidateSpans candidates) (candidates.map (·.text)) (candidates.map (·.tokens)) budget topic 1 =
        .error e ∧ e.unsatisfiable = true) ↔ budget < choiceCost candidates (bestOf candidates topic) := by
  have hparallel : (candidateSpans candidates).length = (candidates.map (·.text)).length ∧
      (candidates.map (·.text)).length = (candidates.map (·.tokens)).length := by simp [candidateSpans]
  have hcost := floor_cost candidates topic
  unfold promptPackV1
  rw [if_neg (not_le.mpr hbudget), if_neg (not_not.mpr hparallel)]
  simp only
  change (∃ e, (if budget < ((floorIndices (candidateSpans candidates) (scoreOf (candidates.map (·.text)) topic) 1).foldl
      (Admission.add (candidateTokens candidates)) ⟨[], 0⟩).spent then _ else _) = Except.error e ∧ _) ↔ _
  rw [hcost]
  split
  · rename_i hover
    exact ⟨fun _ => hover, fun _ => ⟨_, rfl, rfl⟩⟩
  · rename_i hfits
    refine ⟨?_, fun h => absurd h hfits⟩
    rintro ⟨e, herror, hunsatisfiable⟩
    obtain hfill | ⟨full, -, hresult⟩ := Fallible.bind_error.mp herror
    · rw [fill_error _ hfill] at hunsatisfiable
      cases hunsatisfiable
    · cases hresult

theorem choice_iff {budget : ℤ} :
    (∃ pick, Choice candidates pick ∧ choiceCost candidates pick ≤ budget) ↔
      choiceCost candidates (cheapestOf candidates) ≤ budget := by
  constructor
  · rintro ⟨pick, hpick, hcost⟩
    exact (cheapestOf_le hpick).trans hcost
  · intro hcost
    exact ⟨_, cheapestOf_choice, hcost⟩

end

/-- The refusal says what it means where the best-ranked spans fit, or not even the cheapest do. -/
theorem promptPackV1_refuses_iff (candidates : List Candidate) (topic : String) (budget : ℤ) (hbudget : 0 < budget) :
    ((∃ e, promptPackV1 (candidateSpans candidates) (candidates.map (·.text)) (candidates.map (·.tokens)) budget topic
          1 = .error e ∧ e.unsatisfiable = true) ↔
        ¬ ∃ pick, Choice candidates pick ∧ choiceCost candidates pick ≤ budget) ↔
      choiceCost candidates (bestOf candidates topic) ≤ budget ∨
        budget < choiceCost candidates (cheapestOf candidates) := by
  rw [unsatisfiable_iff hbudget, choice_iff]
  have hcheapest := cheapestOf_le (@bestOf_choice candidates topic)
  constructor
  · intro h
    by_cases hbest : budget < choiceCost candidates (bestOf candidates topic)
    · exact .inr (not_le.mp (h.mp hbest))
    · exact .inl (not_lt.mp hbest)
  · rintro (hbest | hcheap)
    · exact iff_of_false (not_lt.mpr hbest) (not_not.mpr (hcheapest.trans hbest))
    · exact iff_of_true (hcheap.trans_le hcheapest) (not_le.mpr hcheap)

/-- One page with a long span that names the topic and a short one that does not. -/
def longPage : List Candidate :=
  [⟨{ spanId := some "s1", contentHash := some "page" }, "topic", 9⟩,
    ⟨{ spanId := some "s2", contentHash := some "page" }, "other", 1⟩]

theorem promptPackV1_refuses_iff_longPage :
    ((∃ e, promptPackV1 (candidateSpans longPage) (longPage.map (·.text)) (longPage.map (·.tokens)) 10 "topic" 1 =
        .error e ∧ e.unsatisfiable = true) ↔
      ¬ ∃ pick, Choice longPage pick ∧ choiceCost longPage pick ≤ 10) :=
  (promptPackV1_refuses_iff longPage "topic" 10 (by decide)).mpr (.inl (by decide))

/-- The short span fits a budget of five, and the page is refused for the long one. -/
theorem longPage_refused :
    (promptPackV1 (candidateSpans longPage) (longPage.map (·.text)) (longPage.map (·.tokens)) 5 "topic" 1 =
        .error (.floorOverruns 9 5 1)) ∧
      ∃ pick, Choice longPage pick ∧ choiceCost longPage pick ≤ 5 := by
  refine ⟨by rfl, choice_iff.mpr ?_⟩
  decide

end Shapeflow.P1
