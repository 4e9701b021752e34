import Mathlib.Data.Finset.Card
import Shapeflow.SelectorOutput

set_option autoImplicit false

/-!
# What merging rows leaves

Each stage of the parser, on rows that resolve: which claims, gaps and bridges come out,
and how much its tally grows. A stage that merges keeps one entry for each key and
counts the rest.
-/
namespace Shapeflow.P1
open Fallible

/-! ## First occurrences -/

section
variable {α : Type} [DecidableEq α]

theorem firstSeen_append_singleton (xs : List α) (x : α) :
    firstSeen (xs ++ [x]) = if x ∈ firstSeen xs then firstSeen xs else firstSeen xs ++ [x] := by
  rw [firstSeen, List.foldl_append]
  rfl

@[simp] theorem mem_firstSeen {xs : List α} {x : α} : x ∈ firstSeen xs ↔ x ∈ xs := by
  induction xs using List.reverseRecOn with
  | nil => rfl
  | append_singleton xs y ih =>
    rw [firstSeen_append_singleton, List.mem_append, List.mem_singleton, ← ih]
    split
    · rename_i hy
      exact ⟨.inl, fun h => h.elim id fun heq => heq ▸ hy⟩
    · rw [List.mem_append, List.mem_singleton]

theorem nodup_firstSeen (xs : List α) : (firstSeen xs).Nodup := by
  induction xs using List.reverseRecOn with
  | nil => exact List.nodup_nil
  | append_singleton xs y ih =>
    rw [firstSeen_append_singleton]
    split
    · exact ih
    · rename_i hy
      refine List.nodup_append.mpr ⟨ih, List.nodup_singleton y, ?_⟩
      rintro a ha b hb rfl
      exact hy (List.mem_singleton.mp hb ▸ ha)

theorem length_firstSeen (xs : List α) : (firstSeen xs).length = xs.toFinset.card := by
  rw [← List.toFinset_card_of_nodup (nodup_firstSeen xs)]
  congr 1
  ext x
  rw [List.mem_toFinset, List.mem_toFinset, mem_firstSeen]

/-- How many of the values stood before. -/
def repeats (xs : List α) : ℕ := xs.length - (firstSeen xs).length

theorem length_firstSeen_le (xs : List α) : (firstSeen xs).length ≤ xs.length := by
  rw [length_firstSeen]
  exact List.toFinset_card_le xs

theorem repeats_append_singleton (xs : List α) (x : α) :
    repeats (xs ++ [x]) = repeats xs + if x ∈ xs then 1 else 0 := by
  have hle := length_firstSeen_le xs
  unfold repeats
  rw [firstSeen_append_singleton, List.length_append, List.length_singleton]
  simp only [mem_firstSeen]
  split
  · omega
  · rw [List.length_append, List.length_singleton]
    omega

theorem repeats_eq_zero_iff {xs : List α} : repeats xs = 0 ↔ xs.Nodup := by
  induction xs using List.reverseRecOn with
  | nil => exact iff_of_true rfl List.nodup_nil
  | append_singleton xs x ih =>
    rw [repeats_append_singleton, List.nodup_append]
    split
    · rename_i hx
      refine iff_of_false (by omega) fun h => ?_
      exact h.2.2 x hx x (List.mem_singleton_self x) rfl
    · rename_i hx
      rw [Nat.add_zero, ih]
      refine ⟨fun h => ⟨h, List.nodup_singleton x, ?_⟩, fun h => h.1⟩
      rintro a ha b hb rfl
      exact hx (List.mem_singleton.mp hb ▸ ha)

@[simp] theorem mem_union {xs ys : List α} {x : α} : x ∈ union xs ys ↔ x ∈ xs ∨ x ∈ ys := by
  unfold union
  induction ys generalizing xs with
  | nil => simp
  | cons y ys ih =>
    rw [List.foldl_cons, ih, List.mem_cons]
    split
    · rename_i hy
      constructor
      · rintro (h | h)
        · exact .inl h
        · exact .inr (.inr h)
      · rintro (h | rfl | h)
        · exact .inl h
        · exact .inl hy
        · exact .inr h
    · rw [List.mem_append, List.mem_singleton, or_assoc]

end

@[simp] theorem Tally.duplicated_duplicated (tally : Tally) (m n : ℕ) :
    (tally.duplicated m).duplicated n = tally.duplicated (m + n) := by
  rw [Tally.duplicated, Tally.duplicated, Tally.duplicated]
  simp only [Nat.add_assoc]

@[simp] theorem Tally.duplicated_zero (tally : Tally) : tally.duplicated 0 = tally := rfl

theorem Tally.dedup_eq (tally : Tally) (values : List String) :
    tally.dedup values = (firstSeen values, tally.duplicated (repeats values)) := rfl

/-! ## Labels -/

section
variable {candidates : CandidateSet}

/-- What a label stands for. -/
def idOf (candidates : CandidateSet) (kind : CandidateKind) (label : String) : String :=
  ((candidates.table kind).get? label).getD ""

def Offered (candidates : CandidateSet) (kind : CandidateKind) (labels : List String) : Prop :=
  ∀ label ∈ labels, label ∈ (candidates.table kind).keys

theorem resolve_ok {kind : CandidateKind} {tally : Tally} {label id : String} :
    resolve candidates kind tally label = .ok id ↔
      label ∈ (candidates.table kind).keys ∧ idOf candidates kind label = id := by
  unfold resolve idOf
  cases hget : (candidates.table kind).get? label with
  | none =>
    refine iff_of_false (fun h => by cases h) fun h => ?_
    exact Dict.get?_eq_none_iff.mp hget h.1
  | some found =>
    have hkey : label ∈ (candidates.table kind).keys := Dict.mem_keys_iff.mpr ⟨found, hget⟩
    simp [hkey]

theorem resolveAll_ok {kind : CandidateKind} {tally : Tally} {labels ids : List String} :
    labels.mapM (resolve candidates kind tally) = .ok ids ↔
      Offered candidates kind labels ∧ labels.map (idOf candidates kind) = ids := by
  rw [mapM_forall₂]
  simp only [resolve_ok]
  induction labels generalizing ids with
  | nil => cases ids <;> simp [Offered]
  | cons label labels ih =>
    cases ids with
    | nil => simp
    | cons id ids =>
      rw [List.forall₂_cons, ih]
      simp only [Offered, List.forall_mem_cons, List.map_cons, List.cons.injEq]
      tauto

/-! ## Claims -/

/-- The claims of a row that resolves. -/
def rowClaims (candidates : CandidateSet) (row : SelectionRow) : List Claim :=
  (facetsOf row.facetIds).map fun facet => (idOf candidates .evidence row.spanId, facet, row.role)

theorem claimsOf_ok {tally tally' : Tally} {rows : List SelectionRow} {claims : List Claim} :
    claimsOf candidates tally rows = .ok (claims, tally') ↔
      Offered candidates .evidence (rows.map (·.spanId)) ∧ claims = rows.flatMap (rowClaims candidates) ∧
        tally' = tally.duplicated (rows.map fun row => repeats (row.facetIds.getD [])).sum := by
  induction rows generalizing tally tally' claims with
  | nil => simp [claimsOf, Offered, eq_comm]
  | cons row rows ih =>
    rw [claimsOf, bind_ok]
    simp only [resolve_ok, bind_ok, Prod.exists, ih]
    simp only [Offered, List.map_cons, List.forall_mem_cons, List.flatMap_cons, List.sum_cons, Tally.dedup_eq,
      Tally.duplicated_duplicated, rowClaims]
    constructor
    · rintro ⟨id, ⟨hkey, rfl⟩, claims', tally'', ⟨hrows, rfl, rfl⟩, hresult⟩
      cases hresult
      exact ⟨⟨hkey, hrows⟩, rfl, rfl⟩
    · rintro ⟨⟨hkey, hrows⟩, rfl, rfl⟩
      exact ⟨_, ⟨hkey, rfl⟩, _, _, ⟨hrows, rfl, rfl⟩, rfl⟩

/-! ## Relations -/

def roleAt (bySpan : BySpan) (spanId facet : String) : Option String :=
  (bySpan.get? spanId).bind (·.get? facet)

/-- No span is given two roles on one facet. -/
def Consistent (claims : List Claim) : Prop :=
  ∀ spanId facet role role', (spanId, facet, role) ∈ claims → (spanId, facet, role') ∈ claims → role = role'

/-- The relations after some claims, and the claims that repeated a facet of their span. -/
structure Folded (base : Tally) (done : List Claim) (s : BySpan × Tally) : Prop where
  role : ∀ spanId facet role, roleAt s.1 spanId facet = some role ↔ (spanId, facet, role) ∈ done
  spans : ∀ spanId, spanId ∈ s.1.keys ↔ spanId ∈ done.map (·.1)
  tally : s.2 = base.duplicated (repeats (done.map fun claim => (claim.1, claim.2.1)))

theorem Folded.start (base : Tally) : Folded base [] (Dict.empty, base) :=
  ⟨fun _ _ _ => by simp [roleAt], fun _ => by simp, rfl⟩

theorem roleAt_setDefault (bySpan : BySpan) (spanId s f : String) :
    roleAt (bySpan.setDefault spanId Dict.empty) s f = roleAt bySpan s f := by
  unfold roleAt
  rw [Dict.get?_setDefault]
  cases bySpan.get? s with
  | some roles => rfl
  | none => split <;> rfl

/-- The relations a claim is looked up in. -/
theorem get?_relations (bySpan : BySpan) (spanId facet : String) :
    (((bySpan.setDefault spanId Dict.empty).get? spanId).getD Dict.empty).get? facet = roleAt bySpan spanId facet := by
  rw [← roleAt_setDefault bySpan spanId, roleAt]
  cases (bySpan.setDefault spanId Dict.empty).get? spanId <;> rfl

theorem foldClaim_eq (s : BySpan × Tally) (spanId facet role : String) :
    foldClaim s (spanId, facet, role) =
      match roleAt s.1 spanId facet with
      | none => .ok ((s.1.setDefault spanId Dict.empty).set spanId
          ((((s.1.setDefault spanId Dict.empty).get? spanId).getD Dict.empty).set facet role), s.2)
      | some prior =>
        if prior ≠ role then
          (s.2.duplicated 1).conflicted.reject (.conflictingRoles spanId facet prior role) "semantic_conflict"
        else .ok (s.1.setDefault spanId Dict.empty, s.2.duplicated 1) := by
  rw [← get?_relations]
  rfl

/-- A claim on a new facet is entered, one that repeats its role is counted. -/
theorem Folded.step {base : Tally} {done : List Claim} {s s' : BySpan × Tally} (h : Folded base done s) {claim : Claim}
    (hstep : foldClaim s claim = .ok s') : Folded base (done ++ [claim]) s' := by
  obtain ⟨spanId, facet, role⟩ := claim
  have hkeys : (done ++ [(spanId, facet, role)]).map (fun c => (c.1, c.2.1)) =
      done.map (fun c => (c.1, c.2.1)) ++ [(spanId, facet)] := by simp
  rw [foldClaim_eq] at hstep
  cases hprior : roleAt s.1 spanId facet with
  | none =>
    rw [hprior] at hstep
    cases hstep
    have hnew : (spanId, facet) ∉ done.map fun c => (c.1, c.2.1) := by
      intro hmem
      obtain ⟨⟨s', f', r'⟩, hin, heq⟩ := List.mem_map.mp hmem
      simp only [Prod.mk.injEq] at heq
      rw [heq.1, heq.2] at hin
      rw [(h.role spanId facet r').mpr hin] at hprior
      cases hprior
    refine ⟨fun x f r => ?_, fun x => ?_, ?_⟩
    · rw [List.mem_append, List.mem_singleton, ← h.role, roleAt, Dict.get?_set]
      by_cases hx : x = spanId
      · subst hx
        rw [if_pos rfl, Option.bind_some, Dict.get?_set]
        by_cases hf : f = facet
        · subst hf
          rw [if_pos rfl, hprior]
          simp [eq_comm]
        · rw [if_neg hf, get?_relations]
          simp [hf]
      · rw [if_neg hx]
        change roleAt _ x f = some r ↔ _
        rw [roleAt_setDefault]
        simp [hx]
    · simp only [Dict.mem_keys_set, Dict.mem_keys_setDefault, List.map_append, List.mem_append, List.map_cons, List.map_nil,
        List.mem_singleton, ← h.spans]
      tauto
    · rw [hkeys, repeats_append_singleton, if_neg hnew, Nat.add_zero]
      exact h.tally
  | some prior =>
    rw [hprior] at hstep
    simp only [ne_eq, ite_not] at hstep
    split at hstep
    · rename_i hsame
      subst hsame
      cases hstep
      have hold : (spanId, facet, prior) ∈ done := (h.role spanId facet prior).mp hprior
      refine ⟨fun s f r => ?_, fun s => ?_, ?_⟩
      · rw [roleAt_setDefault, h.role, List.mem_append, List.mem_singleton]
        exact ⟨.inl, fun hr => hr.elim id fun heq => heq ▸ hold⟩
      · simp only [Dict.mem_keys_setDefault, List.map_append, List.mem_append, List.map_cons, List.map_nil,
          List.mem_singleton, ← h.spans]
      · rw [hkeys, repeats_append_singleton, if_pos (List.mem_map.mpr ⟨_, hold, rfl⟩), ← Tally.duplicated_duplicated,
          ← h.tally]
    · cases hstep

theorem Folded.run {base : Tally} {done claims : List Claim} {s s' : BySpan × Tally} (h : Folded base done s)
    (hrun : claims.foldlM foldClaim s = .ok s') : Folded base (done ++ claims) s' := by
  induction claims generalizing done s with
  | nil =>
    cases hrun
    rw [List.append_nil]
    exact h
  | cons claim claims ih =>
    obtain ⟨s₁, hstep, hrest⟩ := bind_ok.mp hrun
    rw [List.append_cons]
    exact ih (h.step hstep) hrest

theorem Folded.returns {base : Tally} {done claims : List Claim} {s : BySpan × Tally} (h : Folded base done s)
    (hconsistent : Consistent (done ++ claims)) : Returns (claims.foldlM foldClaim s) := by
  induction claims generalizing done s with
  | nil => exact returns_pure s
  | cons claim claims ih =>
    obtain ⟨spanId, facet, role⟩ := claim
    have hstep : Returns (foldClaim s (spanId, facet, role)) := by
      rw [foldClaim_eq]
      cases hprior : roleAt s.1 spanId facet with
      | none => exact returns_ok _
      | some prior =>
        have hsame : prior = role := hconsistent spanId facet prior role
          (List.mem_append_left _ ((h.role spanId facet prior).mp hprior)) (by simp)
        simp [hsame]
    obtain ⟨s₁, hs₁⟩ := hstep
    rw [List.append_cons] at hconsistent
    obtain ⟨s', hs'⟩ := ih (h.step hs₁) hconsistent
    exact ⟨s', bind_ok.mpr ⟨s₁, hs₁, hs'⟩⟩

/-- The relations claimed by items. -/
def Relates (items : List ParsedItem) (spanId : String) (relation : Relation) : Prop :=
  ∃ item ∈ items, item.spanId = spanId ∧ relation ∈ item.relations

theorem normalizeRelations_returns {claims : List Claim} {tally : Tally} :
    Returns (normalizeRelations claims tally) ↔ Consistent claims := by
  unfold normalizeRelations
  simp only [returns_bind, returns_pure, and_true]
  constructor
  · rintro ⟨s, hs⟩ spanId facet role role' hrole hrole'
    have hfolded := (Folded.start tally).run hs
    rw [List.nil_append] at hfolded
    have heq := ((hfolded.role spanId facet role).mpr hrole).symm.trans ((hfolded.role spanId facet role').mpr hrole')
    exact Option.some.inj heq
  · intro hconsistent
    exact (Folded.start tally).returns hconsistent

/-- One item for each span, one relation for each of its facets. -/
theorem normalizeRelations_ok {claims : List Claim} {tally tally' : Tally} {items : List ParsedItem}
    (h : normalizeRelations claims tally = .ok (items, tally')) :
    (items.map (·.spanId)).Nodup ∧ (∀ item ∈ items, (item.relations.map Prod.fst).Nodup) ∧
      (∀ spanId relation, Relates items spanId relation ↔
        ∃ role, relation.2 = some role ∧ (spanId, relation.1, role) ∈ claims) ∧
      items.length = (firstSeen (claims.map (·.1))).length ∧
      tally' = tally.duplicated (repeats (claims.map fun claim => (claim.1, claim.2.1))) := by
  obtain ⟨s, hs, hresult⟩ := bind_ok.mp h
  cases hresult
  have hfolded := (Folded.start tally).run hs
  rw [List.nil_append] at hfolded
  have hspans : (s.1.entries.map fun e => (⟨e.1, e.2.entries.map fun r => (r.1, some r.2)⟩ : ParsedItem)).map
      (·.spanId) = s.1.keys := by
    rw [List.map_map]
    rfl
  refine ⟨?_, ?_, ?_, ?_, hfolded.tally⟩
  · rw [hspans]
    exact s.1.keys_nodup
  · intro item hitem
    obtain ⟨e, -, rfl⟩ := List.mem_map.mp hitem
    rw [List.map_map]
    exact e.2.distinct
  · rintro spanId ⟨facet, role?⟩
    simp only [Relates, List.mem_map, exists_exists_and_eq_and]
    constructor
    · rintro ⟨e, he, rfl, r, hr, hrelation⟩
      cases hrelation
      refine ⟨r.2, rfl, (hfolded.role e.1 r.1 r.2).mp ?_⟩
      rw [roleAt, Dict.get?_of_mem he]
      exact Dict.get?_of_mem hr
    · rintro ⟨role, rfl, hclaim⟩
      obtain ⟨relations, hget, hrole⟩ := Option.bind_eq_some_iff.mp ((hfolded.role spanId facet role).mpr hclaim)
      exact ⟨_, Dict.mem_of_get? hget, rfl, _, Dict.mem_of_get? hrole, rfl⟩
  · have hlength : s.1.entries.length = s.1.keys.length := (List.length_map _).symm
    rw [length_firstSeen, List.length_map, hlength, ← List.toFinset_card_of_nodup s.1.keys_nodup]
    congr 1
    ext spanId
    rw [List.mem_toFinset, List.mem_toFinset, hfolded.spans]

/-! ## Gaps -/

/-- The gap of a row that resolves. -/
def rowGap (candidates : CandidateSet) (row : GapRow) : ParsedGap :=
  ⟨row.facetId, firstSeen (row.queryAttemptIds.map (idOf candidates .queryAttempt))⟩

theorem resolveGaps_ok {tally tally' : Tally} {rows : List GapRow} {gaps : List ParsedGap} :
    resolveGaps candidates tally rows = .ok (gaps, tally') ↔
      (∀ row ∈ rows, Offered candidates .queryAttempt row.queryAttemptIds) ∧ gaps = rows.map (rowGap candidates) ∧
        tally' = tally.duplicated
          (rows.map fun row => repeats (row.queryAttemptIds.map (idOf candidates .queryAttempt))).sum := by
  induction rows generalizing tally tally' gaps with
  | nil => simp [resolveGaps, eq_comm]
  | cons row rows ih =>
    rw [resolveGaps, bind_ok]
    simp only [resolveAll_ok, bind_ok, Prod.exists, ih, Tally.dedup_eq, Tally.duplicated_duplicated]
    simp only [List.forall_mem_cons, List.map_cons, List.sum_cons, rowGap]
    constructor
    · rintro ⟨ids, ⟨hrow, rfl⟩, gaps', tally'', ⟨hrows, rfl, rfl⟩, hresult⟩
      cases hresult
      exact ⟨⟨hrow, hrows⟩, rfl, rfl⟩
    · rintro ⟨⟨hrow, hrows⟩, rfl, rfl⟩
      exact ⟨_, ⟨hrow, rfl⟩, _, _, ⟨hrows, rfl, rfl⟩, rfl⟩

/-- A query attempt declared for a facet's gap. -/
def Gapped (gaps : List ParsedGap) (facet attempt : String) : Prop :=
  ∃ gap ∈ gaps, gap.facetId = facet ∧ attempt ∈ gap.queryAttemptIds

structure GapsFolded (base : Tally) (done : List ParsedGap) (s : Dict String (List String) × Tally) : Prop where
  facets : ∀ facet, facet ∈ s.1.keys ↔ facet ∈ done.map (·.facetId)
  attempts : ∀ facet attempt, attempt ∈ (s.1.get? facet).getD [] ↔ Gapped done facet attempt
  tally : s.2 = base.duplicated (repeats (done.map (·.facetId)))

theorem GapsFolded.step {base : Tally} {done : List ParsedGap} {s : Dict String (List String) × Tally}
    (h : GapsFolded base done s) (gap : ParsedGap) : GapsFolded base (done ++ [gap]) (foldGap s gap) := by
  refine ⟨fun facet => ?_, fun facet attempt => ?_, ?_⟩
  · rw [foldGap, Dict.mem_keys_update, h.facets]
    simp
  · have hlast : Gapped (done ++ [gap]) facet attempt ↔
        Gapped done facet attempt ∨ (gap.facetId = facet ∧ attempt ∈ gap.queryAttemptIds) := by
      simp only [Gapped, List.mem_append, List.mem_singleton, or_and_right, exists_or, exists_eq_left]
    rw [hlast, foldGap, Dict.get?_update, ← h.attempts]
    by_cases hfacet : facet = gap.facetId
    · subst hfacet
      rw [if_pos rfl, Option.getD_some, mem_union]
      simp
    · rw [if_neg hfacet]
      simp [Ne.symm hfacet]
  · have hfacets : (done ++ [gap]).map (·.facetId) = done.map (·.facetId) ++ [gap.facetId] := by simp
    rw [hfacets, repeats_append_singleton, foldGap]
    simp only [h.facets, h.tally]
    split
    · rw [Tally.duplicated_duplicated]
    · rfl

theorem GapsFolded.run (base : Tally) (gaps : List ParsedGap) :
    GapsFolded base gaps (gaps.foldl foldGap (Dict.empty, base)) := by
  induction gaps using List.reverseRecOn with
  | nil => exact ⟨fun _ => by simp, fun _ _ => by simp [Gapped], rfl⟩
  | append_singleton gaps gap ih =>
    rw [List.foldl_append]
    exact ih.step gap

/-- One gap for each facet, with every attempt declared for it. -/
theorem normalizeGaps_spec (gaps : List ParsedGap) (tally : Tally) :
    ((normalizeGaps gaps tally).1.map (·.facetId)).Nodup ∧
      (∀ facet, facet ∈ (normalizeGaps gaps tally).1.map (·.facetId) ↔ facet ∈ gaps.map (·.facetId)) ∧
      (∀ facet attempt, Gapped (normalizeGaps gaps tally).1 facet attempt ↔ Gapped gaps facet attempt) ∧
      (normalizeGaps gaps tally).1.length = (firstSeen (gaps.map (·.facetId))).length ∧
      (normalizeGaps gaps tally).2 = tally.duplicated (repeats (gaps.map (·.facetId))) := by
  have h := GapsFolded.run tally gaps
  have hfacets : (normalizeGaps gaps tally).1.map (·.facetId) = (gaps.foldl foldGap (Dict.empty, tally)).1.keys := by
    simp only [normalizeGaps, List.map_map]
    rfl
  refine ⟨?_, fun facet => ?_, fun facet attempt => ?_, ?_, h.tally⟩
  · rw [hfacets]
    exact Dict.keys_nodup _
  · rw [hfacets, h.facets]
  · rw [← h.attempts]
    simp only [Gapped, normalizeGaps, List.mem_map, exists_exists_and_eq_and]
    constructor
    · rintro ⟨e, he, rfl, hattempt⟩
      rw [Dict.get?_of_mem he]
      exact hattempt
    · intro hattempt
      cases hget : (gaps.foldl foldGap (Dict.empty, tally)).1.get? facet with
      | none =>
        rw [hget] at hattempt
        cases hattempt
      | some attempts =>
        rw [hget] at hattempt
        exact ⟨_, Dict.mem_of_get? hget, rfl, hattempt⟩
  · have hlength : (normalizeGaps gaps tally).1.length = (gaps.foldl foldGap (Dict.empty, tally)).1.keys.length := by
      rw [← hfacets, List.length_map]
    rw [hlength, length_firstSeen, ← List.toFinset_card_of_nodup (Dict.keys_nodup _)]
    congr 1
    ext facet
    rw [List.mem_toFinset, List.mem_toFinset, h.facets]

/-! ## Bridges -/

/-- The bridge of a row that resolves. -/
def rowBridge (candidates : CandidateSet) (row : BridgeRow) : ParsedBridge :=
  ⟨row.text, firstSeen (row.evidenceIds.map (idOf candidates .evidence))⟩

/-- A bridge row with offered evidence, some at least, and a text. -/
def BridgeRow.Binds (candidates : CandidateSet) (row : BridgeRow) : Prop :=
  Offered candidates .evidence row.evidenceIds ∧ row.evidenceIds ≠ [] ∧ Unicode.strip row.text.toList ≠ []

theorem firstSeen_eq_nil {xs : List String} : firstSeen xs = [] ↔ xs = [] := by
  simp only [List.eq_nil_iff_forall_not_mem, mem_firstSeen]

/-- The first row of some, after rows that stand for `done`. -/
theorem parseBridges_cons (done : List ParsedBridge) {base : Tally} {counted : ℕ} {row : BridgeRow}
    {rows : List BridgeRow} {result : List ParsedBridge × Tally} :
    parseBridges candidates (base.duplicated (counted + repeats done)) (firstSeen done) (row :: rows) = .ok result ↔
      row.Binds candidates ∧
        parseBridges candidates
          (base.duplicated (counted + repeats (row.evidenceIds.map (idOf candidates .evidence)) +
            repeats (done ++ [rowBridge candidates row])))
          (firstSeen (done ++ [rowBridge candidates row])) rows = .ok result := by
  have hparsed : rowBridge candidates row ∈ firstSeen done ↔ rowBridge candidates row ∈ done := mem_firstSeen
  have hbridge : (⟨row.text, firstSeen (row.evidenceIds.map (idOf candidates .evidence))⟩ : ParsedBridge) =
      rowBridge candidates row := rfl
  rw [parseBridges, bind_ok]
  simp only [resolveAll_ok, Tally.dedup_eq, Tally.duplicated_duplicated, hbridge, firstSeen_eq_nil, List.map_eq_nil_iff,
    BridgeRow.Binds]
  rw [repeats_append_singleton, firstSeen_append_singleton]
  constructor
  · rintro ⟨ids, ⟨hoffered, rfl⟩, hrow⟩
    simp only [hbridge, firstSeen_eq_nil, List.map_eq_nil_iff] at hrow
    split_ifs at hrow with hevidence htext hrepeat
    · cases hrow
    · cases hrow
    · refine ⟨⟨hoffered, hevidence, htext⟩, ?_⟩
      rw [if_pos hrepeat, if_pos (hparsed.mp hrepeat)]
      convert hrow using 3
      omega
    · refine ⟨⟨hoffered, hevidence, htext⟩, ?_⟩
      rw [if_neg hrepeat, if_neg fun h => hrepeat (hparsed.mpr h)]
      convert hrow using 3
      omega
  · rintro ⟨⟨hoffered, hevidence, htext⟩, hrow⟩
    refine ⟨_, ⟨hoffered, rfl⟩, ?_⟩
    simp only [hbridge, firstSeen_eq_nil, List.map_eq_nil_iff]
    rw [if_neg hevidence, if_neg htext]
    by_cases hrepeat : rowBridge candidates row ∈ firstSeen done
    · rw [if_pos hrepeat, if_pos (hparsed.mp hrepeat)] at hrow
      rw [if_pos hrepeat]
      convert hrow using 3
      omega
    · rw [if_neg hrepeat, if_neg fun h => hrepeat (hparsed.mpr h)] at hrow
      rw [if_neg hrepeat]
      convert hrow using 3
      omega

/-- The bridges after some rows stand for the rows before, each once. -/
theorem parseBridges_from (done : List ParsedBridge) {base tally' : Tally} {counted : ℕ} {rows : List BridgeRow}
    {bridges : List ParsedBridge} :
    parseBridges candidates (base.duplicated (counted + repeats done)) (firstSeen done) rows = .ok (bridges, tally') ↔
      (∀ row ∈ rows, row.Binds candidates) ∧ bridges = firstSeen (done ++ rows.map (rowBridge candidates)) ∧
        tally' = base.duplicated (counted + (rows.map fun row =>
          repeats (row.evidenceIds.map (idOf candidates .evidence))).sum +
            repeats (done ++ rows.map (rowBridge candidates))) := by
  induction rows generalizing done counted with
  | nil => simp [parseBridges, eq_comm]
  | cons row rows ih =>
    rw [parseBridges_cons, ih]
    simp only [List.forall_mem_cons, List.map_cons, List.sum_cons, List.append_assoc, List.singleton_append, and_assoc,
      Nat.add_assoc]

theorem parseBridges_ok {tally tally' : Tally} {rows : List BridgeRow} {bridges : List ParsedBridge} :
    parseBridges candidates tally [] rows = .ok (bridges, tally') ↔
      (∀ row ∈ rows, row.Binds candidates) ∧ bridges = firstSeen (rows.map (rowBridge candidates)) ∧
        tally' = tally.duplicated ((rows.map fun row =>
          repeats (row.evidenceIds.map (idOf candidates .evidence))).sum +
            repeats (rows.map (rowBridge candidates))) := by
  have h := @parseBridges_from candidates [] tally tally' 0 rows bridges
  simp only [List.nil_append, Nat.zero_add] at h
  exact h

end
end Shapeflow.P1
