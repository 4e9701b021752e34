import Shapeflow.SourcePool

set_option autoImplicit false

/-!
# The views of a source pool

The pool is built one result at a time. At every result the occurrences are deduplicated:
a new URL is visible and takes the next place, a seen one is for the audit and points back.
-/
namespace Shapeflow.World
open Py Canonical Utf8 Fallible

/-! ## Identity of an occurrence -/

/-- What the id of an occurrence is the digest of. -/
def occurrencePreimage (floats : FloatText) (querySnapshotId : PyStr) (rank : ℤ) (url : PyStr) :
    Except IdError ByteArray :=
  deriveId id floats (pyStr "occurrence") (ofJson (document (occurrenceFields querySnapshotId rank url)))

theorem distinct_occurrenceFields (querySnapshotId : PyStr) (rank : ℤ) (url : PyStr) :
    DistinctFields (occurrenceFields querySnapshotId rank url) := by
  unfold DistinctFields occurrenceFields
  simp only [List.map_cons, List.map_nil]
  decide

theorem isPython_occurrence (floats : FloatText) (querySnapshotId : PyStr) (rank : ℤ) (url : PyStr) :
    IsPython floats (ofJson (document (occurrenceFields querySnapshotId rank url))) := by
  refine isPython_document (distinct_occurrenceFields querySnapshotId rank url) fun e he => ?_
  simp only [occurrenceFields, List.mem_cons, List.not_mem_nil, or_false] at he
  rcases he with rfl | rfl | rfl <;> trivial

theorem occurrencePreimage_injective {floats : FloatText} {a b : PyStr} {n m : ℤ} {u v : PyStr} {raw : ByteArray}
    (h : occurrencePreimage floats a n u = .ok raw) (h' : occurrencePreimage floats b m v = .ok raw) :
    a = b ∧ n = m ∧ u = v := by
  obtain ⟨payload, raw', hpayload, hraw, rfl⟩ := deriveId_ok h
  obtain ⟨payload', raw', hpayload', hraw', rfl⟩ := deriveId_ok h'
  have hsame := sameValue_of_preimage (isPython_occurrence floats a n u) (isPython_occurrence floats b m v)
    hpayload hpayload' hraw hraw'
  have hfield := field?_sameValue (distinct_occurrenceFields a n u) (distinct_occurrenceFields b m v) hsame
  have hsnapshot := hfield "query_snapshot_id"
  have hrank := hfield "rank"
  have hurl := hfield "url"
  simp [occurrenceFields, field?, sortKeys] at hsnapshot hrank hurl
  exact ⟨hsnapshot, hrank, hurl⟩

theorem occurrenceId_ok {σ ε : Type} {rt : Runtime σ ε} {querySnapshotId : PyStr} {rank : ℤ} {url : PyStr} {id : String}
    (h : occurrenceId rt querySnapshotId rank url = .ok id) :
    ∃ raw, occurrencePreimage rt.floats querySnapshotId rank url = .ok raw ∧ id = rt.sha256Hex raw := by
  obtain ⟨payload, raw, hpayload, hraw, hid⟩ := deriveId_ok h
  refine ⟨raw, ?_, hid⟩
  rw [occurrencePreimage, deriveId, hpayload]
  simp only [hraw]
  rfl

/-! ## Deduplicated occurrences -/

/-- An occurrence after those before it: of a new URL it is visible, of a seen one it points at a visible one. -/
structure Placed (before : List SourceOccurrence) (o : SourceOccurrence) : Prop where
  first : o.url ∉ before.map (·.url) → o.visibility = .vendorVisible ∧ o.duplicateOfOccurrenceId = none ∧
    o.vendorVisibleOrder = some (before.filter fun p => p.Visible).length
  later : o.url ∈ before.map (·.url) → o.visibility = .auditOnly ∧ o.vendorVisibleOrder = none ∧
    ∃ winner ∈ before, winner.Visible ∧ winner.url = o.url ∧ o.duplicateOfOccurrenceId = some winner.occurrenceId

def Deduplicated (occurrences : List SourceOccurrence) : Prop :=
  ∀ before o after, occurrences = before ++ o :: after → Placed before o

theorem deduplicated_concat {occurrences : List SourceOccurrence} {o : SourceOccurrence} :
    Deduplicated (occurrences ++ [o]) ↔ Deduplicated occurrences ∧ Placed occurrences o := by
  constructor
  · intro h
    refine ⟨fun before p after hsplit => h before p (after ++ [o]) ?_, h occurrences o [] rfl⟩
    rw [hsplit, List.append_assoc, List.cons_append]
  · rintro ⟨h, ho⟩ before p after hsplit
    rcases List.eq_nil_or_concat after with rfl | ⟨after, q, rfl⟩
    · obtain ⟨rfl, heq⟩ := List.append_inj' hsplit rfl
      obtain rfl := List.singleton_inj.mp heq
      exact ho
    · rw [List.concat_eq_append, ← List.cons_append, ← List.append_assoc] at hsplit
      obtain ⟨hinit, -⟩ := List.append_inj' hsplit rfl
      exact h before p after hinit

/-- What is visible is the first occurrence of each URL, numbered from zero. -/
theorem visible_eq {occurrences : List SourceOccurrence} (h : Deduplicated occurrences) :
    (occurrences.filter fun o => o.Visible) = firstOccurrences (·.url) occurrences ∧
      (occurrences.filter fun o => o.Visible).map (·.vendorVisibleOrder) =
        (List.range (occurrences.filter fun o => o.Visible).length).map some := by
  induction occurrences using List.reverseRecOn with
  | nil => exact ⟨rfl, rfl⟩
  | append_singleton occurrences o ih =>
    obtain ⟨hinit, ho⟩ := deduplicated_concat.mp h
    obtain ⟨hfirst, horders⟩ := ih hinit
    rw [firstOccurrences_concat, List.filter_append]
    by_cases hurl : o.url ∈ occurrences.map (·.url)
    · have hhidden : ¬ o.Visible := by
        intro hvisible
        rw [SourceOccurrence.Visible, (ho.later hurl).1] at hvisible
        cases hvisible
      rw [if_pos hurl, List.filter_singleton, decide_eq_false hhidden]
      simpa using ⟨hfirst, horders⟩
    · obtain ⟨hvisible, -, horder⟩ := ho.first hurl
      have hshown : o.Visible := hvisible
      rw [if_neg hurl, List.filter_singleton, decide_eq_true hshown]
      refine ⟨by rw [hfirst]; rfl, ?_⟩
      rw [Bool.cond_true, List.map_append, horders, List.map_singleton, horder, List.length_append,
        List.length_singleton, List.range_succ, List.map_append, List.map_singleton]

/-- Sorting by the order of the view changes nothing. -/
theorem vendorVisible_eq {pool : SourcePool} (h : Deduplicated pool.occurrences) :
    pool.vendorVisible = .ok (firstOccurrences (·.url) pool.occurrences) := by
  obtain ⟨hfirst, horders⟩ := visible_eq h
  have hsome : ∀ o ∈ pool.occurrences.filter fun o => o.Visible, o.vendorVisibleOrder ≠ none := by
    intro o ho hnone
    have hmem := List.mem_map_of_mem (f := (·.vendorVisibleOrder)) ho
    rw [horders] at hmem
    obtain ⟨n, -, hn⟩ := List.mem_map.mp hmem
    rw [hnone] at hn
    cases hn
  have hsorted : (pool.occurrences.filter fun o => o.Visible).Pairwise fun o p =>
      o.vendorVisibleOrder.getD 0 ≤ p.vendorVisibleOrder.getD 0 := by
    have hkeys : ((pool.occurrences.filter fun o => o.Visible).map (·.vendorVisibleOrder)).Pairwise
        fun a b => a.getD 0 ≤ b.getD 0 := by
      rw [horders, List.pairwise_map]
      exact List.pairwise_lt_range.imp fun h => Nat.le_of_lt h
    rw [List.pairwise_map] at hkeys
    exact hkeys
  unfold SourcePool.vendorVisible
  simp only
  rw [if_neg, hsorted.insertionSort_eq, hfirst]
  rintro ⟨-, o, ho, hnone⟩
  exact hsome o ho hnone

/-! ## One result after the other -/

/-- The results in query order and, within a query, in rank order. -/
def resultsOf (responses : List QueryResponse) : List (PyStr × RawResult) :=
  responses.flatMap fun response => response.results.map fun result => (response.querySnapshotId, result)

section
variable {σ ε : Type}

/-- The content hash a result is recorded with: of its normalised content, and none of empty content. -/
def ContentOf (rt : Runtime σ ε) (result : RawResult) (contentHash : Option String) : Prop :=
  (result.rawContent.getD [] = [] ∧ contentHash = none) ∨
    ∃ normalized hash, result.rawContent.getD [] ≠ [] ∧
      normalizeV1 rt (result.rawContent.getD []) = .ok normalized ∧ contentId rt normalized = .ok hash ∧
      contentHash = some hash

/-- An occurrence holds all that its result and its query say. -/
structure Recorded (rt : Runtime σ ε) (taskId : PyStr) (e : PyStr × RawResult) (o : SourceOccurrence) : Prop where
  occurrenceId : occurrenceId rt e.1 e.2.rank e.2.url = .ok o.occurrenceId
  identity : o.querySnapshotId = e.1 ∧ o.rank = e.2.rank ∧ o.url = e.2.url
  fields : o.taskId = taskId ∧ o.title = some e.2.title ∧ o.score = e.2.score ∧ o.publishedDate = e.2.publishedDate ∧
    o.snippetContent = some e.2.snippet
  content : ContentOf rt e.2 o.contentHash

variable {rt : Runtime σ ε} {taskId fetchedAtUtc querySnapshotId : PyStr}

theorem freeze_ok {store store' : σ} {raw : PyStr} {format : String} {snap : CanonicalSnapshot}
    (h : freeze rt store raw format fetchedAtUtc = .ok (snap, store')) :
    ∃ normalized, normalizeV1 rt raw = .ok normalized ∧ contentId rt normalized = .ok snap.contentHash := by
  unfold freeze at h
  split at h
  · cases h
  · obtain ⟨normalized, hnormalized, h⟩ := bind_ok.mp h
    obtain ⟨stored, -, h⟩ := bind_ok.mp h
    obtain ⟨hash, hhash, h⟩ := bind_ok.mp h
    cases h
    exact ⟨normalized, hnormalized, mapError_ok.mp hhash⟩

/-- Freezing content touches the snapshots and the store alone. -/
theorem freezeContent_ok {st st' : Building σ} {result : RawResult} {contentHash : Option String}
    (h : freezeContent rt fetchedAtUtc st result = .ok (contentHash, st')) :
    ContentOf rt result contentHash ∧ st'.pool.taskId = st.pool.taskId ∧ st'.pool.occurrences = st.pool.occurrences ∧
      st'.seenUrlToWinner = st.seenUrlToWinner ∧ st'.nextVisibleOrder = st.nextVisibleOrder ∧
      ((contentHash = none ∧ st'.pool.snapshots = st.pool.snapshots) ∨
        ∃ snap, contentHash = some snap.contentHash ∧
          st'.pool.snapshots = st.pool.snapshots.setDefault snap.contentHash snap) := by
  unfold freezeContent at h
  split at h
  · rename_i hraw
    cases h
    exact ⟨.inl ⟨by rw [hraw]; rfl, rfl⟩, rfl, rfl, rfl, rfl, .inl ⟨rfl, rfl⟩⟩
  · rename_i hraw
    cases h
    exact ⟨.inl ⟨by rw [hraw]; rfl, rfl⟩, rfl, rfl, rfl, rfl, .inl ⟨rfl, rfl⟩⟩
  · rename_i c r hraw
    obtain ⟨⟨snap, store⟩, hfreeze, h⟩ := bind_ok.mp h
    cases h
    obtain ⟨normalized, hnormalized, hhash⟩ := freeze_ok hfreeze
    have hcontent : ContentOf rt result (some snap.contentHash) := by
      refine .inr ⟨normalized, snap.contentHash, ?_, ?_, hhash, rfl⟩
      · simp [hraw]
      · rw [hraw]
        exact hnormalized
    exact ⟨hcontent, rfl, rfl, rfl, rfl, .inr ⟨snap, rfl, rfl⟩⟩

/-- What holds after the results so far. -/
structure Built (rt : Runtime σ ε) (taskId : PyStr) (done : List (PyStr × RawResult)) (st : Building σ) : Prop where
  recorded : List.Forall₂ (Recorded rt taskId) done st.pool.occurrences
  deduplicated : Deduplicated st.pool.occurrences
  next : st.nextVisibleOrder = (st.pool.occurrences.filter fun o => o.Visible).length
  unseen : ∀ url, st.seenUrlToWinner.get? url = none → url ∉ st.pool.occurrences.map (·.url)
  winner : ∀ url id, st.seenUrlToWinner.get? url = some id →
    ∃ o ∈ st.pool.occurrences, o.Visible ∧ o.url = url ∧ o.occurrenceId = id
  snapshots : ∀ hash snap, st.pool.snapshots.get? hash = some snap → snap.contentHash = hash
  frozen : ∀ o ∈ st.pool.occurrences, ∀ hash, o.contentHash = some hash → hash ∈ st.pool.snapshots.keys

theorem built_start (store : σ) : Built rt taskId [] ⟨emptyPool taskId, Dict.empty, 0, store⟩ where
  recorded := .nil
  deduplicated before o after h := absurd h (by simp [emptyPool])
  next := rfl
  unseen _ _ := List.not_mem_nil
  winner _ _ h := nomatch h
  snapshots _ _ h := nomatch h
  frozen _ h := nomatch h

theorem Built.content {done : List (PyStr × RawResult)} {st st' : Building σ} (h : Built rt taskId done st)
    {result : RawResult} {contentHash : Option String}
    (hfreeze : freezeContent rt fetchedAtUtc st result = .ok (contentHash, st')) :
    Built rt taskId done st' ∧ ContentOf rt result contentHash ∧
      ∀ hash, contentHash = some hash → hash ∈ st'.pool.snapshots.keys := by
  obtain ⟨hcontent, -, hoccurrences, hseen, hnext, hsnapshots⟩ := freezeContent_ok hfreeze
  obtain ⟨hnamed, hkept, hnew⟩ : (∀ hash snap, st'.pool.snapshots.get? hash = some snap → snap.contentHash = hash) ∧
      (∀ hash ∈ st.pool.snapshots.keys, hash ∈ st'.pool.snapshots.keys) ∧
      ∀ hash, contentHash = some hash → hash ∈ st'.pool.snapshots.keys := by
    obtain ⟨hnone, hsame⟩ | ⟨snap, hsome, hset⟩ := hsnapshots
    · rw [hsame, hnone]
      exact ⟨h.snapshots, fun _ hkey => hkey, nofun⟩
    · refine ⟨fun hash snap' hget => ?_, fun hash hkey => ?_, fun hash hhash => ?_⟩
      · rw [hset, Dict.get?_setDefault, Option.or_eq_some_iff] at hget
        obtain hget | ⟨-, hget⟩ := hget
        · exact h.snapshots hash snap' hget
        · split at hget
          · rename_i hkey
            rw [← Option.some.inj hget, hkey]
          · cases hget
      · rw [hset, Dict.mem_keys_setDefault]
        exact .inl hkey
      · rw [hset, Dict.mem_keys_setDefault]
        exact .inr (Option.some.inj (hhash.symm.trans hsome))
  refine ⟨⟨?_, ?_, ?_, ?_, ?_, hnamed, ?_⟩, hcontent, hnew⟩
  · rw [hoccurrences]
    exact h.recorded
  · rw [hoccurrences]
    exact h.deduplicated
  · rw [hoccurrences, hnext]
    exact h.next
  · rw [hoccurrences, hseen]
    exact h.unseen
  · rw [hoccurrences, hseen]
    exact h.winner
  · rw [hoccurrences]
    exact fun o ho hash hhash => hkept hash (h.frozen o ho hash hhash)

/-- A result of a new URL takes the next visible place, one of a seen URL points at the winner. -/
theorem Built.add {done : List (PyStr × RawResult)} {st st' : Building σ} (h : Built rt taskId done st)
    {result : RawResult} (hadd : addResult rt taskId fetchedAtUtc querySnapshotId st result = .ok st') :
    Built rt taskId (done ++ [(querySnapshotId, result)]) st' := by
  unfold addResult at hadd
  obtain ⟨oid, hoid, hadd⟩ := bind_ok.mp hadd
  obtain ⟨⟨contentHash, mid⟩, hmid, hadd⟩ := bind_ok.mp hadd
  obtain ⟨hbuilt, hcontent, hfrozen⟩ := h.content hmid
  replace hoid := mapError_ok.mp hoid
  have hsnapshots : ∀ o : SourceOccurrence, o.contentHash = contentHash → ∀ p ∈ mid.pool.occurrences ++ [o], ∀ hash,
      p.contentHash = some hash → hash ∈ mid.pool.snapshots.keys := by
    intro o ho p hp hash hhash
    rcases List.mem_append.mp hp with hp | hp
    · exact hbuilt.frozen p hp hash hhash
    · rw [List.mem_singleton.mp hp, ho] at hhash
      exact hfrozen hash hhash
  have hrecorded : ∀ o, Recorded rt taskId (querySnapshotId, result) o →
      List.Forall₂ (Recorded rt taskId) (done ++ [(querySnapshotId, result)]) (mid.pool.occurrences ++ [o]) :=
    fun o ho => List.rel_append hbuilt.recorded (.cons ho .nil)
  simp only at hadd
  split at hadd
  · rename_i hnew
    cases hadd
    have hurl := hbuilt.unseen result.url hnew
    refine ⟨hrecorded _ ⟨hoid, ⟨rfl, rfl, rfl⟩, ⟨rfl, rfl, rfl, rfl, rfl⟩, hcontent⟩, deduplicated_concat.mpr
      ⟨hbuilt.deduplicated, fun _ => ⟨rfl, rfl, congrArg some hbuilt.next⟩, fun hseen => absurd hseen hurl⟩, ?_,
      fun url hnone => ?_, fun url id hsome => ?_, hbuilt.snapshots, hsnapshots _ rfl⟩
    · rw [hbuilt.next, SourcePool.append, List.filter_append, List.length_append]
      rfl
    · rw [Dict.get?_set] at hnone
      split at hnone
      · cases hnone
      · rename_i hother
        rw [SourcePool.append, List.map_append, List.mem_append]
        rintro (hurl | hurl)
        · exact hbuilt.unseen url hnone hurl
        · exact hother (List.mem_singleton.mp hurl)
    · rw [Dict.get?_set] at hsome
      split at hsome
      · rename_i hurl
        exact ⟨_, List.mem_append_right _ (List.mem_singleton_self _), rfl, hurl.symm, Option.some.inj hsome⟩
      · obtain ⟨o, ho, hwinner⟩ := hbuilt.winner url id hsome
        exact ⟨o, List.mem_append_left _ ho, hwinner⟩
  · rename_i winner hwinner
    cases hadd
    obtain ⟨w, hw, hvisible, hurl, hid⟩ := hbuilt.winner result.url winner hwinner
    have hseen : result.url ∈ mid.pool.occurrences.map (·.url) := hurl ▸ List.mem_map_of_mem hw
    refine ⟨hrecorded _ ⟨hoid, ⟨rfl, rfl, rfl⟩, ⟨rfl, rfl, rfl, rfl, rfl⟩, hcontent⟩, deduplicated_concat.mpr
      ⟨hbuilt.deduplicated, fun hnew => absurd hseen hnew, fun _ => ⟨rfl, rfl, w, hw, hvisible, hurl, by rw [hid]⟩⟩, ?_,
      fun url hnone => ?_, fun url id hsome => ?_, hbuilt.snapshots, hsnapshots _ rfl⟩
    · rw [hbuilt.next, SourcePool.append, List.filter_append, List.length_append]
      rfl
    · rw [SourcePool.append, List.map_append, List.mem_append]
      rintro (hold | hold)
      · exact hbuilt.unseen url hnone hold
      · rw [List.mem_singleton.mp hold] at hnone
        exact hbuilt.unseen result.url hnone hseen
    · obtain ⟨o, ho, hfound⟩ := hbuilt.winner url id hsome
      exact ⟨o, List.mem_append_left _ ho, hfound⟩

theorem Built.query {done : List (PyStr × RawResult)} {st st' : Building σ} (h : Built rt taskId done st)
    {results : List RawResult}
    (hfold : results.foldlM (addResult rt taskId fetchedAtUtc querySnapshotId) st = .ok st') :
    Built rt taskId (done ++ results.map fun result => (querySnapshotId, result)) st' := by
  induction results generalizing done st with
  | nil =>
    cases hfold
    simpa using h
  | cons result results ih =>
    obtain ⟨mid, hadd, hrest⟩ := bind_ok.mp hfold
    have hbuilt := ih (h.add hadd) hrest
    rw [List.append_assoc] at hbuilt
    exact hbuilt

theorem Built.queries {done : List (PyStr × RawResult)} {st st' : Building σ} (h : Built rt taskId done st)
    {responses : List QueryResponse}
    (hfold : responses.foldlM (fun st response =>
      response.results.foldlM (addResult rt taskId fetchedAtUtc response.querySnapshotId) st) st = .ok st') :
    Built rt taskId (done ++ resultsOf responses) st' := by
  induction responses generalizing done st with
  | nil =>
    cases hfold
    simpa [resultsOf] using h
  | cons response responses ih =>
    obtain ⟨mid, hquery, hrest⟩ := bind_ok.mp hfold
    have hbuilt := ih (h.query hquery) hrest
    rw [List.append_assoc] at hbuilt
    exact hbuilt

/-! ## The views -/

/-- What is hashed for the ids of a pool. -/
def occurrencePreimages (floats : FloatText) (responses : List QueryResponse) : List ByteArray :=
  (resultsOf responses).filterMap fun e => (occurrencePreimage floats e.1 e.2.rank e.2.url).toOption

theorem Recorded.hashed {responses : List QueryResponse} {e : PyStr × RawResult} {o : SourceOccurrence}
    (h : Recorded rt taskId e o) (he : e ∈ resultsOf responses) :
    ∃ raw ∈ occurrencePreimages rt.floats responses,
      occurrencePreimage rt.floats o.querySnapshotId o.rank o.url = .ok raw ∧ o.occurrenceId = rt.sha256Hex raw := by
  obtain ⟨raw, hraw, hid⟩ := occurrenceId_ok h.occurrenceId
  obtain ⟨hsnapshot, hrank, hurl⟩ := h.identity
  refine ⟨raw, List.mem_filterMap.mpr ⟨e, he, by rw [hraw]; rfl⟩, ?_, hid⟩
  rw [hsnapshot, hrank, hurl, hraw]

theorem recorded_mem {es : List (PyStr × RawResult)} {occurrences : List SourceOccurrence}
    (h : List.Forall₂ (Recorded rt taskId) es occurrences) {o : SourceOccurrence} (ho : o ∈ occurrences) :
    ∃ e ∈ es, Recorded rt taskId e o := by
  induction h with
  | nil => cases ho
  | @cons e p es occurrences hp _ ih =>
    rcases List.mem_cons.mp ho with rfl | ho
    · exact ⟨e, List.mem_cons_self, hp⟩
    · obtain ⟨e', he', hrecorded⟩ := ih ho
      exact ⟨e', List.mem_cons_of_mem _ he', hrecorded⟩

/-- An id names a URL at a rank of a query snapshot. -/
theorem occurrenceId_eq_iff {responses : List QueryResponse} {occurrences : List SourceOccurrence}
    (hsha : Set.InjOn rt.sha256Hex {raw | raw ∈ occurrencePreimages rt.floats responses})
    (h : List.Forall₂ (Recorded rt taskId) (resultsOf responses) occurrences) {o p : SourceOccurrence}
    (ho : o ∈ occurrences) (hp : p ∈ occurrences) :
    o.occurrenceId = p.occurrenceId ↔ o.querySnapshotId = p.querySnapshotId ∧ o.rank = p.rank ∧ o.url = p.url := by
  obtain ⟨e, he, hrecorded⟩ := recorded_mem h ho
  obtain ⟨e', he', hrecorded'⟩ := recorded_mem h hp
  obtain ⟨raw, hmem, hraw, hid⟩ := hrecorded.hashed he
  obtain ⟨raw', hmem', hraw', hid'⟩ := hrecorded'.hashed he'
  constructor
  · intro hsame
    have heq : raw = raw' := hsha hmem hmem' (hid.symm.trans (hsame.trans hid'))
    exact occurrencePreimage_injective hraw (heq ▸ hraw')
  · rintro ⟨hsnapshot, hrank, hurl⟩
    rw [hsnapshot, hrank, hurl, hraw'] at hraw
    rw [hid, hid', Except.ok.inj hraw]

theorem nodup_map_iff {α β γ : Type} {f : α → β} {g : α → γ} {xs : List α}
    (h : ∀ x ∈ xs, ∀ y ∈ xs, f x = f y ↔ g x = g y) : (xs.map f).Nodup ↔ (xs.map g).Nodup := by
  unfold List.Nodup
  rw [List.pairwise_map, List.pairwise_map]
  exact ⟨fun hf => hf.imp_of_mem fun hx hy hne => fun hsame => hne ((h _ hx _ hy).mpr hsame),
    fun hg => hg.imp_of_mem fun hx hy hne => fun hsame => hne ((h _ hx _ hy).mp hsame)⟩

/-- The two views of a pool and the ids in them. -/
structure SourceViews (rt : Runtime σ ε) (taskId : PyStr) (responses : List QueryResponse) (pool : SourcePool) : Prop where
  audit : List.Forall₂ (Recorded rt taskId) (resultsOf responses) pool.auditGraph
  visible : ∃ visible, pool.vendorVisible = .ok visible ∧ visible = firstOccurrences (·.url) pool.auditGraph ∧
    List.Forall₂ (Recorded rt taskId) (firstOccurrences (·.2.url) (resultsOf responses)) visible ∧
    visible.map (·.vendorVisibleOrder) = (List.range visible.length).map some
  placed : ∀ before o after, pool.auditGraph = before ++ o :: after → Placed before o
  frozen : ∀ o ∈ pool.auditGraph, ∀ hash, o.contentHash = some hash →
    ∃ snap, pool.snapshots.get? hash = some snap ∧ snap.contentHash = hash
  ids : ∀ o ∈ pool.auditGraph, ∀ p ∈ pool.auditGraph, o.occurrenceId = p.occurrenceId ↔
    o.querySnapshotId = p.querySnapshotId ∧ o.rank = p.rank ∧ o.url = p.url
  distinct : (pool.auditGraph.map (·.occurrenceId)).Nodup ↔
    ((resultsOf responses).map fun e => (e.1, e.2.rank, e.2.url)).Nodup

/-- The selector sees the first occurrence of every URL, the audit sees every result, and an id is
shared only where a query snapshot repeats a URL at a rank. -/
theorem buildSourcePool_views {responses : List QueryResponse} {store store' : σ} {pool : SourcePool}
    (h : buildSourcePool rt taskId responses store fetchedAtUtc = .ok (pool, store'))
    (hsha : Set.InjOn rt.sha256Hex {raw | raw ∈ occurrencePreimages rt.floats responses}) :
    SourceViews rt taskId responses pool := by
  obtain ⟨built, hfold, h⟩ := bind_ok.mp h
  cases h
  have hbuilt := (built_start store).queries hfold
  rw [List.nil_append] at hbuilt
  have hfirst : List.Forall₂ (Recorded rt taskId) (firstOccurrences (·.2.url) (resultsOf responses))
      (firstOccurrences (·.url) built.pool.occurrences) :=
    forall₂_firstOccurrences (fun e o ho => ho.identity.2.2.symm) hbuilt.recorded
  have horders := (visible_eq hbuilt.deduplicated).2
  rw [(visible_eq hbuilt.deduplicated).1] at horders
  have hids : ∀ o ∈ built.pool.occurrences, ∀ p ∈ built.pool.occurrences, o.occurrenceId = p.occurrenceId ↔
      o.querySnapshotId = p.querySnapshotId ∧ o.rank = p.rank ∧ o.url = p.url :=
    fun o ho p hp => occurrenceId_eq_iff hsha hbuilt.recorded ho hp
  refine ⟨hbuilt.recorded, ⟨_, vendorVisible_eq hbuilt.deduplicated, rfl, hfirst, horders⟩, hbuilt.deduplicated,
    fun o ho hash hhash => ?_, hids, ?_⟩
  · obtain ⟨snap, hsnap⟩ := Dict.mem_keys_iff.mp (hbuilt.frozen o ho hash hhash)
    exact ⟨snap, hsnap, hbuilt.snapshots hash snap hsnap⟩
  · have hkeys : (resultsOf responses).map (fun e => (e.1, e.2.rank, e.2.url)) =
        built.pool.occurrences.map fun o => (o.querySnapshotId, o.rank, o.url) := by
      rw [← List.forall₂_eq_eq_eq, List.forall₂_map_left_iff, List.forall₂_map_right_iff]
      refine hbuilt.recorded.imp fun e o ho => ?_
      obtain ⟨hsnapshot, hrank, hurl⟩ := ho.identity
      rw [hsnapshot, hrank, hurl]
    rw [hkeys]
    refine nodup_map_iff fun o ho p hp => (hids o ho p hp).trans ?_
    rw [Prod.mk.injEq, Prod.mk.injEq]

end

section
private def digest (raw : ByteArray) : String :=
  match raw.size with
  | 82 => "7d928854bde75ec182e3632f7ee0fef7611e6590be9dc3307cf0aa7bc9f9c60d"
  | 83 => "3939b5403a22533286ce07fcd97446a1a901a44be9762cd118106f706f5a6bad"
  | 84 => "ba6c5a040cf7a7575085ab3adfaf92a2b319652da04920426cf492371190ddac"
  | 26 => "93189dc34844de6b321ee1cb334eb7580d34a8ebfc48bb9205b7a1793c0d6d05"
  | _ => "cd2c3fb786ef2a8ba5430f54cde3d468c558647bf0fd777b437e8138e2348e01"

private def acquired : Runtime Unit Empty := ⟨digest, .empty, id, fun _ _ => .ok ()⟩

private def found (url : String) (rank : ℤ) (rawContent : Option PyStr) : RawResult :=
  ⟨pyStr url, pyStr "A", rank, pyStr "s", rawContent, none, none⟩

private def twoQueries : List QueryResponse :=
  [⟨pyStr "qs1", pyStr "first", [found "https://a.org" 1 (some (pyStr "Page\r\n")), found "https://bb.org" 2 none]⟩,
    ⟨pyStr "qs-02", pyStr "second", [found "https://a.org" 1 none]⟩]

private def oneQueryTwice : List QueryResponse :=
  [⟨pyStr "qs1", pyStr "first", [found "https://a.org" 1 none]⟩,
    ⟨pyStr "qs1", pyStr "first", [found "https://a.org" 1 none]⟩]

private def poolOf (responses : List QueryResponse) : SourcePool :=
  let built := buildSourcePool acquired (pyStr "t1") responses () (pyStr "2026-07-24T00:00:00Z")
  (built.toOption.map Prod.fst).getD (emptyPool (pyStr "t1"))

/-- Two queries that find one page: it is visible once and kept twice. -/
theorem twoQueries_views : SourceViews acquired (pyStr "t1") twoQueries (poolOf twoQueries) := by
  have hbuild : buildSourcePool acquired (pyStr "t1") twoQueries () (pyStr "2026-07-24T00:00:00Z") =
      .ok (poolOf twoQueries, ()) := by
    decide +kernel
  have hapart : ∀ x ∈ occurrencePreimages .empty twoQueries, ∀ y ∈ occurrencePreimages .empty twoQueries,
      digest x = digest y → x = y := by
    decide +kernel
  exact buildSourcePool_views hbuild fun x hx y hy => hapart x hx y hy

/-- A query issued twice: the second occurrence has the id of the first, and points at its own id. -/
theorem not_distinct_occurrenceIds :
    ¬ ∀ (rt : Runtime Unit Empty) (taskId fetchedAtUtc : PyStr) (responses : List QueryResponse) (pool : SourcePool),
      buildSourcePool rt taskId responses () fetchedAtUtc = .ok (pool, ()) →
      Set.InjOn rt.sha256Hex {raw | raw ∈ occurrencePreimages rt.floats responses} →
      (pool.auditGraph.map (·.occurrenceId)).Nodup ∧
        ∀ o ∈ pool.auditGraph, o.visibility = .auditOnly → o.duplicateOfOccurrenceId ≠ some o.occurrenceId := by
  intro h
  have hbuild : buildSourcePool acquired (pyStr "t1") oneQueryTwice () (pyStr "2026-07-24T00:00:00Z") =
      .ok (poolOf oneQueryTwice, ()) := by
    decide +kernel
  have hapart : ∀ x ∈ occurrencePreimages .empty oneQueryTwice, ∀ y ∈ occurrencePreimages .empty oneQueryTwice,
      digest x = digest y → x = y := by
    decide +kernel
  have hrepeated : ¬ ((poolOf oneQueryTwice).auditGraph.map (·.occurrenceId)).Nodup := by decide +kernel
  obtain ⟨hdistinct, -⟩ := h acquired (pyStr "t1") (pyStr "2026-07-24T00:00:00Z") oneQueryTwice (poolOf oneQueryTwice)
    hbuild fun x hx y hy => hapart x hx y hy
  exact hrepeated hdistinct

end

end Shapeflow.World
